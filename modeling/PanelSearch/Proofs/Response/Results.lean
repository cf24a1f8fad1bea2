import PanelSearch.Proofs.Entries
import PanelSearch.Proofs.Traversal
import PanelSearch.Response.Results

/-! The results of a batch against the results of its queries one by one. The result of a query
depends on its own response only, and a response that is missing or reports an error is a result as
well. But a response whose frames cannot be drawn is none, and then no query of the batch has a
result. -/

namespace PanelSearch.QueryResult

open Traversal

/-- Queries with the responses at their positions. -/
def paired : List Query → List Json → List (Query × Option Json)
  | [], _ => []
  | q :: qs, responses => (q, responses.head?) :: paired qs responses.tail

theorem getElem?_paired (qs : List Query) (responses : List Json) (i : Nat) :
    (paired qs responses)[i]? = qs[i]?.map fun q => (q, responses[i]?) := by
  induction qs generalizing responses i with
  | nil => rfl
  | cons q qs ih =>
    cases i with
    | zero => cases responses <;> rfl
    | succ i =>
      have htail : responses.tail[i]? = responses[i + 1]? := by cases responses <;> rfl
      simpa [paired, htail] using ih responses.tail i

theorem map_fst_paired (qs : List Query) (responses : List Json) :
    (paired qs responses).map (·.1) = qs := by
  induction qs generalizing responses with
  | nil => rfl
  | cons q qs ih => rw [paired, List.map_cons, ih]

/-- The result of a query and a response under the RefID of the query. -/
def entry (highlight : Document.Highlighter) (known : ConfiguredFields) (a : Query × Option Json) :
    Except Fault (String × QueryResult) :=
  (ofResponse highlight known a.1 a.2).map (a.1.refId, ·)

variable {highlight : Document.Highlighter} {known : ConfiguredFields} {qs : List Query}
  {responses : List Json}

theorem ofResponses_eq (results : Entries QueryResult) (qs : List Query) (responses : List Json) :
    ofResponses highlight known results qs responses =
      ((paired qs responses).mapM (entry highlight known)).map results.putAll := by
  induction qs generalizing results responses with
  | nil => rfl
  | cons q qs ih =>
    rw [ofResponses, paired, List.mapM_cons, entry]
    cases ofResponse highlight known q responses.head? with
    | error f => rfl
    | ok r =>
      simp only [Except.map, bind, Except.bind, ih]
      cases (paired qs responses.tail).mapM (entry highlight known) <;> rfl

theorem ofBatch_eq (qs : List Query) (responses : List Json) :
    ofBatch highlight known qs responses =
      ((paired qs responses).mapM (entry highlight known)).map Entries.ofList :=
  ofResponses_eq [] qs responses

theorem entry_eq_ok_iff {a : Query × Option Json} {e : String × QueryResult} :
    entry highlight known a = .ok e ↔
      ofResponse highlight known a.1 a.2 = .ok e.2 ∧ e.1 = a.1.refId := by
  rw [entry, map_eq_ok_iff]
  constructor
  · rintro ⟨r, hr, rfl⟩
    exact ⟨hr, rfl⟩
  · obtain ⟨id, r⟩ := e
    rintro ⟨hr, rfl⟩
    exact ⟨r, hr, rfl⟩

theorem map_fst_of_mapM_entry {pairs : List (String × QueryResult)}
    (h : (paired qs responses).mapM (entry highlight known) = .ok pairs) :
    Entries.keys pairs = qs.map (·.refId) := by
  have hids := map_eq_map_of_mapM (g := fun a => a.1.refId) (h := (·.1))
    (fun _ _ he => (entry_eq_ok_iff.mp he).2) h
  rw [Entries.keys, hids]
  conv_rhs => rw [← map_fst_paired qs responses, List.map_map]
  rfl

/-- The results of a batch stand under the RefIDs of its queries. -/
theorem mem_keys_ofBatch {results : Entries QueryResult}
    (h : ofBatch highlight known qs responses = .ok results) {key : String} :
    key ∈ Entries.keys results ↔ key ∈ qs.map (·.refId) := by
  rw [ofBatch_eq] at h
  obtain ⟨pairs, hpairs, rfl⟩ := map_eq_ok_iff.mp h
  rw [Entries.mem_keys_ofList, map_fst_of_mapM_entry hpairs]

theorem mem_keys_ofReply {reply : Json} {results : Entries QueryResult}
    (h : ofReply highlight known qs reply = .ok results) {key : String} :
    key ∈ Entries.keys results ↔ key ∈ qs.map (·.refId) := by
  unfold ofReply at h
  split at h
  · cases h
    simp
  · exact mem_keys_ofBatch h
  · exact mem_keys_ofBatch h
  · exact mem_keys_ofBatch h
  · cases h
  · cases h

/-- Among queries of distinct RefIDs the result of each is that of its own response. -/
theorem get?_ofBatch (hids : (qs.map (·.refId)).Nodup) {results : Entries QueryResult}
    (h : ofBatch highlight known qs responses = .ok results) {i : Nat} {q : Query}
    (hq : qs[i]? = some q) :
    ∃ r, ofResponse highlight known q responses[i]? = .ok r ∧ results.get? q.refId = some r := by
  rw [ofBatch_eq] at h
  obtain ⟨pairs, hpairs, rfl⟩ := map_eq_ok_iff.mp h
  have hmem : (q, responses[i]?) ∈ paired qs responses :=
    List.mem_of_getElem? (by rw [getElem?_paired, hq]; rfl)
  obtain ⟨⟨id, r⟩, hr, hentry⟩ := exists_mem_of_mapM hpairs hmem
  obtain ⟨hresponse, rfl⟩ := entry_eq_ok_iff.mp hentry
  have hkeys : (Entries.keys pairs).Nodup := by rwa [map_fst_of_mapM_entry hpairs]
  exact ⟨r, hresponse, Entries.get?_ofList_of_mem hkeys hr⟩

theorem ofResponse_eq_missing {q : Query} {response : Option Json}
    (h : ∀ members, response ≠ some (.obj members)) :
    ofResponse highlight known q response = .ok missing := by
  unfold ofResponse
  split
  · exact absurd rfl (h _)
  · rfl

theorem ofResponse_obj (q : Query) (members : Entries Json) :
    ofResponse highlight known q (some (.obj members)) =
      if isError members then .ok (ofError members)
      else (framesOf highlight known q members).map fun frames => { frames } := by
  rw [ofResponse]
  split
  · rfl
  · cases framesOf highlight known q members <;> rfl

/-- A response that is no object or reports an error is a result whatever else it holds; any other
one is a result when its frames can be drawn. -/
theorem ofResponse_isOk_iff {q : Query} {response : Option Json} :
    (∃ r, ofResponse highlight known q response = .ok r) ↔
      ∀ members, response = some (.obj members) →
      isError members = false → ∃ frames, framesOf highlight known q members = .ok frames := by
  by_cases hobj : ∃ members, response = some (.obj members)
  · obtain ⟨members, rfl⟩ := hobj
    rw [ofResponse_obj]
    constructor
    · rintro ⟨r, hr⟩ _ ⟨⟩ hnone
      simp only [hnone, Bool.false_eq_true, if_false, map_eq_ok_iff] at hr
      obtain ⟨frames, hframes, -⟩ := hr
      exact ⟨frames, hframes⟩
    · intro h
      cases herror : isError members with
      | true => exact ⟨_, rfl⟩
      | false =>
        obtain ⟨frames, hframes⟩ := h members rfl herror
        exact ⟨{ frames }, map_eq_ok_iff.mpr ⟨frames, hframes, rfl⟩⟩
  · have hmissing : ofResponse highlight known q response = .ok missing :=
      ofResponse_eq_missing fun members h => hobj ⟨members, h⟩
    exact ⟨fun _ members h => absurd ⟨members, h⟩ hobj, fun _ => ⟨missing, hmissing⟩⟩

theorem ofResponse_eq_error_iff {q : Query} {response : Option Json} {f : Fault} :
    ofResponse highlight known q response = .error f ↔ ∃ members, response = some (.obj members) ∧
      isError members = false ∧ framesOf highlight known q members = .error f := by
  by_cases hobj : ∃ members, response = some (.obj members)
  · obtain ⟨members, rfl⟩ := hobj
    rw [ofResponse_obj]
    cases herror : isError members with
    | true => simp [herror]
    | false => simp [herror, map_eq_error_iff]
  · rw [ofResponse_eq_missing fun members h => hobj ⟨members, h⟩]
    constructor
    · intro h
      cases h
    · rintro ⟨members, h, -⟩
      exact absurd ⟨members, h⟩ hobj

theorem entry_isOk_iff {a : Query × Option Json} :
    (∃ e, entry highlight known a = .ok e) ↔ ∃ r, ofResponse highlight known a.1 a.2 = .ok r := by
  constructor
  · rintro ⟨e, he⟩
    exact ⟨e.2, (entry_eq_ok_iff.mp he).1⟩
  · rintro ⟨r, hr⟩
    exact ⟨(a.1.refId, r), entry_eq_ok_iff.mpr ⟨hr, rfl⟩⟩

theorem entry_eq_error_iff {a : Query × Option Json} {f : Fault} :
    entry highlight known a = .error f ↔ ofResponse highlight known a.1 a.2 = .error f :=
  map_eq_error_iff

/-- What stands where the responses should and gives the queries no results: an object that has
members, a value that cannot be gone through, or responses of which one cannot be drawn, all before
it having their results. -/
inductive Undrawn (highlight : Document.Highlighter) (known : ConfiguredFields) (qs : List Query) :
    Json → Fault → Prop
  | object {member : String × Json} {members : Entries Json} :
    Undrawn highlight known qs (.obj (member :: members)) .missingKey
  | scalar {reply : Json} (scalar : reply.elements? = none) :
    Undrawn highlight known qs reply .notAList
  | frames {responses : List Json} {before after : List (Query × Option Json)} {q : Query}
    {members : Entries Json} {f : Fault}
    (split : paired qs responses = before ++ (q, some (.obj members)) :: after)
    (drawn : ∀ a ∈ before, ∃ r, ofResponse highlight known a.1 a.2 = .ok r)
    (noError : isError members = false) (undrawn : framesOf highlight known q members = .error f) :
    Undrawn highlight known qs (.arr responses) f

theorem ofBatch_eq_error_iff {f : Fault} :
    ofBatch highlight known qs responses = .error f ↔ ∃ before q members after,
      paired qs responses = before ++ (q, some (.obj members)) :: after ∧
      (∀ a ∈ before, ∃ r, ofResponse highlight known a.1 a.2 = .ok r) ∧ isError members = false ∧
      framesOf highlight known q members = .error f := by
  rw [ofBatch_eq, map_eq_error_iff, mapM_eq_error_iff]
  simp only [entry_isOk_iff, entry_eq_error_iff, ofResponse_eq_error_iff]
  constructor
  · rintro ⟨before, ⟨q, _⟩, after, hsplit, hbefore, members, rfl, hundrawn⟩
    exact ⟨before, q, members, after, hsplit, hbefore, hundrawn⟩
  · rintro ⟨before, q, members, after, hsplit, hbefore, hundrawn⟩
    exact ⟨before, (q, _), after, hsplit, hbefore, members, rfl, hundrawn⟩

theorem ofBatch_isOk_iff : (∃ results, ofBatch highlight known qs responses = .ok results) ↔
    ∀ (i : Nat) (q : Query), qs[i]? = some q →
      ∃ r, ofResponse highlight known q responses[i]? = .ok r := by
  simp only [ofBatch_eq, map_isOk_iff, mapM_isOk_iff, entry_isOk_iff]
  constructor
  · intro h i q hq
    exact h (q, responses[i]?) (List.mem_of_getElem? (by rw [getElem?_paired, hq]; rfl))
  · intro h a ha
    obtain ⟨i, hi⟩ := List.mem_iff_getElem?.mp ha
    rw [getElem?_paired] at hi
    obtain ⟨q, hq, rfl⟩ := Option.map_eq_some_iff.mp hi
    exact h i q hq

theorem ofBatch_nil_ne_error {f : Fault} : ofBatch highlight known qs [] ≠ .error f := by
  have hok : ∃ results, ofBatch highlight known qs [] = .ok results :=
    ofBatch_isOk_iff.mpr fun i q _ => ⟨missing, rfl⟩
  obtain ⟨results, h⟩ := hok
  rw [h]
  simp

theorem ofReply_eq_error_iff (hqs : qs ≠ []) {reply : Json} {f : Fault} :
    ofReply highlight known qs reply = .error f ↔ Undrawn highlight known qs reply f := by
  obtain ⟨q, qs, rfl⟩ := List.exists_cons_of_ne_nil hqs
  constructor
  · intro h
    cases reply with
    | arr responses =>
      obtain ⟨_, _, _, _, hsplit, hbefore, hnone, hundrawn⟩ := ofBatch_eq_error_iff.mp h
      exact .frames hsplit hbefore hnone hundrawn
    | str s => exact absurd h ofBatch_nil_ne_error
    | obj members =>
      cases members with
      | nil => exact absurd h ofBatch_nil_ne_error
      | cons m members =>
        cases h
        exact .object
    | _ =>
      cases h
      exact .scalar rfl
  · rintro (_ | hscalar | ⟨hsplit, hbefore, hnone, hundrawn⟩)
    · rfl
    · cases reply with
      | arr _ => cases hscalar
      | str _ => cases hscalar
      | obj _ => cases hscalar
      | _ => rfl
    · exact ofBatch_eq_error_iff.mpr ⟨_, _, _, _, hsplit, hbefore, hnone, hundrawn⟩

/-- A query that has a result alone has the same one in any batch of distinct RefIDs that has
results. The batch has results when each other response is missing, reports an error, or can be
drawn for its query. -/
theorem get?_ofBatch_iff {i : Nat} {q : Query} {response : Json} {alone : Entries QueryResult}
    {result : QueryResult} (hids : (qs.map (·.refId)).Nodup) (hq : qs[i]? = some q)
    (hresponse : responses[i]? = some response)
    (halone : ofBatch highlight known [q] [response] = .ok alone)
    (hresult : alone.get? q.refId = some result) :
    (∀ results, ofBatch highlight known qs responses = .ok results →
      results.get? q.refId = some result) ∧
    ((∃ results, ofBatch highlight known qs responses = .ok results ∧
        results.get? q.refId = some result) ↔
      ∀ j other members, j ≠ i → qs[j]? = some other → responses[j]? = some (.obj members) →
        isError members = false →
          ∃ frames, framesOf highlight known other members = .ok frames) := by
  have hown : ofResponse highlight known q responses[i]? = .ok result := by
    have hids : ([q].map (·.refId)).Nodup := by simp
    have hfirst : [q][0]? = some q := rfl
    obtain ⟨r, hr, hget⟩ := get?_ofBatch hids halone hfirst
    rw [hresult] at hget
    cases hget
    rw [hresponse]
    exact hr
  have hsame : ∀ results, ofBatch highlight known qs responses = .ok results →
      results.get? q.refId = some result := by
    intro results h
    obtain ⟨r, hr, hget⟩ := get?_ofBatch hids h hq
    rw [hown] at hr
    cases hr
    exact hget
  refine ⟨hsame, ?_⟩
  constructor
  · rintro ⟨results, h, -⟩ j other members - hother hmembers herror
    have hdrawn := ofResponse_isOk_iff.mp (ofBatch_isOk_iff.mp ⟨results, h⟩ j other hother)
    exact hdrawn members hmembers herror
  · intro hothers
    have hall : ∀ (j : Nat) (other : Query), qs[j]? = some other →
        ∃ r, ofResponse highlight known other responses[j]? = .ok r := by
      intro j other hother
      by_cases hj : j = i
      · subst hj
        rw [hq] at hother
        cases hother
        exact ⟨result, hown⟩
      · exact ofResponse_isOk_iff.mpr fun members hmembers herror =>
          hothers j other members hj hother hmembers herror
    obtain ⟨results, h⟩ := ofBatch_isOk_iff.mpr hall
    exact ⟨results, h, hsame results h⟩

/-- Counts over time. -/
def countsOverTime (refId : String) : Query where
  refId
  rawQuery := ""
  buckets := [{ id := "2", kind := .dateHistogram, field := "@timestamp", settings := [] }]
  metrics := [
    { id := "1", kind := .count, field := "", hide := false, source := "", inputs := [],
      settings := [], flags := [] }]
  aliasPattern := ""
  intervalMs := 0
  maxDataPoints := 0
  rangeFrom := 0
  rangeTo := 0

/-- A response with one bucket, at a time in epoch milliseconds. -/
def bucketAt (millis : Int) : Json := .obj [("aggregations", .obj [("2", .obj [("buckets", .arr [
  .obj [("key", .int millis), ("doc_count", .int 5)]])])])]

/-- A highlighter that finds no words. -/
def noWords : Document.Highlighter := fun _ => .ok []

theorem exists_result_bucketAt : ∃ alone result,
    ofBatch noWords {} [countsOverTime "B"] [bucketAt 1000] = .ok alone ∧
      alone.get? "B" = some result := by
  have hok : (ofBatch noWords {} [countsOverTime "B"] [bucketAt 1000]).isOk = true := by
    decide +kernel
  cases h : ofBatch noWords {} [countsOverTime "B"] [bucketAt 1000] with
  | error f =>
    rw [h] at hok
    cases hok
  | ok alone =>
    obtain ⟨r, -, hr⟩ := get?_ofBatch (by decide) h (i := 0) rfl
    exact ⟨alone, r, rfl, hr⟩

/-- The first bucket of the year 10000 lies behind the calendar, and then no query of its batch has
a result. -/
theorem bucketAt_year10000 :
    ((["A", "B"].map countsOverTime).map (·.refId)).Nodup ∧
    (∃ alone result, ofBatch noWords {} [countsOverTime "B"] [bucketAt 1000] = .ok alone ∧
      alone.get? "B" = some result) ∧
    ¬∃ results, ofBatch noWords {} (["A", "B"].map countsOverTime)
      [bucketAt 253402300800000, bucketAt 1000] = .ok results := by
  refine ⟨by decide, exists_result_bucketAt, ?_⟩
  rintro ⟨results, h⟩
  have hok : (ofBatch noWords {} (["A", "B"].map countsOverTime)
    [bucketAt 253402300800000, bucketAt 1000]).isOk = false := by decide +kernel
  rw [h] at hok
  cases hok

def indexNotFound : Json :=
  .obj [("error", .obj [("reason", .str "index not found")]), ("status", .int 404)]

/-- An error in the response to one query leaves the result of the other as it is alone. -/
theorem indexNotFound_beside_bucketAt : ∃ alone result,
    ofBatch noWords {} [countsOverTime "B"] [bucketAt 1000] = .ok alone ∧
      alone.get? "B" = some result ∧
    ∃ results, ofBatch noWords {} (["A", "B"].map countsOverTime) [indexNotFound, bucketAt 1000] =
      .ok results ∧ results.get? "B" = some result := by
  obtain ⟨alone, result, halone, hresult⟩ := exists_result_bucketAt
  refine ⟨alone, result, halone, hresult, ?_⟩
  refine (get?_ofBatch_iff (i := 1) (by decide) rfl rfl halone hresult).2.mpr ?_
  intro j other members hj hother hmembers herror
  match j, hj with
  | 0, _ =>
    cases hmembers
    cases herror
  | j + 2, _ => cases hother

end PanelSearch.QueryResult
