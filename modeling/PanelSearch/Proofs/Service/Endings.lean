import PanelSearch.Proofs.Entries
import PanelSearch.Proofs.Json.Shown
import PanelSearch.Proofs.Request.Building
import PanelSearch.Proofs.Response.Results
import PanelSearch.Service.Queries

/-! How a run over the queries of a panel ends. A query that is invalid, metadata that is refused or
not understood, and a batch that is refused or gets no reply become the result of every query, and a
reply that is understood gives each query a result of its own. What is left stops the run: a value
that cannot be read or built into a request, a reply that is nested too deeply, and one that holds
no responses to the queries. -/

namespace PanelSearch

open Traversal

/-- The RefID of a query that is not read, as messages show it: the error of a query is found under
this one. -/
def shownRefId (raw : Json) : String := ((raw.membersD.get? "refId").map Json.label).getD ""

theorem mapM_failedRefId {raws : List Json} (hobj : ∀ raw ∈ raws, raw.isObject = true) :
    raws.mapM failedRefId = .ok (raws.map shownRefId) := by
  refine mapM_eq_ok_map fun raw hraw => ?_
  obtain ⟨members, rfl⟩ := Json.isObject_iff.mp (hobj raw hraw)
  rfl

namespace QueryResult

/-- The same error for each query. -/
def refusals (raws : List Json) (status : Int) (message : String) : Entries QueryResult :=
  Entries.ofList (raws.map fun raw => (shownRefId raw, failed message status))

theorem mem_keys_refusals {raws : List Json} {status : Int} {message key : String} :
    key ∈ Entries.keys (refusals raws status message) ↔ ∃ raw ∈ raws, shownRefId raw = key := by
  rw [refusals, Entries.mem_keys_ofList, Entries.keys, List.map_map]
  simp

theorem get?_refusals {raws : List Json} {status : Int} {message : String} {raw : Json}
    (hraw : raw ∈ raws) :
    (refusals raws status message).get? (shownRefId raw) = some (failed message status) := by
  have hkey : shownRefId raw ∈ Entries.keys (refusals raws status message) :=
    mem_keys_refusals.mpr ⟨raw, hraw, rfl⟩
  obtain ⟨r, hr⟩ := Entries.exists_get?_of_mem_keys hkey
  have hmem := Entries.mem_of_get? (by rwa [refusals, Entries.get?_ofList] at hr)
  simp only [List.mem_reverse, List.mem_map, Prod.mk.injEq] at hmem
  obtain ⟨_, -, -, rfl⟩ := hmem
  exact hr

end QueryResult

namespace Service

variable {s known : Service} {rangeFrom rangeTo : Int} {raws : List Json} {qs : List Query}
  {requests : List SearchRequest} {entries : List Batch.Entry} {reply : Reply}

/-- The queries are read, and the time field is known as far as it can be. -/
structure Prepares (s : Service) (rangeFrom rangeTo : Int) (raws : List Json) (qs : List Query)
    (known : Service) : Prop where
  read : Query.readAll rangeFrom rangeTo raws = .ok qs
  discovered : s.ensureTimestamp = (.ok (), known)

theorem Prepares.ne_nil (h : s.Prepares rangeFrom rangeTo raws qs known) (hne : raws ≠ []) :
    qs ≠ [] := by
  rintro rfl
  have hlength := (mapM_eq_ok_iff.mp h.read).length_eq
  exact hne (List.eq_nil_of_length_eq_zero hlength)

/-- The batch of the queries is sent: its lines, and what becomes of it. -/
structure Sends (s : Service) (rangeFrom rangeTo : Int) (raws : List Json) (qs : List Query)
    (known : Service) (entries : List Batch.Entry) (outcome : Outcome) : Prop
    extends s.Prepares rangeFrom rangeTo raws qs known where
  encoded : ∃ requests, SearchRequest.ofQueries known.datasource.target qs = .ok requests ∧
    Batch.ofRequests requests = .ok entries
  outcome : (known.call (known.batchCall entries)).1 = outcome

/-- What stops a run without a result. -/
inductive Stops (s : Service) (rangeFrom rangeTo : Int) (raws : List Json) : Fault → Prop
  /-- The first query that is not read holds what cannot be read. -/
  | reading {before after : List Json} {members : Entries Json} {f : Fault}
    (queries : raws = before ++ .obj members :: after)
    (read : ∀ raw ∈ before, ∃ q, Query.read rangeFrom rangeTo raw = .ok q)
    (unreadable : Query.Unreadable members f) : Stops s rangeFrom rangeTo raws f
  /-- The listing of the indexes is nested too deeply. -/
  | discovering {qs : List Query} {known : Service} {f : Fault}
    (read : Query.readAll rangeFrom rangeTo raws = .ok qs)
    (undiscovered : s.ensureTimestamp = (.error (.fault f), known)) :
    Stops s rangeFrom rangeTo raws f
  /-- The first query that is not built holds what cannot be built. -/
  | building {known : Service} {before after : List Query} {q : Query} {f : Fault}
    (prepared : s.Prepares rangeFrom rangeTo raws (before ++ q :: after) known)
    (checked : ∀ other ∈ before ++ q :: after, other.check = .ok ())
    (built : ∀ other ∈ before, ∃ r, SearchRequest.ofQuery known.datasource.target other = .ok r)
    (unbuildable : SearchRequest.Unbuildable known.datasource.target q f) :
    Stops s rangeFrom rangeTo raws f
  /-- The reply refuses the batch, and is nested too deeply to be shown. -/
  | rejecting {qs : List Query} {known : Service} {entries : List Batch.Entry} {reply : Reply}
    {f : Fault} (sent : s.Sends rangeFrom rangeTo raws qs known entries (.reply reply))
    (status : 400 ≤ reply.status) (unshown : reply.jsonOrText known.limits = .error f) :
    Stops s rangeFrom rangeTo raws f
  /-- The reply is no JSON object, or none that is read. -/
  | replying {qs : List Query} {known : Service} {entries : List Batch.Entry} {reply : Reply}
    {f : Fault} (sent : s.Sends rangeFrom rangeTo raws qs known entries (.reply reply))
    (accepted : reply.status < 400) (unspoken : reply.responses known.limits = .error f) :
    Stops s rangeFrom rangeTo raws f
  /-- What stands where the responses should gives no results. -/
  | drawing {qs : List Query} {known : Service} {entries : List Batch.Entry} {reply : Reply}
    {responses : Json} {f : Fault}
    (sent : s.Sends rangeFrom rangeTo raws qs known entries (.reply reply))
    (accepted : reply.status < 400) (spoken : reply.responses known.limits = .ok responses)
    (undrawn : QueryResult.Undrawn known.highlight known.datasource.fields qs responses f) :
    Stops s rangeFrom rangeTo raws f

/-- What becomes the result of every query, with its status and its message. -/
inductive Refuses (s : Service) (rangeFrom rangeTo : Int) (raws : List Json) : Int → String → Prop
  | unread {reason : InvalidQuery}
    (read : Query.readAll rangeFrom rangeTo raws = .error (.invalid reason)) :
    Refuses s rangeFrom rangeTo raws 400 reason.message
  | untold {qs : List Query} {known : Service} {e : MetadataError}
    (read : Query.readAll rangeFrom rangeTo raws = .ok qs)
    (discovered : s.ensureTimestamp = (.error (.metadata e), known)) :
    Refuses s rangeFrom rangeTo raws e.status e.text
  | undiscovered {qs : List Query} {known : Service} {f : TransportFailure}
    (read : Query.readAll rangeFrom rangeTo raws = .ok qs)
    (discovered : s.ensureTimestamp = (.error (.transport f), known)) :
    Refuses s rangeFrom rangeTo raws 502 ("timestamp discovery failed" ++ ": " ++ f.message)
  | unbuilt {qs : List Query} {known : Service} {reason : InvalidQuery}
    (prepared : s.Prepares rangeFrom rangeTo raws qs known)
    (built : SearchRequest.ofQueries known.datasource.target qs = .error (.invalid reason)) :
    Refuses s rangeFrom rangeTo raws 400 reason.message
  | rejected {qs : List Query} {known : Service} {entries : List Batch.Entry} {reply : Reply}
    {body : Json} (sent : s.Sends rangeFrom rangeTo raws qs known entries (.reply reply))
    (status : 400 ≤ reply.status) (shown : reply.jsonOrText known.limits = .ok body) :
    Refuses s rangeFrom rangeTo raws reply.status
      (Rejection.text ⟨reply.status, body, known.batchParameter, entries.map (·.body)⟩)
  | unreached {qs : List Query} {known : Service} {entries : List Batch.Entry}
    {f : TransportFailure} (sent : s.Sends rangeFrom rangeTo raws qs known entries (.failed f)) :
    Refuses s rangeFrom rangeTo raws 502 ("error while querying quickwit" ++ ": " ++ f.message)

/-- Each query has a result of its own, by the responses in the reply. -/
inductive Answers (s : Service) (rangeFrom rangeTo : Int) (raws : List Json) :
    Entries QueryResult → Prop
  | intro {qs : List Query} {known : Service} {entries : List Batch.Entry} {reply : Reply}
    {responses : Json} {results : Entries QueryResult}
    (sent : s.Sends rangeFrom rangeTo raws qs known entries (.reply reply))
    (accepted : reply.status < 400) (spoken : reply.responses known.limits = .ok responses)
    (drawn : QueryResult.ofReply known.highlight known.datasource.fields qs responses =
      .ok results) :
    Answers s rangeFrom rangeTo raws results

/-- A run over queries is stopped, refused or answered. -/
def Ends (s : Service) (rangeFrom rangeTo : Int) (raws : List Json) : Prop :=
  (∃ f, s.Stops rangeFrom rangeTo raws f) ∨
  (∃ status message, s.Refuses rangeFrom rangeTo raws status message) ∨
  ∃ results, s.Answers rangeFrom rangeTo raws results

theorem ensureTimestamp_error {e : ServiceError} {after : Service}
    (h : s.ensureTimestamp = (.error e, after)) :
    (∃ m, e = .metadata m) ∨ (∃ f, e = .transport f) ∨ ∃ f, e = .fault f := by
  have hfield : ∀ r after, s.timestampField s.datasource.url s.datasource.index = (r, after) →
      ∀ e, r = .error e → (∃ m, e = .metadata m) ∨ (∃ f, e = .transport f) ∨ ∃ f, e = .fault f := by
    intro r after hr e he
    rw [timestampField] at hr
    split at hr
    · cases hr
      cases he
      exact .inr (.inl ⟨_, rfl⟩)
    · split at hr
      · cases hr
        cases he
      · cases hr
        cases he
        exact .inl ⟨_, rfl⟩
      · cases hr
        cases he
        exact .inr (.inr ⟨_, rfl⟩)
  rw [ensureTimestamp] at h
  split at h
  · split at h
    · cases h
    · rename_i hr
      cases h
      exact hfield _ _ hr _ rfl
  · cases h

section Run

variable (hne : raws ≠ []) (hobj : ∀ raw ∈ raws, raw.isObject = true)
include hne hobj

theorem queryAll_of_unread {e : QueryError}
    (hread : Query.readAll rangeFrom rangeTo raws = .error e) :
    s.queryAll rangeFrom rangeTo raws =
      s.failWith (raws.map shownRefId) "" (.ofQueryError e) := by
  have hgiven : ¬raws.isEmpty = true := by simpa using hne
  simp only [queryAll, if_neg hgiven, mapM_failedRefId hobj, hread]

theorem queryAll_of_read (hread : Query.readAll rangeFrom rangeTo raws = .ok qs) {e : ServiceError}
    (hfound : s.ensureTimestamp = (.error e, known)) :
    s.queryAll rangeFrom rangeTo raws =
      known.failWith (raws.map shownRefId) "timestamp discovery failed" e := by
  have hgiven : ¬raws.isEmpty = true := by simpa using hne
  simp only [queryAll, if_neg hgiven, mapM_failedRefId hobj, hread, hfound]

theorem queryAll_of_prepares (h : s.Prepares rangeFrom rangeTo raws qs known) :
    s.queryAll rangeFrom rangeTo raws = known.searchAll (raws.map shownRefId) qs := by
  have hgiven : ¬raws.isEmpty = true := by simpa using hne
  simp only [queryAll, if_neg hgiven, mapM_failedRefId hobj, h.read, h.discovered]

end Run

theorem failAll_fst (s : Service) (raws : List Json) (kind : ErrorKind) (status : Int)
    (message : String) : (s.failAll (raws.map shownRefId) kind status message).1 =
      .ok (QueryResult.refusals raws status message) := by
  simp [failAll, QueryResult.refusals, List.map_map, Function.comp_def]

/-- The results of queries by what becomes of their batch. -/
def resultsOf (known : Service) (raws : List Json) (qs : List Query) (entries : List Batch.Entry) :
    Outcome → Except ServiceError (Entries QueryResult)
  | .failed f => .ok (QueryResult.refusals raws 502
      ("error while querying quickwit" ++ ": " ++ f.message))
  | .reply reply =>
    if 400 ≤ reply.status then
      ((reply.jsonOrText known.limits).map fun body => QueryResult.refusals raws reply.status
        (Rejection.text ⟨reply.status, body, known.batchParameter,
          entries.map (·.body)⟩)).mapError .fault
    else
      (reply.responses known.limits >>=
        QueryResult.ofReply known.highlight known.datasource.fields qs).mapError .fault

theorem searchAll_fst (hbuilt : SearchRequest.ofQueries s.datasource.target qs = .ok requests)
    (hentries : Batch.ofRequests requests = .ok entries) :
    (s.searchAll (raws.map shownRefId) qs).1 =
      s.resultsOf raws qs entries (s.call (s.batchCall entries)).1 := by
  rw [searchAll, hbuilt]
  simp only [search, hentries]
  cases hcall : s.call (s.batchCall entries) with
  | mk outcome after =>
    have hknown : after.datasource = s.datasource := by
      simpa [hcall] using datasource_call s (s.batchCall entries)
    have hlimits : after.limits = s.limits := by
      simpa [hcall] using limits_call s (s.batchCall entries)
    have hparse : after.parse = s.parse := by
      simpa [hcall] using parse_call s (s.batchCall entries)
    cases outcome with
    | failed f => exact failAll_fst _ _ _ _ _
    | reply reply =>
      simp only [resultsOf]
      by_cases hstatus : 400 ≤ reply.status
      · simp only [if_pos hstatus, batchParameter, hknown, hlimits]
        cases reply.jsonOrText s.limits with
        | error f => rfl
        | ok body => exact failAll_fst _ _ _ _ _
      · simp only [if_neg hstatus, hlimits]
        cases reply.responses s.limits with
        | error f => rfl
        | ok responses =>
          simp only [answered, countBatch, highlight, hknown, hlimits, hparse, bind, Except.bind]
          cases QueryResult.ofReply (Highlight.words s.limits s.parse) s.datasource.fields qs
            responses <;> rfl

theorem ends_of_sends (hne : raws ≠ []) {outcome : Outcome}
    (h : s.Sends rangeFrom rangeTo raws qs known entries outcome) :
    s.Ends rangeFrom rangeTo raws := by
  cases outcome with
  | failed f => exact .inr (.inl ⟨_, _, .unreached h⟩)
  | reply reply =>
    by_cases hstatus : 400 ≤ reply.status
    · cases hbody : reply.jsonOrText known.limits with
      | error f => exact .inl ⟨f, .rejecting h hstatus hbody⟩
      | ok body => exact .inr (.inl ⟨_, _, .rejected h hstatus hbody⟩)
    · have haccepted : reply.status < 400 := by omega
      cases hresponses : reply.responses known.limits with
      | error f => exact .inl ⟨f, .replying h haccepted hresponses⟩
      | ok responses =>
        cases hdrawn :
          QueryResult.ofReply known.highlight known.datasource.fields qs responses with
        | error f =>
          have hundrawn := (QueryResult.ofReply_eq_error_iff (h.toPrepares.ne_nil hne)).mp hdrawn
          exact .inl ⟨f, .drawing h haccepted hresponses hundrawn⟩
        | ok results => exact .inr (.inr ⟨results, .intro h haccepted hresponses hdrawn⟩)

/-- What is built can always be written, so nothing stops a run before its batch is sent. -/
theorem ends_of_prepares (hne : raws ≠ []) (h : s.Prepares rangeFrom rangeTo raws qs known) :
    s.Ends rangeFrom rangeTo raws := by
  cases hbuilt : SearchRequest.ofQueries known.datasource.target qs with
  | error e =>
    cases e with
    | invalid reason => exact .inr (.inl ⟨_, _, .unbuilt h hbuilt⟩)
    | fault f =>
      obtain ⟨hchecked, before, q, after, rfl, hbefore, hstop⟩ :=
        SearchRequest.ofQueries_eq_fault_iff.mp hbuilt
      exact .inl ⟨f, .building h hchecked hbefore hstop⟩
  | ok requests =>
    obtain ⟨entries, hentries⟩ := SearchRequest.exists_entries hbuilt
    exact ends_of_sends hne ⟨h, ⟨requests, hbuilt, hentries⟩, rfl⟩

section Run

variable (hne : raws ≠ []) (hobj : ∀ raw ∈ raws, raw.isObject = true)
include hne hobj

theorem queryAll_of_sends {outcome : Outcome}
    (h : s.Sends rangeFrom rangeTo raws qs known entries outcome) :
    (s.queryAll rangeFrom rangeTo raws).1 = known.resultsOf raws qs entries outcome := by
  obtain ⟨requests, hbuilt, hentries⟩ := h.encoded
  rw [queryAll_of_prepares hne hobj h.toPrepares, searchAll_fst hbuilt hentries, h.outcome]

theorem queryAll_of_stops {f : Fault} (h : s.Stops rangeFrom rangeTo raws f) :
    (s.queryAll rangeFrom rangeTo raws).1 = .error (.fault f) := by
  cases h with
  | reading hsplit hbefore hstop =>
    have hread := (Query.readAll_eq_fault_iff hobj).mpr ⟨_, _, _, hsplit, hbefore, hstop⟩
    rw [queryAll_of_unread hne hobj hread]
    rfl
  | building hprepared hchecked hbefore hstop =>
    have hbuilt := SearchRequest.ofQueries_eq_fault_iff.mpr
      ⟨hchecked, _, _, _, rfl, hbefore, hstop⟩
    rw [queryAll_of_prepares hne hobj hprepared, searchAll, hbuilt]
    rfl
  | discovering hread hfound =>
    rw [queryAll_of_read hne hobj hread hfound]
    rfl
  | rejecting hsent hstatus hunshown =>
    rw [queryAll_of_sends hne hobj hsent, resultsOf, if_pos hstatus, hunshown]
    rfl
  | replying hsent haccepted hresponses =>
    rw [queryAll_of_sends hne hobj hsent, resultsOf, if_neg (by omega), hresponses]
    rfl
  | drawing hsent haccepted hresponses hundrawn =>
    have hdrawn := (QueryResult.ofReply_eq_error_iff (hsent.toPrepares.ne_nil hne)).mpr hundrawn
    rw [queryAll_of_sends hne hobj hsent, resultsOf, if_neg (by omega), hresponses]
    simp only [bind, Except.bind, hdrawn, Except.mapError]

theorem queryAll_of_answers {results : Entries QueryResult}
    (h : s.Answers rangeFrom rangeTo raws results) :
    (s.queryAll rangeFrom rangeTo raws).1 = .ok results := by
  obtain ⟨hsent, haccepted, hresponses, hdrawn⟩ := h
  rw [queryAll_of_sends hne hobj hsent, resultsOf, if_neg (by omega), hresponses]
  simp only [bind, Except.bind, hdrawn, Except.mapError]

theorem queryAll_of_refuses {status : Int} {message : String}
    (h : s.Refuses rangeFrom rangeTo raws status message) :
    (s.queryAll rangeFrom rangeTo raws).1 = .ok (QueryResult.refusals raws status message) := by
  cases h with
  | unread hread =>
    rw [queryAll_of_unread hne hobj hread]
    exact failAll_fst _ _ _ _ _
  | untold hread hfound =>
    rw [queryAll_of_read hne hobj hread hfound]
    exact failAll_fst _ _ _ _ _
  | undiscovered hread hfound =>
    rw [queryAll_of_read hne hobj hread hfound]
    exact failAll_fst _ _ _ _ _
  | unbuilt hprepared hbuilt =>
    rw [queryAll_of_prepares hne hobj hprepared, searchAll, hbuilt]
    exact failAll_fst _ _ _ _ _
  | rejected hsent hstatus hbody =>
    rw [queryAll_of_sends hne hobj hsent, resultsOf, if_pos hstatus, hbody]
    rfl
  | unreached hsent =>
    rw [queryAll_of_sends hne hobj hsent, resultsOf]

theorem ends : s.Ends rangeFrom rangeTo raws := by
  cases hread : Query.readAll rangeFrom rangeTo raws with
  | error e =>
    cases e with
    | invalid reason => exact .inr (.inl ⟨_, _, .unread hread⟩)
    | fault f =>
      obtain ⟨_, _, _, hsplit, hbefore, hstop⟩ := (Query.readAll_eq_fault_iff hobj).mp hread
      exact .inl ⟨f, .reading hsplit hbefore hstop⟩
  | ok qs =>
    cases hfound : s.ensureTimestamp with
    | mk found known =>
      cases found with
      | error e =>
        rcases ensureTimestamp_error hfound with ⟨m, rfl⟩ | ⟨f, rfl⟩ | ⟨f, rfl⟩
        · exact .inr (.inl ⟨_, _, .untold hread hfound⟩)
        · exact .inr (.inl ⟨_, _, .undiscovered hread hfound⟩)
        · exact .inl ⟨f, .discovering hread hfound⟩
      | ok _ => exact ends_of_prepares hne ⟨hread, hfound⟩

theorem queryAll_cases {x : Except ServiceError (Entries QueryResult)}
    (h : (s.queryAll rangeFrom rangeTo raws).1 = x) :
    (∃ f, s.Stops rangeFrom rangeTo raws f ∧ x = .error (.fault f)) ∨
    (∃ status message, s.Refuses rangeFrom rangeTo raws status message ∧
      x = .ok (QueryResult.refusals raws status message)) ∨
    ∃ results, s.Answers rangeFrom rangeTo raws results ∧ x = .ok results := by
  subst h
  have hends : s.Ends rangeFrom rangeTo raws := ends hne hobj
  rcases hends with ⟨f, hstop⟩ | ⟨status, message, hrefused⟩ | ⟨results, hanswered⟩
  · exact .inl ⟨f, hstop, queryAll_of_stops hne hobj hstop⟩
  · exact .inr (.inl ⟨status, message, hrefused, queryAll_of_refuses hne hobj hrefused⟩)
  · exact .inr (.inr ⟨results, hanswered, queryAll_of_answers hne hobj hanswered⟩)

end Run

/-- A query as it reaches the service: an object that is read within the limits. -/
structure IsReceived (limits : Limits) (raw : Json) : Prop where
  object : raw.isObject = true
  within : raw.IsShown limits

/-- A run over queries gives no results exactly when it is stopped. Every other run has those of its
batch, or the same error for each query. -/
theorem queryAll_eq_error_iff (hne : raws ≠ []) (hraws : ∀ raw ∈ raws, IsReceived s.limits raw) :
    (∀ e, (s.queryAll rangeFrom rangeTo raws).1 = .error e ↔
      ∃ f, e = .fault f ∧ s.Stops rangeFrom rangeTo raws f) ∧
    ∀ results, (s.queryAll rangeFrom rangeTo raws).1 = .ok results →
      s.Answers rangeFrom rangeTo raws results ∨
      ∃ status message, s.Refuses rangeFrom rangeTo raws status message ∧
        ∀ raw ∈ raws, results.get? (shownRefId raw) =
          some (QueryResult.failed message status) := by
  have hobj : ∀ raw ∈ raws, raw.isObject = true := fun raw hraw => (hraws raw hraw).object
  refine ⟨fun e => ⟨fun h => ?_, ?_⟩, fun results h => ?_⟩
  · rcases queryAll_cases hne hobj h with ⟨f, hstop, he⟩ | ⟨_, _, -, he⟩ | ⟨_, -, he⟩
    · cases he
      exact ⟨f, rfl, hstop⟩
    · cases he
    · cases he
  · rintro ⟨f, rfl, hstop⟩
    exact queryAll_of_stops hne hobj hstop
  · rcases queryAll_cases hne hobj h with
      ⟨_, -, hr⟩ | ⟨status, message, hrefused, hr⟩ | ⟨_, hanswered, hr⟩
    · cases hr
    · cases hr
      exact .inr ⟨status, message, hrefused, fun raw hraw => QueryResult.get?_refusals hraw⟩
    · cases hr
      exact .inl hanswered

/-- A service whose time field is known. -/
def knowing (outcomes : List Outcome) : Service where
  datasource := {
    url := "http://qw/api/v1"
    index := "logs"
    fields := { timeField := "ts" }
    geohashPrecision := 3 }
  outcomes

/-- A query for log lines. -/
def logLines (refId : Json) : Json := .obj [("refId", refId), ("query", .str "*"),
  ("metrics", .arr [.obj [("type", .str "logs"), ("id", .str "1")]])]

/-- A reply with the beginning of a web page. -/
def webPage : Reply where
  body := [0x3C, 0x68, 0x74, 0x6D, 0x6C, 0x3E]

theorem isOk_webPage :
    ((knowing [.reply webPage]).queryAll 0 1000 [logLines (.str "A")]).1.isOk = false := by
  decide +kernel

theorem isReceived_logLines : ∀ raw ∈ [logLines (.str "A")], IsReceived .standard raw := by
  simp only [List.forall_mem_singleton]
  exact ⟨rfl, Json.unshown?_eq_none_iff.mp rfl⟩

theorem webPage_noResults : (∀ raw ∈ [logLines (.str "A")], IsReceived .standard raw) ∧
    ¬∃ results, ((knowing [.reply webPage]).queryAll 0 1000 [logLines (.str "A")]).1 =
      .ok results := by
  refine ⟨isReceived_logLines, ?_⟩
  rintro ⟨results, h⟩
  have hok := isOk_webPage
  rw [h] at hok
  cases hok

theorem not_answers_of_silence {results : Entries QueryResult} :
    ¬(knowing []).Answers rangeFrom rangeTo raws results := by
  rintro ⟨hsent, -, -, -⟩
  have hknown := hsent.discovered
  have houtcome := hsent.outcome
  cases hknown
  cases houtcome

/-- A web page in the place of responses stops a run; without any reply it has an error for its
query. -/
theorem webPage_stops : [logLines (.str "A")] ≠ [] ∧
    (∀ raw ∈ [logLines (.str "A")], IsReceived .standard raw) ∧
    (∃ f, (knowing [.reply webPage]).Stops 0 1000 [logLines (.str "A")] f) ∧
    ∃ results status message,
      ((knowing []).queryAll 0 1000 [logLines (.str "A")]).1 = .ok results ∧
      results.get? "A" = some (QueryResult.failed message status) := by
  have hne : [logLines (.str "A")] ≠ [] := by simp
  refine ⟨hne, isReceived_logLines, ?_, ?_⟩
  · cases h : ((knowing [.reply webPage]).queryAll 0 1000 [logLines (.str "A")]).1 with
    | ok results =>
      have hok := isOk_webPage
      rw [h] at hok
      cases hok
    | error e =>
      obtain ⟨f, -, hstop⟩ := ((queryAll_eq_error_iff hne isReceived_logLines).1 e).mp h
      exact ⟨f, hstop⟩
  · have hok : ((knowing []).queryAll 0 1000 [logLines (.str "A")]).1.isOk = true := by
      decide +kernel
    cases h : ((knowing []).queryAll 0 1000 [logLines (.str "A")]).1 with
    | error e =>
      rw [h] at hok
      cases hok
    | ok results =>
      rcases (queryAll_eq_error_iff hne isReceived_logLines).2 results h with
        hanswered | ⟨status, message, -, hresults⟩
      · exact absurd hanswered not_answers_of_silence
      · exact ⟨results, status, message, rfl, hresults (logLines (.str "A")) (by simp)⟩

end Service

end PanelSearch
