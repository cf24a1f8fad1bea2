import PanelSearch.Proofs.Service.Endings

/-! Runs of the service: one ask of a panel after the other, each with outcomes of its own for the
calls that are made for it. What an ask does is told by where it ends: its queries are not read, the
time field is not told, the searches are not built, or their batch is sent. What comes after that
changes nothing but the counts of errors. -/

namespace PanelSearch

open Traversal

/-- One ask of a panel: its queries with their time range, and what becomes of the calls made for
it. -/
structure Ask where
  rangeFrom : Int
  rangeTo : Int
  raws : List Json
  outcomes : List Outcome

/-- There are queries, and all of them are read. -/
def Ask.IsRead (a : Ask) : Prop :=
  a.raws ≠ [] ∧ ∃ qs, Query.readAll a.rangeFrom a.rangeTo a.raws = .ok qs

def Call.isMetadata : Call → Bool
  | metadata _ _ => true
  | _ => false

def Call.isBatch : Call → Bool
  | batch _ _ => true
  | _ => false

/-- The batch is taken, whatever is in the reply. -/
def Outcome.isAccepted : Outcome → Bool
  | reply r => r.status < 400
  | failed _ => false

/-- The time field that a reply to a metadata call tells. -/
def Outcome.told? (limits : Limits) (d : Datasource) : Outcome → Option TimestampField
  | reply r => do
    let url := (Call.forMetadata d.url d.index).url
    (← (TimestampField.ofReply limits d.index url r).toOption).toOption
  | failed _ => none

/-- Calls with their outcomes: a call behind the last outcome gets no reply. -/
def Ask.exchanged (a : Ask) (calls : List Call) : List (Call × Outcome) :=
  calls.zipIdx.map fun (call, i) => (call, a.outcomes.getD i .silence)

theorem Ask.exchanged_concat (a : Ask) (calls : List Call) (call : Call) :
    a.exchanged (calls ++ [call]) =
      a.exchanged calls ++ [(call, a.outcomes.getD calls.length .silence)] := by
  simp [exchanged, List.zipIdx_append]

theorem Ask.mem_exchanged_iff {a : Ask} {calls : List Call} {call : Call} {outcome : Outcome} :
    (call, outcome) ∈ a.exchanged calls ↔
      ∃ i, calls[i]? = some call ∧ outcome = a.outcomes.getD i .silence := by
  rw [exchanged, List.mem_map]
  constructor
  · rintro ⟨⟨c, i⟩, hmem, heq⟩
    cases heq
    exact ⟨i, List.mk_mem_zipIdx_iff_getElem?.mp hmem, rfl⟩
  · rintro ⟨i, hcall, rfl⟩
    exact ⟨(call, i), List.mk_mem_zipIdx_iff_getElem?.mpr hcall, rfl⟩

namespace Service

/-- The service before the first call for an ask. -/
def facing (s : Service) (a : Ask) : Service := s.renewed a.outcomes

def results (s : Service) (a : Ask) : Except ServiceError (Entries QueryResult) :=
  ((s.facing a).queryAll a.rangeFrom a.rangeTo a.raws).1

def after (s : Service) (a : Ask) : Service :=
  ((s.facing a).queryAll a.rangeFrom a.rangeTo a.raws).2

/-- The service after a run. -/
def afterAll (s : Service) (asks : List Ask) : Service := asks.foldl after s

/-- The calls made for an ask, each with what became of it. -/
def exchanges (s : Service) (a : Ask) : List (Call × Outcome) := a.exchanged (s.after a).sent

/-- The calls made in a run. -/
def history (s : Service) : List Ask → List (Call × Outcome)
  | [] => []
  | a :: asks => s.exchanges a ++ (s.after a).history asks

theorem afterAll_append (s : Service) (as bs : List Ask) :
    s.afterAll (as ++ bs) = (s.afterAll as).afterAll bs := List.foldl_append

def metadataCall (s : Service) : Call := Call.forMetadata s.datasource.url s.datasource.index

theorem isMetadata_metadataCall (s : Service) : s.metadataCall.isMetadata = true := by
  rw [metadataCall, Call.forMetadata]
  split <;> rfl

theorem isBatch_metadataCall (s : Service) : s.metadataCall.isBatch = false := by
  rw [metadataCall, Call.forMetadata]
  split <;> rfl

@[simp] theorem call_fst (s : Service) (c : Call) :
    (s.call c).1 = s.outcomes.headD .silence := by
  rw [call]
  cases s.outcomes <;> rfl

@[simp] theorem outcomes_call (s : Service) (c : Call) :
    (s.call c).2.outcomes = s.outcomes.tail := by
  rw [call]
  cases s.outcomes <;> rfl

/-- How the time field comes to be known: it is already, the metadata tells it, or it stays
unknown. -/
inductive Discovery (s : Service) : Except ServiceError Unit → Service → Prop
  | known (needless : s.needsTimestamp = false) : Discovery s (.ok ()) s
  | told {field : TimestampField} (needed : s.needsTimestamp = true)
    (told : (s.outcomes.headD .silence).told? s.limits s.datasource = some field) :
    Discovery s (.ok ()) ((s.call s.metadataCall).2.withTimestamp field)
  | untold {e : ServiceError} (needed : s.needsTimestamp = true)
    (untold : (s.outcomes.headD .silence).told? s.limits s.datasource = none) :
    Discovery s (.error e) (s.call s.metadataCall).2

theorem discovery (s : Service) : s.Discovery s.ensureTimestamp.1 s.ensureTimestamp.2 := by
  rw [ensureTimestamp]
  cases hneeds : s.needsTimestamp with
  | false => exact .known hneeds
  | true =>
    have houtcome := call_fst s s.metadataCall
    rw [if_pos rfl, timestampField]
    cases hcall : s.call (Call.forMetadata s.datasource.url s.datasource.index) with
    | mk outcome known =>
      rw [metadataCall, hcall] at houtcome
      have hknown : known = (s.call s.metadataCall).2 := by rw [metadataCall, hcall]
      have hlimits : known.limits = s.limits := by rw [hknown, limits_call]
      cases outcome with
      | failed f =>
        rw [hknown]
        exact .untold hneeds (by rw [← houtcome]; rfl)
      | reply r =>
        cases htold : TimestampField.ofReply s.limits s.datasource.index
            (Call.forMetadata s.datasource.url s.datasource.index).url r with
        | error f =>
          simp only [hlimits, htold]
          rw [hknown]
          exact .untold hneeds (by rw [← houtcome, Outcome.told?, htold]; rfl)
        | ok told =>
          cases told with
          | error e =>
            simp only [hlimits, htold]
            rw [hknown]
            exact .untold hneeds (by rw [← houtcome, Outcome.told?, htold]; rfl)
          | ok field =>
            simp only [hlimits, htold]
            rw [hknown]
            exact .told hneeds (by rw [← houtcome, Outcome.told?, htold]; rfl)

theorem Discovery.calls {s known : Service} {r : Except ServiceError Unit}
    (h : s.Discovery r known) :
    (known.sent = s.sent ∧ known.outcomes = s.outcomes) ∨
      (known.sent = s.sent ++ [s.metadataCall] ∧ known.outcomes = s.outcomes.tail) := by
  cases h with
  | known => exact .inl ⟨rfl, rfl⟩
  | told | untold => exact .inr ⟨sent_call _ _, outcomes_call _ _⟩

theorem Discovery.tally {s known : Service} {r : Except ServiceError Unit}
    (h : s.Discovery r known) : known.tally = s.tally := by
  cases h with
  | known => rfl
  | told | untold => exact tally_call _ _

/-- The end of an ask: no results, the same error for each query, or a result for each. -/
inductive Concludes (raws : List Json) (s : Service) :
    Except ServiceError (Entries QueryResult) → Service → Prop
  | stopped (e : ServiceError) : Concludes raws s (.error e) s
  | refused (kind : ErrorKind) (status : Int) (message : String) :
    Concludes raws s (.ok (QueryResult.refusals raws status message))
      (s.countErrors kind raws.length)
  | answered (results : Entries QueryResult) :
    Concludes raws s (.ok results) (s.countErrors .response (errorCount results))

section Concludes

variable {raws : List Json} {s after : Service} {r : Except ServiceError (Entries QueryResult)}

theorem Concludes.datasource (h : Concludes raws s r after) :
    after.datasource = s.datasource := by
  cases h <;> rfl

theorem Concludes.sent (h : Concludes raws s r after) : after.sent = s.sent := by
  cases h <;> rfl

theorem concludes_failAll (s : Service) (raws : List Json) (kind : ErrorKind) (status : Int)
    (message : String) :
    Concludes raws s (s.failAll (raws.map shownRefId) kind status message).1
      (s.failAll (raws.map shownRefId) kind status message).2 := by
  have hcount : (s.failAll (raws.map shownRefId) kind status message).2 =
      s.countErrors kind raws.length := by rw [failAll, List.length_map]
  rw [failAll_fst, hcount]
  exact .refused kind status message

theorem concludes_failWith (s : Service) (raws : List Json) (unreachable : String)
    (e : ServiceError) :
    Concludes raws s (s.failWith (raws.map shownRefId) unreachable e).1
      (s.failWith (raws.map shownRefId) unreachable e).2 := by
  cases e with
  | invalid | metadata | rejected | transport => exact concludes_failAll ..
  | noQueries | fault | forbidden => exact .stopped _

theorem concludes_answered (s : Service) (raws : List Json) (qs : List Query) (responses : Json) :
    Concludes raws s (s.answered qs responses).1 (s.answered qs responses).2 := by
  rw [Service.answered]
  cases QueryResult.ofReply s.highlight s.datasource.fields qs responses with
  | error f => exact .stopped _
  | ok results => exact .answered results

end Concludes

/-- What an ask does, up to its end. -/
inductive Ran (s : Service) (a : Ask) : Except ServiceError (Entries QueryResult) → Service → Prop
  | unread {r : Except ServiceError (Entries QueryResult)} {after : Service} (unread : ¬a.IsRead)
    (ended : Concludes a.raws s r after) : Ran s a r after
  | undiscovered {r : Except ServiceError (Entries QueryResult)} {known after : Service}
    {e : ServiceError} (read : a.IsRead) (discovered : s.ensureTimestamp = (.error e, known))
    (ended : Concludes a.raws known r after) : Ran s a r after
  | unbuilt {r : Except ServiceError (Entries QueryResult)} {known after : Service}
    {qs : List Query} {e : QueryError} (read : a.IsRead)
    (prepared : s.Prepares a.rangeFrom a.rangeTo a.raws qs known)
    (built : SearchRequest.ofQueries known.datasource.target qs = .error e)
    (ended : Concludes a.raws known r after) : Ran s a r after
  | searched {r : Except ServiceError (Entries QueryResult)} {known after : Service}
    {qs : List Query} {requests : List SearchRequest} {entries : List Batch.Entry}
    (read : a.IsRead) (prepared : s.Prepares a.rangeFrom a.rangeTo a.raws qs known)
    (built : SearchRequest.ofQueries known.datasource.target qs = .ok requests)
    (encoded : Batch.ofRequests requests = .ok entries)
    (ended : Concludes a.raws ((known.call (known.batchCall entries)).2.countBatch
      (known.outcomes.headD .silence).isAccepted requests.length) r after) : Ran s a r after

theorem concludes_searchAll {s : Service} {requests : List SearchRequest}
    {entries : List Batch.Entry} (raws : List Json) (qs : List Query)
    (hbuilt : SearchRequest.ofQueries s.datasource.target qs = .ok requests)
    (hentries : Batch.ofRequests requests = .ok entries) :
    Concludes raws ((s.call (s.batchCall entries)).2.countBatch
        (s.outcomes.headD .silence).isAccepted requests.length)
      (s.searchAll (raws.map shownRefId) qs).1 (s.searchAll (raws.map shownRefId) qs).2 := by
  have houtcome := call_fst s (s.batchCall entries)
  rw [searchAll, hbuilt]
  simp only [search, hentries]
  cases hcall : s.call (s.batchCall entries) with
  | mk outcome sent =>
    rw [hcall] at houtcome
    rw [← houtcome]
    cases outcome with
    | failed f => exact concludes_failWith ..
    | reply reply =>
      by_cases hstatus : 400 ≤ reply.status
      · have haccepted : (Outcome.reply reply).isAccepted = false := by
          simp [Outcome.isAccepted, hstatus]
        simp only [if_pos hstatus, haccepted]
        cases reply.jsonOrText sent.limits with
        | error f => exact concludes_failWith ..
        | ok body => exact concludes_failWith ..
      · have haccepted : (Outcome.reply reply).isAccepted = true := by
          simp [Outcome.isAccepted]
          omega
        simp only [if_neg hstatus, haccepted]
        cases reply.responses sent.limits with
        | error f => exact concludes_failWith ..
        | ok responses => exact concludes_answered ..

theorem isObject_of_failedRefId {raws : List Json} {refIds : List String}
    (h : raws.mapM failedRefId = .ok refIds) : ∀ raw ∈ raws, raw.isObject = true := by
  intro raw hraw
  obtain ⟨id, hid⟩ := mapM_isOk_iff.mp ⟨refIds, h⟩ raw hraw
  cases raw with
  | obj members => rfl
  | _ => cases hid

theorem isObject_of_readAll {rangeFrom rangeTo : Int} {raws : List Json} {qs : List Query}
    (h : Query.readAll rangeFrom rangeTo raws = .ok qs) : ∀ raw ∈ raws, raw.isObject = true := by
  intro raw hraw
  obtain ⟨q, hq⟩ := mapM_isOk_iff.mp ⟨qs, h⟩ raw hraw
  cases raw with
  | obj members => rfl
  | _ => cases hq

theorem concludes_unread {s : Service} {a : Ask} (h : ¬a.IsRead) :
    Concludes a.raws s (s.queryAll a.rangeFrom a.rangeTo a.raws).1
      (s.queryAll a.rangeFrom a.rangeTo a.raws).2 := by
  by_cases hne : a.raws = []
  · rw [queryAll, hne]
    exact .stopped _
  cases hids : a.raws.mapM failedRefId with
  | error f =>
    have hgiven : ¬a.raws.isEmpty = true := by simpa using hne
    rw [queryAll, if_neg hgiven, hids]
    exact .stopped _
  | ok refIds =>
    cases hread : Query.readAll a.rangeFrom a.rangeTo a.raws with
    | error e =>
      rw [queryAll_of_unread hne (isObject_of_failedRefId hids) hread]
      exact concludes_failWith ..
    | ok qs => exact absurd ⟨hne, qs, hread⟩ h

/-- Every ask does one of these. -/
theorem ran (s : Service) (a : Ask) :
    s.Ran a (s.queryAll a.rangeFrom a.rangeTo a.raws).1
      (s.queryAll a.rangeFrom a.rangeTo a.raws).2 := by
  by_cases hread : a.IsRead
  · obtain ⟨hne, qs, hqs⟩ := hread
    have hobj := isObject_of_readAll hqs
    cases hfound : s.ensureTimestamp with
    | mk found known =>
      cases found with
      | error e =>
        rw [queryAll_of_read hne hobj hqs hfound]
        exact .undiscovered ⟨hne, qs, hqs⟩ hfound (concludes_failWith ..)
      | ok _ =>
        have hprepared : s.Prepares a.rangeFrom a.rangeTo a.raws qs known := ⟨hqs, hfound⟩
        rw [queryAll_of_prepares hne hobj hprepared]
        cases hbuilt : SearchRequest.ofQueries known.datasource.target qs with
        | error e =>
          refine .unbuilt ⟨hne, qs, hqs⟩ hprepared hbuilt ?_
          rw [searchAll, hbuilt]
          exact concludes_failWith ..
        | ok requests =>
          obtain ⟨entries, hentries⟩ := SearchRequest.exists_entries hbuilt
          exact .searched ⟨hne, qs, hqs⟩ hprepared hbuilt hentries
            (concludes_searchAll a.raws qs hbuilt hentries)
  · exact .unread hread (concludes_unread hread)

/-- An ask for log lines, under the RefID A. -/
def logLinesAsk (outcomes : List Outcome) : Ask := ⟨0, 1000, [logLines (.str "A")], outcomes⟩

end Service

end PanelSearch
