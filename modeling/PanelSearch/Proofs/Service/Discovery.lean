import Mathlib.Data.List.Induction
import PanelSearch.Proofs.Index.Listing
import PanelSearch.Proofs.Service.Runs

/-! The time field of a datasource over a run. It is asked for until some reply tells it, and never
again after that, whatever was told. A datasource whose time field is configured is not asked about
at all. -/

namespace PanelSearch

/-- A datasource that was told its time field. A format that is configured stays. -/
def Datasource.told (d : Datasource) (field : TimestampField) : Datasource :=
  { d with
    fields := { d.fields with
      timeField := field.field
      timeFormat := if d.fields.timeFormat = "" then field.format else d.fields.timeFormat }
    discovered := true }

namespace TimestampField

variable {limits : Limits} {index : String} {r : Reply} {t : TimestampField}

/-- A reply about an index tells its time field, and the format that it is mapped with: the reply is
no refusal, and its body is metadata, or a listing of metadata that agrees on the time field. -/
inductive IsToldBy (limits : Limits) (index : String) (r : Reply) (t : TimestampField) : Prop
  | index {metadata : Json} {mapping : IndexMapping} (accepted : 200 ≤ r.status ∧ r.status < 400)
    (single : isPattern index = false) (body : Json.ofUtf8? r.body = some metadata)
    (mapped : IndexMapping.ofMetadata? metadata = some mapping)
    (field : t.field =
      (metadata.path ["index_config", "doc_mapping", "timestamp_field"]).str?.getD "")
    (format : t.format = (FieldMapping.formatIn? t.field "" mapping.fields).getD "")
  | listing {listing : Json} {mappings : List IndexMapping}
    (accepted : 200 ≤ r.status ∧ r.status < 400) (several : isPattern index = true)
    (body : Json.ofBytes (.guarded limits) r.body = .ok listing)
    (mapped : mappingsOf? listing = some mappings) (shared : ofMappings mappings = .ok t)

theorem ofIndexBytes_eq_ok_iff : ofIndexBytes r.body = .ok t ↔ ∃ metadata mapping,
    Json.ofUtf8? r.body = some metadata ∧ IndexMapping.ofMetadata? metadata = some mapping ∧
      ofMapping mapping = t := by
  unfold ofIndexBytes ofIndex
  cases hbody : Json.ofUtf8? r.body with
  | none => simp
  | some metadata => cases hmapped : IndexMapping.ofMetadata? metadata <;> simp [hmapped]

theorem ofListingBytes_eq_ok_iff : ofListingBytes limits r.body = .ok (.ok t) ↔
    ∃ listing mappings, Json.ofBytes (.guarded limits) r.body = .ok listing ∧
      mappingsOf? listing = some mappings ∧ ofMappings mappings = .ok t := by
  unfold ofListingBytes ofListing
  cases hbody : Json.ofBytes (.guarded limits) r.body with
  | error f => cases f <;> simp [Except.toOption]
  | ok listing => cases hmapped : mappingsOf? listing <;> simp [Except.toOption, hmapped]

/-- What a reply tells of the time field is settled by its status and its body. -/
theorem ofReply_eq_ok_iff {url : String} :
    ofReply limits index url r = .ok (.ok t) ↔ IsToldBy limits index r t := by
  have hstatus : (r.status < 200 || 400 ≤ r.status) = true ↔
      ¬(200 ≤ r.status ∧ r.status < 400) := by simp; omega
  unfold ofReply
  constructor
  · intro h
    split at h
    · cases h
    rename_i haccepted
    rw [hstatus, not_not] at haccepted
    split at h
    · rename_i hseveral
      obtain ⟨listing, mappings, hbody, hmapped, hshared⟩ := ofListingBytes_eq_ok_iff.mp h
      exact .listing haccepted hseveral hbody hmapped hshared
    · rename_i hsingle
      obtain ⟨metadata, mapping, hbody, hmapped, rfl⟩ := ofIndexBytes_eq_ok_iff.mp (Except.ok.inj h)
      exact .index haccepted (by simpa using hsingle) hbody hmapped
        (IndexMapping.timestampField_of_ofMetadata? hmapped) rfl
  · intro h
    cases h with
    | @index metadata mapping haccepted hsingle hbody hmapped hfield hformat =>
      rw [if_neg (hstatus.not.mpr (not_not.mpr haccepted)), hsingle, if_neg (by simp)]
      have hmapping : ofMapping mapping = t := by
        rw [← IndexMapping.timestampField_of_ofMetadata? hmapped] at hfield
        rw [hfield] at hformat
        cases t
        simp_all [ofMapping]
      rw [ofIndexBytes_eq_ok_iff.mpr ⟨metadata, mapping, hbody, hmapped, hmapping⟩]
    | listing haccepted hseveral hbody hmapped hshared =>
      rw [if_neg (hstatus.not.mpr (not_not.mpr haccepted)), if_pos hseveral]
      exact ofListingBytes_eq_ok_iff.mpr ⟨_, _, hbody, hmapped, hshared⟩

end TimestampField

/-- A call for the metadata has a time field told by its reply, and never by its failure. -/
theorem Outcome.told?_eq_some_iff {limits : Limits} {d : Datasource} {outcome : Outcome}
    {t : TimestampField} : outcome.told? limits d = some t ↔
      ∃ r, outcome = .reply r ∧ TimestampField.IsToldBy limits d.index r t := by
  cases outcome with
  | failed f => simp [told?]
  | reply r =>
    have hreply : TimestampField.ofReply limits d.index (Call.forMetadata d.url d.index).url r =
        .ok (.ok t) ↔ TimestampField.IsToldBy limits d.index r t := TimestampField.ofReply_eq_ok_iff
    simp only [told?, reply.injEq, exists_eq_left', ← hreply]
    cases TimestampField.ofReply limits d.index (Call.forMetadata d.url d.index).url r with
    | error f => simp [Except.toOption]
    | ok told => cases told <;> simp [Except.toOption]

namespace Service

variable {s t : Service} {a : Ask} {field : TimestampField}

/-- For an ask the metadata was requested, and its reply told a time field. -/
def Discovers (s : Service) (a : Ask) (field : TimestampField) : Prop :=
  ∃ call outcome, (call, outcome) ∈ s.exchanges a ∧ call.isMetadata = true ∧
    outcome.told? s.limits s.datasource = some field

/-- Some ask of a run had the time field told. -/
def HasDiscovered (s : Service) (asks : List Ask) (field : TimestampField) : Prop :=
  ∃ before a after, asks = before ++ a :: after ∧ (s.afterAll before).Discovers a field

theorem needsTimestamp_iff : s.needsTimestamp = true ↔
    s.datasource.fields.timeField = "" ∧ s.datasource.discovered = false := by
  simp [needsTimestamp]

theorem datasource_withTimestamp (s : Service) (field : TimestampField) :
    (s.withTimestamp field).datasource = s.datasource.told field := by
  simp [withTimestamp, fieldsWith, Datasource.told]

/-- What an ask means for the time field: it is not asked for, or it is told, or it is not. -/
inductive Learns (s : Service) (a : Ask) : Prop
  | spared (h : ¬a.IsRead ∨ s.needsTimestamp = false)
    (posts : ∀ call ∈ (s.after a).sent, call.isBatch = true)
    (kept : (s.after a).datasource = s.datasource)
  | told {field : TimestampField} {posts : List Call} (read : a.IsRead)
    (needed : s.needsTimestamp = true)
    (told : (a.outcomes.headD .silence).told? s.limits s.datasource = some field)
    (sent : (s.after a).sent = s.metadataCall :: posts)
    (posts : ∀ call ∈ posts, call.isBatch = true)
    (learnt : (s.after a).datasource = s.datasource.told field)
  | untold (read : a.IsRead) (needed : s.needsTimestamp = true)
    (untold : (a.outcomes.headD .silence).told? s.limits s.datasource = none)
    (sent : (s.after a).sent = [s.metadataCall])
    (kept : (s.after a).datasource = s.datasource)

theorem learns_of_known {known : Service} {r : Except ServiceError Unit}
    (hdiscovery : (s.facing a).Discovery r known) (hread : a.IsRead) (posts : List Call)
    (hposts : ∀ call ∈ posts, call.isBatch = true) (hsent : (s.after a).sent = known.sent ++ posts)
    (hkept : (s.after a).datasource = known.datasource) (hfailed : r.isOk = false → posts = []) :
    s.Learns a := by
  cases hdiscovery with
  | known needless => exact .spared (.inr needless) (by rwa [hsent]) hkept
  | told needed told =>
    refine .told hread needed told ?_ hposts ?_
    · rw [hsent]
      exact congrArg (· ++ posts) (sent_call _ _)
    · rw [hkept, datasource_withTimestamp, datasource_call]
      rfl
  | untold needed untold =>
    refine .untold hread needed untold ?_ ?_
    · rw [hsent, hfailed rfl, List.append_nil]
      exact sent_call _ _
    · rw [hkept, datasource_call]
      rfl

theorem learns (s : Service) (a : Ask) : s.Learns a := by
  have hdiscovery := discovery (s.facing a)
  have hran : (s.facing a).Ran a (s.results a) (s.after a) := ran (s.facing a) a
  cases hran with
  | unread unread ended =>
    refine .spared (.inl unread) ?_ ended.datasource
    rw [ended.sent]
    simp [facing, renewed]
  | undiscovered read discovered ended =>
    rw [discovered] at hdiscovery
    exact learns_of_known hdiscovery read [] (by simp) (by simp [ended.sent])
      ended.datasource fun _ => rfl
  | unbuilt read prepared built ended =>
    rw [prepared.discovered] at hdiscovery
    exact learns_of_known hdiscovery read [] (by simp) (by simp [ended.sent])
      ended.datasource fun _ => rfl
  | searched read prepared built encoded ended =>
    rename_i known _ _ entries
    rw [prepared.discovered] at hdiscovery
    refine learns_of_known hdiscovery read [known.batchCall entries] ?_ ?_ ?_ ?_
    · simp [batchCall, Call.isBatch]
    · rw [ended.sent]
      exact sent_call _ _
    · rw [ended.datasource]
      exact datasource_call _ _
    · intro hfailed
      cases hfailed

theorem not_isMetadata_of_isBatch {call : Call} (h : call.isBatch = true) :
    ¬call.isMetadata = true := by
  cases call with
  | batch => simp [Call.isMetadata]
  | _ => cases h

theorem filter_isMetadata_eq_nil {calls : List Call} (h : ∀ call ∈ calls, call.isBatch = true) :
    calls.filter Call.isMetadata = [] :=
  List.filter_eq_nil_iff.mpr fun call hcall => not_isMetadata_of_isBatch (h call hcall)

theorem discovers_iff : s.Discovers a field ↔ a.IsRead ∧ s.needsTimestamp = true ∧
    (a.outcomes.headD .silence).told? s.limits s.datasource = some field := by
  have hfirst : a.outcomes.getD 0 .silence = a.outcomes.headD .silence := by
    cases a.outcomes <;> rfl
  have hmem : s.Discovers a field ↔ ∃ (i : Nat) (call : Call), (s.after a).sent[i]? = some call ∧
      call.isMetadata = true ∧
        (a.outcomes.getD i .silence).told? s.limits s.datasource = some field := by
    simp only [Discovers, exchanges, Ask.mem_exchanged_iff]
    constructor
    · rintro ⟨call, _, ⟨i, hcall, rfl⟩, hmetadata, htold⟩
      exact ⟨i, call, hcall, hmetadata, htold⟩
    · rintro ⟨i, call, hcall, hmetadata, htold⟩
      exact ⟨call, _, ⟨i, hcall, rfl⟩, hmetadata, htold⟩
  rw [hmem]
  cases s.learns a with
  | spared h posts kept =>
    constructor
    · rintro ⟨i, call, hcall, hmetadata, -⟩
      have hbatch := posts call (List.mem_of_getElem? hcall)
      exact absurd hmetadata (not_isMetadata_of_isBatch hbatch)
    · rintro ⟨hread, hneeded, -⟩
      rcases h with h | h
      · exact absurd hread h
      · rw [hneeded] at h
        cases h
  | told read needed told sent posts learnt =>
    rw [sent]
    constructor
    · rintro ⟨i, call, hcall, hmetadata, htold⟩
      cases i with
      | zero => exact ⟨read, needed, hfirst ▸ htold⟩
      | succ i =>
        have hbatch := posts call (List.mem_of_getElem? hcall)
        exact absurd hmetadata (not_isMetadata_of_isBatch hbatch)
    · rintro ⟨-, -, htold⟩
      exact ⟨0, s.metadataCall, rfl, s.isMetadata_metadataCall, hfirst.symm ▸ htold⟩
  | untold read needed untold sent kept =>
    rw [sent, untold]
    constructor
    · rintro ⟨i, call, hcall, -, htold⟩
      cases i with
      | zero =>
        rw [hfirst, untold] at htold
        cases htold
      | succ i => cases hcall
    · rintro ⟨-, -, h⟩
      cases h

theorem after_of_needless (h : s.needsTimestamp = false) (a : Ask) :
    (s.after a).sent.filter Call.isMetadata = [] ∧ (s.after a).datasource = s.datasource := by
  cases s.learns a with
  | spared _ posts kept => exact ⟨filter_isMetadata_eq_nil posts, kept⟩
  | told _ needed =>
    rw [needed] at h
    cases h
  | untold _ needed =>
    rw [needed] at h
    cases h

theorem datasource_afterAll_of_needless (h : s.needsTimestamp = false) (asks : List Ask) :
    (s.afterAll asks).datasource = s.datasource := by
  induction asks generalizing s with
  | nil => rfl
  | cons a asks ih =>
    have hkept := (after_of_needless h a).2
    have hneedless : (s.after a).needsTimestamp = false := by
      rw [needsTimestamp, hkept]
      exact h
    exact (ih hneedless).trans hkept

theorem needless_of_told (h : t.datasource = s.datasource.told field) :
    t.needsTimestamp = false := by
  simp [needsTimestamp, h, Datasource.told]

theorem hasDiscovered_concat_iff {asks : List Ask} : s.HasDiscovered (asks ++ [a]) field ↔
    s.HasDiscovered asks field ∨ (s.afterAll asks).Discovers a field := by
  constructor
  · rintro ⟨before, b, after, hsplit, hdiscovers⟩
    rcases List.eq_nil_or_concat after with rfl | ⟨after, c, rfl⟩
    · obtain ⟨rfl, hlast⟩ := List.append_inj' hsplit rfl
      cases hlast
      exact .inr hdiscovers
    · have hsplit : asks ++ [a] = (before ++ b :: after) ++ [c] := by simpa using hsplit
      obtain ⟨rfl, -⟩ := List.append_inj' hsplit rfl
      exact .inl ⟨before, b, after, rfl, hdiscovers⟩
  · rintro (⟨before, b, after, rfl, hdiscovers⟩ | hdiscovers)
    · exact ⟨before, b, after ++ [a], by simp, hdiscovers⟩
    · exact ⟨asks, a, [], rfl, hdiscovers⟩

/-- What an ask does to a datasource that needs its time field. -/
theorem after_of_needed (h : s.needsTimestamp = true) (a : Ask) :
    (a.IsRead → (s.after a).sent.filter Call.isMetadata = [s.metadataCall]) ∧
    (¬a.IsRead → (s.after a).sent.filter Call.isMetadata = []) ∧
    (∀ field, s.Discovers a field → (s.after a).datasource = s.datasource.told field) ∧
    ((¬∃ field, s.Discovers a field) → (s.after a).datasource = s.datasource ∧
      (a.IsRead → (s.after a).sent = [s.metadataCall])) := by
  simp only [discovers_iff]
  cases s.learns a with
  | spared hspared posts kept =>
    have hunread : ¬a.IsRead := by
      rcases hspared with hunread | hneedless
      · exact hunread
      · rw [h] at hneedless
        cases hneedless
    refine ⟨fun hread => absurd hread hunread, fun _ => filter_isMetadata_eq_nil posts, ?_, ?_⟩
    · rintro _ ⟨hread, -⟩
      exact absurd hread hunread
    · exact fun _ => ⟨kept, fun hread => absurd hread hunread⟩
  | told read needed told sent posts learnt =>
    refine ⟨fun _ => ?_, fun hunread => absurd read hunread, ?_, ?_⟩
    · rw [sent, List.filter_cons_of_pos s.isMetadata_metadataCall, filter_isMetadata_eq_nil posts]
    · rintro field ⟨-, -, htold⟩
      rw [told] at htold
      cases htold
      exact learnt
    · intro hnone
      exact absurd ⟨_, read, needed, told⟩ hnone
  | untold read needed untold sent kept =>
    refine ⟨fun _ => ?_, fun hunread => absurd read hunread, ?_, fun _ => ⟨kept, fun _ => sent⟩⟩
    · rw [sent, List.filter_cons_of_pos s.isMetadata_metadataCall, List.filter_nil]
    · rintro field ⟨-, -, htold⟩
      rw [untold] at htold
      cases htold

/-- A run leaves the datasource as it was, up to the ask that has the time field told. -/
theorem datasource_afterAll (h : s.needsTimestamp = true) (asks : List Ask) :
    (∀ field, s.HasDiscovered asks field →
      (s.afterAll asks).datasource = s.datasource.told field) ∧
    ((¬∃ field, s.HasDiscovered asks field) → (s.afterAll asks).datasource = s.datasource) := by
  induction asks using List.reverseRecOn with
  | nil =>
    refine ⟨?_, fun _ => rfl⟩
    rintro _ ⟨before, a, after, hsplit, -⟩
    simp at hsplit
  | append_singleton asks a ih =>
    have hstep : s.afterAll (asks ++ [a]) = (s.afterAll asks).after a := afterAll_append s asks [a]
    simp only [hasDiscovered_concat_iff, hstep]
    by_cases hbefore : ∃ field, s.HasDiscovered asks field
    · obtain ⟨first, hfirst⟩ := hbefore
      have hneedless := needless_of_told (ih.1 first hfirst)
      refine ⟨?_, fun hnone => absurd ⟨first, .inl hfirst⟩ hnone⟩
      rintro field (hfield | hfield)
      · rw [(after_of_needless hneedless a).2]
        exact ih.1 field hfield
      · have hneeded := (discovers_iff.mp hfield).2.1
        rw [hneedless] at hneeded
        cases hneeded
    · have hkept := ih.2 hbefore
      have hneeded : (s.afterAll asks).needsTimestamp = true := by
        rw [needsTimestamp, hkept]
        exact h
      obtain ⟨-, -, htold, huntold⟩ := after_of_needed hneeded a
      rw [hkept] at htold huntold
      constructor
      · rintro field (hfield | hfield)
        · exact absurd ⟨field, hfield⟩ hbefore
        · exact htold field hfield
      · intro hnone
        exact (huntold fun ⟨field, hfield⟩ => hnone ⟨field, .inr hfield⟩).1

/-- A datasource whose time field is configured, or was told before, is never asked about and stays
as it is. Any other one is asked about once for each ask whose queries are read, until a reply tells
the time field. From then on it has what that reply told and is not asked about again. As long as no
reply does, it stays as it is, and an ask that had none sends no batch. -/
theorem discovers_once (s : Service) (before : List Ask) (a : Ask) :
    (s.datasource.fields.timeField ≠ "" ∨ s.datasource.discovered = true →
      ((s.afterAll before).after a).sent.filter Call.isMetadata = [] ∧
      ((s.afterAll before).after a).datasource = s.datasource) ∧
    (s.datasource.fields.timeField = "" → s.datasource.discovered = false →
      (∀ field, s.HasDiscovered before field →
        ((s.afterAll before).after a).sent.filter Call.isMetadata = [] ∧
        ((s.afterAll before).after a).datasource = s.datasource.told field) ∧
      ((¬∃ field, s.HasDiscovered before field) →
        (a.IsRead →
          ((s.afterAll before).after a).sent.filter Call.isMetadata = [s.metadataCall]) ∧
        (¬a.IsRead → ((s.afterAll before).after a).sent.filter Call.isMetadata = []) ∧
        (∀ field, (s.afterAll before).Discovers a field →
          ((s.afterAll before).after a).datasource = s.datasource.told field) ∧
        ((¬∃ field, (s.afterAll before).Discovers a field) →
          ((s.afterAll before).after a).datasource = s.datasource ∧
          (a.IsRead → ((s.afterAll before).after a).sent.filter Call.isBatch = [])))) := by
  refine ⟨fun hset => ?_, fun hfield hflag => ⟨fun field hdiscovered => ?_, fun hnone => ?_⟩⟩
  · have hneedless : s.needsTimestamp = false := by
      rw [Bool.eq_false_iff, ne_eq, needsTimestamp_iff, not_and]
      intro hfield hflag
      rcases hset with hset | hset
      · exact hset hfield
      · rw [hflag] at hset
        cases hset
    have hkept := datasource_afterAll_of_needless hneedless before
    have hneedless' : (s.afterAll before).needsTimestamp = false := by
      rw [needsTimestamp, hkept]
      exact hneedless
    rw [← hkept]
    exact after_of_needless hneedless' a
  · have hneeded := needsTimestamp_iff.mpr ⟨hfield, hflag⟩
    have htold := (datasource_afterAll hneeded before).1 field hdiscovered
    rw [← htold]
    exact after_of_needless (needless_of_told htold) a
  · have hneeded := needsTimestamp_iff.mpr ⟨hfield, hflag⟩
    have hkept := (datasource_afterAll hneeded before).2 hnone
    have hneeded' : (s.afterAll before).needsTimestamp = true := by
      rw [needsTimestamp, hkept]
      exact hneeded
    obtain ⟨hread, hunread, htold, huntold⟩ := after_of_needed hneeded' a
    have hcall : (s.afterAll before).metadataCall = s.metadataCall := by
      rw [metadataCall, hkept, metadataCall]
    rw [hkept] at htold huntold
    rw [hcall] at hread huntold
    refine ⟨hread, hunread, htold, fun hfailed => ?_⟩
    obtain ⟨hsame, hsent⟩ := huntold hfailed
    refine ⟨hsame, fun h => ?_⟩
    rw [hsent h]
    simp [isBatch_metadataCall]

/-- A service that knows nothing of the time field. -/
def unconfigured : Service where
  datasource := { url := "http://qw/api/v1", index := "logs", geohashPrecision := 3 }

/-- The metadata of an index with the time field `ts`. -/
def timedMetadata : Reply where
  body :=
    let mapping : Json := .obj [("timestamp_field", .str "ts")]
    (Json.obj [("index_config", .obj [("doc_mapping", mapping)])]).compact.toUTF8.data.toList

/-- No reply at first, then metadata with a time field: the datasource is not asked about a third
time. -/
theorem unconfigured_discovers_once :
    unconfigured.datasource.fields.timeField = "" ∧ unconfigured.datasource.discovered = false ∧
    unconfigured.HasDiscovered [logLinesAsk [], logLinesAsk [.reply timedMetadata]]
      { field := "ts" } ∧
    ((unconfigured.afterAll [logLinesAsk [], logLinesAsk [.reply timedMetadata]]).after
      (logLinesAsk [])).sent.filter Call.isMetadata = [] ∧
    ((unconfigured.afterAll [logLinesAsk [], logLinesAsk [.reply timedMetadata]]).after
      (logLinesAsk [])).datasource = unconfigured.datasource.told { field := "ts" } := by
  have hdiscovered : unconfigured.HasDiscovered
      [logLinesAsk [], logLinesAsk [.reply timedMetadata]] { field := "ts" } := by
    refine ⟨[logLinesAsk []], logLinesAsk [.reply timedMetadata], [], rfl, ?_⟩
    refine ⟨.metadata "http://qw/api/v1/indexes/logs" none, .reply timedMetadata, ?_, rfl, ?_⟩
    · decide +kernel
    · decide +kernel
  have honce := (discovers_once unconfigured [logLinesAsk [], logLinesAsk [.reply timedMetadata]]
    (logLinesAsk [])).2 rfl rfl
  exact ⟨rfl, rfl, hdiscovered, honce.1 { field := "ts" } hdiscovered⟩

end Service

end PanelSearch
