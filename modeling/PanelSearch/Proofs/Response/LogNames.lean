import PanelSearch.Proofs.Response.Documents

/-! The names of configured fields in log lines. The message is found under `line` and the level
under `level`, unless the source has a member of that name behind the field: then the value of the
member takes the place of the configured one. -/

namespace PanelSearch

namespace Entries

variable {α : Type}

/-- The entries behind the one with a key. -/
def behind : Entries α → String → Entries α
  | [], _ => []
  | (k, _) :: rest, key => if k = key then rest else behind rest key

theorem behind_cons_self (key : String) (v : α) (rest : Entries α) :
    behind ((key, v) :: rest) key = rest := if_pos rfl

theorem behind_cons_of_ne {k key : String} (h : k ≠ key) (v : α) (rest : Entries α) :
    behind ((k, v) :: rest) key = behind rest key := if_neg h

theorem nodup_keys_behind {es : Entries α} (hkeys : (keys es).Nodup) (key : String) :
    (key :: keys (behind es key)).Nodup := by
  induction es with
  | nil => simp [behind]
  | cons e es ih =>
    obtain ⟨k, v⟩ := e
    by_cases hk : k = key
    · subst hk
      rw [behind_cons_self]
      exact hkeys
    · rw [behind_cons_of_ne hk]
      exact ih (List.nodup_cons.mp hkeys).2

/-- When keys are renamed, the last one behind a key that comes to the same name counts, and if
there is none, the key itself. -/
theorem get?_ofList_renamed {es : Entries α} {field : String} {value : α} (rename : String → String)
    (h : get? es field = some value) :
    get? (ofList (es.map fun (k, v) => (rename k, v))) (rename field) =
      (get? (ofList ((behind es field).map fun (k, v) => (rename k, v))) (rename field)).or
        (some value) := by
  simp only [get?_ofList]
  induction es with
  | nil => cases h
  | cons e es ih =>
    obtain ⟨k, v⟩ := e
    rw [get?_cons] at h
    rw [List.map_cons, List.reverse_cons, get?_append]
    by_cases hk : k = field
    · rw [if_pos hk] at h
      cases h
      subst hk
      rw [behind_cons_self, get?_cons, if_pos rfl]
    · rw [if_neg hk] at h
      rw [behind_cons_of_ne hk, ih h, Option.or_assoc, Option.some_or]

/-- Where only the key itself comes to a name, it counts if it keeps the name. -/
theorem get?_ofList_of_kept {es : Entries α} {rename : String → String} {name : String}
    (hkeys : (keys es).Nodup) (hkept : ∀ k ∈ keys es, rename k = name → k = name) :
    get? (ofList (es.map fun (k, v) => (rename k, v))) name =
      if rename name = name then get? es name else none := by
  rw [get?_ofList]
  induction es with
  | nil => simp
  | cons e es ih =>
    obtain ⟨k, v⟩ := e
    rw [keys_cons, List.nodup_cons] at hkeys
    rw [keys_cons, List.forall_mem_cons] at hkept
    rw [List.map_cons, List.reverse_cons, get?_append, ih hkeys.2 hkept.2, get?_cons, get?_cons]
    by_cases hk : k = name
    · subst hk
      rw [get?_of_not_mem_keys hkeys.1]
      split <;> simp
    · rw [if_neg hk, if_neg fun hname => hk (hkept.1 hname)]
      simp

end Entries

namespace Document

open Entries (behind)

variable {known : ConfiguredFields} {hit : Hit} {field name : String} {value : Json}

/-- The configured fields with their names in log lines. A field that is both is the level. -/
inductive NamedFor (known : ConfiguredFields) : String → String → Prop
  | level (given : known.levelField ≠ "") : NamedFor known known.levelField levelName
  | message (given : known.messageField ≠ "") (other : known.messageField ≠ known.levelField) :
    NamedFor known known.messageField lineName

theorem NamedFor.logName_eq (h : NamedFor known field name) : logName known field = name := by
  cases h with
  | level given => simp [logName, given]
  | message given other => simp [logName, given, other]

/-- Besides the field only a member that bears the name itself has it in log lines. -/
theorem NamedFor.eq_of_logName (h : NamedFor known field name) {key : String}
    (hkey : logName known key = name) : key = field ∨ key = name := by
  unfold logName at hkey
  cases h with
  | level given =>
    split at hkey
    · exact .inl ‹_ ∧ _›.2
    · split at hkey
      · exact absurd hkey (by decide)
      · exact .inr hkey
  | message given other =>
    split at hkey
    · exact absurd hkey (by decide)
    · split at hkey
      · exact .inl ‹_ ∧ _›.2
      · exact .inr hkey

/-- A member that bears the name itself, and keeps it, comes behind the field with another value. -/
def IsOverwritten (known : ConfiguredFields) (source : Document) (field name : String)
    (value : Json) : Prop :=
  logName known name = name ∧ ∃ other, (behind source field).get? name = some other ∧ other ≠ value

/-- What the fields of the hit leave alone is what the renamed source has. -/
theorem get?_ofLogHit (hfields : Entries.get? hit.fields name = none) (hsource : name ≠ "_source")
    (hsort : name ≠ "sort") : Entries.get? (ofLogHit known hit) name =
      Entries.get? (.ofList (hit.source.map fun (k, v) => (logName known k, v))) name := by
  have hnone : Entries.get? hit.fields.reverse name = none := by
    refine Entries.get?_of_not_mem_keys fun hmem => ?_
    rw [Entries.keys, List.map_reverse, List.mem_reverse] at hmem
    obtain ⟨v, hv⟩ := Entries.exists_get?_of_mem_keys hmem
    rw [hfields] at hv
    cases hv
  have hdoc : ∀ doc : Document, Entries.get? (doc.put "_source" (.obj hit.source)) name =
      Entries.get? doc name := fun doc => by rw [Entries.get?_put, if_neg hsource]
  unfold ofLogHit
  dsimp only
  split
  · rw [Entries.get?_put, if_neg hsort, hdoc, Entries.get?_putAll, hnone, Option.none_or]
  · rw [hdoc, Entries.get?_putAll, hnone, Option.none_or]

theorem get?_ofLogHit_eq (hnamed : NamedFor known field name)
    (hvalue : Entries.get? hit.source field = some value)
    (hfields : Entries.get? hit.fields name = none) :
    Entries.get? (ofLogHit known hit) name =
      (if logName known name = name then (behind hit.source field).get? name else none).or
        (some value) := by
  have hplain : name ≠ "_source" ∧ name ≠ "sort" := by
    cases hnamed <;> decide
  have hdistinct : (Entries.keys hit.source).Nodup := Entries.nodup_keys_ofList _
  obtain ⟨hfield, hbehind⟩ := List.nodup_cons.mp (Entries.nodup_keys_behind hdistinct field)
  have hkept : ∀ key ∈ Entries.keys (behind hit.source field),
      logName known key = name → key = name := by
    intro key hmem hkey
    refine (hnamed.eq_of_logName hkey).resolve_left ?_
    rintro rfl
    exact hfield hmem
  have hrenamed := Entries.get?_ofList_renamed (logName known) hvalue
  rw [hnamed.logName_eq, Entries.get?_ofList_of_kept hbehind hkept] at hrenamed
  exact (get?_ofLogHit hfields hplain.1 hplain.2).trans hrenamed

/-- The log line of a hit has the value of a configured field under the name for it just if no later
member of the source that bears the name takes its place. -/
theorem get?_logRow_iff {items : List Json} {doc : Document}
    (hrow : (doc, hit) ∈ logRows known items) (hnamed : NamedFor known field name)
    (hvalue : Entries.get? hit.source field = some value)
    (hfields : Entries.get? hit.fields name = none) :
    Entries.get? doc name = some value ↔ ¬IsOverwritten known hit.source field name value := by
  obtain ⟨hit', -, hdoc⟩ := List.mem_map.mp hrow
  cases hdoc
  rw [get?_ofLogHit_eq hnamed hvalue hfields, IsOverwritten]
  split
  · rename_i hkeeps
    cases hother : Entries.get? (behind hit.source field) name with
    | none => simp
    | some other => simp [hkeeps]
  · rename_i hkeeps
    simp [hkeeps]

/-- Log lines with a message and a level under names of the source. -/
def warningFields : ConfiguredFields where
  messageField := "message"
  levelField := "severity"

def sourceHit (source : Entries Json) : Hit := [("_source", .obj source)]

/-- A member that bears the name of the message itself does no harm in front of the message. -/
def lineFirst : Hit :=
  sourceHit [("line", .int 7), ("message", .str "up"), ("severity", .str "warn")]

theorem lineFirst_holds :
    (ofLogHit warningFields lineFirst, lineFirst) ∈ logRows warningFields [.obj lineFirst] ∧
    NamedFor warningFields "message" "line" ∧ NamedFor warningFields "severity" "level" ∧
    Entries.get? lineFirst.source "message" = some (.str "up") ∧
    Entries.get? lineFirst.source "severity" = some (.str "warn") ∧
    Entries.get? lineFirst.fields "line" = none ∧ Entries.get? lineFirst.fields "level" = none ∧
    Entries.get? (ofLogHit warningFields lineFirst) "line" = some (.str "up") ∧
    Entries.get? (ofLogHit warningFields lineFirst) "level" = some (.str "warn") := by
  have hrow : (ofLogHit warningFields lineFirst, lineFirst) ∈
      logRows warningFields [.obj lineFirst] := List.mem_singleton.mpr rfl
  have hmessage : NamedFor warningFields "message" "line" := .message (by decide) (by decide)
  have hlevel : NamedFor warningFields "severity" "level" := .level (by decide)
  have hup : Entries.get? lineFirst.source "message" = some (.str "up") := rfl
  have hwarn : Entries.get? lineFirst.source "severity" = some (.str "warn") := rfl
  have hline := (get?_logRow_iff hrow hmessage hup rfl).mpr fun ⟨_, _, hother, _⟩ => by
    cases hother
  have hlevelValue := (get?_logRow_iff hrow hlevel hwarn rfl).mpr fun ⟨_, _, hother, _⟩ => by
    cases hother
  exact ⟨hrow, hmessage, hlevel, hup, hwarn, rfl, rfl, hline, hlevelValue⟩

/-- Behind the message such a member takes its place. -/
theorem lineLast_overwrites : ¬∀ (known : ConfiguredFields) (hit : Hit) (value : Json),
    known.messageField ≠ "" → known.messageField ≠ known.levelField →
      Entries.get? hit.source known.messageField = some value →
      Entries.get? hit.fields "line" = none →
      Entries.get? (ofLogHit known hit) "line" = some value := by
  intro h
  have hline := h { messageField := "body" }
    (sourceHit [("body", .str "up"), ("line", .int 7)]) (.str "up") (by decide) (by decide)
    rfl rfl
  have hother : Entries.get? (ofLogHit { messageField := "body" }
      (sourceHit [("body", .str "up"), ("line", .int 7)])) "line" = some (.int 7) := rfl
  rw [hother] at hline
  cases hline

end Document

end PanelSearch
