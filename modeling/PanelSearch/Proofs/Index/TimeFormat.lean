import Mathlib.Data.List.Lex
import PanelSearch.Index.Mapping
import PanelSearch.Proofs.Response.Flatten

/-! The search for the output format of a time field. The fields of a forest that are reached
through objects stand in a list, each in front of the fields inside it, and the search returns the
format of the first time field in this list that has the path and a format. -/

namespace PanelSearch.FieldMapping

def name : FieldMapping → String
  | field name _ _ _ => name

/-- A field of a forest, with its place and the names on the way to it. A place is the position of
each field on the way among its siblings. All fields on the way but the last are objects. -/
inductive FieldAt : List FieldMapping → List Nat → List String → FieldMapping → Prop
  | here {fields : List FieldMapping} {i : Nat} {mapping : FieldMapping}
      (hfield : fields[i]? = some mapping) : FieldAt fields [i] [mapping.name] mapping
  | inside {fields inner : List FieldMapping} {i : Nat} {name : String} {format : Option String}
      {place : List Nat} {names : List String} {mapping : FieldMapping}
      (hobject : fields[i]? = some (.field name .object format inner))
      (hbelow : FieldAt inner place names mapping) :
      FieldAt fields (i :: place) (name :: names) mapping

theorem FieldAt.place_ne_nil {fields : List FieldMapping} {place : List Nat} {names : List String}
    {mapping : FieldMapping} (h : FieldAt fields place names mapping) : place ≠ [] := by
  cases h <;> exact List.cons_ne_nil _ _

/-- Pre-order: a place is before the places below it, and else the first positions that differ
decide. -/
def PlaceBefore : List Nat → List Nat → Prop := List.Lex (· < ·)

theorem PlaceBefore.asymm {p q : List Nat} (h : PlaceBefore p q) : ¬PlaceBefore q p :=
  Std.Asymm.asymm (r := List.Lex (· < ·)) p q h

/-- At a place of a forest there is a time field with a path and a format. Its path is made of the
name of the parent and the names on the way, joined by dots. -/
def TimeFieldAt (path parent : String) (fields : List FieldMapping) (place : List Nat)
    (format : String) : Prop :=
  ∃ names name inner, FieldAt fields place names (.field name .datetime (some format) inner) ∧
    Flatten.dotted (parent :: names) = path

/-- A field that is reached, with its place and the names on the way to it. -/
structure Reached where
  place : List Nat
  names : List String
  mapping : FieldMapping

def Reached.under (i : Nat) (name : String) (r : Reached) : Reached :=
  { r with place := i :: r.place, names := name :: r.names }

mutual

/-- A field and those inside it that are reached, in pre-order. -/
def reachedFrom : FieldMapping → List Reached
  | field name .object format inner =>
    ⟨[], [], field name .object format inner⟩ :: reachedAmong 0 inner
  | mapping => [⟨[], [], mapping⟩]

/-- The fields of a forest that are reached, in pre-order; `i` is the position of the first. -/
def reachedAmong (i : Nat) : List FieldMapping → List Reached
  | [] => []
  | mapping :: rest =>
    (reachedFrom mapping).map (Reached.under i mapping.name) ++ reachedAmong (i + 1) rest

end

/-- Induction over a field, which may use what holds of the fields inside it. -/
theorem inductionOn {motive : FieldMapping → Prop}
    (field : ∀ name type format (inner : List FieldMapping), (∀ m ∈ inner, motive m) →
      motive (.field name type format inner)) : (mapping : FieldMapping) → motive mapping
  | .field name type format inner => field name type format inner fun m _ => inductionOn field m
termination_by mapping => sizeOf mapping
decreasing_by
  rename_i hm
  have := List.sizeOf_lt_of_mem hm
  simp only [FieldMapping.field.sizeOf_spec]
  omega

section Order

variable {fields : List FieldMapping}

theorem reachedFrom_object (name : String) (format : Option String) (inner : List FieldMapping) :
    reachedFrom (field name .object format inner) =
      ⟨[], [], field name .object format inner⟩ :: reachedAmong 0 inner := by
  rw [reachedFrom]

theorem reachedFrom_of_ne {name : String} {type : FieldType} (h : type ≠ .object)
    (format : Option String) (inner : List FieldMapping) :
    reachedFrom (field name type format inner) = [⟨[], [], field name type format inner⟩] := by
  cases type with
  | object => exact absurd rfl h
  | datetime | other => rfl

theorem reachedAmong_eq_flatMap (i : Nat) (fields : List FieldMapping) :
    reachedAmong i fields = (fields.zipIdx i).flatMap fun m =>
      (reachedFrom m.1).map (Reached.under m.2 m.1.name) := by
  induction fields generalizing i with
  | nil => rfl
  | cons mapping rest ih => rw [reachedAmong, ih, List.zipIdx_cons, List.flatMap_cons]

theorem mem_reachedAmong_iff_of {r : Reached}
    (h : ∀ m ∈ fields, ∀ s, s ∈ reachedFrom m ↔ s = ⟨[], [], m⟩ ∨
      ∃ name format inner, m = .field name .object format inner ∧
        FieldAt inner s.place s.names s.mapping) :
    r ∈ reachedAmong 0 fields ↔ FieldAt fields r.place r.names r.mapping := by
  rw [reachedAmong_eq_flatMap, List.mem_flatMap]
  constructor
  · rintro ⟨⟨m, i⟩, hm, hr⟩
    have hfield : fields[i]? = some m := List.mk_mem_zipIdx_iff_getElem?.mp hm
    obtain ⟨s, hs, rfl⟩ := List.mem_map.mp hr
    rcases (h m (List.mem_of_getElem? hfield) s).mp hs with rfl | ⟨name, format, inner, rfl, hbelow⟩
    · exact .here hfield
    · exact .inside hfield hbelow
  · intro hr
    obtain ⟨place, names, mapping⟩ := r
    change FieldAt fields place names mapping at hr
    cases hr with
    | @here _ i _ hfield =>
      refine ⟨(mapping, i), List.mk_mem_zipIdx_iff_getElem?.mpr hfield, ?_⟩
      refine List.mem_map.mpr ⟨⟨[], [], mapping⟩, ?_, rfl⟩
      exact (h mapping (List.mem_of_getElem? hfield) _).mpr (.inl rfl)
    | @inside _ inner i name format place names _ hobject hbelow =>
      refine ⟨(.field name .object format inner, i), ?_, ?_⟩
      · exact List.mk_mem_zipIdx_iff_getElem?.mpr hobject
      refine List.mem_map.mpr ⟨⟨place, names, mapping⟩, ?_, rfl⟩
      exact (h _ (List.mem_of_getElem? hobject) _).mpr (.inr ⟨name, format, inner, rfl, hbelow⟩)

theorem mem_reachedFrom_iff {m : FieldMapping} {r : Reached} :
    r ∈ reachedFrom m ↔ r = ⟨[], [], m⟩ ∨ ∃ name format inner,
      m = .field name .object format inner ∧ FieldAt inner r.place r.names r.mapping := by
  induction m using inductionOn generalizing r with
  | field name type format inner ih =>
    by_cases htype : type = .object
    · subst htype
      rw [reachedFrom_object, List.mem_cons, mem_reachedAmong_iff_of fun m hm s => ih m hm]
      constructor
      · exact .imp_right fun h => ⟨name, format, inner, rfl, h⟩
      · rintro (h | ⟨_, _, _, heq, h⟩)
        · exact .inl h
        · cases heq
          exact .inr h
    · rw [reachedFrom_of_ne htype, List.mem_singleton]
      refine ⟨.inl, ?_⟩
      rintro (h | ⟨_, _, _, heq, -⟩)
      · exact h
      · cases heq
        exact absurd rfl htype

theorem mem_reachedAmong_iff {r : Reached} :
    r ∈ reachedAmong 0 fields ↔ FieldAt fields r.place r.names r.mapping :=
  mem_reachedAmong_iff_of fun _ _ _ => mem_reachedFrom_iff

/-- A list of fields that are reached is in pre-order. -/
def InOrder (rs : List Reached) : Prop := rs.Pairwise fun r s => PlaceBefore r.place s.place

theorem inOrder_reachedAmong_of (h : ∀ m ∈ fields, InOrder (reachedFrom m)) :
    InOrder (reachedAmong 0 fields) := by
  rw [reachedAmong_eq_flatMap, InOrder, List.pairwise_flatMap]
  constructor
  · rintro ⟨m, i⟩ hm
    rw [List.pairwise_map]
    exact (h m (List.fst_mem_of_mem_zipIdx hm)).imp fun hbefore => .cons hbefore
  · refine (Traversal.pairwise_zipIdx fields).imp fun {m n} hlt r hr s hs => ?_
    obtain ⟨_, -, rfl⟩ := List.mem_map.mp hr
    obtain ⟨_, -, rfl⟩ := List.mem_map.mp hs
    exact .rel hlt

theorem inOrder_reachedFrom (m : FieldMapping) : InOrder (reachedFrom m) := by
  induction m using inductionOn with
  | field name type format inner ih =>
    by_cases htype : type = .object
    · subst htype
      rw [reachedFrom_object]
      refine List.pairwise_cons.mpr ⟨fun r hr => ?_, inOrder_reachedAmong_of ih⟩
      rw [mem_reachedAmong_iff] at hr
      obtain ⟨i, below, hplace⟩ := List.exists_cons_of_ne_nil hr.place_ne_nil
      rw [hplace]
      exact .nil
    · rw [reachedFrom_of_ne htype]
      exact List.pairwise_singleton _ _

theorem inOrder_reachedAmong (fields : List FieldMapping) : InOrder (reachedAmong 0 fields) :=
  inOrder_reachedAmong_of fun m _ => inOrder_reachedFrom m

end Order

section Search

variable {path parent : String} {fields : List FieldMapping}

/-- The format of a field under a parent, if it is a time field with a path. -/
def Reached.format? (path parent : String) (r : Reached) : Option String :=
  match r.mapping with
  | field _ .datetime format _ =>
    if r.names.foldl pathUnder parent = path then format else none
  | _ => none

theorem formatIn?_eq_of (i : Nat) (h : ∀ m ∈ fields, ∀ parent, formatOf? path parent m =
      (reachedFrom m).findSome? (Reached.format? path (pathUnder parent m.name))) :
    formatIn? path parent fields =
      (reachedAmong i fields).findSome? (Reached.format? path parent) := by
  induction fields generalizing i with
  | nil => rfl
  | cons m rest ih =>
    rw [formatIn?, reachedAmong, List.findSome?_append, List.findSome?_map,
      ← ih (i + 1) fun n hn => h n (List.mem_cons_of_mem m hn), h m List.mem_cons_self]
    change _ = Option.or (List.findSome? (Reached.format? path (pathUnder parent m.name)) _) _
    cases (reachedFrom m).findSome? (Reached.format? path (pathUnder parent m.name)) <;> rfl

theorem formatOf?_eq (m : FieldMapping) (parent : String) : formatOf? path parent m =
    (reachedFrom m).findSome? (Reached.format? path (pathUnder parent m.name)) := by
  induction m using inductionOn generalizing parent with
  | field name type format inner ih =>
    cases type with
    | object =>
      rw [reachedFrom_object, formatOf?, formatIn?_eq_of 0 fun m hm parent => ih m hm parent]
      rfl
    | datetime =>
      rw [reachedFrom_of_ne (by decide), formatOf?, List.findSome?_singleton]
      rfl
    | other => rfl

theorem formatIn?_eq : formatIn? path parent fields =
    (reachedAmong 0 fields).findSome? (Reached.format? path parent) :=
  formatIn?_eq_of 0 fun m _ parent => formatOf?_eq m parent

theorem foldl_pathUnder (names : List String) :
    names.foldl pathUnder parent = Flatten.dotted (parent :: names) := by
  rw [← Flatten.foldl_joined, List.foldl_cons]
  rfl

theorem format?_eq_some_iff {r : Reached} {format : String} :
    r.format? path parent = some format ↔ ∃ name inner,
      r.mapping = .field name .datetime (some format) inner ∧
        Flatten.dotted (parent :: r.names) = path := by
  obtain ⟨place, names, name, type, outputFormat, inner⟩ := r
  cases type with
  | datetime => simp [Reached.format?, foldl_pathUnder, and_comm]
  | object | other => simp [Reached.format?]

theorem timeFieldAt_iff {place : List Nat} {format : String} :
    TimeFieldAt path parent fields place format ↔
      ∃ r ∈ reachedAmong 0 fields, r.place = place ∧ r.format? path parent = some format := by
  simp only [mem_reachedAmong_iff, format?_eq_some_iff]
  constructor
  · rintro ⟨names, name, inner, hfield, hpath⟩
    exact ⟨⟨place, names, _⟩, hfield, rfl, name, inner, rfl, hpath⟩
  · rintro ⟨⟨_, names, _⟩, hfield, rfl, name, inner, rfl, hpath⟩
    exact ⟨names, name, inner, hfield, hpath⟩

theorem formatIn?_eq_some_iff {format : String} : formatIn? path parent fields = some format ↔
    ∃ place, TimeFieldAt path parent fields place format ∧
      ∀ other f, TimeFieldAt path parent fields other f → ¬PlaceBefore other place := by
  have horder := inOrder_reachedAmong fields
  simp only [formatIn?_eq, timeFieldAt_iff, List.findSome?_eq_some_iff]
  constructor
  · rintro ⟨front, r, behind, hrs, hr, hnone⟩
    rw [InOrder, hrs, List.pairwise_append] at horder
    refine ⟨r.place, ⟨r, by simp [hrs], rfl, hr⟩, ?_⟩
    rintro _ f ⟨s, hs, rfl, hf⟩ hbefore
    rcases List.mem_append.mp (hrs ▸ hs) with hs | hs
    · rw [hnone s hs] at hf
      cases hf
    · rcases List.mem_cons.mp hs with rfl | hs
      · exact hbefore.asymm hbefore
      · exact hbefore.asymm (List.rel_of_pairwise_cons horder.2.1 hs)
  · rintro ⟨_, ⟨r, hr, rfl, hformat⟩, hfirst⟩
    obtain ⟨front, behind, hrs⟩ := List.append_of_mem hr
    rw [InOrder, hrs, List.pairwise_append] at horder
    refine ⟨front, r, behind, hrs, hformat, fun s hs => ?_⟩
    refine Option.eq_none_iff_forall_ne_some.mpr fun f hf => ?_
    have hbefore : PlaceBefore s.place r.place := horder.2.2 s hs r List.mem_cons_self
    exact hfirst s.place f ⟨s, by simp [hrs, hs], rfl, hf⟩ hbefore

theorem formatIn?_eq_none_iff : formatIn? path parent fields = none ↔
    ∀ place format, ¬TimeFieldAt path parent fields place format := by
  simp only [formatIn?_eq, timeFieldAt_iff, List.findSome?_eq_none_iff]
  constructor
  · rintro h place format ⟨r, hr, -, hformat⟩
    rw [h r hr] at hformat
    cases hformat
  · intro h r hr
    exact Option.eq_none_iff_forall_ne_some.mpr fun format hformat =>
      h r.place format ⟨r, hr, rfl, hformat⟩

end Search

/-- The search returns the format of the time field with the path in front of which there is no
other one, in pre-order, and nothing just when there is no such field. A parent that is not given
is empty. -/
theorem formatIn?_first (path parent : String) (fields : List FieldMapping) :
    (∀ format, formatIn? path parent fields = some format ↔
      ∃ place, TimeFieldAt path parent fields place format ∧
        ∀ other f, TimeFieldAt path parent fields other f → ¬PlaceBefore other place) ∧
    (formatIn? path parent fields = none ↔
      ∀ place format, ¬TimeFieldAt path parent fields place format) :=
  ⟨fun _ => formatIn?_eq_some_iff, formatIn?_eq_none_iff⟩

example : formatIn? "span.at" "" [.field "span" .object none [.field "at" .datetime none [],
    .field "at" .datetime (some "rfc3339") []], .field "span.at" .datetime (some "iso8601") []] =
    some "rfc3339" := by
  decide +kernel

end PanelSearch.FieldMapping
