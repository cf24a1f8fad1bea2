import PanelSearch.Proofs.Entries
import PanelSearch.Proofs.Json.Basic
import PanelSearch.Proofs.Traversal
import PanelSearch.Response.Flatten

/-! The leaves of a nested object and the flat object of them. A leaf is told by its place, the
members on the way down to it, and places are in document order when the first members that differ
are. The flat object holds the last leaf of each joined key. -/

namespace PanelSearch.Flatten

/-- The way down to a value: each member on it by its position and its key. -/
abbrev Place := List (Nat × String)

def Place.keys (place : Place) : List String := place.map (·.2)

/-- Document order: the first members that differ decide. -/
def Place.Before : Place → Place → Prop := List.Lex fun a b => a.1 < b.1

/-- A place leads from a value down to another one. -/
inductive Leads : Json → Place → Json → Prop
  | here (value : Json) : Leads value [] value
  | down {members : Entries Json} {i : Nat} {key : String} {below value : Json} {place : Place}
      (hmember : members[i]? = some (key, below)) (hbelow : Leads below place value) :
      Leads (.obj members) ((i, key) :: place) value

def hasMembers (value : Json) : Bool := !value.membersD.isEmpty

/-- A leaf of an object: a value that is no object with members, or one as deep as leaves may be. -/
structure IsLeaf (maxDepth : Nat) (target : Entries Json) (place : Place) (value : Json) :
    Prop where
  leads : Leads (.obj target) place value
  ne_nil : place ≠ []
  length_le : place.length ≤ maxDepth + 1
  ends : place.length = maxDepth + 1 ∨ hasMembers value = false

/-- Keys joined by dots, where no dot stands before the first key that is not empty. -/
def dotted (keys : List String) : String := ".".intercalate (keys.dropWhile String.isEmpty)

theorem joined_of_ne {path : String} (h : path ≠ "") (key : String) :
    joined path key = path ++ "." ++ key := by
  have hpath : path.isEmpty = false := by simpa using h
  simp [joined, hpath]

theorem foldl_joined_of_ne {path : String} (h : path ≠ "") (keys : List String) :
    keys.foldl joined path = ".".intercalate (path :: keys) := by
  induction keys generalizing path with
  | nil => simp
  | cons key keys ih =>
    have hnext : path ++ "." ++ key ≠ "" := by simp
    rw [List.foldl_cons, joined_of_ne h, ih hnext]
    apply String.toList_inj.mp
    cases keys <;> simp [String.toList_intercalate, List.intercalate]

theorem foldl_joined (keys : List String) : keys.foldl joined "" = dotted keys := by
  induction keys with
  | nil => rfl
  | cons key keys ih =>
    have hfirst : joined "" key = key := rfl
    rw [List.foldl_cons, hfirst]
    by_cases hkey : key = ""
    · subst hkey
      exact ih
    · have hnonempty : key.isEmpty = false := by simpa using hkey
      rw [foldl_joined_of_ne hkey, dotted, List.dropWhile_cons, hnonempty]
      rfl

def under (step : Nat × String) (leaf : Place × Json) : Place × Json := (step :: leaf.1, leaf.2)

mutual

/-- The leaves below members, the first of which is at position `i`, in document order. -/
def leavesAmong (levels i : Nat) : List (String × Json) → List (Place × Json)
  | [] => []
  | (key, value) :: rest =>
    (leavesUnder levels value).map (under (i, key)) ++ leavesAmong levels (i + 1) rest

/-- The leaves at most `levels` levels below a value, in document order. -/
def leavesUnder (levels : Nat) : Json → List (Place × Json)
  | .obj (m :: members) =>
    match levels with
    | 0 => [([], .obj (m :: members))]
    | levels + 1 => leavesAmong levels 0 (m :: members)
  | value => [([], value)]

end

/-- There are no leaves further down: no level is left, or the value has no members. -/
def Stops (levels : Nat) (value : Json) : Prop := levels = 0 ∨ hasMembers value = false

theorem leavesUnder_of_stops {levels : Nat} {value : Json} (h : Stops levels value) :
    leavesUnder levels value = [([], value)] := by
  unfold leavesUnder
  split
  · rcases h with rfl | h
    · rfl
    · cases h
  · rfl

theorem leavesUnder_obj {levels : Nat} {members : Entries Json}
    (h : ¬Stops levels (.obj members)) :
    ∃ below, levels = below + 1 ∧
      leavesUnder levels (.obj members) = leavesAmong below 0 members := by
  obtain ⟨hlevels, hmembers⟩ := not_or.mp h
  obtain ⟨below, rfl⟩ := Nat.exists_eq_succ_of_ne_zero hlevels
  cases members with
  | nil => exact absurd rfl hmembers
  | cons m members => exact ⟨below, rfl, rfl⟩

theorem leavesAmong_eq_flatMap (levels i : Nat) (members : Entries Json) :
    leavesAmong levels i members = (members.zipIdx i).flatMap fun m =>
      (leavesUnder levels m.1.2).map (under (m.2, m.1.1)) := by
  induction members generalizing i with
  | nil => rfl
  | cons m members ih =>
    obtain ⟨key, value⟩ := m
    rw [leavesAmong, ih, List.zipIdx_cons, List.flatMap_cons]

theorem mem_leavesAmong_iff {levels : Nat} {members : Entries Json} {place : Place}
    {value : Json} : (place, value) ∈ leavesAmong levels 0 members ↔
      ∃ i key below rest, members[i]? = some (key, below) ∧
        (rest, value) ∈ leavesUnder levels below ∧ place = (i, key) :: rest := by
  rw [leavesAmong_eq_flatMap, List.mem_flatMap]
  constructor
  · rintro ⟨⟨⟨key, below⟩, i⟩, hmember, hleaf⟩
    obtain ⟨⟨rest, v⟩, hrest, heq⟩ := List.mem_map.mp hleaf
    cases heq
    exact ⟨i, key, below, rest, List.mk_mem_zipIdx_iff_getElem?.mp hmember, hrest, rfl⟩
  · rintro ⟨i, key, below, rest, hmember, hrest, rfl⟩
    refine ⟨((key, below), i), List.mk_mem_zipIdx_iff_getElem?.mpr hmember, ?_⟩
    exact List.mem_map.mpr ⟨(rest, value), hrest, rfl⟩

theorem mem_leavesUnder_of_stops {levels : Nat} {top value : Json} {place : Place}
    (h : Stops levels top) : (place, value) ∈ leavesUnder levels top ↔ Leads top place value ∧
      place.length ≤ levels ∧ Stops (levels - place.length) value := by
  rw [leavesUnder_of_stops h, List.mem_singleton]
  constructor
  · intro heq
    cases heq
    exact ⟨.here top, Nat.zero_le levels, h⟩
  · rintro ⟨hleads, hlength, -⟩
    cases hleads with
    | here => rfl
    | @down members i key below _ rest hmember _ =>
      rcases h with rfl | hmembers
      · exact absurd hlength (Nat.not_succ_le_zero _)
      · cases members with
        | nil => cases hmember
        | cons => cases hmembers

/-- The leaves at most so many levels below a value, told by their places. -/
theorem mem_leavesUnder_iff {levels : Nat} {top value : Json} {place : Place} :
    (place, value) ∈ leavesUnder levels top ↔ Leads top place value ∧
      place.length ≤ levels ∧ Stops (levels - place.length) value := by
  induction top using Json.inductionOn generalizing levels place with
  | obj members ih =>
    by_cases hstops : Stops levels (.obj members)
    · exact mem_leavesUnder_of_stops hstops
    obtain ⟨below, rfl, hleaves⟩ := leavesUnder_obj hstops
    rw [hleaves, mem_leavesAmong_iff]
    constructor
    · rintro ⟨i, key, value', rest, hmember, hrest, rfl⟩
      obtain ⟨hleads, hlength, hends⟩ := (ih _ (List.mem_of_getElem? hmember)).mp hrest
      refine ⟨.down hmember hleads, Nat.succ_le_succ hlength, ?_⟩
      rwa [List.length_cons, Nat.add_sub_add_right]
    · rintro ⟨hleads, hlength, hends⟩
      cases hleads with
      | here => exact absurd hends hstops
      | @down _ i key value' _ rest hmember hbelow =>
        rw [List.length_cons, Nat.add_sub_add_right] at hends
        have hrest := (ih _ (List.mem_of_getElem? hmember)).mpr
          ⟨hbelow, Nat.le_of_succ_le_succ hlength, hends⟩
        exact ⟨i, key, value', rest, hmember, hrest, rfl⟩
  | _ => exact mem_leavesUnder_of_stops (.inr rfl)

/-- The leaves of an object, from the first to the last. -/
def leaves (maxDepth : Nat) (target : Entries Json) : List (Place × Json) :=
  leavesAmong maxDepth 0 target

theorem mem_leaves_iff {maxDepth : Nat} {target : Entries Json} {place : Place} {value : Json} :
    (place, value) ∈ leaves maxDepth target ↔ IsLeaf maxDepth target place value := by
  rw [leaves, mem_leavesAmong_iff]
  constructor
  · rintro ⟨i, key, below, rest, hmember, hrest, rfl⟩
    obtain ⟨hleads, hlength, hends⟩ := mem_leavesUnder_iff.mp hrest
    refine ⟨.down hmember hleads, by simp, Nat.succ_le_succ hlength, hends.imp_left ?_⟩
    rw [List.length_cons]
    omega
  · rintro ⟨hleads, hne, hlength, hends⟩
    cases hleads with
    | here => exact absurd rfl hne
    | @down _ i key below _ rest hmember hbelow =>
      rw [List.length_cons] at hlength hends
      refine ⟨i, key, below, rest, hmember, ?_, rfl⟩
      exact mem_leavesUnder_iff.mpr ⟨hbelow, by omega, hends.imp_left fun h => by omega⟩

theorem pairwise_leavesAmong {levels : Nat} {members : Entries Json}
    (h : ∀ m ∈ members, (leavesUnder levels m.2).Pairwise fun x y => x.1.Before y.1) :
    (leavesAmong levels 0 members).Pairwise fun x y => x.1.Before y.1 := by
  rw [leavesAmong_eq_flatMap, List.pairwise_flatMap]
  constructor
  · rintro ⟨m, i⟩ hm
    rw [List.pairwise_map]
    exact (h m (List.fst_mem_of_mem_zipIdx hm)).imp fun hbefore => .cons hbefore
  · refine (Traversal.pairwise_zipIdx members).imp fun {m n} hlt x hx y hy => ?_
    obtain ⟨_, -, rfl⟩ := List.mem_map.mp hx
    obtain ⟨_, -, rfl⟩ := List.mem_map.mp hy
    exact .rel hlt

theorem pairwise_leavesUnder (levels : Nat) (top : Json) :
    (leavesUnder levels top).Pairwise fun x y => x.1.Before y.1 := by
  induction top using Json.inductionOn generalizing levels with
  | obj members ih =>
    by_cases hstops : Stops levels (.obj members)
    · rw [leavesUnder_of_stops hstops]
      exact List.pairwise_singleton _ _
    · obtain ⟨below, rfl, hleaves⟩ := leavesUnder_obj hstops
      rw [hleaves]
      exact pairwise_leavesAmong fun m hm => ih m hm below
  | _ => exact List.pairwise_singleton _ _

theorem pairwise_leaves (maxDepth : Nat) (target : Entries Json) :
    (leaves maxDepth target).Pairwise fun x y => x.1.Before y.1 :=
  pairwise_leavesAmong fun m _ => pairwise_leavesUnder maxDepth m.2

/-- A leaf below a path, under its joined key. -/
def keyed (path : String) (leaf : Place × Json) : String × Json :=
  (leaf.1.keys.foldl joined path, leaf.2)

theorem ofMembers_of_ofValue {maxDepth depth : Nat} {members : Entries Json}
    (h : ∀ m ∈ members, ∀ path, ofValue maxDepth depth path m.2 =
      (leavesUnder (maxDepth - depth) m.2).map (keyed path)) (path : String) (i : Nat) :
    ofMembers maxDepth depth path members =
      (leavesAmong (maxDepth - depth) i members).map (keyed path) := by
  induction members generalizing i with
  | nil => rfl
  | cons m members ih =>
    obtain ⟨key, value⟩ := m
    rw [ofMembers, leavesAmong, List.map_append, List.map_map,
      h (key, value) List.mem_cons_self, ih fun m hm => h m (List.mem_cons_of_mem _ hm)]
    rfl

theorem ofValue_eq (maxDepth depth : Nat) (path : String) (value : Json) :
    ofValue maxDepth depth path value =
      (leavesUnder (maxDepth - depth) value).map (keyed path) := by
  induction value using Json.inductionOn generalizing depth path with
  | obj members ih =>
    cases members with
    | nil => rfl
    | cons m members =>
      rw [ofValue]
      by_cases hdepth : depth < maxDepth
      · have hlevels : maxDepth - depth = maxDepth - (depth + 1) + 1 := by omega
        rw [if_pos hdepth, hlevels]
        exact ofMembers_of_ofValue (fun m hm path => ih m hm (depth + 1) path) path 0
      · have hlevels : maxDepth - depth = 0 := by omega
        rw [if_neg hdepth, hlevels]
        rfl
  | _ => rfl

theorem flatten_eq (maxDepth : Nat) (target : Entries Json) :
    flatten maxDepth target =
      Entries.ofList ((leaves maxDepth target).map fun l => (dotted l.1.keys, l.2)) := by
  have hmembers : ofMembers maxDepth 0 "" target = (leaves maxDepth target).map (keyed "") :=
    ofMembers_of_ofValue (fun m _ path => ofValue_eq maxDepth 0 path m.2) "" 0
  rw [flatten, hmembers]
  congr 1
  apply List.map_congr_left
  intro l _
  rw [keyed, foldl_joined]

theorem Place.Before.irrefl (place : Place) : ¬place.Before place := by
  induction place with
  | nil => intro h; cases h
  | cons step place ih =>
    intro h
    cases h with
    | rel hlt => exact Nat.lt_irrefl _ hlt
    | cons h => exact ih h

theorem Place.Before.asymm {p q : Place} (hpq : p.Before q) : ¬q.Before p := by
  induction hpq with
  | nil => intro h; cases h
  | rel hlt =>
    intro h
    cases h with
    | rel hgt => exact Nat.lt_asymm hlt hgt
    | cons => exact Nat.lt_irrefl _ hlt
  | cons _ ih =>
    intro h
    cases h with
    | rel hlt => exact Nat.lt_irrefl _ hlt
    | cons h => exact ih h

/-- Of the leaves with one joined key, the last in document order. -/
structure IsLast (maxDepth : Nat) (target : Entries Json) (key : String) (place : Place)
    (value : Json) : Prop where
  leaf : IsLeaf maxDepth target place value
  dotted_eq : dotted place.keys = key
  last : ∀ other v, IsLeaf maxDepth target other v → dotted other.keys = key → other ≠ place →
    other.Before place

theorem mem_keys_flatten_iff {maxDepth : Nat} {target : Entries Json} {key : String} :
    key ∈ Entries.keys (flatten maxDepth target) ↔
      ∃ place value, IsLeaf maxDepth target place value ∧ dotted place.keys = key := by
  rw [flatten_eq, Entries.mem_keys_ofList, Entries.keys, List.map_map, List.mem_map]
  constructor
  · rintro ⟨⟨place, value⟩, hmem, rfl⟩
    exact ⟨place, value, mem_leaves_iff.mp hmem, rfl⟩
  · rintro ⟨place, value, hleaf, rfl⟩
    exact ⟨(place, value), mem_leaves_iff.mpr hleaf, rfl⟩

theorem get?_flatten_iff {maxDepth : Nat} {target : Entries Json} {key : String} {value : Json} :
    (flatten maxDepth target).get? key = some value ↔
      ∃ place, IsLast maxDepth target key place value := by
  have hordered := pairwise_leaves maxDepth target
  rw [flatten_eq, Entries.get?_ofList_eq_some_iff]
  constructor
  · rintro ⟨before, after, hsplit, hafter⟩
    obtain ⟨ls, rest, hleaves, hls, hrest⟩ := List.map_eq_append_iff.mp hsplit
    obtain ⟨⟨place, v⟩, ks, rfl, heq, hks⟩ := List.map_eq_cons_iff.mp hrest
    cases heq
    refine ⟨place, mem_leaves_iff.mp (by simp [hleaves]), rfl, fun other v hother hkey hne => ?_⟩
    rw [hleaves] at hordered
    have hmem := mem_leaves_iff.mpr hother
    rw [hleaves, List.mem_append, List.mem_cons] at hmem
    rcases hmem with hmem | heq | hmem
    · exact (List.pairwise_append.mp hordered).2.2 _ hmem _ List.mem_cons_self
    · cases heq
      exact absurd rfl hne
    · refine absurd ?_ hafter
      rw [← hkey, ← hks]
      exact List.mem_map.mpr ⟨_, List.mem_map.mpr ⟨_, hmem, rfl⟩, rfl⟩
  · rintro ⟨place, hleaf, rfl, hlast⟩
    obtain ⟨ls, ks, hleaves⟩ := List.append_of_mem (mem_leaves_iff.mpr hleaf)
    refine ⟨_, _, by rw [hleaves, List.map_append, List.map_cons], fun hmem => ?_⟩
    rw [Entries.keys, List.map_map, List.mem_map] at hmem
    obtain ⟨⟨other, v⟩, hother, hkey⟩ := hmem
    rw [hleaves] at hordered
    have hafter := (List.pairwise_cons.mp (List.pairwise_append.mp hordered).2.1).1 _ hother
    have hleaf' := mem_leaves_iff.mp (show (other, v) ∈ leaves maxDepth target by
      rw [hleaves]; simp [hother])
    refine hafter.asymm (hlast other v hleaf' hkey ?_)
    rintro rfl
    exact Place.Before.irrefl _ hafter

end PanelSearch.Flatten
