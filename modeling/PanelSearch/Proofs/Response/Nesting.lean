import PanelSearch.Proofs.Response.Flatten

/-! A nested object back from its flat form. The keys of the flat object are split at their dots,
and every value is set at the end of its path, in objects that are made on the way. Where no key is
empty or has a dot, that gives the object itself, with its keys in their order. -/

namespace PanelSearch.Flatten

open Json (member)

/-- The keys of a path, from the joined key. -/
def splitKey (key : String) : List String := (key.toList.splitOn '.').map String.ofList

/-- A value with another one set at the end of a path. -/
def placed : List String → Json → Json → Json
  | [], value, _ => value
  | key :: keys, value, top =>
    .obj (Entries.put top.membersD key (placed keys value (member top.membersD key)))

/-- The nested object of a flat one. -/
def nested (flat : Entries Json) : Json :=
  flat.foldl (fun top e => placed (splitKey e.1) e.2 top) (.obj [])

/-- A key that a joined key can be split into. -/
def IsPlain (key : String) : Prop := key ≠ "" ∧ '.' ∉ key.toList

instance (key : String) : Decidable (IsPlain key) := inferInstanceAs (Decidable (_ ∧ _))

/-- Every object in a value, the value itself included, is of some kind. -/
def EveryObject (P : Entries Json → Prop) (top : Json) : Prop :=
  ∀ place members, Leads top place (.obj members) → P members

def HasDistinctKeys : Json → Prop := EveryObject fun members => (Entries.keys members).Nodup

def HasPlainKeys : Json → Prop :=
  EveryObject fun members => ∀ key ∈ Entries.keys members, IsPlain key

theorem EveryObject.below {P : Entries Json → Prop} {members : Entries Json} {i : Nat}
    {key : String} {below : Json} (h : EveryObject P (.obj members))
    (hmember : members[i]? = some (key, below)) : EveryObject P below :=
  fun place inner hleads => h ((i, key) :: place) inner (.down hmember hleads)

theorem everyObject_obj_iff {P : Entries Json → Prop} {members : Entries Json} :
    EveryObject P (.obj members) ↔ P members ∧ ∀ m ∈ members, EveryObject P m.2 := by
  constructor
  · intro h
    refine ⟨h [] members (.here _), fun m hm => ?_⟩
    obtain ⟨i, hi⟩ := List.mem_iff_getElem?.mp hm
    exact h.below hi
  · rintro ⟨hmembers, hbelow⟩ place inner hleads
    cases hleads with
    | here => exact hmembers
    | down hmember hrest => exact hbelow _ (List.mem_of_getElem? hmember) _ _ hrest

theorem everyObject_of_not_isObject {P : Entries Json → Prop} {top : Json}
    (h : top.isObject = false) : EveryObject P top := by
  intro place members hleads
  cases hleads with
  | here => cases h
  | down => cases h

theorem splitKey_dotted {keys : List String} (hne : keys ≠ []) (h : ∀ key ∈ keys, IsPlain key) :
    splitKey (dotted keys) = keys := by
  have hdrop : keys.dropWhile String.isEmpty = keys := by
    cases keys with
    | nil => rfl
    | cons key keys =>
      have hkey : key.isEmpty = false := by simpa using (h key List.mem_cons_self).1
      rw [List.dropWhile_cons, hkey]
      rfl
  have hdots : ∀ cs ∈ keys.map String.toList, '.' ∉ cs := by
    intro cs hcs
    obtain ⟨key, hkey, rfl⟩ := List.mem_map.mp hcs
    exact (h key hkey).2
  rw [splitKey, dotted, hdrop, String.toList_intercalate]
  show ((['.'].intercalate (keys.map String.toList)).splitOn '.').map String.ofList = keys
  rw [List.splitOn_intercalate '.' hdots (by simpa using hne), List.map_map]
  simp [Function.comp_def]

section Keys

variable {top value other : Json} {p q : Place}

theorem Leads.isPlain (h : Leads top p value) (hplain : HasPlainKeys top) :
    ∀ key ∈ p.keys, IsPlain key := by
  induction h with
  | here => intro key hkey; cases hkey
  | @down members i key below _ place hmember _ ih =>
    rintro other (_ | ⟨_, hother⟩)
    · exact hplain [] members (.here _) key
        (Entries.mem_keys.mpr ⟨below, List.mem_of_getElem? hmember⟩)
    · exact ih (hplain.below hmember) other hother

/-- Where no object has a key twice, the keys on the way tell a place. -/
theorem Leads.eq_of_keys (h : Leads top p value) (hdistinct : HasDistinctKeys top)
    (hother : Leads top q other) (hkeys : p.keys = q.keys) : p = q ∧ value = other := by
  induction h generalizing q with
  | here =>
    cases hother with
    | here => exact ⟨rfl, rfl⟩
    | down => cases hkeys
  | @down members i key below _ place hmember _ ih =>
    cases hother with
    | here => cases hkeys
    | @down _ j key' below' _ place' hmember' hbelow' =>
      obtain ⟨hkey, hrest⟩ := List.cons.inj hkeys
      have hkey : key = key' := hkey
      subst hkey
      have hnodup : (Entries.keys members).Nodup := hdistinct [] members (.here _)
      have hi : (Entries.keys members)[i]? = some key := by simp [Entries.keys, hmember]
      have hj : (Entries.keys members)[j]? = some key := by simp [Entries.keys, hmember']
      have hlt : i < (Entries.keys members).length := (List.getElem?_eq_some_iff.mp hi).1
      obtain rfl : i = j := (List.getElem?_inj hlt hnodup).mp (hi.trans hj.symm)
      rw [hmember] at hmember'
      cases hmember'
      obtain ⟨rfl, rfl⟩ := ih (hdistinct.below hmember) hbelow' hrest
      exact ⟨rfl, rfl⟩

end Keys

theorem IsLeaf.keys_ne_nil {maxDepth : Nat} {target : Entries Json} {place : Place} {value : Json}
    (h : IsLeaf maxDepth target place value) : place.keys ≠ [] := by
  simpa [Place.keys] using h.ne_nil

theorem splitKey_leaf {maxDepth : Nat} {target : Entries Json} {place : Place} {value : Json}
    (hplain : HasPlainKeys (.obj target)) (h : IsLeaf maxDepth target place value) :
    splitKey (dotted place.keys) = place.keys :=
  splitKey_dotted h.keys_ne_nil (h.leads.isPlain hplain)

section Rebuilding

/-- A leaf set at its place. -/
def set (top : Json) (leaf : Place × Json) : Json := placed leaf.1.keys leaf.2 top

theorem set_under {acc : Entries Json} {key : String} (h : key ∉ Entries.keys acc) (i : Nat)
    (leaf : Place × Json) (value : Json) :
    set (.obj (acc ++ [(key, value)])) (under (i, key) leaf) =
      .obj (acc ++ [(key, set value leaf)]) := by
  have hmember : member (acc ++ [(key, value)]) key = value := by
    rw [member, Entries.get?_append, Entries.get?_of_not_mem_keys h]
    simp [Entries.get?_cons]
  show Json.obj (Entries.put (acc ++ [(key, value)]) key
    (placed leaf.1.keys leaf.2 (member (acc ++ [(key, value)]) key))) = _
  rw [hmember, Entries.put_append h]
  simp [Entries.put, set]

theorem set_under_fresh {acc : Entries Json} {key : String} (h : key ∉ Entries.keys acc) (i : Nat)
    (leaf : Place × Json) :
    set (.obj acc) (under (i, key) leaf) = .obj (acc ++ [(key, set .null leaf)]) := by
  have hmember : member acc key = .null := by
    rw [member, Entries.get?_of_not_mem_keys h]
    rfl
  have hput := Entries.put_append h [] (set .null leaf)
  rw [List.append_nil] at hput
  show Json.obj (Entries.put acc key (placed leaf.1.keys leaf.2 (member acc key))) = _
  rw [hmember]
  exact congrArg Json.obj hput

theorem foldl_set_under {acc : Entries Json} {key : String} (h : key ∉ Entries.keys acc) (i : Nat)
    (ls : List (Place × Json)) (value : Json) :
    (ls.map (under (i, key))).foldl set (.obj (acc ++ [(key, value)])) =
      .obj (acc ++ [(key, ls.foldl set value)]) := by
  induction ls generalizing value with
  | nil => rfl
  | cons leaf ls ih => rw [List.map_cons, List.foldl_cons, set_under h, ih, List.foldl_cons]

theorem foldl_set_under_fresh {acc : Entries Json} {key : String} (h : key ∉ Entries.keys acc)
    (i : Nat) {ls : List (Place × Json)} (hne : ls ≠ []) :
    (ls.map (under (i, key))).foldl set (.obj acc) =
      .obj (acc ++ [(key, ls.foldl set .null)]) := by
  obtain ⟨leaf, ls, rfl⟩ := List.exists_cons_of_ne_nil hne
  rw [List.map_cons, List.foldl_cons, set_under_fresh h, foldl_set_under h, List.foldl_cons]

theorem leavesUnder_ne_nil (levels : Nat) (top : Json) : leavesUnder levels top ≠ [] := by
  induction top using Json.inductionOn generalizing levels with
  | obj members ih =>
    by_cases hstops : Stops levels (.obj members)
    · simp [leavesUnder_of_stops hstops]
    · obtain ⟨below, rfl, hleaves⟩ := leavesUnder_obj hstops
      have hne : members ≠ [] := by
        rintro rfl
        exact hstops (.inr rfl)
      obtain ⟨m, rest, rfl⟩ := List.exists_cons_of_ne_nil hne
      have hfirst := ih m List.mem_cons_self below
      rw [hleaves, leavesAmong_eq_flatMap]
      simp [hfirst]
  | _ => exact List.cons_ne_nil _ _

/-- Members whose leaves give them back stand behind what was there before. -/
theorem foldl_set_leavesAmong {levels : Nat} {members : Entries Json}
    (h : ∀ m ∈ members, (leavesUnder levels m.2).foldl set .null = m.2) (acc : Entries Json)
    (hkeys : (Entries.keys (acc ++ members)).Nodup) (i : Nat) :
    (leavesAmong levels i members).foldl set (.obj acc) = .obj (acc ++ members) := by
  induction members generalizing acc i with
  | nil => simp [leavesAmong]
  | cons m members ih =>
    obtain ⟨key, value⟩ := m
    have hfresh : key ∉ Entries.keys acc := by
      rw [Entries.keys, List.map_append, List.nodup_append] at hkeys
      exact fun hmem => hkeys.2.2 _ hmem _ (by simp) rfl
    have hsplit : acc ++ (key, value) :: members = acc ++ [(key, value)] ++ members := by simp
    rw [leavesAmong, List.foldl_append, foldl_set_under_fresh hfresh i (leavesUnder_ne_nil _ _),
      h (key, value) List.mem_cons_self, hsplit]
    exact ih (fun m hm => h m (List.mem_cons_of_mem _ hm)) _ (hsplit ▸ hkeys) (i + 1)

theorem foldl_set_null {levels : Nat} {members : Entries Json} :
    (leavesAmong levels 0 members).foldl set .null =
      if members = [] then .null else (leavesAmong levels 0 members).foldl set (.obj []) := by
  cases members with
  | nil => rfl
  | cons m members =>
    obtain ⟨key, value⟩ := m
    obtain ⟨leaf, rest, hleaves⟩ := List.exists_cons_of_ne_nil (leavesUnder_ne_nil levels value)
    rw [leavesAmong, hleaves]
    rfl

theorem foldl_set_leavesUnder {top : Json} (hdistinct : HasDistinctKeys top) (levels : Nat) :
    (leavesUnder levels top).foldl set .null = top := by
  induction top using Json.inductionOn generalizing levels with
  | obj members ih =>
    by_cases hstops : Stops levels (.obj members)
    · rw [leavesUnder_of_stops hstops]
      rfl
    · obtain ⟨below, rfl, hleaves⟩ := leavesUnder_obj hstops
      have hne : members ≠ [] := by
        rintro rfl
        exact hstops (.inr rfl)
      have hmembers : ∀ m ∈ members, (leavesUnder below m.2).foldl set .null = m.2 := by
        intro m hm
        obtain ⟨i, hi⟩ := List.mem_iff_getElem?.mp hm
        exact ih m hm (hdistinct.below hi) below
      rw [hleaves, foldl_set_null, if_neg hne]
      exact foldl_set_leavesAmong hmembers [] (hdistinct [] members (.here _)) 0
  | _ => rfl

theorem foldl_set_leaves {target : Entries Json} (hdistinct : HasDistinctKeys (.obj target))
    (maxDepth : Nat) : (leaves maxDepth target).foldl set (.obj []) = .obj target := by
  refine foldl_set_leavesAmong (fun m hm => ?_) [] (hdistinct [] target (.here _)) 0
  obtain ⟨i, hi⟩ := List.mem_iff_getElem?.mp hm
  exact foldl_set_leavesUnder (hdistinct.below hi) maxDepth

end Rebuilding

section Target

variable {target : Entries Json} (hdistinct : HasDistinctKeys (.obj target))
  (hplain : HasPlainKeys (.obj target))
include hdistinct hplain

theorem IsLeaf.eq_of_dotted {maxDepth : Nat} {p q : Place} {value other : Json}
    (hp : IsLeaf maxDepth target p value) (hq : IsLeaf maxDepth target q other)
    (h : dotted p.keys = dotted q.keys) : p = q ∧ value = other := by
  refine hp.leads.eq_of_keys hdistinct hq.leads ?_
  rw [← splitKey_leaf hplain hp, h, splitKey_leaf hplain hq]

theorem nodup_keys_leaves (maxDepth : Nat) :
    (Entries.keys ((leaves maxDepth target).map fun l => (dotted l.1.keys, l.2))).Nodup := by
  rw [Entries.keys, List.map_map, List.nodup_iff_pairwise_ne, List.pairwise_map]
  refine (pairwise_leaves maxDepth target).imp_of_mem fun {l k} hl hk hbefore heq => ?_
  obtain ⟨hplace, -⟩ := (mem_leaves_iff.mp hl).eq_of_dotted hdistinct hplain
    (mem_leaves_iff.mp hk) heq
  rw [hplace] at hbefore
  exact Place.Before.irrefl _ hbefore

theorem nested_flatten (maxDepth : Nat) : nested (flatten maxDepth target) = .obj target := by
  rw [flatten_eq, Entries.ofList_of_nodup (nodup_keys_leaves hdistinct hplain maxDepth), nested,
    List.foldl_map]
  have hstep : ∀ top, ∀ l ∈ leaves maxDepth target,
      placed (splitKey (dotted l.1.keys)) l.2 top = set top l := by
    intro top l hl
    rw [splitKey_leaf hplain (mem_leaves_iff.mp hl), set]
  rw [List.foldl_ext _ _ _ hstep]
  exact foldl_set_leaves hdistinct maxDepth

end Target

/-- The flat object of an object holds, under each joined key of leaves, the last of them in
document order; what still has members there lies as deep as leaves may be. Where no key is empty or
has a dot, the leaves have keys of their own, and the nested object of the flat one is the
object. -/
theorem flatten_leaves (maxDepth : Nat) (target : Entries Json) :
    (∀ key, key ∈ Entries.keys (flatten maxDepth target) ↔
      ∃ place value, IsLeaf maxDepth target place value ∧ dotted place.keys = key) ∧
    (Entries.keys (flatten maxDepth target)).Nodup ∧
    (∀ key value, (flatten maxDepth target).get? key = some value ↔
      ∃ place, IsLast maxDepth target key place value) ∧
    (∀ key place value, IsLast maxDepth target key place value → place.length < maxDepth + 1 →
      hasMembers value = false) ∧
    (HasDistinctKeys (.obj target) → HasPlainKeys (.obj target) →
      (∀ p q value other, IsLeaf maxDepth target p value → IsLeaf maxDepth target q other →
        dotted p.keys = dotted q.keys → p = q ∧ value = other) ∧
      nested (flatten maxDepth target) = .obj target) := by
  refine ⟨fun _ => mem_keys_flatten_iff, Entries.nodup_keys_ofList _, fun _ _ => get?_flatten_iff,
    fun key place value hlast hlength => ?_, fun hdistinct hplain => ⟨?_, ?_⟩⟩
  · rcases hlast.leaf.ends with hdeep | hnone
    · omega
    · exact hnone
  · intro p q value other hp hq heq
    exact hp.eq_of_dotted hdistinct hplain hq heq
  · exact nested_flatten hdistinct hplain maxDepth

/-- The source of a span, with an object in an object. -/
def spanSource : Entries Json := [("level", .str "info"),
  ("resource", .obj [("host", .obj [("name", .str "web-1")]), ("tags", .obj [])]),
  ("took", .int 12)]

theorem everyObject_spanSource {P : Entries Json → Prop} (hsource : P spanSource)
    (hresource : P [("host", .obj [("name", .str "web-1")]), ("tags", .obj [])])
    (hhost : P [("name", .str "web-1")]) (htags : P []) : EveryObject P (.obj spanSource) := by
  have hstr : ∀ s, EveryObject P (.str s) := fun s => everyObject_of_not_isObject rfl
  have hint : ∀ n, EveryObject P (.int n) := fun n => everyObject_of_not_isObject rfl
  rw [everyObject_obj_iff]
  refine ⟨hsource, ?_⟩
  simp [spanSource, everyObject_obj_iff, hresource, hhost, htags, hstr, hint]

theorem spanSource_nested : HasDistinctKeys (.obj spanSource) ∧ HasPlainKeys (.obj spanSource) ∧
    nested (flatten 1 spanSource) = .obj spanSource ∧
    (flatten 1 spanSource).get? "resource.host" = some (.obj [("name", .str "web-1")]) := by
  have hdistinct : HasDistinctKeys (.obj spanSource) :=
    everyObject_spanSource (by decide) (by decide) (by decide) (by decide)
  have hplain : HasPlainKeys (.obj spanSource) :=
    everyObject_spanSource (by decide) (by decide) (by decide) (by decide)
  exact ⟨hdistinct, hplain, ((flatten_leaves 1 spanSource).2.2.2.2 hdistinct hplain).2, rfl⟩

end PanelSearch.Flatten
