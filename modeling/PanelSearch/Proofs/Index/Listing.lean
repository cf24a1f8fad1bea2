import PanelSearch.Index.Timestamp
import PanelSearch.Proofs.Json.Path
import PanelSearch.Proofs.Traversal

/-! The time field of a listing of indexes. The first index that names a time field speaks for all:
those behind it must have the same one, those before it are passed over. So the order matters where
an index without a time field stands among others that agree. -/

namespace PanelSearch

open Traversal

namespace IndexMapping

theorem membersD_of_section? {members inner : Entries Json} {key : String}
    (h : section? members key = some inner) : (Json.member members key).membersD = inner := by
  unfold section? at h
  cases hget : members.get? key with
  | none =>
    rw [hget] at h
    cases h
    rw [Json.member, hget]
    rfl
  | some value =>
    simp only [hget] at h
    rw [Json.member, hget, Option.getD_some, Json.membersD, h, Option.getD_some]

theorem getD_of_plainText? {members : Entries Json} {key text : String}
    (h : plainText? members key = some text) : (Json.member members key).str?.getD "" = text := by
  unfold plainText? at h
  cases hget : members.get? key with
  | none =>
    rw [hget] at h
    cases h
    rw [Json.member, hget]
    rfl
  | some value =>
    simp only [hget] at h
    rw [Json.member, hget, Option.getD_some, h, Option.getD_some]

/-- The time field of a mapping stands in the metadata, at the end of a fixed path. -/
theorem timestampField_of_ofMetadata? {metadata : Json} {mapping : IndexMapping}
    (h : ofMetadata? metadata = some mapping) : mapping.timestampField =
      (metadata.path ["index_config", "doc_mapping", "timestamp_field"]).str?.getD "" := by
  obtain ⟨members, hmembers, h⟩ := Option.bind_eq_some_iff.mp h
  obtain ⟨config, hconfig, h⟩ := Option.bind_eq_some_iff.mp h
  obtain ⟨inner, hinner, h⟩ := Option.bind_eq_some_iff.mp h
  obtain ⟨field, hfield, h⟩ := Option.bind_eq_some_iff.mp h
  have hmapping : mapping.timestampField = field := by
    simp only at h
    split at h
    all_goals
      obtain ⟨fields, -, h⟩ := Option.bind_eq_some_iff.mp h
      cases h
      rfl
  have hmetadata : metadata.membersD = members := by
    rw [Json.membersD, hmembers, Option.getD_some]
  rw [hmapping, Json.path_cons, hmetadata, Json.path_cons, membersD_of_section? hconfig,
    Json.path_cons, membersD_of_section? hinner]
  exact (getD_of_plainText? hfield).symm

end IndexMapping

namespace TimestampField

def Disagree (ts : List TimestampField) : Prop := ∃ a ∈ ts, ∃ b ∈ ts, a ≠ b

/-- Two time fields that are named differ. -/
def DisagreeNamed (ts : List TimestampField) : Prop :=
  ∃ a ∈ ts, ∃ b ∈ ts, a.field ≠ "" ∧ b.field ≠ "" ∧ a ≠ b

/-- The time field that time fields in a row share. -/
def shared : List TimestampField → Except MetadataError TimestampField
  | [] => .ok {}
  | first :: rest => agree first rest

theorem ofMappings_eq (mappings : List IndexMapping) :
    ofMappings mappings = shared (mappings.map ofMapping) := by
  cases mappings <;> rfl

section Shared

variable {t u : TimestampField} {ts us : List TimestampField}

theorem shared_cons_unnamed (ht : t.field = "") (hts : ts ≠ []) : shared (t :: ts) = shared ts := by
  cases ts with
  | nil => exact absurd rfl hts
  | cons u ts => simp [shared, agree, ht]

/-- A time field that is named must be that of all indexes behind it. -/
theorem shared_cons_named (ht : t.field ≠ "") : shared (t :: ts) =
    match ts.find? (· ≠ t) with
    | none => .ok t
    | some u => .error (.disagreement t u) := by
  change agree t ts = _
  induction ts with
  | nil => rfl
  | cons u ts ih =>
    by_cases hu : u = t
    · rw [agree, if_neg (by simpa using ht), if_pos hu, ih,
        List.find?_cons_of_neg (by simpa using hu)]
    · rw [agree, if_neg (by simpa using ht), if_neg hu, List.find?_cons_of_pos (by simpa using hu)]

theorem shared_of_forall_eq (hts : ∀ u ∈ ts, u = t) (hne : ts ≠ []) : shared ts = .ok t := by
  induction ts with
  | nil => exact absurd rfl hne
  | cons u ts ih =>
    obtain ⟨rfl, hrest⟩ := List.forall_mem_cons.mp hts
    by_cases hu : u.field = ""
    · cases ts with
      | nil => rfl
      | cons v ts => rw [shared_cons_unnamed hu (by simp), ih hrest (by simp)]
    · have hnone : ts.find? (· ≠ u) = none := List.find?_eq_none.mpr (by simpa using hrest)
      rw [shared_cons_named hu, hnone]

theorem shared_error_of_disagreeNamed (h : DisagreeNamed ts) :
    ∃ t u, shared ts = .error (.disagreement t u) := by
  induction ts with
  | nil =>
    obtain ⟨a, ha, -⟩ := h
    cases ha
  | cons t ts ih =>
    obtain ⟨a, ha, b, hb, hafield, hbfield, hab⟩ := h
    by_cases ht : t.field = ""
    · have hrest : DisagreeNamed ts := by
        refine ⟨a, ?_, b, ?_, hafield, hbfield, hab⟩
        · exact (List.mem_cons.mp ha).resolve_left fun heq => hafield (heq ▸ ht)
        · exact (List.mem_cons.mp hb).resolve_left fun heq => hbfield (heq ▸ ht)
      have hne : ts ≠ [] := by
        rintro rfl
        obtain ⟨_, hmem, -⟩ := hrest
        cases hmem
      rw [shared_cons_unnamed ht hne]
      exact ih hrest
    · obtain ⟨u, hu, hut⟩ : ∃ u ∈ t :: ts, u ≠ t := by
        by_cases hat : a = t
        · exact ⟨b, hb, fun hbt => hab (hat.trans hbt.symm)⟩
        · exact ⟨a, ha, hat⟩
      have hmem : u ∈ ts := (List.mem_cons.mp hu).resolve_left hut
      rw [shared_cons_named ht]
      cases hfind : ts.find? (· ≠ t) with
      | none => exact absurd hut (by simpa using List.find?_eq_none.mp hfind u hmem)
      | some v => exact ⟨t, v, rfl⟩

theorem shared_eq_of_not_disagree (h : ¬Disagree ts) (hperm : us.Perm ts) :
    ∃ t, shared us = .ok t ∧ shared ts = .ok t := by
  cases ts with
  | nil =>
    rw [hperm.eq_nil]
    exact ⟨_, rfl, rfl⟩
  | cons t ts =>
    have hall : ∀ u ∈ t :: ts, u = t := fun u hu => by
      by_contra hne
      exact h ⟨u, hu, t, by simp, hne⟩
    have hus : us ≠ [] := by
      rintro rfl
      cases hperm.symm.eq_nil
    exact ⟨t, shared_of_forall_eq (fun u hu => hall u (hperm.mem_iff.mp hu)) hus,
      shared_of_forall_eq hall (by simp)⟩

/-- The time fields without a name stand in front of those with one. -/
def UnnamedFirst (ts : List TimestampField) : Prop :=
  ts.Pairwise fun t u => t.field ≠ "" → u.field ≠ ""

theorem disagreeNamed_of_shared_error {e : MetadataError} (hts : UnnamedFirst ts)
    (h : shared ts = .error e) : DisagreeNamed ts := by
  induction hts with
  | nil => cases h
  | @cons t ts hlater _ ih =>
    by_cases ht : t.field = ""
    · have hne : ts ≠ [] := by
        rintro rfl
        cases h
      rw [shared_cons_unnamed ht hne] at h
      obtain ⟨a, ha, b, hb, hab⟩ := ih h
      exact ⟨a, List.mem_cons_of_mem t ha, b, List.mem_cons_of_mem t hb, hab⟩
    · rw [shared_cons_named ht] at h
      cases hfind : ts.find? (· ≠ t) with
      | none =>
        rw [hfind] at h
        cases h
      | some u =>
        have hu := List.mem_of_find?_eq_some hfind
        have hut : u ≠ t := by simpa using List.find?_some hfind
        exact ⟨t, by simp, u, List.mem_cons_of_mem t hu, ht, hlater u hu ht, hut.symm⟩

theorem DisagreeNamed.of_perm (h : DisagreeNamed ts) (hperm : ts.Perm us) : DisagreeNamed us := by
  obtain ⟨a, ha, b, hb, hab⟩ := h
  exact ⟨a, hperm.mem_iff.mp ha, b, hperm.mem_iff.mp hb, hab⟩

end Shared

theorem mappingsOf?_eq_some_iff {items : List Json} {mappings : List IndexMapping} :
    mappingsOf? (.arr items) = some mappings ↔
      (∀ item ∈ items, (IndexMapping.ofMetadata? item).isSome) ∧
        items.filterMap IndexMapping.ofMetadata? = mappings ∧
        ∀ m ∈ mappings, FieldMapping.levels m.fields ≤ FieldMapping.maxLevels := by
  rw [← and_assoc, ← mapM_eq_some_iff]
  change (items.mapM IndexMapping.ofMetadata? >>= _) = _ ↔ _
  cases items.mapM IndexMapping.ofMetadata? with
  | none => simp
  | some ms =>
    simp only [Option.bind_eq_bind, Option.bind_some, Option.ite_none_right_eq_some,
      List.all_eq_true, decide_eq_true_eq, Option.some.injEq]
    constructor
    · rintro ⟨hlevels, rfl⟩
      exact ⟨rfl, hlevels⟩
    · rintro ⟨rfl, hlevels⟩
      exact ⟨hlevels, rfl⟩

/-- A listing in another order is of the right form too, and has the same mappings. -/
theorem exists_mappingsOf?_of_perm {items others : List Json} {mappings : List IndexMapping}
    (h : mappingsOf? (.arr items) = some mappings) (hperm : others.Perm items) :
    ∃ ms, mappingsOf? (.arr others) = some ms ∧ ms.Perm mappings := by
  obtain ⟨hread, rfl, hlevels⟩ := mappingsOf?_eq_some_iff.mp h
  have hms := hperm.filterMap IndexMapping.ofMetadata?
  refine ⟨_, mappingsOf?_eq_some_iff.mpr ⟨fun item hitem => ?_, rfl, fun m hm => ?_⟩, hms⟩
  · exact hread item (hperm.mem_iff.mp hitem)
  · exact hlevels m (hms.mem_iff.mp hm)

theorem ofListing_eq {items : List Json} {mappings : List IndexMapping}
    (h : mappingsOf? (.arr items) = some mappings) (body : String) :
    ofListing body (some (.arr items)) = shared (mappings.map ofMapping) := by
  rw [← ofMappings_eq, ofListing, Option.bind_some, h]

/-- Listings are judged alike: they have the same time field, or fail with the same status. -/
def SameOutcome (x y : Except MetadataError TimestampField) : Prop :=
  x.mapError MetadataError.status = y.mapError MetadataError.status

def IsRefused (x : Except MetadataError TimestampField) : Prop := ∃ e, x = .error e ∧ e.status = 400

/-- In any order the listing comes out alike, and is refused just when two of its indexes
disagree. -/
def IsOrderless (items : List Json) (ts : List TimestampField) : Prop :=
  ∀ others body body', others.Perm items →
    SameOutcome (ofListing body (some (.arr others))) (ofListing body' (some (.arr items))) ∧
      (IsRefused (ofListing body (some (.arr others))) ↔ Disagree ts)

section Orders

variable {items : List Json} {mappings : List IndexMapping}

theorem isOrderless_of_disagreeNamed (h : mappingsOf? (.arr items) = some mappings)
    (hnamed : DisagreeNamed (mappings.map ofMapping)) :
    IsOrderless items (mappings.map ofMapping) := by
  intro others body body' hperm
  obtain ⟨ms, hms, hpermuted⟩ := exists_mappingsOf?_of_perm h hperm
  obtain ⟨t, u, htu⟩ := shared_error_of_disagreeNamed hnamed
  obtain ⟨v, w, hvw⟩ := shared_error_of_disagreeNamed (hnamed.of_perm (hpermuted.map _).symm)
  rw [ofListing_eq h, ofListing_eq hms, htu, hvw]
  obtain ⟨a, ha, b, hb, -, -, hab⟩ := hnamed
  exact ⟨rfl, iff_of_true ⟨_, rfl, rfl⟩ ⟨a, ha, b, hb, hab⟩⟩

theorem isOrderless_of_not_disagree (h : mappingsOf? (.arr items) = some mappings)
    (hsame : ¬Disagree (mappings.map ofMapping)) : IsOrderless items (mappings.map ofMapping) := by
  intro others body body' hperm
  obtain ⟨ms, hms, hpermuted⟩ := exists_mappingsOf?_of_perm h hperm
  obtain ⟨t, hothers, hitems⟩ := shared_eq_of_not_disagree hsame (hpermuted.map ofMapping)
  rw [ofListing_eq h, ofListing_eq hms, hothers, hitems]
  refine ⟨rfl, iff_of_false ?_ hsame⟩
  rintro ⟨e, he, -⟩
  cases he

/-- The index is of the right form and names a time field. -/
def isNamed (item : Json) : Bool :=
  (IndexMapping.ofMetadata? item).any fun m => (ofMapping m).field ≠ ""

theorem exists_perm_unnamedFirst (items : List Json) : ∃ others : List Json, others.Perm items ∧
    UnnamedFirst ((others.filterMap IndexMapping.ofMetadata?).map ofMapping) := by
  have hsorted : (items.mergeSort fun a b => !isNamed a || isNamed b).Pairwise
      fun a b => (!isNamed a || isNamed b) = true := by
    apply List.pairwise_mergeSort
    · intro a b c
      cases isNamed a <;> cases isNamed b <;> simp
    · intro a b
      cases isNamed a <;> cases isNamed b <;> simp
  refine ⟨items.mergeSort fun a b => !isNamed a || isNamed b, List.mergeSort_perm _ _, ?_⟩
  rw [UnnamedFirst, List.pairwise_map, List.pairwise_filterMap]
  refine hsorted.imp fun {a b} hab m hm n hn hfield => ?_
  simpa [isNamed, hm, hn, hfield] using hab

/-- With the indexes without a time field in front, only the others can disagree. -/
theorem disagreeNamed_of_isOrderless (h : mappingsOf? (.arr items) = some mappings)
    (horderless : IsOrderless items (mappings.map ofMapping))
    (hdisagree : Disagree (mappings.map ofMapping)) :
    DisagreeNamed (mappings.map ofMapping) := by
  obtain ⟨others, hperm, hfirst⟩ := exists_perm_unnamedFirst items
  obtain ⟨ms, hms, hpermuted⟩ := exists_mappingsOf?_of_perm h hperm
  obtain ⟨-, rfl, -⟩ := mappingsOf?_eq_some_iff.mp hms
  obtain ⟨e, he, -⟩ := (horderless others "" "" hperm).2.mpr hdisagree
  rw [ofListing_eq hms] at he
  exact (disagreeNamed_of_shared_error hfirst he).of_perm (hpermuted.map ofMapping)

end Orders

/-- A listing comes out alike in any order, and is refused just where two of its indexes disagree,
exactly if two that name a time field are among those that do. -/
theorem isOrderless_iff {items : List Json} {mappings : List IndexMapping}
    (h : mappingsOf? (.arr items) = some mappings) :
    IsOrderless items (mappings.map ofMapping) ↔
      (Disagree (mappings.map ofMapping) → DisagreeNamed (mappings.map ofMapping)) := by
  constructor
  · exact disagreeNamed_of_isOrderless h
  · intro himp
    by_cases hdisagree : Disagree (mappings.map ofMapping)
    · exact isOrderless_of_disagreeNamed h (himp hdisagree)
    · exact isOrderless_of_not_disagree h hdisagree

/-- The metadata of an index with a time field. -/
def timedIndex (field : String) : Json :=
  .obj [("index_config", .obj [("doc_mapping", .obj [("timestamp_field", .str field)])])]

/-- The metadata of an index without a time field. -/
def untimedIndex : Json := .obj [("index_config", .obj [])]

theorem untimedIndex_between_orderless :
    mappingsOf? (.arr [timedIndex "ts", untimedIndex, timedIndex "at"]) =
        some [{ timestampField := "ts" }, {}, { timestampField := "at" }] ∧
      IsOrderless [timedIndex "ts", untimedIndex, timedIndex "at"]
        [{ field := "ts" }, {}, { field := "at" }] := by
  have hread : mappingsOf? (.arr [timedIndex "ts", untimedIndex, timedIndex "at"]) =
    some [{ timestampField := "ts" }, {}, { timestampField := "at" }] := rfl
  refine ⟨hread, (isOrderless_iff hread).mpr fun _ => ?_⟩
  exact ⟨{ field := "ts" }, by decide, { field := "at" }, by decide, by decide, by decide,
    by decide⟩

/-- An index without a time field is passed over in front of one with a time field, and is refused
behind it. -/
theorem untimedIndex_first_not_orderless : ¬∀ (items : List Json) (mappings : List IndexMapping),
    mappingsOf? (.arr items) = some mappings → IsOrderless items (mappings.map ofMapping) := by
  intro h
  have hread : mappingsOf? (.arr [untimedIndex, timedIndex "ts"]) =
    some [{}, { timestampField := "ts" }] := rfl
  have hdisagree : Disagree [{}, { field := "ts" }] :=
    ⟨{}, by decide, { field := "ts" }, by decide, by decide⟩
  obtain ⟨e, he, -⟩ := (h _ _ hread _ "" "" (List.Perm.refl _)).2.mpr hdisagree
  have haccepted : ofListing "" (some (.arr [untimedIndex, timedIndex "ts"])) =
    .ok { field := "ts" } := rfl
  rw [haccepted] at he
  cases he

end TimestampField

end PanelSearch
