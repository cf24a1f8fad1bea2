import Mathlib.Data.List.Nodup
import Mathlib.Data.List.Perm.Subperm
import PanelSearch.Proofs.Number.Text
import PanelSearch.Proofs.Service.Endings

/-! The RefIDs that results stand under. Where each query has a result of its own they are those
that the queries are read with, and where the same error is the result of every query they are those
that messages show. The two differ for a RefID that is null or a double without a fraction, and for
no other. -/

namespace PanelSearch

open Json (member)
open Traversal

/-- The RefID that a query is read with. -/
def readRefId (raw : Json) : String := Setting.fieldText (member raw.membersD "refId")

theorem refId_eq_readRefId {rangeFrom rangeTo : Int} {raw : Json} {q : Query}
    (h : Query.read rangeFrom rangeTo raw = .ok q) : q.refId = readRefId raw := by
  cases raw with
  | obj members =>
    rw [Query.read_obj] at h
    obtain ⟨_, -, h⟩ := bind_eq_ok_iff.mp h
    obtain ⟨_, -, h⟩ := bind_eq_ok_iff.mp h
    obtain ⟨_, -, h⟩ := bind_eq_ok_iff.mp h
    obtain ⟨_, -, h⟩ := bind_eq_ok_iff.mp h
    cases h
    rfl
  | _ => cases h

/-- Reading respells the value: it is null, or a double without a fraction. -/
def Json.isRespelled : Json → Bool
  | null => true
  | double d => d.toInt?.isSome
  | _ => false

def RespellsRefId (raw : Json) : Prop :=
  ∃ value, raw.membersD.get? "refId" = some value ∧ value.isRespelled = true

/-- A point or the letter of an exponent, which no integer is written with. -/
def IsMark (c : Char) : Prop := c = '.' ∨ c = 'e'

theorem not_isMark_of_mem_natText {n : Nat} {c : Char} (h : c ∈ natText n) : ¬IsMark c := by
  have hdigit : c.isDigit = true := Nat.isDigit_of_mem_toDigits (by decide) (by decide) h
  rintro (rfl | rfl)
  · exact absurd hdigit (by decide)
  · exact absurd hdigit (by decide)

theorem not_isMark_of_mem_intText {n : Int} {c : Char} (h : c ∈ intText n) : ¬IsMark c := by
  unfold intText at h
  split at h
  · rcases List.mem_cons.mp h with rfl | h
    · rintro (h | h) <;> exact absurd h (by decide)
    · exact not_isMark_of_mem_natText h
  · exact not_isMark_of_mem_natText h

theorem label_double (d : Double) : (Json.double d).label = String.ofList (d.text .plain) := rfl

theorem exists_mark_label {j : Json} (h : j.isRespelled = true) :
    ∃ c ∈ j.label.toList, IsMark c := by
  cases j with
  | null => exact ⟨'e', by decide, .inr rfl⟩
  | double d =>
    cases d with
    | finite negative m s canonical =>
      obtain ⟨c, hc, hmark⟩ := mark_mem_double .plain negative m s canonical
      exact ⟨c, by rwa [label_double, String.toList_ofList], hmark⟩
    | _ => cases h
  | _ => cases h

theorem not_isMark_of_mem_fieldText {j : Json} (h : j.isRespelled = true) {c : Char}
    (hc : c ∈ (Setting.fieldText j).toList) : ¬IsMark c := by
  cases j with
  | null => simp [Setting.fieldText] at hc
  | double d =>
    obtain ⟨n, hn⟩ := Option.isSome_iff_exists.mp h
    rw [Setting.fieldText, hn] at hc
    exact not_isMark_of_mem_intText (by simpa using hc)
  | _ => cases h

theorem fieldText_eq_label {j : Json} (h : j.isRespelled = false) :
    Setting.fieldText j = j.label := by
  cases j with
  | null => cases h
  | double d =>
    have hn : d.toInt? = none := by simpa [Json.isRespelled] using h
    simp [Setting.fieldText, hn]
  | _ => rfl

section Spelling

variable {raw other : Json} {raws : List Json}

theorem shownRefId_eq (h : ¬RespellsRefId raw) : shownRefId raw = readRefId raw := by
  rw [shownRefId, readRefId, member]
  cases hvalue : raw.membersD.get? "refId" with
  | none => rfl
  | some value =>
    have hkept : value.isRespelled = false := by
      by_contra hrespelled
      exact h ⟨value, hvalue, by simpa using hrespelled⟩
    exact (fieldText_eq_label hkept).symm

/-- A RefID that is respelled is shown as no respelled one is read. -/
theorem readRefId_ne_shownRefId (h : RespellsRefId raw) (hother : RespellsRefId other) :
    readRefId other ≠ shownRefId raw := by
  obtain ⟨value, hvalue, hrespelled⟩ := h
  obtain ⟨value', hvalue', hrespelled'⟩ := hother
  obtain ⟨c, hc, hmark⟩ := exists_mark_label hrespelled
  intro heq
  have hshown : shownRefId raw = value.label := by rw [shownRefId, hvalue]; rfl
  have hread : readRefId other = Setting.fieldText value' := by rw [readRefId, member, hvalue']; rfl
  rw [← hshown, ← heq, hread] at hc
  exact not_isMark_of_mem_fieldText hrespelled' hc hmark

/-- The RefIDs that queries are shown with are, all together, those that they are read with: what a
query is respelled from and to are also RefIDs of other queries. -/
def KeepsRefIds (raws : List Json) : Prop :=
  ∀ raw ∈ raws, RespellsRefId raw →
    shownRefId raw ∈ raws.map readRefId ∧ readRefId raw ∈ raws.map shownRefId

theorem keepsRefIds_iff : KeepsRefIds raws ↔
    ∀ key, key ∈ raws.map shownRefId ↔ key ∈ raws.map readRefId := by
  constructor
  · intro h key
    simp only [List.mem_map]
    constructor
    · rintro ⟨raw, hraw, rfl⟩
      by_cases hrespelled : RespellsRefId raw
      · exact List.mem_map.mp (h raw hraw hrespelled).1
      · exact ⟨raw, hraw, (shownRefId_eq hrespelled).symm⟩
    · rintro ⟨raw, hraw, rfl⟩
      by_cases hrespelled : RespellsRefId raw
      · exact List.mem_map.mp (h raw hraw hrespelled).2
      · exact ⟨raw, hraw, shownRefId_eq hrespelled⟩
  · intro h raw hraw _
    exact ⟨(h _).mp (List.mem_map_of_mem hraw), (h _).mpr (List.mem_map_of_mem hraw)⟩

/-- Queries that are read with distinct RefIDs keep them only when none of them is respelled: as
many RefIDs are shown as are read, so the shown ones are distinct as well. -/
theorem keepsRefIds_iff_of_nodup (hids : (raws.map readRefId).Nodup) :
    KeepsRefIds raws ↔ ∀ raw ∈ raws, ¬RespellsRefId raw := by
  constructor
  · intro h raw hraw hrespelled
    have hsub : raws.map readRefId ⊆ raws.map shownRefId := fun key =>
      (keepsRefIds_iff.mp h key).mpr
    have hperm := (List.subperm_of_subset hids hsub).perm_of_length_le (by simp)
    have hinj := List.inj_on_of_nodup_map (hperm.nodup_iff.mp hids)
    obtain ⟨other, hother, heq⟩ := List.mem_map.mp (h raw hraw hrespelled).1
    have hkept : ¬RespellsRefId other := fun hr => readRefId_ne_shownRefId hrespelled hr heq
    have hsame := hinj hother hraw ((shownRefId_eq hkept).trans heq)
    exact hkept (hsame ▸ hrespelled)
  · intro h raw hraw hrespelled
    exact absurd hrespelled (h raw hraw)

end Spelling

namespace Service

variable {s s₁ s₂ : Service} {rangeFrom rangeTo from₁ to₁ from₂ to₂ : Int} {raws : List Json}
  {results results₁ results₂ : Entries QueryResult}

def IsAnswered (s : Service) (rangeFrom rangeTo : Int) (raws : List Json) : Prop :=
  ∃ results, s.Answers rangeFrom rangeTo raws results

theorem mem_keys_of_answers (h : s.Answers rangeFrom rangeTo raws results) {key : String} :
    key ∈ Entries.keys results ↔ key ∈ raws.map readRefId := by
  obtain ⟨hsent, -, -, hdrawn⟩ := h
  have hids := map_eq_map_of_mapM (g := readRefId) (h := Query.refId)
    (fun _ _ hq => refId_eq_readRefId hq) hsent.read
  rw [QueryResult.mem_keys_ofReply hdrawn, hids]

section Run

variable (hne : raws ≠ []) (hobj : ∀ raw ∈ raws, raw.isObject = true)
include hne hobj

theorem mem_keys_of_not_isAnswered (h : (s.queryAll rangeFrom rangeTo raws).1 = .ok results)
    (hrefused : ¬s.IsAnswered rangeFrom rangeTo raws) {key : String} :
    key ∈ Entries.keys results ↔ key ∈ raws.map shownRefId := by
  rcases queryAll_cases hne hobj h with ⟨_, -, hr⟩ | ⟨_, _, -, hr⟩ | ⟨results', hanswered, -⟩
  · cases hr
  · cases hr
    rw [QueryResult.mem_keys_refusals, List.mem_map]
  · exact absurd ⟨results', hanswered⟩ hrefused

theorem mem_keys_of_isAnswered (h : (s.queryAll rangeFrom rangeTo raws).1 = .ok results)
    (hanswered : s.IsAnswered rangeFrom rangeTo raws) {key : String} :
    key ∈ Entries.keys results ↔ key ∈ raws.map readRefId := by
  obtain ⟨results', hresults⟩ := hanswered
  rw [queryAll_of_answers hne hobj hresults] at h
  cases h
  exact mem_keys_of_answers hresults

theorem keys_eq_readRefIds_iff (h : (s.queryAll rangeFrom rangeTo raws).1 = .ok results) :
    (∀ key, key ∈ Entries.keys results ↔ key ∈ raws.map readRefId) ↔
      s.IsAnswered rangeFrom rangeTo raws ∨ KeepsRefIds raws := by
  by_cases hanswered : s.IsAnswered rangeFrom rangeTo raws
  · exact iff_of_true (fun _ => mem_keys_of_isAnswered hne hobj h hanswered) (.inl hanswered)
  · simp only [mem_keys_of_not_isAnswered hne hobj h hanswered, hanswered, false_or,
      keepsRefIds_iff]

end Run

/-- Two runs over the same queries have results under the same RefIDs when both are answered or
neither is, and else only when the queries keep their RefIDs. -/
theorem keys_queryAll_agree_iff (hne : raws ≠ []) (hobj : ∀ raw ∈ raws, raw.isObject = true)
    (h₁ : (s₁.queryAll from₁ to₁ raws).1 = .ok results₁)
    (h₂ : (s₂.queryAll from₂ to₂ raws).1 = .ok results₂) :
    ((∀ key, key ∈ Entries.keys results₁ ↔ key ∈ Entries.keys results₂) ↔
      (s₁.IsAnswered from₁ to₁ raws ↔ s₂.IsAnswered from₂ to₂ raws) ∨ KeepsRefIds raws) ∧
    ((∀ key, key ∈ Entries.keys results₁ ↔ key ∈ raws.map readRefId) ↔
      s₁.IsAnswered from₁ to₁ raws ∨ KeepsRefIds raws) ∧
    ((raws.map readRefId).Nodup → (KeepsRefIds raws ↔ ∀ raw ∈ raws, ¬RespellsRefId raw)) := by
  refine ⟨?_, keys_eq_readRefIds_iff hne hobj h₁, keepsRefIds_iff_of_nodup⟩
  have hanswered₁ := mem_keys_of_isAnswered hne hobj h₁
  have hanswered₂ := mem_keys_of_isAnswered hne hobj h₂
  have hrefused₁ := mem_keys_of_not_isAnswered hne hobj h₁
  have hrefused₂ := mem_keys_of_not_isAnswered hne hobj h₂
  by_cases ha₁ : s₁.IsAnswered from₁ to₁ raws <;> by_cases ha₂ : s₂.IsAnswered from₂ to₂ raws
  · exact iff_of_true (fun _ => (hanswered₁ ha₁).trans (hanswered₂ ha₂).symm)
      (.inl (iff_of_true ha₁ ha₂))
  · simp only [ha₁, ha₂, hanswered₁ ha₁, hrefused₂ ha₂, true_iff, false_or, keepsRefIds_iff]
    exact forall_congr' fun _ => Iff.comm
  · simp only [ha₁, ha₂, hrefused₁ ha₁, hanswered₂ ha₂, false_iff, not_true, false_or,
      keepsRefIds_iff]
  · exact iff_of_true (fun _ => (hrefused₁ ha₁).trans (hrefused₂ ha₂).symm)
      (.inl (iff_of_false ha₁ ha₂))

/-- A reply that is an object without responses. -/
def noResponses : Reply where
  body := [0x7B, 0x7D]

theorem exists_results_of_keys {x : Except ServiceError (Entries QueryResult)} {ids : List String}
    (h : x.toOption.map Entries.keys = some ids) :
    ∃ results, x = .ok results ∧ Entries.keys results = ids := by
  cases x with
  | error e => cases h
  | ok results => exact ⟨results, rfl, Option.some.inj h⟩

/-- A query whose RefID is null has its result under no text and its error under the text of
null. -/
theorem null_refIds : [logLines .null] ≠ [] ∧ (∀ raw ∈ [logLines .null], raw.isObject = true) ∧
    (∃ results, ((knowing [.reply noResponses]).queryAll 0 1000 [logLines .null]).1 = .ok results ∧
      Entries.keys results = [""]) ∧
    ∃ results, ((knowing []).queryAll 0 1000 [logLines .null]).1 = .ok results ∧
      Entries.keys results = ["None"] :=
  ⟨by simp, by simp [logLines, Json.isObject], exists_results_of_keys (by decide +kernel),
    exists_results_of_keys (by decide +kernel)⟩

theorem logLines_refIds_agree : ∃ results₁ results₂,
    ((knowing [.reply noResponses]).queryAll 0 1000 [logLines (.str "A")]).1 = .ok results₁ ∧
    ((knowing []).queryAll 0 1000 [logLines (.str "A")]).1 = .ok results₂ ∧
    ∀ key, key ∈ Entries.keys results₁ ↔ key ∈ Entries.keys results₂ := by
  have hkeys₁ : ((knowing [.reply noResponses]).queryAll 0 1000
      [logLines (.str "A")]).1.toOption.map Entries.keys = some ["A"] := by decide +kernel
  have hkeys₂ : ((knowing []).queryAll 0 1000
      [logLines (.str "A")]).1.toOption.map Entries.keys = some ["A"] := by decide +kernel
  obtain ⟨results₁, h₁, -⟩ := exists_results_of_keys hkeys₁
  obtain ⟨results₂, h₂, -⟩ := exists_results_of_keys hkeys₂
  obtain ⟨hagree, -, hkeeps⟩ := keys_queryAll_agree_iff (by simp)
    (by simp [logLines, Json.isObject]) h₁ h₂
  refine ⟨results₁, results₂, h₁, h₂, hagree.mpr (.inr ((hkeeps (by simp)).mpr ?_))⟩
  rintro raw hraw ⟨value, hvalue, hrespelled⟩
  rw [List.mem_singleton.mp hraw] at hvalue
  cases hvalue
  cases hrespelled

end Service

end PanelSearch
