import PanelSearch.Proofs.Request.Levels
import PanelSearch.Proofs.Request.References

/-! Settings that are sent as integers. Whatever a dashboard stored, the numbers that a bucket
aggregation is sent with are integers, those that a zero stands for a default of are not zero, and a
least document count that spells an integer is sent as that integer by every kind alike. -/

namespace PanelSearch

open Json (member)
open Setting

namespace Setting

theorem integer?_of_whole? {j : Json} {n : Int} (h : whole? j = some n) : integer? j = some n := by
  cases j with
  | str s => cases h
  | _ => exact h

theorem integer_ne_zero {default : Int} (h : default ≠ 0) (value : Json) :
    integer value default true ≠ 0 := by
  unfold integer
  split
  · next n _ =>
    by_cases hn : n = 0
    · simpa [hn] using h
    · simp [hn]
  · exact h

end Setting

/-- A value spells an integer: it is one, or a double without a fraction, or a numeral. -/
inductive SpellsInteger : Json → Int → Prop
  | int (n : Int) : SpellsInteger (.int n) n
  | double {d : Double} {n : Int} (h : d.toInt? = some n) : SpellsInteger (.double d) n
  | str {s : String} {n : Int} (h : Numeral.int? s.toList = some n) : SpellsInteger (.str s) n

namespace BucketAgg

section Sent

variable (sent : Entries Json) (key : String)

def IntegerAt : Prop := ∃ n, sent.get? key = some (.int n)

def NonzeroAt : Prop := ∃ n, sent.get? key = some (.int n) ∧ n ≠ 0

/-- The member is left out or is an integer. -/
def OptionalAt : Prop := ∀ j, sent.get? key = some j → ∃ n, j = .int n

end Sent

/-- The numbers that a bucket aggregation is sent with are integers. -/
def SendsIntegers (b : BucketAgg) (sent : Entries Json) : Prop :=
  match b.kind with
  | .dateHistogram => IntegerAt sent "min_doc_count"
  | .histogram =>
    IntegerAt sent "min_doc_count" ∧ NonzeroAt sent "interval" ∧ OptionalAt sent "missing"
  | .terms =>
    NonzeroAt sent "size" ∧ NonzeroAt sent "shard_size" ∧ OptionalAt sent "min_doc_count"
  | .geohashGrid => IntegerAt sent "precision"
  | _ => True

/-- A stored least document count that spells an integer is sent as that. -/
def SendsCount (b : BucketAgg) (sent : Entries Json) : Prop :=
  b.kind = .terms ∨ b.kind = .histogram ∨ b.kind = .dateHistogram →
    ∀ n, SpellsInteger (member b.settings "min_doc_count") n →
      sent.get? "min_doc_count" = some (.int n)

/-- After numerals are read, what spells an integer is a whole number. -/
theorem whole?_countedSettings {settings : Entries Json} {n : Int}
    (h : SpellsInteger (member settings "min_doc_count") n) :
    whole? (member (countedSettings settings) "min_doc_count") = some n := by
  unfold countedSettings
  generalize hstored : member settings "min_doc_count" = stored at h
  cases hget : settings.get? "min_doc_count" with
  | none =>
    rw [member, hget] at hstored
    cases hstored
    cases h
  | some j =>
    rw [member, hget, Option.getD_some] at hstored
    subst hstored
    cases h with
    | int n => rw [member, hget]; rfl
    | double hd => rw [member, hget]; exact hd
    | str hs =>
      simp only [hs]
      rw [member, Entries.get?_put, if_pos rfl]
      rfl

theorem minDocCount_countedSettings {settings : Entries Json} {n : Int}
    (h : SpellsInteger (member settings "min_doc_count") n) :
    minDocCount (countedSettings settings) = n := by
  rw [minDocCount, integer, integer?_of_whole? (whole?_countedSettings h)]
  simp

theorem optionalAt_of_get? {sent : Entries Json} {key : String} {o : Option Int}
    (h : sent.get? key = o.map .int) : OptionalAt sent key := by
  intro j hj
  rw [h] at hj
  obtain ⟨n, -, rfl⟩ := Option.map_eq_some_iff.mp hj
  exact ⟨n, rfl⟩

theorem sends_sentMembers (q : Query) (target : Target) (b : BucketAgg) :
    b.SendsIntegers (b.sentMembers q target) ∧ b.SendsCount (b.sentMembers q target) := by
  have hget := get?_sentMembers q target b
  unfold SendsIntegers SendsCount IntegerAt NonzeroAt
  unfold asked at hget
  cases hk : b.kind with
  | dateHistogram =>
    simp only [hk] at hget ⊢
    have hcount : (b.sentMembers q target).get? "min_doc_count" =
        some (.int (minDocCount (countedSettings b.settings))) := hget "min_doc_count"
    refine ⟨⟨_, hcount⟩, fun _ n hn => ?_⟩
    rw [hcount, minDocCount_countedSettings hn]
  | histogram =>
    simp only [hk] at hget ⊢
    have hcount : (b.sentMembers q target).get? "min_doc_count" =
        some (.int (minDocCount (countedSettings b.settings))) := hget "min_doc_count"
    refine ⟨⟨⟨_, hcount⟩, ⟨_, hget "interval", integer_ne_zero (by decide) _⟩,
      optionalAt_of_get? (hget "missing")⟩, fun _ n hn => ?_⟩
    rw [hcount, minDocCount_countedSettings hn]
  | terms =>
    simp only [hk] at hget ⊢
    have hcount : (b.sentMembers q target).get? "min_doc_count" =
        (whole? (member (countedSettings b.settings) "min_doc_count")).map .int :=
      hget "min_doc_count"
    refine ⟨⟨⟨_, hget "size", integer_ne_zero (by decide) _⟩,
      ⟨_, hget "shard_size", integer_ne_zero (by decide) _⟩, optionalAt_of_get? hcount⟩,
      fun _ n hn => ?_⟩
    rw [hcount, whole?_countedSettings hn]
    rfl
  | geohashGrid =>
    simp only [hk] at hget ⊢
    exact ⟨⟨_, hget "precision"⟩, by simp⟩
  | _ => simp

end BucketAgg

/-- The numbers that the bucket aggregations of a query are sent with are integers, and no other
nodes have their types, unless a metric is spelled like one of them. -/
structure Query.SendsIntegers (q : Query) (body : Json) : Prop where
  levels : ∀ outer b inner, q.keptBuckets = outer ++ b :: inner → ∃ sent,
    body.path (levelPath (outer ++ [b]) ++ [b.kind.name]) = .obj sent ∧
      b.SendsIntegers sent ∧ b.SendsCount sent
  only : ∀ kind, (∀ name, kind ≠ .other name) →
    (∀ m ∈ q.metrics, m.kind.name ≠ "aggs" ∧ m.kind.name ≠ kind.name) → KindAtLevels q kind body

/-- Whatever is stored in its bucket aggregations, an aggregation query is sent with integers. -/
theorem ofQuery_sendsIntegers {target : Target} {q : Query} {r : SearchRequest}
    (hshape : q.shape = .aggregation) (hbuild : SearchRequest.ofQuery target q = .ok r) :
    ∃ body, r.body = .ok body ∧ q.SendsIntegers body := by
  obtain ⟨body, leaves, hbody, hbuilt⟩ := exists_holdsBuilt hshape hbuild
  refine ⟨body, hbody, fun outer b inner hkept => ?_, fun kind hkind hmetrics =>
    kindAtLevels hbuild hbody hkind hmetrics⟩
  obtain ⟨n, below, hn, -, hpath⟩ := hbuilt.level outer b inner hkept
  have hb := Query.isKept_of_keptBuckets hkept
  obtain ⟨hsends, hcount⟩ := BucketAgg.sends_sentMembers q target b
  refine ⟨b.sentMembers q target, ?_, hsends, hcount⟩
  rw [Json.path_append, hpath, ← BucketAgg.members_of_built hn.built]
  exact hn.member_members hb _

/-- Terms with a size of zero and a least count that are stored as texts. -/
def sizedServices : Query :=
  SearchRequest.overTime
    [{ id := "8", kind := .terms, field := "service"
       settings := [("size", .str "0"), ("shard_size", .bool true), ("min_doc_count", .str " 2")] }]
    [SearchRequest.bareMetric "1" .count ""]

theorem sizedServices_sendsIntegers : sizedServices.shape = .aggregation ∧
    ∃ r body, SearchRequest.ofQuery ⟨"ts", "logs", 3⟩ sizedServices = .ok r ∧
      r.body = .ok body ∧ sizedServices.SendsIntegers body := by
  obtain ⟨r, hbuild⟩ : ∃ r, SearchRequest.ofQuery ⟨"ts", "logs", 3⟩ sizedServices = .ok r :=
    ⟨_, rfl⟩
  obtain ⟨body, hbody, hsends⟩ := ofQuery_sendsIntegers rfl hbuild
  exact ⟨rfl, r, body, hbuild, hbody, hsends⟩

end PanelSearch
