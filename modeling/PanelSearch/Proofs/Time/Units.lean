import Mathlib.Algebra.Group.Int.Defs
import PanelSearch.Proofs.Time.Codec

/-! The unit of a timestamp without a format. Its magnitude tells the unit of all four numeric
formats at the instants from March 1973 to November 5138, and at those as far before the epoch; of
all other instants only the epoch itself is read the same by every one of them. -/

namespace PanelSearch.Time

theorem infer_int (n : Int) : infer (.int n) = .ok (n * unitOfMagnitude n) := rfl

theorem decode_int_of_mem {f : String × Int} (hf : f ∈ numericFormats) (n : Int) :
    decode f.1 (.int n) = .ok (n * f.2) := by
  simp only [numericFormats, List.mem_cons, List.not_mem_nil, or_false] at hf
  rcases hf with rfl | rfl | rfl | rfl <;> rfl

theorem unitOfMagnitude_neg (n : Int) : unitOfMagnitude (-n) = unitOfMagnitude n := by
  simp only [unitOfMagnitude, Int.natAbs_neg]

/-- The magnitudes that a unit is told by. -/
theorem unitOfMagnitude_eq (n : Int) : unitOfMagnitude n =
    if 10 ^ 17 ≤ n.natAbs then 1
    else if 10 ^ 14 ≤ n.natAbs then 1000
    else if 10 ^ 11 ≤ n.natAbs then 1000000
    else 1000000000 := rfl

/-- A timestamp is in the inferred unit just if it is zero or has the magnitudes of the unit. -/
theorem mul_unitOfMagnitude_eq_iff (n : Int) :
    (n * unitOfMagnitude n = n * nanosPerSecond ↔ n.natAbs < 10 ^ 11) ∧
    (n * unitOfMagnitude n = n * 1000000 ↔ n = 0 ∨ 10 ^ 11 ≤ n.natAbs ∧ n.natAbs < 10 ^ 14) ∧
    (n * unitOfMagnitude n = n * 1000 ↔ n = 0 ∨ 10 ^ 14 ≤ n.natAbs ∧ n.natAbs < 10 ^ 17) ∧
    (n * unitOfMagnitude n = n * 1 ↔ n = 0 ∨ 10 ^ 17 ≤ n.natAbs) := by
  rw [unitOfMagnitude_eq, nanosPerSecond]
  split
  · omega
  · split
    · omega
    · split <;> omega

/-- Timestamps of one instant in the four units are all inferred right just at the instants whose
magnitudes tell the units apart, and at the epoch. -/
theorem mul_unitOfMagnitude_div_iff (t : Int) :
    (∀ f ∈ numericFormats, t / f.2 * unitOfMagnitude (t / f.2) = t / f.2 * f.2) ↔
      t = 0 ∨ 10 ^ 17 ≤ t.natAbs ∧ 10 ^ 9 - 10 ^ 20 ≤ t ∧ t < 10 ^ 20 := by
  have hsecs := (mul_unitOfMagnitude_eq_iff (t / nanosPerSecond)).1
  have hmillis := (mul_unitOfMagnitude_eq_iff (t / 1000000)).2.1
  have hmicros := (mul_unitOfMagnitude_eq_iff (t / 1000)).2.2.1
  have hnanos := (mul_unitOfMagnitude_eq_iff (t / 1)).2.2.2
  simp only [numericFormats, List.forall_mem_cons, hsecs, hmillis, hmicros, hnanos]
  simp only [nanosPerSecond, Int.ediv_one, List.not_mem_nil, false_imp_iff, implies_true, and_true]
  omega

/-- Without a format a timestamp is read as by each of the numeric formats, at every instant from
March 1973 to November 5138; with a minus sign it is read as the instant so far before the epoch. -/
theorem infer_agrees :
    (∀ t : Int, (∀ f ∈ numericFormats, infer (.int (t / f.2)) = decode f.1 (.int (t / f.2))) ↔
      t = 0 ∨ 10 ^ 17 ≤ t.natAbs ∧ 10 ^ 9 - 10 ^ 20 ≤ t ∧ t < 10 ^ 20) ∧
    (∀ f ∈ numericFormats, ∀ n, decode f.1 (.int n) = .ok (n * f.2)) ∧
    ∀ n, ∃ ns, infer (.int n) = .ok ns ∧ infer (.int (-n)) = .ok (-ns) := by
  refine ⟨fun t => ?_, fun f hf n => decode_int_of_mem hf n, fun n => ?_⟩
  · rw [← mul_unitOfMagnitude_div_iff]
    refine forall₂_congr fun f hf => ?_
    rw [infer_int, decode_int_of_mem hf, Except.ok.injEq]
  · refine ⟨n * unitOfMagnitude n, infer_int n, ?_⟩
    rw [infer_int, unitOfMagnitude_neg, Int.neg_mul]

/-- The last nanosecond of the instants that tell the units apart, in milliseconds. -/
theorem infer_agrees_atEnd : infer (.int 99999999999999) = .ok 99999999999999000000 ∧
    decode "unix_timestamp_millis" (.int 99999999999999) = .ok 99999999999999000000 := by
  obtain ⟨hagree, hdecode, -⟩ := infer_agrees
  have hformat : ("unix_timestamp_millis", 1000000) ∈ numericFormats := by decide
  have hread := hdecode _ hformat 99999999999999
  have hsame := (hagree (10 ^ 20 - 1)).mpr (by decide) _ hformat
  exact ⟨hsame.trans hread, hread⟩

end PanelSearch.Time
