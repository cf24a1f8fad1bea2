import PanelSearch.Frame.Written
import PanelSearch.Proofs.Response.Lines
import PanelSearch.Proofs.Time.Codec
import PanelSearch.Setting

/-! Instants on their way to the cells of time columns. Epoch nanoseconds in the years 1 to 9999 are
kept to the microsecond, by a date and a clock that tell how far they are from the epoch, and a cell
shows them in whole milliseconds. Both steps round down, before the epoch as well as after it. -/

namespace PanelSearch

open Json (member)

/-- How far an instant is from the epoch: in days, of which those before the epoch are negative, and
in the seconds and microseconds of the day that has begun. -/
structure Elapsed where
  days : Int
  seconds : Nat
  micros : Nat

namespace Elapsed

/-- The seconds make up no day, and the microseconds no second. -/
structure IsNormal (e : Elapsed) : Prop where
  seconds_lt : e.seconds < 86400
  micros_lt : e.micros < 1000000

def nanos (e : Elapsed) : Int := (e.days * 86400 + e.seconds) * nanosPerSecond + e.micros * 1000

end Elapsed

namespace DateTime

/-- How far a date and a clock are from the epoch. -/
def elapsed (t : DateTime) : Elapsed where
  days := t.date.dayNumber - epochDay
  seconds := (t.hour * 60 + t.minute) * 60 + t.second
  micros := t.nano / 1000

theorem isNormal_elapsed_ofNanos (ns : Int) : (ofNanos ns).elapsed.IsNormal := by
  obtain ⟨hhour, hminute, hsecond, hnano⟩ := clock_ofNanos ns
  refine ⟨?_, ?_⟩
  · simp only [elapsed]
    omega
  · simp only [elapsed]
    omega

/-- The fields of a whole number of microseconds lose nothing of it. -/
theorem nanos_elapsed_ofNanos (micros : Int) :
    (ofNanos (micros * 1000)).elapsed.nanos = micros * 1000 := by
  have hnanos := nanos_ofNanos (micros * 1000)
  have hwhole : (ofNanos (micros * 1000)).nano % 1000 = 0 := by
    simp only [ofNanos, nanosPerDay_eq]
    omega
  simp only [nanos, nanosPerSecond] at hnanos
  simp only [Elapsed.nanos, elapsed, nanosPerSecond]
  omega

end DateTime

namespace Instant

variable {t u : Instant} {ns : Int}

theorem exists_ofNanos?_iff (ns : Int) : (∃ t, ofNanos? ns = some t) ↔
    1 ≤ utcYear (ns / 1000 * 1000) ∧ utcYear (ns / 1000 * 1000) ≤ 9999 := by
  rw [utcYear, ← DateTime.inCalendar_iff]
  constructor
  · rintro ⟨t, ht⟩
    have hin := t.inCalendar
    rwa [ofNanos?_eq_some_iff.mp ht] at hin
  · intro hin
    exact ⟨⟨ns / 1000, hin⟩, ofNanos?_eq_some_iff.mpr rfl⟩

/-- What is left of epoch nanoseconds in an instant and in its cell. -/
structure Keeps (t : Instant) (ns : Int) : Prop where
  dateTime_isValid : t.dateTime.isValid = true
  elapsed_isNormal : t.dateTime.elapsed.IsNormal
  nanos_elapsed : t.dateTime.elapsed.nanos = ns / 1000 * 1000
  nanos_eq : t.nanos = ns / 1000 * 1000
  cell_eq : (Cell.time t).json .time = .int (ns / 1000000)

theorem millis_eq (h : ofNanos? ns = some t) : t.millis = ns / 1000000 := by
  have hmicros := ofNanos?_eq_some_iff.mp h
  rw [millis, nanos, hmicros]
  omega

theorem keeps_of_ofNanos? (h : ofNanos? ns = some t) : t.Keeps ns where
  dateTime_isValid := DateTime.isValid_ofNanos t.inCalendar
  elapsed_isNormal := DateTime.isNormal_elapsed_ofNanos _
  nanos_elapsed := by
    rw [dateTime, nanos, DateTime.nanos_elapsed_ofNanos, ofNanos?_eq_some_iff.mp h]
  nanos_eq := by rw [nanos, ofNanos?_eq_some_iff.mp h]
  cell_eq := by
    rw [Cell.json, if_pos rfl, millis_eq h]

end Instant

namespace Double

theorem exists_truncate_of_ofUnits {negative : Bool} {significand shift : Nat} {d : Double}
    (h : (ofUnits negative significand shift).bounded? = some d) : ∃ k, d.truncate? = some k := by
  unfold ofUnits at h
  split at h
  · cases h
    exact ⟨_, rfl⟩
  · cases h

/-- The double of an integer, if there is one, is finite. -/
theorem exists_truncate_of_ofInt? {n : Int} {d : Double} (h : ofInt? n = some d) :
    ∃ k, d.truncate? = some k := by
  have hratio : ∀ negative m, (ofRatio negative m 1).bounded? = some d →
      ∃ k, d.truncate? = some k := by
    intro negative m h
    unfold ofRatio at h
    simp only at h
    split at h
    · exact exists_truncate_of_ofUnits h
    · exact exists_truncate_of_ofUnits h
  cases n with
  | ofNat m => exact hratio false m h
  | negSucc m => exact hratio true (m + 1) h

theorem truncate?_of_toInt? {d : Double} {n : Int} (h : d.toInt? = some n) :
    d.truncate? = some n := by
  cases d with
  | finite negative significand shift canonical =>
    rw [toInt?] at h
    split at h
    · exact h
    · cases h
  | infinite negative => cases h
  | nan => cases h

end Double

namespace Bucket

/-- The instant of a number of milliseconds, as the key of a bucket tells it. -/
def instantAt (ms : Int) : Except Fault (Option Instant) :=
  match Instant.ofNanos? (ms * 1000000) with
  | some t => .ok (some t)
  | none => .error .beyondRange

theorem instant?_of_truncate {b : Bucket} {d : Double} {ms : Int}
    (hkey : (member b "key").toDouble = .ok (some d)) (hms : d.truncate? = some ms) :
    Series.instant? b = instantAt ms := by
  unfold Series.instant? instantAt
  rw [hkey]
  cases d with
  | finite negative significand shift canonical =>
    simp only [bind, Except.bind, hms, Option.getD_some]
    cases Instant.ofNanos? (ms * 1000000) <;> rfl
  | infinite negative => cases hms
  | nan => cases hms

/-- A key is read as a double. An integer that is rounded by this lies beyond the calendar, and so
does the double. -/
theorem instant?_of_whole {b : Bucket} {ms : Int}
    (h : Setting.whole? (member b "key") = some ms) : Series.instant? b = instantAt ms := by
  cases hkey : member b "key" with
  | int n =>
    rw [hkey] at h
    obtain rfl : n = ms := Option.some.inj h
    have hfar : ∀ k : Int, (∀ t, Instant.ofNanos? (k * 1000000) ≠ some t) →
        instantAt k = .error .beyondRange := by
      intro k hk
      rw [instantAt, Option.eq_none_iff_forall_ne_some.mpr hk]
    cases hd : Double.ofInt? n with
    | none =>
      have hunread : Series.instant? b = .error .beyondRange := by
        unfold Series.instant?
        rw [hkey, Json.toDouble, hd]
        rfl
      rw [hunread, hfar]
      intro t ht
      obtain ⟨d, hsome, -⟩ := Double.ofInt?_truncate (Instant.natAbs_lt_of_ofNanos? ht)
      rw [hd] at hsome
      cases hsome
    | some d =>
      obtain ⟨k, hk⟩ := Double.exists_truncate_of_ofInt? hd
      have hread : (member b "key").toDouble = .ok (some d) := by
        rw [hkey, Json.toDouble, hd]
      rw [instant?_of_truncate hread hk]
      by_cases hsame : k = n
      · rw [hsame]
      rw [hfar k, hfar n]
      · intro t ht
        obtain ⟨d', hd', htruncate⟩ :=
          Double.ofInt?_truncate (Instant.natAbs_lt_of_ofNanos? ht)
        rw [hd] at hd'
        cases hd'
        rw [hk] at htruncate
        exact hsame (Option.some.inj htruncate)
      · intro t ht
        exact hsame (Double.eq_of_ofInt?_truncate hd hk (Instant.natAbs_lt_of_ofNanos? ht))
  | double d =>
    rw [hkey] at h
    exact instant?_of_truncate (by rw [hkey]; rfl) (Double.truncate?_of_toInt? h)
  | _ =>
    rw [hkey] at h
    cases h

end Bucket

namespace Instant

/-- Epoch nanoseconds have an instant just in the years 1 to 9999. It is the nanoseconds rounded
down to the microsecond, and its cell shows them rounded down to the millisecond, so a key of whole
milliseconds comes back as it was. Cells are in the order of the instants. -/
theorem ofNanos?_keeps :
    (∀ ns, (∃ t, ofNanos? ns = some t) ↔
      1 ≤ utcYear (ns / 1000 * 1000) ∧ utcYear (ns / 1000 * 1000) ≤ 9999) ∧
    (∀ ns t, ofNanos? ns = some t → t.Keeps ns) ∧
    (∀ (b : Bucket) (ms : Int), Setting.whole? (member b "key") = some ms →
      (Series.instant? b = .error .beyondRange ∧
          ¬(1 ≤ utcYear (ms * 1000000) ∧ utcYear (ms * 1000000) ≤ 9999)) ∨
        ∃ t, Series.instant? b = .ok (some t) ∧ t.nanos = ms * 1000000 ∧
          (Cell.time t).json .time = .int ms) ∧
    ∀ ns ns' t t', ofNanos? ns = some t → ofNanos? ns' = some t' → ns ≤ ns' →
      ∃ ms ms', (Cell.time t).json .time = .int ms ∧ (Cell.time t').json .time = .int ms' ∧
        ms ≤ ms' := by
  refine ⟨exists_ofNanos?_iff, fun ns t => keeps_of_ofNanos?, fun b ms hkey => ?_,
    fun ns ns' t t' ht ht' hle => ?_⟩
  · have hwhole : ms * 1000000 / 1000 * 1000 = ms * 1000000 := by omega
    have hexists := exists_ofNanos?_iff (ms * 1000000)
    rw [hwhole] at hexists
    rw [Bucket.instant?_of_whole hkey, Bucket.instantAt]
    cases hinstant : ofNanos? (ms * 1000000) with
    | none =>
      rw [hinstant] at hexists
      exact .inl ⟨rfl, fun hyears => by simpa using hexists.mpr hyears⟩
    | some t =>
      have hkeeps := keeps_of_ofNanos? hinstant
      refine .inr ⟨t, rfl, by rw [hkeeps.nanos_eq, hwhole], ?_⟩
      rw [hkeeps.cell_eq, Int.mul_ediv_cancel _ (by decide)]
  · refine ⟨_, _, (keeps_of_ofNanos? ht).cell_eq, (keeps_of_ofNanos? ht').cell_eq, ?_⟩
    exact Int.ediv_le_ediv (by decide) hle

/-- The last nanosecond before the epoch is in the last microsecond and the last millisecond before
it, and a bucket with that millisecond as its key is at its beginning. -/
theorem ofNanos?_keeps_beforeEpoch :
    (∃ t u, ofNanos? (-1) = some t ∧ ofNanos? 0 = some u ∧
      t.nanos = -1000 ∧ t.dateTime.elapsed.nanos = -1000 ∧
      ∃ ms ms', (Cell.time t).json .time = .int ms ∧ (Cell.time u).json .time = .int ms' ∧
        ms ≤ ms') ∧
    ∃ t, Series.instant? [("key", .int (-1))] = .ok (some t) ∧ t.nanos = -1000000 ∧
      (Cell.time t).json .time = .int (-1) := by
  obtain ⟨hexists, hkeeps, hkeys, horder⟩ := ofNanos?_keeps
  constructor
  · obtain ⟨t, ht⟩ := (hexists (-1)).mpr (by decide)
    obtain ⟨u, hu⟩ := (hexists 0).mpr (by decide)
    have hlast := hkeeps _ t ht
    exact ⟨t, u, ht, hu, hlast.nanos_eq, hlast.nanos_elapsed, horder _ _ t u ht hu (by decide)⟩
  · rcases hkeys [("key", .int (-1))] (-1) rfl with ⟨-, hyears⟩ | hcell
    · exact absurd (by decide) hyears
    · exact hcell

end Instant

end PanelSearch
