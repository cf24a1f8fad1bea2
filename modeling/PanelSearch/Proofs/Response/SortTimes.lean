import PanelSearch.Proofs.Number.Integer
import PanelSearch.Proofs.Request.Building
import PanelSearch.Proofs.Response.Documents
import PanelSearch.Proofs.Time.Units

/-! The time of a hit without one: requests for hits have them sorted by time in epoch nanoseconds,
and the first sort value of a hit stands in for its time. It is decoded like the time field itself,
so that it is taken for nanoseconds by some formats only. -/

namespace PanelSearch

open Traversal
open Json (member)

/-! ### Requests -/

namespace SearchRequest

variable {target : Target} {q : Query} {r : SearchRequest}

/-- The order of hits by time, newest or oldest first. -/
def timeOrder (timeField order : String) : Json :=
  .obj [(timeField, .obj [("order", .str order), ("format", .str "epoch_nanos_int")])]

/-- The body has hits sorted by time before anything else. -/
def SortsByTime (timeField : String) (body : Json) : Prop :=
  ∃ order more, order ∈ ["asc", "desc"] ∧
    body.path ["sort"] = .arr (timeOrder timeField order :: more)

theorem path_sort {body : Json} (hsort : r.sort ≠ []) (hbody : r.body = .ok body) :
    body.path ["sort"] = .arr (r.sort.map SortKey.json) := by
  obtain ⟨after, rfl, -⟩ := exists_members_of_body hbody
  have hgiven : r.sort.isEmpty = false := by simpa using hsort
  simp [Json.path, member, members, optionalMembers, hgiven, Entries.get?_cons]

theorem sort_forLogs (start : SearchRequest) (q : Query) (timeField : String) :
    ∃ order, (start.forLogs q timeField).sort =
      start.sort ++ [⟨timeField, order, epochNanosFormat⟩] := by
  unfold forLogs
  by_cases hasc : (member (hitSettings q) "sortDirection").str? = some "asc"
  · refine ⟨.asc, ?_⟩
    simp only [if_pos hasc]
    split <;> rfl
  · refine ⟨.desc, ?_⟩
    simp only [if_neg hasc]
    split <;> rfl

theorem sort_forDocuments (start : SearchRequest) (q : Query) (timeField : String) :
    (start.forDocuments q timeField).sort =
      start.sort ++ [⟨timeField, .desc, epochNanosFormat⟩] ++ [⟨"_doc", .desc, ""⟩] := rfl

theorem sort_of_ofQuery (hhits : q.wantsHits = true) (h : ofQuery target q = .ok r) :
    ∃ order more, r.sort = ⟨target.timeField, order, epochNanosFormat⟩ :: more := by
  obtain ⟨start, -, hsort, -, hr⟩ := exists_start_of_ofQuery h
  cases hshape : q.shape with
  | aggregation =>
    rw [Query.wantsHits, hshape] at hhits
    cases hhits
  | logs =>
    rw [hshape] at hr
    obtain ⟨order, horder⟩ := sort_forLogs start q target.timeField
    rw [hr, horder, hsort]
    exact ⟨order, [], rfl⟩
  | _ =>
    rw [hshape] at hr
    rw [hr, sort_forDocuments, hsort]
    exact ⟨.desc, _, rfl⟩

/-- A request for hits has a body that has them sorted by time. -/
theorem exists_body_sortsByTime (hhits : q.wantsHits = true) (h : ofQuery target q = .ok r) :
    ∃ body, r.body = .ok body ∧ SortsByTime target.timeField body := by
  obtain ⟨body, hbody⟩ := exists_body_of_ofQuery h
  obtain ⟨order, more, hsort⟩ := sort_of_ofQuery hhits h
  have hpath := path_sort (by simp [hsort]) hbody
  rw [hsort, List.map_cons] at hpath
  refine ⟨body, hbody, order.name, more.map SortKey.json, ?_, hpath⟩
  cases order <;> decide

end SearchRequest

/-! ### Times -/

namespace TimeFormat

theorem ofName_eq_unix_iff {format : String} {unit : Int} :
    ofName format = .unix unit ↔ (format, unit) ∈ numericFormats := by
  constructor
  · intro h
    unfold ofName at h
    split at h <;> cases h <;> decide
  · intro h
    simp only [numericFormats, List.mem_cons, Prod.mk.injEq, List.not_mem_nil, or_false] at h
    obtain ⟨rfl, rfl⟩ | ⟨rfl, rfl⟩ | ⟨rfl, rfl⟩ | ⟨rfl, rfl⟩ := h <;> rfl

end TimeFormat

namespace Time

theorem decode_int (format : String) (n : Int) : decode format (.int n) =
    match TimeFormat.ofName format with
    | .unix unit => .ok (n * unit)
    | _ => .error (.incoherent format (.int n)) := by
  unfold decode
  cases TimeFormat.ofName format <;> rfl

end Time

namespace Document

variable {known : ConfiguredFields} {doc : Document} {hit : Hit} {n : Int}

/-- The formats by which a number of epoch nanoseconds is taken for what it is: nanoseconds, or no
format if the number is that of an instant from 1973 on. Zero is the epoch in any unit, and a
nanosecond before it is rounded down to a microsecond. -/
def ReadsNanos (format : String) (n : Int) : Prop :=
  format = "unix_timestamp_nanos" ∨
  (format = "" ∧ 10 ^ 17 ≤ n.natAbs) ∨
  (n = 0 ∧ format ∈ ["", "unix_timestamp_secs", "unix_timestamp_millis", "unix_timestamp_micros"]) ∨
  (n = -1 ∧ format = "unix_timestamp_micros")

instance (format : String) (n : Int) : Decidable (ReadsNanos format n) :=
  inferInstanceAs (Decidable (_ ∨ _ ∨ _ ∨ _))

/-- The nanoseconds in the unit in which a sort value is taken, if the format is one of numbers. -/
def sortUnit? (format : String) (n : Int) : Option Int :=
  if format = "" then some (Time.unitOfMagnitude n)
  else
    match TimeFormat.ofName format with
    | .unix unit => some unit
    | _ => none

/-- A hit without a time has that of its first sort value, in the unit of the format. -/
theorem time?_eq_ofNanos? {rest : List Json} (htime : member doc known.timeField = .null)
    (hsort : member hit "sort" = .arr (.int n :: rest)) : time? known doc hit =
      .ok ((sortUnit? known.timeFormat n).bind fun unit => Instant.ofNanos? (n * unit)) := by
  have hvalue : timeValue known doc hit = .int n := by
    rw [timeValue, htime]
    simp only [Hit.sortValue, hsort]
    rfl
  unfold time?
  simp only [hvalue, Json.isNull, Json.isBool, Bool.or_self, Bool.false_eq_true, if_false]
  rw [decodeTime, sortUnit?]
  by_cases hempty : known.timeFormat = ""
  · simp only [hempty]
    rfl
  · rw [if_neg (by simpa using hempty), if_neg hempty, Time.decode_int]
    cases TimeFormat.ofName known.timeFormat <;> rfl

/-- Without a format a number stands for the instant of so many nanoseconds from 1973 on, and at the
epoch. -/
theorem micros_unitOfMagnitude_iff (n : Int) :
    n * Time.unitOfMagnitude n / 1000 = n / 1000 ↔ 10 ^ 17 ≤ n.natAbs ∨ n = 0 := by
  rw [Time.unitOfMagnitude_eq]
  split
  · omega
  · split
    · omega
    · split <;> omega

theorem ReadsNanos.exists_unit {format : String} (h : ReadsNanos format n) (hformat : format ≠ "") :
    ∃ unit, TimeFormat.ofName format = .unix unit := by
  obtain rfl | ⟨hempty, -⟩ | ⟨-, hmem⟩ | ⟨-, rfl⟩ := h
  · exact ⟨_, rfl⟩
  · exact absurd hempty hformat
  · simp only [List.mem_cons, List.not_mem_nil, or_false, hformat, false_or] at hmem
    obtain rfl | rfl | rfl := hmem <;> exact ⟨_, rfl⟩
  · exact ⟨_, rfl⟩

theorem readsNanos_iff (format : String) (n : Int) : ReadsNanos format n ↔
    ∃ unit, sortUnit? format n = some unit ∧ n * unit / 1000 = n / 1000 := by
  unfold sortUnit?
  by_cases hempty : format = ""
  · subst hempty
    simp [ReadsNanos, micros_unitOfMagnitude_iff]
  · rw [if_neg hempty]
    cases hname : TimeFormat.ofName format with
    | unix unit =>
      have hunit := TimeFormat.ofName_eq_unix_iff.mp hname
      simp only [numericFormats, List.mem_cons, Prod.mk.injEq, List.not_mem_nil, or_false] at hunit
      obtain ⟨rfl, rfl⟩ | ⟨rfl, rfl⟩ | ⟨rfl, rfl⟩ | ⟨rfl, rfl⟩ := hunit
      · simp [ReadsNanos, nanosPerSecond]
        omega
      · simp [ReadsNanos]
        omega
      · simp [ReadsNanos]
        omega
      · simp [ReadsNanos]
    | _ =>
      refine iff_of_false (fun h => ?_) (by simp)
      obtain ⟨unit, hunit⟩ := h.exists_unit hempty
      rw [hname] at hunit
      cases hunit

theorem time?_eq_iff {rest : List Json} {t : Instant} (htime : member doc known.timeField = .null)
    (hsort : member hit "sort" = .arr (.int n :: rest)) (ht : Instant.ofNanos? n = some t) :
    time? known doc hit = .ok (some t) ↔ ReadsNanos known.timeFormat n := by
  have hmicros := Instant.ofNanos?_eq_some_iff.mp ht
  rw [time?_eq_ofNanos? htime hsort, readsNanos_iff, Except.ok.injEq, Option.bind_eq_some_iff]
  refine exists_congr fun unit => and_congr_right fun _ => ?_
  rw [Instant.ofNanos?_eq_some_iff, hmicros, eq_comm]

/-- Requests for hits have them sorted by time in epoch nanoseconds, and a hit without a time, but
with a sort value, has the time of so many nanoseconds just by the formats that read them. -/
theorem sortTime_iff {rest : List Json} (htime : member doc known.timeField = .null)
    (hsort : member hit "sort" = .arr (.int n :: rest)) (hin : inCalendar n = true) :
    (∀ (target : Target) (q : Query) (r : SearchRequest), q.wantsHits = true →
      SearchRequest.ofQuery target q = .ok r →
      ∃ body, r.body = .ok body ∧ SearchRequest.SortsByTime target.timeField body) ∧
    ∃ t, Instant.ofNanos? n = some t ∧
      (time? known doc hit = .ok (some t) ↔ ReadsNanos known.timeFormat n) := by
  constructor
  · intro target q r hhits h
    exact SearchRequest.exists_body_sortsByTime hhits h
  · obtain ⟨t, ht⟩ := Instant.exists_ofNanos? hin
    exact ⟨t, ht, time?_eq_iff htime hsort ht⟩

/-- A hit whose source has no time, sorted by an instant of May 2023. -/
def sortedHit : Hit :=
  [("_source", .obj [("message", .str "up")]), ("sort", .arr [.int 1684398201000000000])]

theorem sortedHit_timed :
    upLines.wantsHits = true ∧
    (∃ r body, SearchRequest.ofQuery ⟨"ts", "logs", 3⟩ upLines = .ok r ∧ r.body = .ok body ∧
      SearchRequest.SortsByTime "ts" body) ∧
    member sortedHit.document "ts" = .null ∧
    member sortedHit "sort" = .arr [.int 1684398201000000000] ∧
    ∃ t, Instant.ofNanos? 1684398201000000000 = some t ∧
      time? { timeField := "ts" } sortedHit.document sortedHit = .ok (some t) := by
  have hhits : upLines.wantsHits = true := rfl
  obtain ⟨r, hbuild⟩ : ∃ r, SearchRequest.ofQuery ⟨"ts", "logs", 3⟩ upLines = .ok r := ⟨_, rfl⟩
  have htime : member sortedHit.document "ts" = .null := rfl
  have hsort : member sortedHit "sort" = .arr [.int 1684398201000000000] := rfl
  have hknown : member sortedHit.document (ConfiguredFields.timeField { timeField := "ts" }) =
    .null := htime
  obtain ⟨hrequests, t, ht, hiff⟩ := sortTime_iff hknown hsort (by decide)
  obtain ⟨body, hbody, hsorts⟩ := hrequests _ _ _ hhits hbuild
  exact ⟨hhits, ⟨r, body, hbuild, hbody, hsorts⟩, htime, hsort, t, ht, hiff.mpr (by decide)⟩

/-- By a textual format the same hit has no time. -/
theorem sortedHit_untimed : ¬∀ (known : ConfiguredFields) (doc : Document) (hit : Hit) (n : Int)
    (rest : List Json) (t : Instant), member doc known.timeField = .null →
      member hit "sort" = .arr (.int n :: rest) → Instant.ofNanos? n = some t →
      time? known doc hit = .ok (some t) := by
  intro h
  have htime := h { timeField := "ts", timeFormat := "rfc3339" } sortedHit.document sortedHit
    1684398201000000000 [] ⟨1684398201000000, by decide⟩ rfl rfl rfl
  have hnone : time? { timeField := "ts", timeFormat := "rfc3339" } sortedHit.document sortedHit =
    .ok none := rfl
  rw [hnone] at htime
  cases htime

end Document

end PanelSearch
