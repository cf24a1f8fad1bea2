import PanelSearch.Proofs.Request.References
import PanelSearch.Proofs.Response.Drawn

/-! Display names and the metrics they stand for. A name belongs to the metric of the first series
that comes to it, and series of other metrics add their ids to it. What they come to then is not
looked up again, so it may be the name of another metric, and this is the only way in which two
metrics share a name. -/

namespace PanelSearch

open Json (member)

namespace Series

/-- The metric that a name belongs to: that of the first series with it. -/
def owner? (base : Series → String) (series : List Series) (name : String) : Option String :=
  Entries.get? (series.map fun s => (base s, s.metric.id)) name

/-- A series adds the id of its metric to its name, which belongs to another metric. -/
def AddsId (base : Series → String) (series : List Series) (s : Series) : Prop :=
  owner? base series (base s) ≠ some s.metric.id ∧ s.metric.id ≠ ""

instance (base : Series → String) (series : List Series) (s : Series) :
    Decidable (AddsId base series s) :=
  inferInstanceAs (Decidable (_ ∧ _))

def nameAmong (base : Series → String) (series : List Series) (s : Series) : String :=
  if AddsId base series s then base s ++ " " ++ s.metric.id else base s

/-- Series of two metrics that are told apart by their ids. -/
def OtherMetric (s t : Series) : Prop :=
  s.metric.id ≠ "" ∧ t.metric.id ≠ "" ∧ s.metric.id ≠ t.metric.id

instance (s t : Series) : Decidable (OtherMetric s t) :=
  inferInstanceAs (Decidable (_ ∧ _ ∧ _))

/-- With the id of its metric a series comes to the name of another one. -/
inductive Collides (base : Series → String) (series : List Series) (s t : Series) : Prop where
  /-- The other name is without an id. -/
  | own (hs : AddsId base series s) (ht : ¬AddsId base series t)
      (hname : base t = base s ++ " " ++ s.metric.id)
  /-- The other name ends with an id as well, and the id of the series ends with that one. -/
  | added (front : String) (hs : AddsId base series s) (ht : AddsId base series t)
      (hid : s.metric.id = front ++ " " ++ t.metric.id) (hname : base t = base s ++ " " ++ front)

section Named

variable {base : Series → String} {series : List Series} {s t : Series}

theorem owner?_append_cons (done rest : List Series) (s : Series) (name : String) :
    owner? base (done ++ s :: rest) name =
      ((owner? base done name).or (if base s = name then some s.metric.id else none)).or
        (owner? base rest name) := by
  rw [owner?, List.map_append, Entries.get?_append, List.map_cons, Entries.get?_cons,
    Option.or_assoc]
  by_cases h : base s = name
  · simp only [if_pos h]
    rfl
  · simp only [if_neg h]
    rfl

/-- A table of the metrics that names belong to is all that naming asks of the series before. -/
theorem namedFrom_eq_map {q : Query} {kinds : Nat} {owners : Entries String}
    {done rest : List Series}
    (howners : ∀ name, Entries.get? owners name = owner? (·.displayName q kinds) done name) :
    namedFrom q kinds owners rest =
      rest.map fun s => (s, nameAmong (·.displayName q kinds) (done ++ rest) s) := by
  induction rest generalizing owners done with
  | nil => rfl
  | cons s rest ih =>
    have hsplit : done ++ s :: rest = (done ++ [s]) ++ rest := List.append_cons ..
    have hdone : ∀ name, owner? (·.displayName q kinds) (done ++ [s]) name =
        (Entries.get? owners name).or
          (if s.displayName q kinds = name then some s.metric.id else none) := by
      intro name
      rw [owner?_append_cons, howners]
      exact Option.or_none
    rw [List.map_cons, namedFrom]
    cases hget : Entries.get? owners (s.displayName q kinds) with
    | some owner =>
      have hnext : ∀ name, Entries.get? owners name =
          owner? (·.displayName q kinds) (done ++ [s]) name := by
        intro name
        rw [hdone]
        split
        · next h => rw [← h, hget]; rfl
        · exact Option.or_none.symm
      have howner : owner? (·.displayName q kinds) (done ++ s :: rest) (s.displayName q kinds) =
          some owner := by
        rw [owner?_append_cons, ← howners, hget]
        rfl
      simp only
      rw [ih hnext, hsplit, nameAmong, ← hsplit]
      simp only [AddsId, howner, ne_eq, Option.some.injEq]
    | none =>
      have hnext : ∀ name,
          Entries.get? (Entries.put owners (s.displayName q kinds) s.metric.id) name =
            owner? (·.displayName q kinds) (done ++ [s]) name := by
        intro name
        rw [hdone, Entries.get?_put]
        split
        · next h => rw [h, hget, if_pos rfl]; rfl
        · next h => rw [if_neg (Ne.symm h), Option.or_none]
      have howner : owner? (·.displayName q kinds) (done ++ s :: rest) (s.displayName q kinds) =
          some s.metric.id := by
        rw [owner?_append_cons, ← howners, hget, if_pos rfl]
        rfl
      simp only
      rw [ih hnext, hsplit, nameAmong, ← hsplit]
      simp only [AddsId, howner, ne_eq, not_true_eq_false, false_and, if_false]

/-- What the series of a response are called without ids. -/
def baseName (q : Query) (series : List Series) (s : Series) : String :=
  s.displayName q (series.map (·.metricLabel)).eraseDups.length

theorem named_eq_map (q : Query) (series : List Series) : named q series =
    series.map fun s => (s, nameAmong (baseName q series) series s) := by
  have hstart : ∀ name, Entries.get? ([] : Entries String) name =
      owner? (baseName q series) [] name := fun _ => rfl
  exact namedFrom_eq_map hstart

theorem exists_front {a b i j : String} {behind : List Char} (hne : i ≠ j)
    (hname : b.toList = a.toList ++ behind) (hid : ' ' :: i.toList = behind ++ ' ' :: j.toList) :
    ∃ front, i = front ++ " " ++ j ∧ b = a ++ " " ++ front := by
  cases behind with
  | nil => exact absurd (String.toList_inj.mp (List.cons.inj hid).2) hne
  | cons c front =>
    obtain ⟨rfl, hid⟩ := List.cons.inj hid
    refine ⟨String.ofList front, String.toList_inj.mp ?_, String.toList_inj.mp ?_⟩
    · simpa using hid
    · simpa using hname

/-- Names with different ids behind them are the same only where an id ends with the other. -/
theorem exists_front_of_append_id_eq {a b i j : String} (hne : i ≠ j)
    (h : a ++ " " ++ i = b ++ " " ++ j) :
    (∃ front, i = front ++ " " ++ j ∧ b = a ++ " " ++ front) ∨
      ∃ front, j = front ++ " " ++ i ∧ a = b ++ " " ++ front := by
  have hchars : a.toList ++ ' ' :: i.toList = b.toList ++ ' ' :: j.toList := by
    simpa using congrArg String.toList h
  rcases List.append_eq_append_iff.mp hchars with ⟨behind, hb, hi⟩ | ⟨behind, ha, hj⟩
  · exact .inl (exists_front hne hb hi)
  · exact .inr (exists_front hne.symm ha hj)

theorem owner?_eq_of_not_addsId (h : ¬AddsId base series s) (hid : s.metric.id ≠ "") :
    owner? base series (base s) = some s.metric.id := by
  by_contra howner
  exact h ⟨howner, hid⟩

theorem Collides.nameAmong_eq (h : Collides base series s t) :
    nameAmong base series s = nameAmong base series t := by
  cases h with
  | own hs ht hname => rw [nameAmong, nameAmong, if_pos hs, if_neg ht, hname]
  | added front hs ht hid hname =>
    rw [nameAmong, nameAmong, if_pos hs, if_pos ht, hid, hname]
    simp only [String.append_assoc]

/-- Series of two metrics come to one name only by the id of one of them. -/
theorem nameAmong_eq_iff (hother : s.OtherMetric t) :
    nameAmong base series s = nameAmong base series t ↔
      Collides base series s t ∨ Collides base series t s := by
  obtain ⟨hsid, htid, hne⟩ := hother
  constructor
  · intro h
    by_cases hs : AddsId base series s <;> by_cases ht : AddsId base series t
    · rw [nameAmong, nameAmong, if_pos hs, if_pos ht] at h
      rcases exists_front_of_append_id_eq hne h with ⟨front, hid, hname⟩ | ⟨front, hid, hname⟩
      · exact .inl (.added front hs ht hid hname)
      · exact .inr (.added front ht hs hid hname)
    · rw [nameAmong, nameAmong, if_pos hs, if_neg ht] at h
      exact .inl (.own hs ht h.symm)
    · rw [nameAmong, nameAmong, if_neg hs, if_pos ht] at h
      exact .inr (.own ht hs h)
    · rw [nameAmong, nameAmong, if_neg hs, if_neg ht] at h
      have howner := owner?_eq_of_not_addsId hs hsid
      rw [h, owner?_eq_of_not_addsId ht htid] at howner
      exact absurd (Option.some.inj howner).symm hne
  · rintro (h | h)
    · exact h.nameAmong_eq
    · exact h.nameAmong_eq.symm

end Named

end Series

/-- The name that a panel shows for the last column of a frame. -/
def Frame.displayName? (f : Frame) : Option String :=
  (f.columns.getLast?.bind (·.config)).bind (·.displayName)

namespace Collected

variable {q : Query}

open Series (nameAmong baseName Collides)

theorem displayName?_of_mem_drawn {c : Collected} {x : Series × Frame} (h : x ∈ c.drawn q) :
    x.1 ∈ c.series ∧
      x.2.displayName? = some (nameAmong (baseName q c.series) c.series x.1) := by
  obtain ⟨named, hnamed, rfl⟩ := List.mem_map.mp h
  rw [Series.named_eq_map] at hnamed
  obtain ⟨s, hs, rfl⟩ := List.mem_map.mp hnamed
  exact ⟨hs, rfl⟩

theorem exists_mem_drawn {c : Collected} {s : Series} (h : s ∈ c.series) :
    ∃ f, (s, f) ∈ c.drawn q := by
  rw [← c.drawn_map_fst (q := q)] at h
  obtain ⟨⟨s, f⟩, hmem, rfl⟩ := List.mem_map.mp h
  exact ⟨f, hmem⟩

/-- No name of a frame stands for two metrics. -/
def TellsApart (q : Query) (c : Collected) : Prop :=
  ∀ x ∈ c.drawn q, ∀ y ∈ c.drawn q, x.1.OtherMetric y.1 →
    x.2.displayName? ≠ y.2.displayName?

theorem tellsApart_iff (c : Collected) : c.TellsApart q ↔ ∀ s ∈ c.series, ∀ t ∈ c.series,
    s.OtherMetric t → ¬Collides (baseName q c.series) c.series s t := by
  constructor
  · intro h s hs t ht hother hcollides
    obtain ⟨f, hf⟩ := exists_mem_drawn (q := q) hs
    obtain ⟨g, hg⟩ := exists_mem_drawn (q := q) ht
    refine h _ hf _ hg hother ?_
    rw [(displayName?_of_mem_drawn hf).2, (displayName?_of_mem_drawn hg).2,
      hcollides.nameAmong_eq]
  · intro h x hx y hy hother hname
    obtain ⟨hxs, hxname⟩ := displayName?_of_mem_drawn hx
    obtain ⟨hys, hyname⟩ := displayName?_of_mem_drawn hy
    rw [hxname, hyname] at hname
    rcases (Series.nameAmong_eq_iff hother).mp (Option.some.inj hname) with hcollides | hcollides
    · exact h _ hxs _ hys hother hcollides
    · exact h _ hys _ hxs ⟨hother.2.1, hother.1, hother.2.2.symm⟩ hcollides

end Collected

/-- Display names tell metrics apart as long as no series comes to the name of another metric by its
own id. -/
theorem displayNames_tellApart_iff {q : Query} {response : Entries Json} {frames : List Frame}
    (h : aggregationFrames q response = .ok frames) :
    ∃ c, Collected.ofResponse q response = .ok c ∧
      frames = (c.drawn q).map (·.2) ++ c.tableFrames ∧ (c.drawn q).map (·.1) = c.series ∧
      (c.TellsApart q ↔ ∀ s ∈ c.series, ∀ t ∈ c.series,
        s.OtherMetric t → ¬Series.Collides (Series.baseName q c.series) c.series s t) := by
  obtain ⟨c, hc, hframes⟩ := aggregationFrames_eq_ok_iff.mp h
  exact ⟨c, hc, hframes, c.drawn_map_fst, c.tellsApart_iff⟩

/-- The average latency and size of requests, by service and time. -/
def averages : Query :=
  SearchRequest.overTime [{ id := "8", kind := .terms, field := "service", settings := [] }]
    [SearchRequest.bareMetric "1" .avg "latency", SearchRequest.bareMetric "3" .avg "bytes"]

def timesResult : Entries Json :=
  [("buckets", .arr [.obj [("key", .int 1000), ("doc_count", .int 1)]])]

def serviceTimes (service : String) : Json :=
  .obj [("key", .str service), ("doc_count", .int 1), ("2", .obj timesResult)]

/-- One bucket over time for each of two services. -/
def servicesAnswer (first second : String) : Entries Json :=
  [("aggregations", .obj [("8", .obj [
    ("buckets", .arr [serviceTimes first, serviceTimes second])])])]

def serviceLeaf (service : String) : Leaf :=
  ⟨⟨"2", .dateHistogram, "ts", []⟩, [("service", service)], timesResult⟩

theorem ofResponse_servicesAnswer (first second : String) :
    Leaf.ofResponse averages (servicesAnswer first second) =
      [serviceLeaf first, serviceLeaf second] := by
  have hbelow : ∀ service, Carries averages (averages.buckets.drop 1) (serviceTimes service) := by
    intro service
    have hkeys : Entries.keys (serviceTimes service).membersD = ["key", "doc_count", "2"] := rfl
    exact .last ⟨by rw [hkeys]; decide, rfl, by rw [hkeys]; decide⟩
  have htree : Carries averages averages.buckets
      (member (servicesAnswer first second) "aggregations") := by
    have hkeys : Entries.keys (member (servicesAnswer first second) "aggregations").membersD =
      ["8"] := rfl
    refine .array (by decide) ⟨by rw [hkeys]; decide, rfl, by rw [hkeys]; decide⟩ rfl ?_
    intro bucket hbucket _
    rcases List.mem_cons.mp hbucket with rfl | hbucket
    · exact hbelow first
    · cases List.mem_singleton.mp hbucket
      exact hbelow second
  have hlevels : averages.buckets = averages.buckets.take 1 ++ [⟨"2", .dateHistogram, "ts", []⟩] :=
    rfl
  exact (Leaf.ofResponse_eq (by decide) hlevels (by decide) htree).trans rfl

theorem averages_toldApart : ∃ c, Collected.ofResponse averages (servicesAnswer "web" "db") =
    .ok c ∧ c.series.length = 4 ∧ c.TellsApart averages := by
  have hwalk := ofResponse_servicesAnswer "web" "db"
  obtain ⟨frames, hframes⟩ : ∃ frames,
      aggregationFrames averages (servicesAnswer "web" "db") = .ok frames := by
    rw [aggregationFrames, Collected.ofResponse, hwalk]
    exact ⟨_, rfl⟩
  obtain ⟨c, hc, -, -, hiff⟩ := displayNames_tellApart_iff hframes
  have hseries : c.series =
      [serviceLeaf "web", serviceLeaf "db"].flatMap (Leaf.drawn averages) := by
    rw [Collected.series_eq_flatMap hc, Leaf.overTime, hwalk]
    rfl
  refine ⟨c, hc, by rw [hseries]; decide +kernel, hiff.mpr ?_⟩
  have hnames : ∀ s ∈ c.series, ∀ t ∈ c.series, s.OtherMetric t →
      Series.nameAmong (Series.baseName averages c.series) c.series s ≠
        Series.nameAmong (Series.baseName averages c.series) c.series t := by
    rw [hseries]
    decide +kernel
  exact fun s hs t ht hother hcollides => hnames s hs t ht hother hcollides.nameAmong_eq

/-- The id that the second series adds makes its name that of another service. -/
theorem averages_confused : averages.aliasPattern = "" ∧
    ∃ c, Collected.ofResponse averages (servicesAnswer "web" "web 3") = .ok c ∧
      (c.drawn averages).map (fun x => (x.1.metric.id, x.2.displayName?)) =
        [("1", some "web"), ("3", some "web 3"), ("1", some "web 3"), ("3", some "web 3 3")] ∧
      ¬c.TellsApart averages := by
  obtain ⟨c, hc⟩ : ∃ c, Collected.ofResponse averages (servicesAnswer "web" "web 3") = .ok c := by
    rw [Collected.ofResponse, ofResponse_servicesAnswer]
    exact ⟨_, rfl⟩
  have hseries : c.series =
      [serviceLeaf "web", serviceLeaf "web 3"].flatMap (Leaf.drawn averages) := by
    rw [Collected.series_eq_flatMap hc, Leaf.overTime, ofResponse_servicesAnswer]
    rfl
  have hnames : (c.drawn averages).map (fun x => (x.1.metric.id, x.2.displayName?)) =
      [("1", some "web"), ("3", some "web 3"), ("1", some "web 3"), ("3", some "web 3 3")] := by
    rw [Collected.drawn, hseries]
    decide +kernel
  refine ⟨rfl, c, hc, hnames, fun hapart => ?_⟩
  obtain ⟨x, hx, hxname⟩ : ∃ x ∈ c.drawn averages,
      (x.1.metric.id, x.2.displayName?) = ("3", some "web 3") :=
    List.mem_map.mp (by rw [hnames]; decide)
  obtain ⟨y, hy, hyname⟩ : ∃ y ∈ c.drawn averages,
      (y.1.metric.id, y.2.displayName?) = ("1", some "web 3") :=
    List.mem_map.mp (by rw [hnames]; decide)
  obtain ⟨hxid, hxname⟩ := Prod.mk.inj hxname
  obtain ⟨hyid, hyname⟩ := Prod.mk.inj hyname
  refine hapart x hx y hy ?_ (hxname.trans hyname.symm)
  rw [Series.OtherMetric, hxid, hyid]
  decide

end PanelSearch
