import PanelSearch.Proofs.Entries
import PanelSearch.Proofs.Traversal
import PanelSearch.Query.MetricSettings

/-! The settings that are sent: those that were stored, of which a few are read as numbers or taken
out of an object. Each kind of metric has its own, and reading them a second time changes nothing.
Sending stops only at a percentile that is an integer beyond every double. -/

namespace PanelSearch

open Traversal

namespace Metric

section Refused

variable {f : Fault}

/-- A percentile is an integer beyond every double. -/
def HasHugePercentile (settings : Entries Json) : Prop :=
  ∃ percents n, settings.get? "percents" = some (.arr percents) ∧ .int n ∈ percents ∧
    Double.ofInt? n = none

theorem percentile_eq_error_iff {j : Json} : percentile j = .error f ↔
    (∃ n, j = .int n ∧ Double.ofInt? n = none) ∧ f = .beyondRange := by
  cases j with
  | int n => cases hn : Double.ofInt? n <;> simp [percentile, hn, eq_comm]
  | _ => simp [percentile]

theorem mapM_percentile_eq_error_iff {percents : List Json} :
    percents.mapM percentile = .error f ↔
      (∃ n, .int n ∈ percents ∧ Double.ofInt? n = none) ∧ f = .beyondRange := by
  constructor
  · intro h
    obtain ⟨before, j, after, rfl, -, hj⟩ := mapM_eq_error_iff.mp h
    obtain ⟨⟨n, rfl, hn⟩, rfl⟩ := percentile_eq_error_iff.mp hj
    exact ⟨⟨n, by simp, hn⟩, rfl⟩
  · rintro ⟨⟨n, hmem, hn⟩, rfl⟩
    refine (mapM_eq_error_iff_exists fun j e hj => (percentile_eq_error_iff.mp hj).2).mpr ?_
    exact ⟨.int n, hmem, percentile_eq_error_iff.mpr ⟨⟨n, rfl, hn⟩, rfl⟩⟩

theorem percentilesSettings_eq_error_iff {settings : Entries Json} :
    percentilesSettings settings = .error f ↔
      HasHugePercentile settings ∧ f = .beyondRange := by
  unfold percentilesSettings HasHugePercentile
  split
  · rename_i percents hpercents
    have hdone : ∀ ds, (pure (Entries.put settings "percents" (.arr (List.map Json.double ds))) :
        Except Fault (Entries Json)) ≠ .error f := by simp [pure, Except.pure]
    simp only [bind_eq_error_iff, mapM_percentile_eq_error_iff, hdone, and_false, exists_false,
      or_false]
    constructor
    · rintro ⟨⟨n, hn⟩, hf⟩
      exact ⟨⟨percents, n, hpercents, hn⟩, hf⟩
    · rintro ⟨⟨_, n, hsome, hn⟩, hf⟩
      rw [hpercents] at hsome
      cases hsome
      exact ⟨⟨n, hn⟩, hf⟩
  · rename_i hnone
    simp only [reduceCtorEq, false_iff]
    rintro ⟨⟨percents, _, hsome, -⟩, -⟩
    exact hnone percents hsome

theorem sentSettings_eq_error_iff {kind : MetricKind} {settings : Entries Json} :
    sentSettings kind settings = .error f ↔
      kind = .percentiles ∧ HasHugePercentile settings ∧ f = .beyondRange := by
  unfold sentSettings
  by_cases hk : kind = .percentiles
  · subst hk
    simp [bind_eq_error_iff, percentilesSettings_eq_error_iff, pure, Except.pure]
  · simp only [hk, false_and, iff_false]
    cases kind <;> first | exact absurd rfl hk | simp [pure, Except.pure, bind, Except.bind]

end Refused

/-- A numeral is sent as the number that it spells. -/
def sentNumber : Json → Json
  | .str s =>
    match Numeral.double? s.toList with
    | some d => .double d
    | none => .str s
  | j => j

/-- Of the settings of a model only its numbers are read. -/
def sentModel : Json → Json
  | .obj model => .obj (Entries.modifyAll model (modelNumbers.map (·, sentNumber)))
  | j => j

def sentPercentile (j : Json) : Json :=
  match percentile j with
  | .ok d => .double d
  | .error _ => j

def sentPercentiles : Json → Json
  | .arr percents => .arr (percents.map sentPercentile)
  | j => j

/-- A script that was stored inside an object is sent alone. -/
def sentScript : Json → Json
  | .obj script =>
    match Json.member script "inline" with
    | .str text => .str text
    | _ => .obj script
  | j => j

/-- The settings of a kind of metric that may be sent otherwise than they were stored, and how. -/
def coercions (kind : MetricKind) : Entries (Json → Json) :=
  (match kind with
    | .movingAvg => [("window", sentNumber), ("predict", sentNumber), ("settings", sentModel)]
    | .serialDiff => [("lag", sentNumber)]
    | .percentiles => [("percents", sentPercentiles)]
    | _ => []) ++ if kind.hasScript then [("script", sentScript)] else []

theorem nodup_keys_coercions (kind : MetricKind) : (Entries.keys (coercions kind)).Nodup := by
  cases kind <;> first | decide | exact List.nodup_nil

theorem readNumber_eq_modify (settings : Entries Json) (key : String) :
    readNumber settings key = settings.modify key sentNumber := by
  unfold readNumber Entries.modify
  cases hget : settings.get? key with
  | none => rfl
  | some j =>
    cases j with
    | str s =>
      cases hd : Numeral.double? s.toList with
      | some d => simp only [sentNumber, hd]
      | none => simp only [sentNumber, hd, Entries.put_of_get? hget]
    | _ => exact (Entries.put_of_get? hget).symm

theorem foldl_readNumber (keys : List String) (settings : Entries Json) :
    keys.foldl readNumber settings = settings.modifyAll (keys.map (·, sentNumber)) := by
  rw [Entries.modifyAll, List.foldl_map]
  refine congrFun (congrFun (congrArg _ ?_) _) _
  funext settings key
  exact readNumber_eq_modify settings key

theorem unwrapScript_eq_modify (settings : Entries Json) :
    unwrapScript settings = settings.modify "script" sentScript := by
  unfold unwrapScript Entries.modify
  cases hget : settings.get? "script" with
  | none => rfl
  | some j =>
    cases j with
    | obj script =>
      cases hinline : Json.member script "inline" <;>
        simp only [sentScript, hinline, Entries.put_of_get? hget]
    | _ => exact (Entries.put_of_get? hget).symm

theorem movingAverageSettings_eq_modifyAll (settings : Entries Json) :
    movingAverageSettings settings = settings.modifyAll (coercions .movingAvg) := by
  have hnumbers : readNumber (readNumber settings "window") "predict" =
      settings.modifyAll [("window", sentNumber), ("predict", sentNumber)] :=
    foldl_readNumber ["window", "predict"] settings
  unfold movingAverageSettings
  simp only [hnumbers, foldl_readNumber]
  generalize hread : settings.modifyAll [("window", sentNumber), ("predict", sentNumber)] = read
  have hlast : settings.modifyAll (coercions .movingAvg) = read.modify "settings" sentModel := by
    rw [← hread]
    rfl
  rw [hlast, Entries.modify]
  cases hget : read.get? "settings" with
  | none => rfl
  | some j =>
    cases j with
    | obj model => rfl
    | _ => exact (Entries.put_of_get? hget).symm

theorem eq_modify_of_percentilesSettings {settings sent : Entries Json}
    (h : percentilesSettings settings = .ok sent) :
    sent = settings.modify "percents" sentPercentiles := by
  have hsent : ∀ j d, percentile j = .ok d → Json.double d = sentPercentile j := by
    intro j d hd
    rw [sentPercentile, hd]
  unfold percentilesSettings at h
  rw [Entries.modify]
  cases hget : settings.get? "percents" with
  | none =>
    simp only [hget] at h
    exact (Except.ok.inj h).symm
  | some j =>
    cases j with
    | arr percents =>
      simp only [hget] at h
      obtain ⟨ds, hds, h⟩ := bind_eq_ok_iff.mp h
      cases h
      rw [map_eq_map_of_mapM hsent hds]
      rfl
    | _ =>
      simp only [hget] at h
      cases h
      exact (Entries.put_of_get? hget).symm

/-- What is sent are the stored settings with those of the kind read. -/
theorem eq_modifyAll_of_sentSettings {kind : MetricKind} {settings sent : Entries Json}
    (h : sentSettings kind settings = .ok sent) : sent = settings.modifyAll (coercions kind) := by
  cases kind with
  | movingAvg =>
    cases h
    exact movingAverageSettings_eq_modifyAll settings
  | serialDiff =>
    cases h
    exact readNumber_eq_modify settings "lag"
  | percentiles =>
    obtain ⟨read, hread, h⟩ := bind_eq_ok_iff.mp h
    cases h
    rw [eq_modify_of_percentilesSettings hread]
    exact unwrapScript_eq_modify _
  | avg | sum | max | min | cardinality | extendedStats | bucketScript | movingFn =>
    cases h
    exact unwrapScript_eq_modify settings
  | _ =>
    cases h
    rfl

/-- Settings are sent under the keys that they are stored under. -/
theorem keys_sentSettings {kind : MetricKind} {settings sent : Entries Json}
    (h : sentSettings kind settings = .ok sent) : Entries.keys sent = Entries.keys settings := by
  rw [eq_modifyAll_of_sentSettings h, Entries.keys_modifyAll]

/-! ### Reading a second time -/

theorem sentNumber_sentNumber (j : Json) : sentNumber (sentNumber j) = sentNumber j := by
  cases j with
  | str s => cases hd : Numeral.double? s.toList <;> simp [sentNumber, hd]
  | _ => rfl

theorem sentPercentile_sentPercentile (j : Json) :
    sentPercentile (sentPercentile j) = sentPercentile j := by
  cases hj : percentile j with
  | ok d =>
    have hsent : sentPercentile j = .double d := by rw [sentPercentile, hj]
    rw [hsent]
    rfl
  | error f =>
    have hsent : sentPercentile j = j := by rw [sentPercentile, hj]
    rw [hsent, hsent]

theorem sentModel_sentModel (j : Json) : sentModel (sentModel j) = sentModel j := by
  cases j with
  | obj model =>
    have hkeys : (Entries.keys (modelNumbers.map (·, sentNumber))).Nodup := by decide
    rw [sentModel, sentModel, Entries.modifyAll_modifyAll hkeys]
    intro key f hmem v
    obtain ⟨_, -, hf⟩ := List.mem_map.mp hmem
    cases hf
    exact sentNumber_sentNumber v
  | _ => rfl

theorem sentPercentiles_sentPercentiles (j : Json) :
    sentPercentiles (sentPercentiles j) = sentPercentiles j := by
  cases j with
  | arr percents => simp [sentPercentiles, sentPercentile_sentPercentile]
  | _ => rfl

theorem sentScript_sentScript (j : Json) : sentScript (sentScript j) = sentScript j := by
  cases j with
  | obj script => cases hinline : Json.member script "inline" <;> simp [sentScript, hinline]
  | _ => rfl

theorem coercions_idem {kind : MetricKind} {key : String} {f : Json → Json}
    (h : (key, f) ∈ coercions kind) (j : Json) : f (f j) = f j := by
  have hf : f = sentNumber ∨ f = sentModel ∨ f = sentPercentiles ∨ f = sentScript := by
    cases kind <;> simp [coercions, MetricKind.hasScript] at h <;> tauto
  rcases hf with rfl | rfl | rfl | rfl
  · exact sentNumber_sentNumber j
  · exact sentModel_sentModel j
  · exact sentPercentiles_sentPercentiles j
  · exact sentScript_sentScript j

/-- Percentiles that are sent fit the doubles where the stored ones do: one that was read is a
double, so an integer was stored as it is sent. -/
theorem hasHugePercentile_of_sent {settings : Entries Json}
    (h : HasHugePercentile (settings.modifyAll (coercions .percentiles))) :
    HasHugePercentile settings := by
  obtain ⟨percents, n, hget, hmem, hn⟩ := h
  have hread : (settings.get? "percents").map sentPercentiles = some (.arr percents) := by
    rw [← hget, coercions]
    exact (Entries.get?_modifyAll_of_mem settings (by decide) List.mem_cons_self).symm
  obtain ⟨stored, hstored, hsent⟩ := Option.map_eq_some_iff.mp hread
  cases stored with
  | arr stored =>
    cases hsent
    obtain ⟨j, hj, hint⟩ := List.mem_map.mp hmem
    cases hpercentile : percentile j with
    | ok d =>
      rw [sentPercentile, hpercentile] at hint
      cases hint
    | error f =>
      rw [sentPercentile, hpercentile] at hint
      cases hint
      exact ⟨stored, n, hstored, hj, hn⟩
  | _ => cases hsent

theorem exists_sentSettings {kind : MetricKind} {settings : Entries Json}
    (h : kind = .percentiles → ¬HasHugePercentile settings) :
    ∃ sent, sentSettings kind settings = .ok sent := by
  cases hsent : sentSettings kind settings with
  | ok sent => exact ⟨sent, rfl⟩
  | error f =>
    obtain ⟨hkind, hhuge, -⟩ := sentSettings_eq_error_iff.mp hsent
    exact absurd hhuge (h hkind)

theorem sentSettings_again {kind : MetricKind} {settings sent : Entries Json}
    (h : sentSettings kind settings = .ok sent) : sentSettings kind sent = .ok sent := by
  have hfits : kind = .percentiles → ¬HasHugePercentile sent := by
    rintro rfl hhuge
    rw [eq_modifyAll_of_sentSettings h] at hhuge
    have hstop := sentSettings_eq_error_iff.mpr ⟨rfl, hasHugePercentile_of_sent hhuge, rfl⟩
    rw [h] at hstop
    cases hstop
  obtain ⟨again, hagain⟩ := exists_sentSettings hfits
  have heq := eq_modifyAll_of_sentSettings hagain
  rw [eq_modifyAll_of_sentSettings h, Entries.modifyAll_modifyAll (nodup_keys_coercions kind)
    fun _ _ hmem => coercions_idem hmem] at heq
  rw [hagain, heq, eq_modifyAll_of_sentSettings h]

/-! ### What is kept -/

/-- Settings are sent with nothing changed but what their kind has to read. -/
structure SentAs (kind : MetricKind) (settings sent : Entries Json) : Prop where
  /-- No setting is added, dropped or moved. -/
  keys : Entries.keys sent = Entries.keys settings
  kept : ∀ key ∉ Entries.keys (coercions kind), sent.get? key = settings.get? key
  /-- In the settings of a model nothing but its numbers is changed. -/
  model : kind = .movingAvg → ∀ model, settings.get? "settings" = some (.obj model) →
    ∃ read, sent.get? "settings" = some (.obj read) ∧ Entries.keys read = Entries.keys model ∧
      ∀ key ∉ modelNumbers, Entries.get? read key = Entries.get? model key
  /-- What is no object has no settings of a model to read. -/
  modelless : kind = .movingAvg → ∀ value, settings.get? "settings" = some value →
    value.isObject = false → sent.get? "settings" = some value

theorem sentAs_of_sentSettings {kind : MetricKind} {settings sent : Entries Json}
    (h : sentSettings kind settings = .ok sent) : SentAs kind settings sent := by
  have hmodel : kind = .movingAvg →
      sent.get? "settings" = (settings.get? "settings").map sentModel := by
    rintro rfl
    rw [eq_modifyAll_of_sentSettings h]
    exact Entries.get?_modifyAll_of_mem settings (nodup_keys_coercions _) (by simp [coercions])
  refine ⟨keys_sentSettings h, fun key hkey => ?_, fun hkind model hget => ?_,
    fun hkind value hget hvalue => ?_⟩
  · rw [eq_modifyAll_of_sentSettings h, Entries.get?_modifyAll_of_not_mem settings hkey]
  · refine ⟨_, by rw [hmodel hkind, hget]; rfl, Entries.keys_modifyAll model _, fun key hkey => ?_⟩
    refine Entries.get?_modifyAll_of_not_mem model ?_
    simpa [Entries.keys] using hkey
  · rw [hmodel hkind, hget]
    cases value with
    | obj model => cases hvalue
    | _ => rfl

/-- The settings of a metric are sent under the keys they were stored under, in their order, and a
setting that its kind does not read is kept. Settings that were sent are sent again as they are. -/
theorem sentSettings_sentAs {kind : MetricKind} {settings : Entries Json}
    (h : kind = .percentiles → ¬HasHugePercentile settings) :
    ∃ sent, sentSettings kind settings = .ok sent ∧ SentAs kind settings sent ∧
      sentSettings kind sent = .ok sent := by
  obtain ⟨sent, hsent⟩ := exists_sentSettings h
  exact ⟨sent, hsent, sentAs_of_sentSettings hsent, sentSettings_again hsent⟩

/-- Percentiles as texts and as numbers, and a script inside an object. -/
def latencyPercentiles : Entries Json :=
  [("percents", .arr [.str "95", .int 99, .null]),
    ("script", .obj [("inline", .str "_value / 1000")]), ("missing", .str "0")]

theorem latencyPercentiles_sentAs : ¬HasHugePercentile latencyPercentiles ∧
    ∃ sent, sentSettings .percentiles latencyPercentiles = .ok sent ∧
      SentAs .percentiles latencyPercentiles sent ∧ sentSettings .percentiles sent = .ok sent := by
  have hfits : ¬HasHugePercentile latencyPercentiles := by
    rintro ⟨percents, n, hget, hmem, hn⟩
    cases hget
    simp only [List.mem_cons, Json.int.injEq, reduceCtorEq, List.not_mem_nil, or_false,
      false_or] at hmem
    subst hmem
    revert hn
    decide +kernel
  exact ⟨hfits, sentSettings_sentAs fun _ => hfits⟩

end Metric

end PanelSearch
