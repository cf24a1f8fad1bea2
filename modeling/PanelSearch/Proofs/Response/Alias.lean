import Mathlib.Data.List.Forall2
import PanelSearch.Proofs.Entries
import PanelSearch.Response.Naming

/-! Alias patterns. The pieces of a pattern are found from left to right and depend on the pattern
alone: a group is the shortest text between two opening and two closing braces, and everything else
is copied. Filling in a pattern puts the value of each group in its place, so what is put in is not
looked at again. -/

namespace PanelSearch.Alias

/-- A text goes on with a group: the shortest text that is not empty and has two closing braces
behind it. -/
structure Closes (cs group after : List Char) : Prop where
  split : cs = group ++ '}' :: '}' :: after
  nonempty : group ≠ []
  shortest : ∀ other behind, other ≠ [] → cs = other ++ '}' :: '}' :: behind →
    group.length ≤ other.length

/-- A piece of a pattern. -/
inductive Piece where
  | copied (c : Char)
  | group (name : List Char)

/-- The pieces of a pattern, from left to right. Behind a group the pattern goes on after its
closing braces. -/
inductive Scans : List Char → List Piece → Prop
  | nil : Scans [] []
  | group {behind name after : List Char} {pieces : List Piece} :
      Closes behind name after → Scans after pieces →
      Scans ('{' :: '{' :: behind) (.group name :: pieces)
  | copied {c : Char} {rest : List Char} {pieces : List Piece} :
      (∀ behind name after, c :: rest = '{' :: '{' :: behind → ¬Closes behind name after) →
      Scans rest pieces → Scans (c :: rest) (.copied c :: pieces)

/-- What a group stands for: the label behind a leading word, or else the label that it names, or
else the metric or the field. -/
inductive Meaning.Stands (m : Meaning) : List Char → String → Prop
  | term {name : List Char} {value : String} :
      Entries.get? m.labels (String.ofList name) = some value →
      Stands m ("term ".toList ++ name) value
  | label {group : List Char} {value : String} :
      (∀ name, group = "term ".toList ++ name →
        Entries.get? m.labels (String.ofList name) = none) →
      Entries.get? m.labels (String.ofList group) = some value → Stands m group value
  | metric : Entries.get? m.labels "metric" = none → Stands m "metric".toList m.metric
  | field : Entries.get? m.labels "field" = none → Stands m "field".toList m.field

/-- A piece as it stands in a pattern. -/
def Piece.source : Piece → List Char
  | copied c => [c]
  | group name => '{' :: '{' :: (name ++ ['}', '}'])

/-- What a piece comes to: a group comes to what it stands for, and stays as it is if it stands for
nothing. -/
inductive Meaning.Shows (m : Meaning) : Piece → List Char → Prop
  | copied (c : Char) : Shows m (.copied c) (Piece.copied c).source
  | filled {name : List Char} {value : String} :
      m.Stands name value → Shows m (.group name) value.toList
  | kept {name : List Char} :
      (∀ value, ¬m.Stands name value) → Shows m (.group name) (Piece.group name).source

section Groups

variable {cs group after : List Char}

theorem closes_closing_iff {c : Char} {behind : List Char} :
    Closes (c :: '}' :: '}' :: behind) group after ↔ group = [c] ∧ after = behind := by
  constructor
  · intro h
    have hlength := h.shortest [c] behind (by simp) rfl
    obtain ⟨d, ds, rfl⟩ := List.exists_cons_of_ne_nil h.nonempty
    obtain rfl : ds = [] := List.length_eq_zero_iff.mp (by simpa using hlength)
    cases h.split
    exact ⟨rfl, rfl⟩
  · rintro ⟨rfl, rfl⟩
    exact ⟨rfl, by simp, fun other _ hother _ => List.length_pos_iff.mpr hother⟩

/-- Where no closing braces stand behind its first character, a group goes on. -/
theorem closes_cons_iff {c : Char} (hne : ∀ behind, cs ≠ '}' :: '}' :: behind) :
    Closes (c :: cs) group after ↔ ∃ tail, group = c :: tail ∧ Closes cs tail after := by
  have hlong : ∀ {d ds behind}, c :: cs = d :: ds ++ '}' :: '}' :: behind →
      d = c ∧ ds ≠ [] ∧ cs = ds ++ '}' :: '}' :: behind := by
    intro d ds behind hsplit
    obtain ⟨rfl, hds⟩ := List.cons.inj hsplit
    refine ⟨rfl, ?_, hds⟩
    rintro rfl
    exact hne behind hds
  constructor
  · intro h
    obtain ⟨d, tail, rfl⟩ := List.exists_cons_of_ne_nil h.nonempty
    obtain ⟨rfl, htail, hcs⟩ := hlong h.split
    refine ⟨tail, rfl, hcs, htail, fun other behind _ hother => ?_⟩
    exact Nat.le_of_succ_le_succ (h.shortest (d :: other) behind (by simp) (by rw [hother]; rfl))
  · rintro ⟨tail, rfl, h⟩
    refine ⟨by rw [h.split]; rfl, by simp, fun other behind hother hsplit => ?_⟩
    obtain ⟨d, ds, rfl⟩ := List.exists_cons_of_ne_nil hother
    obtain ⟨rfl, hds, hcs⟩ := hlong hsplit
    exact Nat.succ_le_succ (h.shortest ds behind hds hcs)

theorem group?_eq_some_iff : group? cs = some group ↔ ∃ after, Closes cs group after := by
  induction cs generalizing group with
  | nil =>
    refine iff_of_false (by simp [group?]) ?_
    rintro ⟨after, h⟩
    simpa [h.nonempty] using h.split
  | cons c rest ih =>
    unfold group?
    split
    · next behind =>
      simp only [closes_closing_iff, Option.some.injEq]
      constructor
      · rintro rfl
        exact ⟨behind, rfl, rfl⟩
      · rintro ⟨after, rfl, -⟩
        rfl
    · next hne =>
      simp only [closes_cons_iff hne, Option.map_eq_some_iff, ih]
      constructor
      · rintro ⟨tail, ⟨after, h⟩, rfl⟩
        exact ⟨after, tail, rfl, h⟩
      · rintro ⟨after, tail, rfl, h⟩
        exact ⟨tail, ⟨after, h⟩, rfl⟩

theorem Closes.unique {other behind : List Char} (h : Closes cs group after)
    (hother : Closes cs other behind) : group = other ∧ after = behind := by
  have hgroup : some group = some other := by
    rw [← group?_eq_some_iff.mpr ⟨after, h⟩, group?_eq_some_iff.mpr ⟨behind, hother⟩]
  cases hgroup
  have hsplit := h.split.symm.trans hother.split
  simpa using hsplit

end Groups

/-- A pattern has pieces in one way only. -/
theorem Scans.unique {cs : List Char} {pieces others : List Piece} (h : Scans cs pieces)
    (hothers : Scans cs others) : pieces = others := by
  induction h generalizing others with
  | nil =>
    cases hothers
    rfl
  | group hcloses _ ih =>
    cases hothers with
    | group hother hrest =>
      obtain ⟨rfl, rfl⟩ := hcloses.unique hother
      rw [ih hrest]
    | copied hnone => exact absurd hcloses (hnone _ _ _ rfl)
  | copied hnone _ ih =>
    cases hothers with
    | group hother _ => exact absurd hother (hnone _ _ _ rfl)
    | copied _ hrest => rw [ih hrest]

theorem Scans.flatMap_source {cs : List Char} {pieces : List Piece} (h : Scans cs pieces) :
    pieces.flatMap Piece.source = cs := by
  induction h with
  | nil => rfl
  | group hcloses _ ih =>
    rw [List.flatMap_cons, ih, hcloses.split, Piece.source]
    simp
  | copied _ _ ih =>
    rw [List.flatMap_cons, ih]
    rfl

section Values

variable {m : Meaning} {group : List Char} {value : String}

/-- The label behind the leading word of a group, if there is one. -/
def Meaning.byTerm? (m : Meaning) (group : List Char) : Option String :=
  if "term ".toList.isPrefixOf group then Entries.get? m.labels (String.ofList (group.drop 5))
  else none

theorem byTerm?_eq_some_iff : m.byTerm? group = some value ↔
    ∃ name, group = "term ".toList ++ name ∧
      Entries.get? m.labels (String.ofList name) = some value := by
  unfold Meaning.byTerm?
  split
  · next hterm =>
    obtain ⟨name, rfl⟩ := List.isPrefixOf_iff_prefix.mp hterm
    simp
  · next hterm =>
    refine iff_of_false (by simp) ?_
    rintro ⟨name, rfl, -⟩
    exact hterm (List.isPrefixOf_iff_prefix.mpr (List.prefix_append _ name))

theorem byTerm?_eq_none_iff : m.byTerm? group = none ↔
    ∀ name, group = "term ".toList ++ name →
      Entries.get? m.labels (String.ofList name) = none := by
  simp only [Option.eq_none_iff_forall_ne_some, ne_eq, byTerm?_eq_some_iff]
  constructor
  · exact fun h name hgroup value hvalue => h value ⟨name, hgroup, hvalue⟩
  · rintro h value ⟨name, hgroup, hvalue⟩
    exact h name hgroup value hvalue

theorem value?_eq : m.value? group = ((m.byTerm? group).or
    (Entries.get? m.labels (String.ofList group))).or
      (if group = "metric".toList then some m.metric
      else if group = "field".toList then some m.field else none) := by
  rw [Meaning.value?, ← Meaning.byTerm?]
  cases m.byTerm? group with
  | some value => rfl
  | none => cases Entries.get? m.labels (String.ofList group) <;> rfl

theorem value?_eq_some_iff : m.value? group = some value ↔ m.Stands group value := by
  rw [value?_eq]
  constructor
  · intro h
    cases hterm : m.byTerm? group with
    | some v =>
      rw [hterm] at h
      cases h
      obtain ⟨name, rfl, hname⟩ := byTerm?_eq_some_iff.mp hterm
      exact .term hname
    | none =>
      have hnone := byTerm?_eq_none_iff.mp hterm
      rw [hterm, Option.none_or] at h
      cases hlabel : Entries.get? m.labels (String.ofList group) with
      | some v =>
        rw [hlabel] at h
        cases h
        exact .label hnone hlabel
      | none =>
        rw [hlabel, Option.none_or] at h
        split at h
        · next hmetric =>
          subst hmetric
          cases h
          exact .metric (by rwa [String.ofList_toList] at hlabel)
        · split at h
          · next hfield =>
            subst hfield
            cases h
            exact .field (by rwa [String.ofList_toList] at hlabel)
          · cases h
  · intro h
    cases h with
    | term hname => rw [byTerm?_eq_some_iff.mpr ⟨_, rfl, hname⟩, Option.some_or, Option.some_or]
    | label hnone hlabel =>
      rw [byTerm?_eq_none_iff.mpr hnone, hlabel, Option.none_or, Option.some_or]
    | metric hlabel | field hlabel =>
      rw [String.ofList_toList, hlabel]
      rfl

end Values

section Fill

variable {m : Meaning}

theorem fillFrom_eq_drop (skip : Nat) (cs : List Char) :
    fillFrom m skip cs = fillFrom m 0 (cs.drop skip) := by
  induction cs generalizing skip with
  | nil => cases skip <;> rfl
  | cons c cs ih =>
    cases skip with
    | zero => rfl
    | succ skip => simpa [fillFrom] using ih skip

theorem fillFrom_group {behind name after : List Char} (h : Closes behind name after) :
    ∃ text, m.Shows (.group name) text ∧
      fillFrom m 0 ('{' :: '{' :: behind) = text ++ fillFrom m 0 after := by
  have hgroup : group? behind = some name := group?_eq_some_iff.mpr ⟨after, h⟩
  have hskip : ('{' :: behind).drop (name.length + 3) = after := by
    rw [h.split]
    simp
  rw [fillFrom, if_pos ⟨rfl, rfl⟩]
  simp only [List.drop_one, List.tail_cons, hgroup]
  rw [fillFrom_eq_drop (name.length + 3), hskip]
  refine ⟨_, ?_, rfl⟩
  cases hvalue : m.value? name with
  | some value => exact .filled (value?_eq_some_iff.mp hvalue)
  | none =>
    refine .kept fun value hstands => ?_
    rw [value?_eq_some_iff.mpr hstands] at hvalue
    cases hvalue

theorem fillFrom_copied {c : Char} {rest : List Char}
    (h : ∀ behind name after, c :: rest = '{' :: '{' :: behind → ¬Closes behind name after) :
    fillFrom m 0 (c :: rest) = c :: fillFrom m 0 rest := by
  have hnone : (if c = '{' ∧ rest.head? = some '{' then group? (rest.drop 1) else none) = none := by
    split
    · next hopen =>
      obtain ⟨rfl, hrest⟩ := hopen
      obtain ⟨behind, rfl⟩ := List.head?_eq_some_iff.mp hrest
      refine Option.eq_none_iff_forall_ne_some.mpr fun name hname => ?_
      obtain ⟨after, hcloses⟩ := group?_eq_some_iff.mp hname
      exact h behind name after rfl hcloses
    · rfl
  rw [fillFrom, hnone]

/-- A pattern has pieces, which for every meaning are filled in one by one. Behind a group the
pattern goes on after its braces, so the induction is on the length. -/
theorem exists_scans (cs : List Char) : ∃ pieces, Scans cs pieces ∧
    ∀ m, ∃ texts, List.Forall₂ m.Shows pieces texts ∧ fillFrom m 0 cs = texts.flatten := by
  induction hn : cs.length using Nat.strongRecOn generalizing cs with
  | ind n ih =>
    subst hn
    by_cases hopen : ∃ behind name after, cs = '{' :: '{' :: behind ∧ Closes behind name after
    · obtain ⟨behind, name, after, rfl, hcloses⟩ := hopen
      have hlength : after.length < ('{' :: '{' :: behind).length := by
        rw [hcloses.split]
        simp
        omega
      obtain ⟨pieces, hscans, hfill⟩ := ih after.length hlength after rfl
      refine ⟨_, .group hcloses hscans, fun m => ?_⟩
      obtain ⟨texts, hshows, htexts⟩ := hfill m
      obtain ⟨text, hshow, htext⟩ := fillFrom_group (m := m) hcloses
      exact ⟨text :: texts, .cons hshow hshows, by rw [htext, htexts]; rfl⟩
    · cases cs with
      | nil => exact ⟨[], .nil, fun m => ⟨[], .nil, rfl⟩⟩
      | cons c rest =>
        have hnone : ∀ behind name after, c :: rest = '{' :: '{' :: behind →
            ¬Closes behind name after :=
          fun behind name after hsplit hcloses => hopen ⟨behind, name, after, hsplit, hcloses⟩
        obtain ⟨pieces, hscans, hfill⟩ := ih rest.length (Nat.lt_succ_self _) rest rfl
        refine ⟨_, .copied hnone hscans, fun m => ?_⟩
        obtain ⟨texts, hshows, htexts⟩ := hfill m
        exact ⟨[c] :: texts, .cons (.copied c) hshows, by rw [fillFrom_copied hnone, htexts]; rfl⟩

theorem Meaning.Shows.eq_source {piece : Piece} {text : List Char} (h : m.Shows piece text)
    (hnone : ∀ name, piece = .group name → ∀ value, ¬m.Stands name value) :
    text = piece.source := by
  cases h with
  | filled hstands => exact absurd hstands (hnone _ rfl _)
  | copied c => rfl
  | kept _ => rfl

theorem eq_map_source {pieces : List Piece} {texts : List (List Char)}
    (hshows : List.Forall₂ m.Shows pieces texts)
    (hnone : ∀ name, .group name ∈ pieces → ∀ value, ¬m.Stands name value) :
    texts = pieces.map Piece.source := by
  induction hshows with
  | nil => rfl
  | cons hshow _ ih =>
    have hrest := ih fun name hname => hnone name (List.mem_cons_of_mem _ hname)
    have hhere := hshow.eq_source fun name hname => hnone name (hname ▸ List.mem_cons_self)
    rw [hrest, hhere, List.map_cons]

end Fill

/-- A pattern has pieces in just one way, whatever it is filled in with, and filling it in shows
them one after the other: each character outside the groups, and for each group what it stands for,
or the group itself. A pattern in which no group stands for anything stays as it is. -/
theorem fill_shows_pieces (pattern : String) : ∃ pieces, Scans pattern.toList pieces ∧
    (∀ others, Scans pattern.toList others → others = pieces) ∧
    ∀ m, (∃ texts, List.Forall₂ m.Shows pieces texts ∧
        fill pattern m = String.ofList texts.flatten) ∧
      ((∀ name, .group name ∈ pieces → ∀ value, ¬m.Stands name value) →
        fill pattern m = pattern) := by
  obtain ⟨pieces, hscans, hfill⟩ := exists_scans pattern.toList
  refine ⟨pieces, hscans, fun others hothers => hothers.unique hscans, fun m => ?_⟩
  obtain ⟨texts, hshows, htexts⟩ := hfill m
  refine ⟨⟨texts, hshows, by rw [fill, htexts]⟩, fun hnone => ?_⟩
  rw [fill, htexts, eq_map_source hshows hnone, ← List.flatMap_def, hscans.flatMap_source,
    String.ofList_toList]

example : fill "{{term host}} {{metric}} {{ip}}" ⟨[("host", "{{field}}")], "Count", "bytes"⟩ =
    "{{field}} Count {{ip}}" := by
  decide +kernel

end PanelSearch.Alias
