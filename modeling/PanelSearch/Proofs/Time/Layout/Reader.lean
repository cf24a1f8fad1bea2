import PanelSearch.Proofs.Number.Decimal
import PanelSearch.Time.Layout.Reader

/-! Reading a text by a layout where no directive has a choice: each of them takes the text that was
written for it. -/

namespace PanelSearch.Layout

open Text

/-! ### Numbers -/

theorem take?_append {cells : List Cell} {cs : List Char} (h : cells.length ≤ cs.length)
    (rest : List Char) :
    take? cells (cs ++ rest) = (take? cells cs).map fun m => (m.1, m.2 ++ rest) := by
  induction cells generalizing cs with
  | nil => rfl
  | cons cell cells ih =>
    cases cs with
    | nil => cases h
    | cons c cs =>
      simp only [List.cons_append, take?]
      split
      · rw [ih (Nat.le_of_succ_le_succ h), Option.map_map, Option.map_map]
        rfl
      · rfl

theorem take?_digits {cs : List Char} (h : ∀ c ∈ cs, c.isDigit = true) (rest : List Char) :
    take? (List.replicate cs.length .digit) (cs ++ rest) = some (cs, rest) := by
  induction cs with
  | nil => rfl
  | cons c cs ih =>
    have ⟨hc, hcs⟩ := List.forall_mem_cons.mp h
    have hfits : Cell.digit.fits c = true := isDecimalDigit_of_isDigit hc
    rw [List.length_cons, List.replicate_succ, List.cons_append, take?, if_pos hfits, ih hcs]
    rfl

theorem take?_digits_eq_none {width : Nat} {cs : List Char} (h : cs.length < width) {mark : Char}
    (hmark : isDecimalDigit mark = false) (rest : List Char) :
    take? (List.replicate width .digit) (cs ++ mark :: rest) = none := by
  induction cs generalizing width with
  | nil =>
    obtain ⟨k, rfl⟩ := Nat.exists_eq_add_of_lt h
    simp [List.replicate_succ, take?, Cell.fits, hmark]
  | cons c cs ih =>
    cases width with
    | zero => cases h
    | succ width =>
      rw [List.replicate_succ, List.cons_append, take?, ih (Nat.lt_of_succ_lt_succ h)]
      split <;> rfl

theorem candidates_of_names_eq_nil {d : Directive} (hoffset : d ≠ .offset) (hnames : names d = [])
    (cs : List Char) : candidates d cs = (numberAlternatives d).filterMap (take? · cs) := by
  unfold candidates
  split
  · exact absurd rfl hoffset
  · rw [hnames, List.filterMap_nil, List.append_nil]

/-! ### Matching without a choice -/

/-- When nothing else at the front lets the rest match, a directive takes its first candidate. -/
theorem match?_of_candidates {d : Directive} {items : List Item} {cs text rest : List Char}
    {more : List (List Char × List Char)} (h : candidates d cs = (text, rest) :: more)
    (hmore : ∀ c ∈ more, match? items c.2 = none) : match? (.directive d :: items) cs =
      (match? items rest).map fun m => ((d, text) :: m.1, m.2) := by
  rw [match?, h, List.findSome?_cons]
  cases hrest : match? items rest with
  | some m => simp only [hrest, Option.map_some]
  | none =>
    simp only [hrest, Option.map_none]
    refine List.findSome?_eq_none_iff.mpr fun c hc => ?_
    rw [hmore c hc]
    rfl

theorem match?_literal (c : Char) (items : List Item) (cs : List Char) :
    match? (.literal c :: items) (c :: cs) = match? items cs := by
  rw [match?]
  exact if_pos rfl

theorem match?_blanks {cs : List Char} (h : NoBlankHead cs) (items : List Item) :
    match? (.blanks :: items) (' ' :: cs) = match? items cs := by
  have hblank : isBlank ' ' = true := rfl
  have hrun : (' ' :: cs).takeWhile isBlank = [' '] := by
    rw [List.takeWhile_cons_of_pos hblank]
    cases cs with
    | nil => rfl
    | cons c cs => rw [List.takeWhile_cons_of_neg (by simp [h c rfl])]
  have hrange : List.range [' '].length = [0] := rfl
  rw [match?, hrun, hrange, List.findSome?_singleton]
  rfl

theorem match?_blanks_eq_none {c : Char} (h : isBlank c = false) (items : List Item)
    (cs : List Char) : match? (.blanks :: items) (c :: cs) = none := by
  rw [match?, List.takeWhile_cons_of_neg (by simp [h])]
  rfl

theorem fold_of_isDigit {c : Char} (h : c.isDigit = true) : fold c = c := by
  have hall : ∀ n ≤ 0x39, 0x30 ≤ n → fold (Char.ofNat n) = Char.ofNat n := by decide
  have hrange := isDigit_iff.mp h
  rw [← Char.ofNat_toNat c]
  exact hall c.toNat hrange.2 hrange.1

theorem match?_literal_eq_none {c mark : Char} (hc : c.isDigit = true) (hfold : fold mark = mark)
    (hmark : mark.isDigit = false) (items : List Item) (cs : List Char) :
    match? (.literal mark :: items) (c :: cs) = none := by
  rw [match?]
  apply if_neg
  rw [fold_of_isDigit hc, hfold]
  rintro rfl
  rw [hc] at hmark
  cases hmark

/-- Of the texts at the front of two digits the directive takes both first, and what it could take
else leaves the second digit. -/
def Directive.readsPair (d : Directive) (n : Nat) : Bool :=
  d ≠ .offset && (names d).isEmpty && ((numberAlternatives d).all fun cells => cells.length ≤ 2) &&
    match (numberAlternatives d).filterMap (take? · (padded 2 n)) with
    | (text, []) :: more => text == padded 2 n && more.all fun m =>
      match m.2 with
      | [c] => c.isDigit
      | _ => false
    | _ => false

theorem match?_pair {d : Directive} {n : Nat} (h : d.readsPair n = true)
    (hdigits : Digits 2 n (padded 2 n)) {items : List Item}
    (hnext : ∀ c cs, c.isDigit = true → match? items (c :: cs) = none)
    (rest : List Char) : match? (.directive d :: items) (padded 2 n ++ rest) =
      (match? items rest).map fun m => ((d, padded 2 n) :: m.1, m.2) := by
  simp only [Directive.readsPair, Bool.and_eq_true, decide_eq_true_eq] at h
  obtain ⟨⟨⟨hoffset, hnames⟩, hcells⟩, hfound⟩ := h
  have hcandidates : candidates d (padded 2 n ++ rest) =
      ((numberAlternatives d).filterMap (take? · (padded 2 n))).map fun m =>
        (m.1, m.2 ++ rest) := by
    rw [candidates_of_names_eq_nil (by simpa using hoffset) (by simpa using hnames),
      List.map_filterMap]
    refine List.filterMap_congr fun cells hmem => take?_append ?_ rest
    rw [hdigits.length]
    simpa using List.all_eq_true.mp hcells cells hmem
  split at hfound
  · next text more heq =>
    rw [Bool.and_eq_true, beq_iff_eq] at hfound
    obtain ⟨rfl, hmore⟩ := hfound
    rw [heq, List.map_cons, List.nil_append] at hcandidates
    refine match?_of_candidates hcandidates fun c hc => ?_
    obtain ⟨m, hm, rfl⟩ := List.mem_map.mp hc
    have hdigit := List.all_eq_true.mp hmore m hm
    split at hdigit
    · next x hx =>
      rw [hx]
      exact hnext x rest hdigit
    · cases hdigit
  · cases hfound

/-- A directive of names takes the one that stands at the front. -/
theorem match?_name {d : Directive} {name : String} (hoffset : d ≠ .offset)
    (hnumbers : numberAlternatives d = [])
    (hlength : ∀ other ∈ names d, other.length = name.length)
    (hname : (names d).filter (fun other =>
      lowerName name.toList = lowerName other.toList) = [name])
    (items : List Item) (rest : List Char) : match? (.directive d :: items) (name.toList ++ rest) =
      (match? items rest).map fun m => ((d, name.toList) :: m.1, m.2) := by
  have hcandidates : candidates d (name.toList ++ rest) = [(name.toList, rest)] := by
    have hfound : candidates d (name.toList ++ rest) = (names d).filterMap fun other =>
        if lowerName name.toList = lowerName other.toList then some (name.toList, rest)
        else none := by
      unfold candidates
      split
      · exact absurd rfl hoffset
      · rw [hnumbers, List.filterMap_nil, List.nil_append]
        refine List.filterMap_congr fun other hother => ?_
        rw [hlength other hother, ← String.length_toList, List.take_left, List.drop_left]
    have hguard : (fun other : String =>
        if lowerName name.toList = lowerName other.toList then some (name.toList, rest) else none) =
        fun other => (Option.guard (fun other => lowerName name.toList = lowerName other.toList)
          other).map fun _ => (name.toList, rest) := by
      funext other
      by_cases hsame : lowerName name.toList = lowerName other.toList
      · simp [Option.guard, hsame]
      · simp [Option.guard, hsame]
    rw [hfound, hguard, ← List.map_filterMap, List.filterMap_eq_filter, hname]
    rfl
  exact match?_of_candidates hcandidates (by simp)

theorem match?_year {n : Nat} {cs : List Char} (h : Digits 4 n cs) (items : List Item)
    (rest : List Char) : match? (.directive .year :: items) (cs ++ rest) =
      (match? items rest).map fun m => ((.year, cs) :: m.1, m.2) := by
  have hcandidates : candidates .year (cs ++ rest) = [(cs, rest)] := by
    have htake := take?_digits h.digits rest
    rw [h.length] at htake
    rw [candidates_of_names_eq_nil (by decide) rfl]
    change [List.replicate 4 Cell.digit].filterMap (take? · (cs ++ rest)) = _
    rw [List.filterMap_cons, htake]
    rfl
  exact match?_of_candidates hcandidates (by simp)

theorem match?_year_eq_none {cs : List Char} (h : cs.length < 4) {mark : Char}
    (hmark : isDecimalDigit mark = false) (items : List Item) (rest : List Char) :
    match? (.directive .year :: items) (cs ++ mark :: rest) = none := by
  have hcandidates : candidates .year (cs ++ mark :: rest) = [] := by
    rw [candidates_of_names_eq_nil (by decide) rfl]
    change [List.replicate 4 Cell.digit].filterMap (take? · (cs ++ mark :: rest)) = _
    rw [List.filterMap_cons, take?_digits_eq_none h hmark]
    rfl
  rw [match?, hcandidates]
  rfl

end PanelSearch.Layout
