import Mathlib.Data.List.Infix
import Mathlib.Data.List.TakeWhile
import PanelSearch.Proofs.Entries
import PanelSearch.Proofs.Text.Replace
import PanelSearch.Response.Naming

/-! The script of a metric in words. A reference is a mark with a name behind it, as far as the
characters of words go. The variables of a metric are replaced one after the other, longer names
first, and that is to give what replacing all references at once gives: it does where references
stand apart, where none begins with the name of another variable, and where no description holds a
mark. -/

namespace PanelSearch

namespace Script

open Text (replaceAll replaceAll_cons replaceAll_pattern_append)

def mark : List Char := ['p', 'a', 'r', 'a', 'm', 's', '.']

/-- The characters of words: the letters of the mark are among them, and its dot is not. -/
structure IsWordClass (isWord : Char → Bool) : Prop where
  letters : ∀ c ∈ mark, c ≠ '.' → isWord c = true
  dot : isWord '.' = false

variable (isWord : Char → Bool) (value? : List Char → Option (List Char))

/-- The name of the reference at the front of a text: all characters of words behind the mark. -/
def name? (cs : List Char) : Option (List Char) :=
  if mark.isPrefixOf cs then some ((cs.drop mark.length).takeWhile isWord) else none

/-- The value of the reference at the front of a text. -/
def front? (cs : List Char) : Option (List Char) := (name? isWord cs).bind value?

/-- The text behind the next `skip` characters with all references replaced that have a value. What
is put in is not looked at again. -/
def fillFrom : Nat → List Char → List Char
  | _, [] => []
  | skip + 1, _ :: rest => fillFrom skip rest
  | 0, c :: rest =>
    match name? isWord (c :: rest) with
    | some name =>
      match value? name with
      | some value => value ++ fillFrom (mark.length - 1 + name.length) rest
      | none => c :: fillFrom 0 rest
    | none => c :: fillFrom 0 rest

/-- The text with all references replaced that have a value. -/
def fill (cs : List Char) : List Char := fillFrom isWord value? 0 cs

/-- No character of a word stands at the front of a text. -/
def Ends (cs : List Char) : Prop := ∀ c ∈ cs.head?, isWord c = false

/-- The references of a script can be replaced one after the other. -/
structure IsClear (script : List Char) : Prop where
  /-- In the name of a reference no reference begins that has a value. -/
  apart : ∀ rest name, rest <:+ script → name? isWord rest = some name →
    ∀ skip < name.length, front? isWord value? (rest.drop (mark.length + skip)) = none
  /-- A name without a value does not begin with one that has a value. -/
  whole : ∀ rest name, rest <:+ script → name? isWord rest = some name → value? name = none →
    ∀ part, part <+: name → value? part = none
  /-- No value holds the mark, or would if a dot came behind it. -/
  inert : ∀ name value, value? name = some value → ¬mark <:+: value ++ ['.']
  /-- No value ends a mark that begins in front of it, and none would with a dot behind it. -/
  fresh : ∀ name value, value? name = some value →
    ∀ part, part ≠ [] → part <:+ mark → ¬part <+: value ++ ['.']

variable {isWord value?}

theorem fillFrom_eq_drop (skip : Nat) (cs : List Char) :
    fillFrom isWord value? skip cs = fill isWord value? (cs.drop skip) := by
  induction cs generalizing skip with
  | nil => cases skip <;> simp [fillFrom, fill]
  | cons c cs ih =>
    cases skip with
    | zero => rfl
    | succ skip => simpa [fillFrom] using ih skip

@[simp] theorem fill_nil : fill isWord value? [] = [] := rfl

theorem fill_cons {c : Char} {rest : List Char} (h : front? isWord value? (c :: rest) = none) :
    fill isWord value? (c :: rest) = c :: fill isWord value? rest := by
  rw [front?] at h
  rw [fill, fillFrom]
  cases hname : name? isWord (c :: rest) with
  | none => rfl
  | some name =>
    rw [hname, Option.bind_some] at h
    simp only [h]
    rfl

theorem name?_eq_some_iff {cs name : List Char} : name? isWord cs = some name ↔
    ∃ after, cs = mark ++ (name ++ after) ∧ (∀ c ∈ name, isWord c = true) ∧ Ends isWord after := by
  unfold name?
  constructor
  · intro h
    split at h
    · next hmark =>
      cases h
      obtain ⟨behind, rfl⟩ := List.isPrefixOf_iff_prefix.mp hmark
      rw [List.drop_left]
      refine ⟨behind.dropWhile isWord, ?_, fun c hc => List.mem_takeWhile_imp hc, ?_⟩
      · rw [List.takeWhile_append_dropWhile]
      · intro c hc
        have hstop := List.head?_dropWhile_not isWord behind
        rw [Option.mem_def.mp hc] at hstop
        simpa using hstop
    · cases h
  · rintro ⟨after, rfl, hname, hafter⟩
    have hmark : mark.isPrefixOf (mark ++ (name ++ after)) = true :=
      List.isPrefixOf_iff_prefix.mpr (List.prefix_append _ _)
    have hstop : after.takeWhile isWord = [] := by
      cases after with
      | nil => rfl
      | cons c after => rw [List.takeWhile_cons, hafter c rfl, if_neg Bool.false_ne_true]
    rw [if_pos hmark, List.drop_left, List.takeWhile_append_of_pos hname, hstop, List.append_nil]

theorem fill_reference {name after value : List Char} (hname : ∀ c ∈ name, isWord c = true)
    (hafter : Ends isWord after) (hvalue : value? name = some value) :
    fill isWord value? (mark ++ (name ++ after)) = value ++ fill isWord value? after := by
  have hfound : name? isWord (mark ++ (name ++ after)) = some name :=
    name?_eq_some_iff.mpr ⟨after, rfl, hname, hafter⟩
  have hmark : mark ++ (name ++ after) = 'p' :: (mark.tail ++ (name ++ after)) := rfl
  have hskip : (mark.tail ++ (name ++ after)).drop (mark.length - 1 + name.length) = after := by
    rw [← List.append_assoc]
    refine List.drop_left' ?_
    rw [List.length_append, List.length_tail]
  rw [hmark] at hfound ⊢
  rw [fill, fillFrom, hfound]
  simp only [hvalue]
  rw [fillFrom_eq_drop, hskip]

theorem exists_of_front? {cs value : List Char} (h : front? isWord value? cs = some value) :
    ∃ name after, cs = mark ++ (name ++ after) ∧ (∀ c ∈ name, isWord c = true) ∧
      Ends isWord after ∧ value? name = some value := by
  obtain ⟨name, hfound, hvalue⟩ := Option.bind_eq_some_iff.mp h
  obtain ⟨after, hcs, hname, hafter⟩ := name?_eq_some_iff.mp hfound
  exact ⟨name, after, hcs, hname, hafter, hvalue⟩

/-- What is filled in begins with no character of a word where the text does not. -/
theorem Ends.fill {cs : List Char} (hword : IsWordClass isWord) (h : Ends isWord cs) :
    Ends isWord (fill isWord value? cs) := by
  cases cs with
  | nil => exact h
  | cons c rest =>
    have hfront : front? isWord value? (c :: rest) = none := by
      cases hfront : front? isWord value? (c :: rest) with
      | none => rfl
      | some value =>
        obtain ⟨name, after, hcs, -⟩ := exists_of_front? hfront
        cases hcs
        exact absurd (hword.letters 'p' (by decide) (by decide)) (by simp [h 'p' rfl])
    rw [fill_cons hfront]
    exact fun d hd => h d hd

theorem fill_of_no_values (hnone : ∀ name, value? name = none) (cs : List Char) :
    fill isWord value? cs = cs := by
  induction cs with
  | nil => rfl
  | cons c cs ih =>
    have hfront : front? isWord value? (c :: cs) = none :=
      Option.bind_eq_none_iff.mpr fun name _ => hnone name
    rw [fill_cons hfront, ih]

/-- A text stays as it is up to where no reference with a value begins in it. -/
theorem fill_append {x after : List Char}
    (h : ∀ skip < x.length, front? isWord value? ((x ++ after).drop skip) = none) :
    fill isWord value? (x ++ after) = x ++ fill isWord value? after := by
  induction x with
  | nil => rfl
  | cons c x ih =>
    have hfront : front? isWord value? (c :: (x ++ after)) = none := h 0 (Nat.zero_lt_succ _)
    have hbehind : ∀ skip < x.length, front? isWord value? ((x ++ after).drop skip) = none :=
      fun skip hskip => h (skip + 1) (Nat.succ_lt_succ hskip)
    rw [List.cons_append, fill_cons hfront, ih hbehind, List.cons_append]

/-- An end of the mark that reaches behind a value, where no character of a word stands, is all of
the value with the dot: the mark has one dot, at its end. -/
theorem prefix_dot (hword : IsWordClass isWord) {part value after : List Char}
    (hpart : part <:+ mark) (hafter : Ends isWord after) (h : part <+: value ++ after) :
    part <+: value ++ ['.'] := by
  by_cases hle : part.length ≤ value.length
  · exact (List.prefix_of_prefix_length_le h (List.prefix_append _ _) hle).trans
      (List.prefix_append _ _)
  · obtain ⟨behind, rfl⟩ : value <+: part :=
      List.prefix_of_prefix_length_le (List.prefix_append _ _) h (by omega)
    obtain ⟨d, ds, rfl⟩ : ∃ d ds, behind = d :: ds := by
      refine List.exists_cons_of_ne_nil fun hnil => hle ?_
      rw [hnil, List.append_nil]
    obtain ⟨tail, rfl⟩ := (List.prefix_append_right_inj value).mp h
    have hd : isWord d = false := hafter d rfl
    have hdot : d = '.' := by
      by_contra hne
      have hmem : d ∈ mark := hpart.subset (by simp)
      rw [hword.letters d hmem hne] at hd
      cases hd
    obtain ⟨front, hmark⟩ := hpart
    have hsplit : mark.dropLast ++ '.' :: [] = (front ++ value) ++ d :: ds := by
      rw [List.append_assoc, hmark]
      rfl
    subst hdot
    have hend := (List.append_cons_inj_of_notMem (by decide) List.not_mem_nil).mp hsplit
    rw [← hend.2.2]

section Filled

variable {all? : List Char → Option (List Char)} {script : List Char} (hword : IsWordClass isWord)
  (hclear : IsClear isWord all? script)
  (hsub : ∀ name value, value? name = some value → all? name = some value)

include hsub in
theorem front?_eq_none {cs : List Char} (h : front? isWord all? cs = none) :
    front? isWord value? cs = none := by
  refine Option.bind_eq_none_iff.mpr fun name hname => ?_
  have hall : all? name = none := Option.bind_eq_none_iff.mp h name hname
  cases hvalue : value? name with
  | none => rfl
  | some value => rw [hsub name value hvalue] at hall; cases hall

include hword hclear hsub in
/-- An end of the mark that is found in what is filled in was there before. -/
theorem prefix_of_prefix_fill {part cs : List Char} (hpart : part <:+ mark)
    (h : part <+: fill isWord value? cs) : part <+: cs := by
  induction part generalizing cs with
  | nil => exact List.nil_prefix
  | cons c part ih =>
    cases hfront : front? isWord value? cs with
    | some value =>
      obtain ⟨name, after, rfl, hname, hafter, hvalue⟩ := exists_of_front? hfront
      rw [fill_reference hname hafter hvalue] at h
      have hdot := prefix_dot hword hpart (hafter.fill hword) h
      exact absurd hdot (hclear.fresh name value (hsub name value hvalue) _ (by simp) hpart)
    | none =>
      cases cs with
      | nil => exact h
      | cons d rest =>
        rw [fill_cons hfront, List.cons_prefix_cons] at h
        exact List.cons_prefix_cons.mpr ⟨h.1, ih ((List.suffix_cons _ _).trans hpart) h.2⟩

/-- No mark begins in the mark behind its front. -/
theorem name?_drop_mark {skip : Nat} (hpos : 0 < skip) (hskip : skip < mark.length)
    (cs : List Char) : name? isWord ((mark ++ cs).drop skip) = none := by
  cases hname : name? isWord ((mark ++ cs).drop skip) with
  | none => rfl
  | some name =>
    obtain ⟨after, h, -⟩ := name?_eq_some_iff.mp hname
    have hletter : (mark.drop skip).head? = some 'p' := by
      have hhead := congrArg List.head? h
      rw [List.drop_append_of_le_length hskip.le, List.head?_append_of_ne_nil] at hhead
      · exact hhead
      · rw [ne_eq, List.drop_eq_nil_iff]
        exact hskip.not_ge
    have hother : ∀ skip < mark.length, 0 < skip → (mark.drop skip).head? ≠ some 'p' := by decide
    exact absurd hletter (hother skip hskip hpos)

include hclear hsub in
/-- A reference without a value stays as it is. -/
theorem fill_unknown {name after : List Char} (hscript : mark ++ (name ++ after) <:+ script)
    (hname : ∀ c ∈ name, isWord c = true) (hafter : Ends isWord after)
    (hnone : value? name = none) :
    fill isWord value? (mark ++ (name ++ after)) = mark ++ (name ++ fill isWord value? after) := by
  have hfound : name? isWord (mark ++ (name ++ after)) = some name :=
    name?_eq_some_iff.mpr ⟨after, rfl, hname, hafter⟩
  rw [← List.append_assoc, ← List.append_assoc]
  refine fill_append fun skip hskip => ?_
  rw [List.append_assoc]
  rw [List.length_append] at hskip
  by_cases hbehind : mark.length ≤ skip
  · obtain ⟨more, rfl⟩ := Nat.exists_eq_add_of_le hbehind
    exact front?_eq_none hsub (hclear.apart _ name hscript hfound more (by omega))
  · obtain rfl | hpos := Nat.eq_zero_or_pos skip
    · rw [List.drop_zero, front?, hfound, Option.bind_some, hnone]
    · rw [front?, name?_drop_mark hpos (by omega), Option.bind_none]

include hword in
/-- Replacing a reference goes over a value to what follows it. -/
theorem replaceAll_value (name new : List Char) {v after : List Char}
    (hinert : ¬mark <:+: v ++ ['.']) (hafter : Ends isWord after) :
    replaceAll (mark ++ name) new (v ++ after) = v ++ replaceAll (mark ++ name) new after := by
  induction v with
  | nil => rfl
  | cons c v ih =>
    have hfront : ¬mark ++ name <+: c :: v ++ after := by
      intro h
      have hmark : mark <+: c :: v ++ after := (List.prefix_append mark name).trans h
      exact hinert (prefix_dot hword (List.suffix_refl mark) hafter hmark).isInfix
    rw [List.cons_append] at hfront
    rw [List.cons_append, replaceAll_cons hfront, ih fun h => hinert (List.infix_cons h),
      List.cons_append]

variable {u new : List Char}

include hclear in
/-- Of the names of a script none but `u` itself begins with `u`, if it has a value and all longer
names with a value are known. -/
theorem eq_of_prefix_name (hu : all? u = some new)
    (hlong : ∀ name, all? name ≠ none → value? name = none → name.length ≤ u.length)
    {rest name : List Char} (hrest : rest <:+ script) (hname : name? isWord rest = some name)
    (hnone : value? name = none) (h : u <+: name) : u = name := by
  cases hall : all? name with
  | none =>
    rw [hclear.whole rest name hrest hname hall u h] at hu
    cases hu
  | some value => exact h.eq_of_length_le (hlong name (by simp [hall]) hnone)

/-- Characters of words that are found where a name ends before one that is in no word are in the
name. -/
theorem prefix_name {name after : List Char} (hchars : ∀ c ∈ u, isWord c = true)
    (hafter : Ends isWord after) (h : u <+: name ++ after) : u <+: name := by
  cases after with
  | nil => rwa [List.append_nil] at h
  | cons c after =>
    have hc : c ∉ u := fun hmem => by
      have hother : isWord c = false := hafter c rfl
      rw [hchars c hmem] at hother
      cases hother
    exact Text.prefix_of_prefix_append_cons hc h

/-- A value for `u` puts nothing where another reference, or none, stands. -/
theorem front?_update_eq_none {cs : List Char} (hfront : front? isWord value? cs = none)
    (hname : name? isWord cs ≠ some u) :
    front? isWord (Function.update value? u (some new)) cs = none := by
  refine Option.bind_eq_none_iff.mpr fun name hfound => ?_
  have hne : name ≠ u := by
    rintro rfl
    exact hname hfound
  rw [Function.update_of_ne hne]
  exact Option.bind_eq_none_iff.mp hfront name hfound

variable (hu : all? u = some new) (hfresh : value? u = none) (hchars : ∀ c ∈ u, isWord c = true)
  (hlong : ∀ name, all? name ≠ none → value? name = none → name.length ≤ u.length)

include hword hclear hsub hu hchars hlong in
/-- The next reference does not stand at the front of what is filled in, unless it is at the front
of the text. -/
theorem not_prefix_fill {cs : List Char} (hcs : cs <:+ script)
    (hfront : front? isWord value? cs = none) (hname : name? isWord cs ≠ some u) :
    ¬mark ++ u <+: fill isWord value? cs := by
  intro h
  have hmark : mark <+: cs :=
    prefix_of_prefix_fill hword hclear hsub (List.suffix_refl mark)
      ((List.prefix_append mark u).trans h)
  obtain ⟨name, hfound⟩ : ∃ name, name? isWord cs = some name :=
    ⟨_, if_pos (List.isPrefixOf_iff_prefix.mpr hmark)⟩
  have hnone : value? name = none := Option.bind_eq_none_iff.mp hfront name hfound
  obtain ⟨after, rfl, hletters, hafter⟩ := name?_eq_some_iff.mp hfound
  rw [fill_unknown hclear hsub hcs hletters hafter hnone] at h
  have hin : u <+: name :=
    prefix_name hchars (hafter.fill hword) ((List.prefix_append_right_inj mark).mp h)
  exact hname (eq_of_prefix_name hclear hu hlong hcs hfound hnone hin ▸ hfound)

include hword hclear hsub hu hfresh hchars hlong in
/-- Replacing one more reference in what is filled in so far fills it in as well. Behind a reference
the text goes on after its name, so the induction is on the length. -/
theorem replaceAll_fill {cs : List Char} (hcs : cs <:+ script) :
    replaceAll (mark ++ u) new (fill isWord value? cs) =
      fill isWord (Function.update value? u (some new)) cs := by
  induction hn : cs.length using Nat.strongRecOn generalizing cs with
  | ind n ih =>
    subst hn
    have hbehind : ∀ name after, cs = mark ++ (name ++ after) →
        replaceAll (mark ++ u) new (fill isWord value? after) =
          fill isWord (Function.update value? u (some new)) after := by
      rintro name after rfl
      rw [← List.append_assoc] at hcs
      exact ih _ (by simp [mark]; omega) ((List.suffix_append _ after).trans hcs) rfl
    cases hfront : front? isWord value? cs with
    | some value =>
      obtain ⟨name, after, hsplit, hletters, hafter, hvalue⟩ := exists_of_front? hfront
      have hne : name ≠ u := by
        rintro rfl
        rw [hfresh] at hvalue
        cases hvalue
      have hinert := hclear.inert name value (hsub name value hvalue)
      rw [hsplit, fill_reference hletters hafter hvalue,
        fill_reference hletters hafter ((Function.update_of_ne hne _ _).trans hvalue),
        replaceAll_value hword u new hinert (hafter.fill hword), hbehind name after hsplit]
    | none =>
      by_cases hname : name? isWord cs = some u
      · obtain ⟨after, hsplit, -, hafter⟩ := name?_eq_some_iff.mp hname
        have hpattern : mark ++ u ≠ [] := List.append_ne_nil_of_left_ne_nil (by decide) u
        rw [hsplit] at hcs
        rw [hsplit, fill_unknown hclear hsub hcs hchars hafter hfresh, ← List.append_assoc mark u,
          replaceAll_pattern_append hpattern, hbehind u after hsplit,
          fill_reference hchars hafter (Function.update_self _ _ _)]
      · cases cs with
        | nil => rfl
        | cons c rest =>
          have hprefix := not_prefix_fill hword hclear hsub hu hchars hlong hcs hfront hname
          rw [fill_cons hfront] at hprefix
          rw [fill_cons hfront, fill_cons (front?_update_eq_none hfront hname),
            replaceAll_cons hprefix,
            ih _ (Nat.lt_succ_self _) ((List.suffix_cons c rest).trans hcs) rfl]

end Filled

end Script

namespace Query

/-- The metric that a variable stands for, in words. -/
def inWords? (q : Query) (inputs : Entries String) (name : List Char) : Option (List Char) :=
  (Entries.get? inputs (String.ofList name)).bind fun id =>
    (q.findMetric? id).map fun m => (describe m.kind m.field).toList

/-- What the variables stand for, in words. -/
def valuesOf (q : Query) (inputs : Entries String) : List (List Char) :=
  inputs.filterMap fun e => (q.findMetric? e.2).map fun m => (describe m.kind m.field).toList

variable {q : Query} {inputs : Entries String} {isWord : Char → Bool}

theorem mem_valuesOf {name value : List Char} (h : q.inWords? inputs name = some value) :
    value ∈ q.valuesOf inputs := by
  obtain ⟨id, hid, hvalue⟩ := Option.bind_eq_some_iff.mp h
  exact List.mem_filterMap.mpr ⟨_, Entries.mem_of_get? hid, hvalue⟩

theorem inWords?_eq_none {name : String} (hname : name ∉ Entries.keys inputs) :
    q.inWords? inputs name.toList = none := by
  rw [inWords?, String.ofList_toList, Entries.get?_of_not_mem_keys hname, Option.bind_none]

theorem inWords?_append {name : String} (hname : name ∉ Entries.keys inputs) (id : String)
    (other : List Char) : q.inWords? (inputs ++ [(name, id)]) other =
      if other = name.toList then (q.findMetric? id).map fun m => (describe m.kind m.field).toList
      else q.inWords? inputs other := by
  rw [inWords?, Entries.get?_append, Entries.get?_cons]
  by_cases h : other = name.toList
  · subst h
    rw [if_pos rfl, String.ofList_toList, Entries.get?_of_not_mem_keys hname, if_pos rfl]
    rfl
  · have hne : name ≠ String.ofList other := by
      rintro rfl
      exact h String.toList_ofList.symm
    rw [if_neg h, if_neg hne, Entries.get?_nil, Option.or_none, inWords?]

theorem inWords?_of_append {more : Entries String} {name value : List Char}
    (h : q.inWords? inputs name = some value) : q.inWords? (inputs ++ more) name = some value := by
  obtain ⟨id, hid, hvalue⟩ := Option.bind_eq_some_iff.mp h
  rw [inWords?, Entries.get?_append, hid]
  exact hvalue

/-- A variable that comes in words with further variables only is one of those. -/
theorem exists_mem_of_inWords?_append {more : Entries String} {name : List Char}
    (h : q.inWords? (inputs ++ more) name ≠ none) (hnone : q.inWords? inputs name = none) :
    ∃ id, (String.ofList name, id) ∈ more := by
  cases hget : Entries.get? inputs (String.ofList name) with
  | some id =>
    rw [inWords?, hget] at hnone
    rw [inWords?, Entries.get?_append, hget] at h
    exact absurd hnone h
  | none =>
    rw [inWords?, Entries.get?_append, hget, Option.none_or] at h
    obtain ⟨value, hvalue⟩ := Option.ne_none_iff_exists'.mp h
    obtain ⟨id, hid, -⟩ := Option.bind_eq_some_iff.mp hvalue
    exact ⟨id, Entries.mem_of_get? hid⟩

variable {all : Entries String} {script : List Char}

/-- The next variable is replaced in the script in which those before it are filled in. -/
theorem describeVariable_fill (hword : Script.IsWordClass isWord)
    (hclear : Script.IsClear isWord (q.inWords? all) script) (hkeys : (Entries.keys all).Nodup)
    {done todo : Entries String} {name id : String} (hsplit : all = done ++ (name, id) :: todo)
    (hchars : ∀ c ∈ name.toList, isWord c = true)
    (hlong : ∀ e ∈ todo, e.1.length ≤ name.length) :
    Metric.describeVariable q (Script.fill isWord (q.inWords? done) script) (name, id) =
      Script.fill isWord (q.inWords? (done ++ [(name, id)])) script := by
  have hname : name ∉ Entries.keys done := by
    rw [hsplit, Entries.keys, List.map_append, List.nodup_append] at hkeys
    exact fun hmem => hkeys.2.2 name hmem name (by simp) rfl
  rw [Metric.describeVariable]
  cases hfind : q.findMetric? id with
  | none =>
    have hsame : q.inWords? (done ++ [(name, id)]) = q.inWords? done := by
      funext other
      rw [inWords?_append hname, hfind]
      split
      · next h => rw [h, inWords?_eq_none hname]; rfl
      · rfl
    rw [hsame]
  | some m =>
    have hlearn : q.inWords? (done ++ [(name, id)]) =
        Function.update (q.inWords? done) name.toList (some (describe m.kind m.field).toList) := by
      funext other
      rw [inWords?_append hname, hfind, Function.update_apply]
      rfl
    have hu : q.inWords? all name.toList = some (describe m.kind m.field).toList := by
      rw [hsplit, List.append_cons]
      refine inWords?_of_append ?_
      rw [hlearn, Function.update_self]
    have hsub : ∀ other value, q.inWords? done other = some value →
        q.inWords? all other = some value := by
      intro other value h
      rw [hsplit]
      exact inWords?_of_append h
    have hpattern : ("params." ++ name).toList = Script.mark ++ name.toList := String.toList_append
    simp only [hpattern]
    rw [hlearn]
    refine Script.replaceAll_fill hword hclear hsub hu (inWords?_eq_none hname) hchars ?_
      (List.suffix_refl _)
    intro other hall hnone
    rw [hsplit] at hall
    obtain ⟨id', hmem⟩ := exists_mem_of_inWords?_append hall hnone
    have hle : (String.ofList other).length ≤ name.length := by
      rcases List.mem_cons.mp hmem with heq | htodo
      · cases heq
        exact Nat.le_refl _
      · exact hlong _ htodo
    rwa [String.length_ofList, ← String.length_toList] at hle

/-- The variables that are left fill in their references, longer names first. -/
theorem foldl_describeVariable (hword : Script.IsWordClass isWord)
    (hclear : Script.IsClear isWord (q.inWords? all) script) (hkeys : (Entries.keys all).Nodup)
    (hchars : ∀ e ∈ all, ∀ c ∈ e.1.toList, isWord c = true)
    (hlong : all.Pairwise fun a b => b.1.length ≤ a.1.length) {done todo : Entries String}
    (hsplit : all = done ++ todo) :
    todo.foldl (Metric.describeVariable q) (Script.fill isWord (q.inWords? done) script) =
      Script.fill isWord (q.inWords? all) script := by
  induction todo generalizing done with
  | nil => rw [hsplit, List.append_nil]; rfl
  | cons e todo ih =>
    obtain ⟨name, id⟩ := e
    have hrest : ∀ e ∈ todo, e.1.length ≤ name.length := by
      rw [hsplit, List.pairwise_append] at hlong
      exact (List.pairwise_cons.mp hlong.2.1).1
    have hhere : ∀ c ∈ name.toList, isWord c = true := hchars (name, id) (by simp [hsplit])
    rw [List.foldl_cons, describeVariable_fill hword hclear hkeys hsplit hhere hrest]
    exact ih (by rw [hsplit, List.append_cons])

end Query

namespace Metric

/-- Where the references of a script are clear of each other, replacing its variables one after the
other fills in all references at once. -/
theorem describeScript_eq_fill {isWord : Char → Bool} (hword : Script.IsWordClass isWord)
    (m : Metric) (q : Query) (hkeys : (Entries.keys m.inputs).Nodup)
    (hchars : ∀ e ∈ m.inputs, ∀ c ∈ e.1.toList, isWord c = true)
    (hclear : Script.IsClear isWord (q.inWords? m.inputs) m.script.toList) :
    m.describeScript q =
      String.ofList (Script.fill isWord (q.inWords? m.inputs) m.script.toList) := by
  rw [describeScript]
  generalize hsorted : (m.inputs.mergeSort fun a b => decide (b.1.length ≤ a.1.length)) = sorted
  have hperm : sorted.Perm m.inputs := hsorted ▸ List.mergeSort_perm _ _
  have hlong : sorted.Pairwise fun a b => b.1.length ≤ a.1.length := by
    rw [← hsorted]
    refine (List.pairwise_mergeSort ?_ ?_ m.inputs).imp of_decide_eq_true
    · intro a b c hab hbc
      simp only [decide_eq_true_eq] at hab hbc ⊢
      omega
    · intro a b
      simp only [Bool.or_eq_true, decide_eq_true_eq]
      omega
  have hkeys' : (Entries.keys sorted).Nodup := (hperm.map _).nodup_iff.mpr hkeys
  have hchars' : ∀ e ∈ sorted, ∀ c ∈ e.1.toList, isWord c = true :=
    fun e he => hchars e (hperm.mem_iff.mp he)
  have hsame : q.inWords? m.inputs = q.inWords? sorted := by
    funext name
    rw [Query.inWords?, Query.inWords?, Entries.get?_eq_of_perm hperm hkeys']
  have hstart : Script.fill isWord (q.inWords? []) m.script.toList = m.script.toList :=
    Script.fill_of_no_values (fun _ => rfl) _
  rw [hsame] at hclear ⊢
  have hrun := Query.foldl_describeVariable hword hclear hkeys' hchars' hlong
    (List.nil_append sorted).symm
  rw [← hrun, hstart]

end Metric

namespace Script

def isAsciiWord (c : Char) : Bool := c.isAlphanum || c == '_'

theorem isWordClass_isAsciiWord : IsWordClass isAsciiWord where
  letters c hc hne := by
    have hall : mark.all (fun c => c == '.' || isAsciiWord c) = true := by decide
    simpa [hne] using List.all_eq_true.mp hall c hc
  dot := by decide

/-- A script with its variables, for the metrics of `latencies`. -/
def scripted (script : String) (inputs : Entries String) : Metric where
  id := "3"
  kind := .bucketScript
  field := ""
  hide := false
  source := ""
  inputs := inputs
  settings := [("script", .str script)]
  flags := []

/-- A count and an average. -/
def latencies : Query where
  refId := "A"
  rawQuery := ""
  buckets := []
  metrics := [
    ⟨"1", .count, "", false, "", [], [], []⟩,
    ⟨"2", .avg, "latency", false, "", [], [], []⟩]
  aliasPattern := ""
  intervalMs := 0
  maxDataPoints := 0
  rangeFrom := 0
  rangeTo := 0

def mean : Metric :=
  scripted "params.var10 / params.var1 * params.total"
    [("var1", "1"), ("var10", "2"), ("var2", "9")]

theorem isClear_mean :
    IsClear isAsciiWord (latencies.inWords? mean.inputs) mean.script.toList where
  apart := by
    have h : ∀ rest ∈ mean.script.toList.tails, ∀ name ∈ name? isAsciiWord rest,
        ∀ skip < name.length, front? isAsciiWord (latencies.inWords? mean.inputs)
          (rest.drop (mark.length + skip)) = none := by
      decide +kernel
    exact fun rest name hrest => h rest ((List.mem_tails _ _).mpr hrest) name
  whole := by
    have h : ∀ rest ∈ mean.script.toList.tails, ∀ name ∈ name? isAsciiWord rest,
        latencies.inWords? mean.inputs name = none →
          ∀ part ∈ name.inits, latencies.inWords? mean.inputs part = none := by
      decide +kernel
    exact fun rest name hrest hname hnone part hpart =>
      h rest ((List.mem_tails _ _).mpr hrest) name hname hnone part ((List.mem_inits _ _).mpr hpart)
  inert name value h := by
    have hvalues : ∀ value ∈ latencies.valuesOf mean.inputs, ¬mark <:+: value ++ ['.'] := by
      decide
    exact hvalues value (Query.mem_valuesOf h)
  fresh name value h part hne hpart := by
    have hvalues : ∀ value ∈ latencies.valuesOf mean.inputs, ∀ part ∈ mark.tails,
        part ≠ [] → ¬part <+: value ++ ['.'] := by
      decide
    exact hvalues value (Query.mem_valuesOf h) part ((List.mem_tails _ _).mpr hpart) hne

theorem mean_described : (Entries.keys mean.inputs).Nodup ∧
    IsClear isAsciiWord (latencies.inWords? mean.inputs) mean.script.toList ∧
    mean.describeScript latencies = "Average latency / Count * params.total" := by
  have hkeys : (Entries.keys mean.inputs).Nodup := by decide
  have hwords : mean.inputs.all (fun e => e.1.toList.all isAsciiWord) = true := by decide
  have hchars : ∀ e ∈ mean.inputs, ∀ c ∈ e.1.toList, isAsciiWord c = true := fun e he =>
    List.all_eq_true.mp (List.all_eq_true.mp hwords e he)
  have hfilled :=
    Metric.describeScript_eq_fill isWordClass_isAsciiWord mean latencies hkeys hchars isClear_mean
  refine ⟨hkeys, isClear_mean, ?_⟩
  rw [hfilled]
  decide +kernel

/-- A name that no variable has begins with the name of one. -/
def clobbered : Metric := scripted "params.var1 + params.var10" [("var1", "1")]

theorem clobbered_described :
    clobbered.describeScript latencies = "Count + Count0" ∧
    String.ofList (fill isAsciiWord (latencies.inWords? clobbered.inputs)
      clobbered.script.toList) = "Count + params.var10" := by
  decide +kernel

end Script

end PanelSearch
