import Mathlib.Data.List.DropRight
import Mathlib.Data.List.TakeWhile
import PanelSearch.Text.Blank

/-! Texts without the characters of some kind at their ends: what is left is a part of the text that
begins and ends with characters of other kinds, and is told by that. -/

namespace PanelSearch.Text

variable {p : Char → Bool} {cs before after : List Char} {c : Char}

theorem trimEnd_append (p : Char → Bool) (cs : List Char) :
    ∃ rest, cs = trimEnd p cs ++ rest ∧ ∀ c ∈ rest, p c = true := by
  refine ⟨(cs.reverse.takeWhile p).reverse, ?_, fun c hc => ?_⟩
  · rw [trimEnd, ← List.reverse_append, List.takeWhile_append_dropWhile, List.reverse_reverse]
  · exact List.mem_takeWhile_imp (List.mem_reverse.mp hc)

theorem dropWhile_eq_self (h : ∀ c, cs.head? = some c → p c = false) : cs.dropWhile p = cs := by
  cases cs with
  | nil => rfl
  | cons c cs => exact List.dropWhile_cons_of_neg (by simp [h c rfl])

theorem trimEnd_isPrefix (p : Char → Bool) (cs : List Char) : trimEnd p cs <+: cs :=
  List.rdropWhile_prefix p cs

theorem trim_isInfix (p : Char → Bool) (cs : List Char) : trim p cs <:+: cs :=
  (trimEnd_isPrefix p _).isInfix.trans (List.dropWhile_suffix p).isInfix

theorem not_of_head?_dropWhile (h : (cs.dropWhile p).head? = some c) : p c = false := by
  have hhead := List.head?_dropWhile_not p cs
  rwa [h] at hhead

theorem not_of_dropWhile_eq_cons (h : cs.dropWhile p = c :: after) : p c = false :=
  not_of_head?_dropWhile (by rw [h, List.head?_cons])

theorem not_of_getLast?_trimEnd (h : (trimEnd p cs).getLast? = some c) : p c = false := by
  rw [trimEnd, List.getLast?_reverse] at h
  exact not_of_head?_dropWhile h

theorem not_of_head?_trim (h : (trim p cs).head? = some c) : p c = false := by
  obtain ⟨rest, hrest⟩ := trimEnd_isPrefix p (cs.dropWhile p)
  have hhead : (cs.dropWhile p).head? = some c := by
    rw [← hrest, List.head?_append, ← trim, h, Option.some_or]
  exact not_of_head?_dropWhile hhead

theorem not_of_getLast?_trim (h : (trim p cs).getLast? = some c) : p c = false :=
  not_of_getLast?_trimEnd h

theorem trimEnd_append_of_last (hafter : ∀ c ∈ after, p c = true)
    (hlast : ∀ c, cs.getLast? = some c → p c = false) : trimEnd p (cs ++ after) = cs := by
  rw [trimEnd, List.reverse_append, List.dropWhile_append_of_pos (by simpa using hafter),
    dropWhile_eq_self (by simpa using hlast), List.reverse_reverse]

/-- A character that stays keeps what is in front of it. -/
theorem trimEnd_cons (h : p c = false) (cs : List Char) :
    ∃ rest, trimEnd p (c :: cs) = c :: rest := by
  obtain ⟨back, hsplit, hback⟩ := trimEnd_append p (c :: cs)
  cases htrim : trimEnd p (c :: cs) with
  | nil =>
    rw [htrim, List.nil_append] at hsplit
    rw [hback c (hsplit ▸ List.mem_cons_self)] at h
    cases h
  | cons d rest =>
    rw [htrim] at hsplit
    exact ⟨rest, by rw [(List.cons.inj hsplit).1]⟩

/-- The characters of a kind around a text go, and no others. -/
theorem trim_append (hbefore : ∀ c ∈ before, p c = true) (hafter : ∀ c ∈ after, p c = true)
    (hne : cs ≠ []) (hfirst : ∀ c, cs.head? = some c → p c = false)
    (hlast : ∀ c, cs.getLast? = some c → p c = false) : trim p (before ++ cs ++ after) = cs := by
  have hhead : ∀ c, (cs ++ after).head? = some c → p c = false := by
    obtain ⟨d, ds, rfl⟩ := List.exists_cons_of_ne_nil hne
    exact hfirst
  rw [trim, List.append_assoc, List.dropWhile_append_of_pos hbefore, dropWhile_eq_self hhead]
  exact trimEnd_append_of_last hafter hlast

theorem exists_trim_append (p : Char → Bool) (cs : List Char) : ∃ before after,
    cs = before ++ trim p cs ++ after ∧ ∀ c ∈ before ++ after, p c = true := by
  obtain ⟨after, hafter, hall⟩ := trimEnd_append p (cs.dropWhile p)
  refine ⟨cs.takeWhile p, after, ?_, fun c hc => ?_⟩
  · rw [List.append_assoc, trim, ← hafter, List.takeWhile_append_dropWhile]
  · exact (List.mem_append.mp hc).elim List.mem_takeWhile_imp (hall c)

end PanelSearch.Text
