import Mathlib.Data.List.Forall2
import PanelSearch.Proofs.Duration
import PanelSearch.Proofs.Json.Escape
import PanelSearch.Proofs.Json.Texts
import PanelSearch.Proofs.Text.Replace
import PanelSearch.Request.Batch

/-! Filling in placeholders on the text of a body and filling them in on its texts and keys come to
the same lines. A placeholder begins with a dollar and its characters are written as themselves, so
its occurrences in JSON text are those in the texts and keys: none begins outside quotes, runs over
a quote or takes part in an escape. What is filled in needs no escape either. -/

namespace PanelSearch

open Json Text

/-- A pattern that begins with a dollar, and whose characters are all written as themselves. -/
structure IsPlaceholder (pattern : List Char) : Prop where
  head : pattern.head? = some '$'
  plain : IsPlain pattern

namespace IsPlaceholder

variable {pattern value : List Char}

theorem ne_nil (hp : IsPlaceholder pattern) : pattern ≠ [] := by
  rintro rfl
  exact absurd hp.head (by simp)

theorem quote_not_mem (hp : IsPlaceholder pattern) : '"' ∉ pattern := fun h =>
  absurd (hp.plain _ h) (by decide)

theorem backslash_not_mem (hp : IsPlaceholder pattern) : '\\' ∉ pattern := fun h =>
  absurd (hp.plain _ h) (by decide)

theorem dollar_not_mem_of_number {cs : List Char} (h : IsNumberText cs) : '$' ∉ cs := fun hd =>
  absurd (h _ hd) (by decide)

theorem dollar_not_mem_escape {tail : List Char} (h : ∀ x ∈ tail, IsEscapeChar x) :
    '$' ∉ '\\' :: tail := by
  intro hd
  rcases List.mem_cons.mp hd with hd | hd
  · exact absurd hd (by decide)
  · rcases h _ hd with hd | hd | hd
    · exact absurd hd (by decide)
    · exact absurd hd (by decide)
    · exact absurd hd (by decide)

/-- A placeholder stands in an escaped text where it stands in the text. -/
theorem replaceAll_escape (hp : IsPlaceholder pattern) (hv : IsPlain value) (cs : List Char) :
    replaceAll pattern value (cs.flatMap escape) =
      (replaceAll pattern value cs).flatMap escape := by
  induction cs using replaceAll_induction hp.ne_nil with
  | nil => rfl
  | found tail ih =>
    rw [List.flatMap_append, hp.plain.flatMap_escape, replaceAll_pattern_append hp.ne_nil,
      replaceAll_pattern_append hp.ne_nil, ih, List.flatMap_append, hv.flatMap_escape]
  | skipped c cs hpre ih =>
    have hne : ¬pattern <+: (c :: cs).flatMap escape := fun h =>
      hpre (prefix_of_prefix_flatMap_escape hp.backslash_not_mem h)
    rw [replaceAll_cons hpre, List.flatMap_cons, List.flatMap_cons, ← ih]
    rcases writes_escape c with hc | ⟨tail, hc, htail⟩
    · rw [List.flatMap_cons, hc] at hne
      rw [hc]
      exact replaceAll_cons hne
    · rw [hc]
      exact Replaces.keep hp.head (dollar_not_mem_escape htail) _

end IsPlaceholder

def replaceText (pattern value : List Char) (s : String) : String :=
  String.ofList (replaceAll pattern value s.toList)

section Render

variable {pattern value : List Char} (hp : IsPlaceholder pattern) (hv : IsPlain value)
include hp hv

/-- Quotes end every occurrence, so what stands between them is replaced on its own. -/
theorem replaces_quote (s : String) : Replaces pattern value (quote .compact s)
    (quote .compact (replaceText pattern value s)) := by
  have hopen : Replaces pattern value ['"'] ['"'] := .keep hp.head (by decide)
  have hbody : Replaces pattern value (s.toList.flatMap escape ++ ['"']) _ :=
    .upTo hp.ne_nil hp.quote_not_mem _
  rw [hp.replaceAll_escape hv] at hbody
  rw [quote_compact, quote_compact, replaceText, String.toList_ofList]
  exact hopen.append hbody

omit hv in
theorem replaces_intercalate {as bs : List (List Char)}
    (h : List.Forall₂ (Replaces pattern value) as bs) :
    Replaces pattern value (Style.compact.item.intercalate as)
      (Style.compact.item.intercalate bs) := by
  have hcomma : Replaces pattern value [','] [','] := .keep hp.head (by decide)
  induction h with
  | nil => exact .nil
  | @cons a b as bs hab h ih =>
    cases h with
    | nil => simpa using hab
    | cons hab' h =>
      rw [List.intercalate_cons_cons, List.intercalate_cons_cons]
      exact (hab.append hcomma).append ih

/-- Replacing a placeholder on the text of a value replaces it in the value's texts and keys. -/
theorem replaces_render (j : Json) : Replaces pattern value (render .compact j)
    (render .compact (mapTexts (replaceText pattern value) j)) := by
  induction j using inductionOn with
  | null => exact .keep hp.head (by decide)
  | bool b => cases b <;> exact .keep hp.head (by decide)
  | int n => exact .keep hp.head (IsPlaceholder.dollar_not_mem_of_number (isNumberText_intText n))
  | double d => exact .keep hp.head (IsPlaceholder.dollar_not_mem_of_number (isNumberText_double d))
  | str s => exact replaces_quote hp hv s
  | arr items ih =>
    rw [mapTexts_arr, render_arr, render_arr, List.map_map]
    have hopen : Replaces pattern value ['['] ['['] := .keep hp.head (by decide)
    have hclose : Replaces pattern value [']'] [']'] := .keep hp.head (by decide)
    have hitems := replaces_intercalate hp (List.forall₂_map_left_iff.mpr
      (List.forall₂_map_right_iff.mpr (List.forall₂_same.mpr ih)))
    exact (hopen.append hitems).append hclose
  | obj members ih =>
    rw [mapTexts_obj, render_obj, render_obj, List.map_map]
    have hopen : Replaces pattern value ['{'] ['{'] := .keep hp.head (by decide)
    have hclose : Replaces pattern value ['}'] ['}'] := .keep hp.head (by decide)
    have hcolon : Replaces pattern value Style.compact.key Style.compact.key :=
      .keep hp.head (by decide)
    have hmember : ∀ m ∈ members, Replaces pattern value (renderMember .compact m)
        (renderMember .compact
          (replaceText pattern value m.1, mapTexts (replaceText pattern value) m.2)) :=
      fun m hm => ((replaces_quote hp hv m.1).append hcolon).append (ih m hm)
    have hmembers := replaces_intercalate hp (List.forall₂_map_left_iff.mpr
      (List.forall₂_map_right_iff.mpr (List.forall₂_same.mpr hmember)))
    exact (hopen.append hmembers).append hclose

theorem replaceAll_render (j : Json) : replaceAll pattern value (render .compact j) =
    render .compact (mapTexts (replaceText pattern value) j) :=
  (replaces_render hp hv j).eq

end Render

namespace Batch

theorem isPlaceholder_millis : IsPlaceholder millisPlaceholder where
  head := rfl
  plain := by decide

theorem isPlaceholder_duration : IsPlaceholder durationPlaceholder where
  head := rfl
  plain := by decide

/-- A text with the placeholders filled in: the one for milliseconds, and then the one for the
interval as a duration. -/
def fillText (intervalMs : Int) (s : String) : String :=
  replaceText durationPlaceholder (Duration.text intervalMs)
    (replaceText millisPlaceholder (intText intervalMs) s)

theorem fill_render (intervalMs : Int) (j : Json) :
    fill intervalMs (j.render .compact) = (j.mapTexts (fillText intervalMs)).render .compact := by
  have hms := isPlain_of_isNumberText (isNumberText_intText intervalMs)
  have hdur := isPlain_of_isNumberText (Duration.isNumberText_text intervalMs)
  rw [fill, replaceAll_render isPlaceholder_millis hms,
    replaceAll_render isPlaceholder_duration hdur, mapTexts_mapTexts]
  rfl

/-- The lines of a batch are the compact texts of the headers as they are, and of the bodies with
the placeholders filled in in their texts and keys and nothing else changed. -/
theorem text_eq_fillText (entries : List Entry) :
    (∀ e ∈ entries, e.headerLine = e.header.render .compact ∧
      e.bodyLine = (e.body.mapTexts (fillText e.intervalMs)).render .compact) ∧
    text entries = entries.flatMap fun e => e.header.render .compact ++
      '\n' :: (e.body.mapTexts (fillText e.intervalMs)).render .compact ++ ['\n'] := by
  have hbody : ∀ e : Entry,
      e.bodyLine = (e.body.mapTexts (fillText e.intervalMs)).render .compact :=
    fun e => fill_render e.intervalMs e.body
  refine ⟨fun e _ => ⟨rfl, hbody e⟩, ?_⟩
  simp only [text, Entry.headerLine, hbody]

example : (Json.obj [("$__interval_ms", .str "every $__interval")]).mapTexts (fillText 90000) =
    .obj [("90000", .str "every 1m30s")] := by rfl

example :
    (Entry.mk (.obj []) (.obj [("$__interval_ms", .str "every $__interval")]) 90000).bodyLine =
      "\x7b\"90000\":\"every 1m30s\"\x7d".toList := by rfl

end Batch

end PanelSearch
