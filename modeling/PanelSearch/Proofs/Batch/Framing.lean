import PanelSearch.Proofs.Batch.Placeholders
import PanelSearch.Proofs.Json.Ascii

/-! The lines of a batch on the wire. A header line and a body line are compact texts of JSON
values, placeholders filled in or not, so they hold printable ASCII only: the line breaks of a batch
are the two behind the lines of each entry, and no text in a query makes one more. -/

namespace PanelSearch.Batch

open Json

def newline : UInt8 := 0x0A

/-- The bytes of a batch. -/
def payload (entries : List Entry) : List UInt8 := utf8 (text entries)

def Entry.lines (e : Entry) : List (List UInt8) := [utf8 e.headerLine, utf8 e.bodyLine]

theorem isPrintableAscii_headerLine (e : Entry) : IsPrintableAscii e.headerLine :=
  isPrintableAscii_render e.header

/-- Filling in placeholders leaves the text of a value, so nothing else is to be shown of it. -/
theorem isPrintableAscii_bodyLine (e : Entry) : IsPrintableAscii e.bodyLine := by
  rw [Entry.bodyLine, fill_render]
  exact isPrintableAscii_render _

theorem newline_not_mem_utf8 {cs : List Char} (h : IsPrintableAscii cs) : newline ∉ utf8 cs := by
  intro hmem
  exact absurd (h.byte_bounds _ hmem).1 (by decide)

theorem utf8_ne_nil {cs : List Char} (h : IsPrintableAscii cs) (hne : cs ≠ []) : utf8 cs ≠ [] := by
  rw [h.utf8_eq_map]
  simpa using hne

@[simp] theorem payload_nil : payload [] = [] := rfl

theorem payload_append (as bs : List Entry) : payload (as ++ bs) = payload as ++ payload bs := by
  simp [payload, text, utf8_append]

theorem payload_singleton (e : Entry) :
    payload [e] = utf8 e.headerLine ++ newline :: (utf8 e.bodyLine ++ [newline]) := by
  have hbreak : ∀ cs, utf8 ('\n' :: cs) = newline :: utf8 cs := utf8_append ['\n']
  simp only [payload, text, List.flatMap_cons, List.flatMap_nil, List.append_nil, List.append_assoc,
    List.cons_append, utf8_append, hbreak]
  rfl

theorem payload_cons (e : Entry) (rest : List Entry) : payload (e :: rest) =
    utf8 e.headerLine ++ newline :: (utf8 e.bodyLine ++ newline :: payload rest) := by
  rw [← List.singleton_append, payload_append, payload_singleton]
  simp

theorem splitOn_line {line : List UInt8} (h : newline ∉ line) (rest : List UInt8) :
    (line ++ newline :: rest).splitOn newline = line :: rest.splitOn newline := by
  have hline := List.splitOn_eq_singleton h
  unfold List.splitOn at hline ⊢
  rw [List.splitOnP_append_cons _ _ (by simp), hline, List.singleton_append]

theorem splitOn_payload (entries : List Entry) :
    (payload entries).splitOn newline = entries.flatMap Entry.lines ++ [[]] := by
  induction entries with
  | nil => rfl
  | cons e rest ih =>
    have hheader := newline_not_mem_utf8 (isPrintableAscii_headerLine e)
    have hbody := newline_not_mem_utf8 (isPrintableAscii_bodyLine e)
    rw [payload_cons, splitOn_line hheader, splitOn_line hbody, ih]
    rfl

theorem count_payload (entries : List Entry) :
    (payload entries).count newline = 2 * entries.length := by
  induction entries with
  | nil => rfl
  | cons e rest ih =>
    have hheader := newline_not_mem_utf8 (isPrintableAscii_headerLine e)
    have hbody := newline_not_mem_utf8 (isPrintableAscii_bodyLine e)
    rw [payload_cons, List.count_append, List.count_cons_self, List.count_append,
      List.count_cons_self, List.count_eq_zero.mpr hheader, List.count_eq_zero.mpr hbody, ih,
      List.length_cons]
    omega

theorem getLast?_payload (entries : List Entry) :
    (payload entries).getLast? = entries.getLast?.map fun _ => newline := by
  rcases List.eq_nil_or_concat entries with rfl | ⟨init, e, rfl⟩
  · rfl
  · have hend : payload (init ++ [e]) =
        (payload init ++ utf8 e.headerLine ++ newline :: utf8 e.bodyLine) ++ [newline] := by
      simp [payload_append, payload_singleton]
    rw [List.concat_eq_append, hend, List.getLast?_concat, List.getLast?_concat, Option.map_some]

theorem payload_bytes (entries : List Entry) :
    ∀ b ∈ payload entries, b = newline ∨ (0x20 ≤ b ∧ b < 0x7F) := by
  induction entries with
  | nil => simp
  | cons e rest ih =>
    have hheader := (isPrintableAscii_headerLine e).byte_bounds
    have hbody := (isPrintableAscii_bodyLine e).byte_bounds
    rw [payload_cons]
    simp only [List.mem_append, List.mem_cons]
    rintro b (h | rfl | h | rfl | h)
    · exact .inr (hheader b h)
    · exact .inl rfl
    · exact .inr (hbody b h)
    · exact .inl rfl
    · exact ih b h

/-- A batch has two line breaks for each entry, the last of them at its end. Between them stand the
header line and the body line of each entry, in order, none of them empty and all of printable
ASCII. -/
theorem payload_isFramed (entries : List Entry) :
    (payload entries).count newline = 2 * entries.length ∧
    (payload entries).getLast? = entries.getLast?.map (fun _ => newline) ∧
    (payload entries).splitOn newline =
      entries.flatMap (fun e => [utf8 e.headerLine, utf8 e.bodyLine]) ++ [[]] ∧
    (∀ e : Entry, utf8 e.headerLine ≠ [] ∧ utf8 e.bodyLine ≠ []) ∧
    ∀ b ∈ payload entries, b = newline ∨ (0x20 ≤ b ∧ b < 0x7F) := by
  refine ⟨count_payload entries, getLast?_payload entries, splitOn_payload entries, fun e => ?_,
    payload_bytes entries⟩
  constructor
  · exact utf8_ne_nil (isPrintableAscii_headerLine e) (render_ne_nil e.header)
  · refine utf8_ne_nil (isPrintableAscii_bodyLine e) ?_
    rw [Entry.bodyLine, fill_render]
    exact render_ne_nil _

end PanelSearch.Batch
