import LiveC.Diagnostic.Snippet
import LiveC.Proofs.Text.Bytes
import LiveC.Proofs.Text.Lines
import LiveC.Proofs.Text.Numeral
/-!
# What a snippet shows

A snippet has three rows: an empty margin, a line of the source beside its number, and carets under
it (`snippet?_eq`, `splitAll_drawn`). The blanks and the carets of the last row can be read off it,
with colours and without (`drawn_inj`).

The row of the line starts with a number, a bar and the blanks between them, the row of the carets
with a margin that is one column narrower. So the first caret never stands under the character that
the span is about, but always one column to the left of it (`caret_beside_place`). Under a whole
line, blanks and carets are as many as bytes: there are as many as characters exactly for a line
without further bytes (`underline_iff_ascii`).
-/

namespace LiveC

open Text

namespace Style

theorem paint_false (s : Style) (text : String) : s.paint false text = text := rfl

theorem reopened_carets (start : List Char) (n : Nat) :
    reopened start (List.replicate n '^') = List.replicate n '^' := by
  induction n with
  | zero => rfl
  | succ n ih =>
    rw [List.replicate_succ, reopened, ih]
    intro r hr
    exact absurd hr (by decide)

end Style

namespace Diagnostic

variable {source line : String} {span : Span}

/-! ## The rows -/

/-- The row of a snippet that shows a line of the source beside its number. -/
def row (colors : Bool) (number : Nat) (line : String) : String :=
  " " ++ (Style.strongIn .cyan).paint colors (alignRight (numberWidth number) number) ++ " " ++
    (Style.strongIn .cyan).paint colors "|" ++ " " ++ line ++ "\n"

/-- The row under it: `width` carets behind a margin and `start` blanks. -/
def caretRow (colors : Bool) (number start width : Nat) : String :=
  " " ++ (Style.colored .cyan).paint colors (margin number) ++ " " ++ fill start ' ' ++
    (Style.strongIn .red).paint colors (fill width '^') ++ "\n"

theorem toList_fill (n : Nat) (c : Char) : (fill n c).toList = List.replicate n c :=
  String.toList_ofList

/-- A snippet with a line of the source and carets under it. -/
def drawn (colors : Bool) (number : Nat) (line : String) (start width : Nat) : String :=
  " " ++ (Style.colored .cyan).paint colors (margin number) ++ "\n" ++ row colors number line ++
    caretRow colors number start width

theorem snippet?_eq (h : sourceLine? source span = some line) (colors : Bool) :
    snippet? colors source span =
      some (drawn colors span.line line (underline span line).1 (underline span line).2) := by
  simp only [snippet?, h, Option.map_some, drawn, row, caretRow, String.append_assoc]

/-- A diagnostic with a line of the source that it is about shows its snippet. -/
theorem exists_format_eq_snippet {d : Diagnostic} {snippet : String} {colors : Bool}
    (h : snippet? colors source d.span = some snippet) :
    ∃ before after, d.format colors source = before ++ snippet ++ after := by
  refine ⟨d.severity.painted colors ++ ": " ++ Style.strong.paint colors d.message ++ "\n" ++
    placeLine colors d.span,
    String.join (d.notes.map (noteLine colors)) ++ (d.help.map (helpLine colors)).getD "", ?_⟩
  simp only [format, h, Option.getD_some, String.append_assoc]

/-- A diagnostic with a line of the source that it is about shows that line. -/
theorem exists_format_eq {d : Diagnostic} (h : sourceLine? source d.span = some line)
    (colors : Bool) :
    ∃ before after, d.format colors source = before ++ row colors d.span.line line ++ after := by
  obtain ⟨before, after, hformat⟩ := exists_format_eq_snippet (snippet?_eq h colors)
  refine ⟨before ++ (" " ++ (Style.colored .cyan).paint colors (margin d.span.line) ++ "\n"),
    caretRow colors d.span.line (underline d.span line).1 (underline d.span line).2 ++ after, ?_⟩
  rw [hformat, drawn]
  simp only [String.append_assoc]

/-- A line of a source holds no line feed. -/
theorem feed_notMem_sourceLine (h : sourceLine? source span = some line) : '\n' ∉ line.toList := by
  unfold sourceLine? at h
  split at h
  · exact absurd h (by simp)
  · obtain ⟨l, hl, rfl⟩ := List.mem_map.1 (List.mem_of_getElem? h)
    rw [String.toList_ofList]
    exact feed_notMem_of_mem_lines hl

/-- What stands in front of a line in its row. -/
def rowHead (number : Nat) : List Char :=
  ' ' :: ((alignRight (numberWidth number) number).toList ++ [' ', '|', ' '])

theorem toList_alignRight (number : Nat) : (alignRight (numberWidth number) number).toList =
    List.replicate (numberWidth number - (toString number).length) ' ' ++
      (toString number).toList := by
  simp [alignRight]

theorem length_rowHead (number : Nat) : (rowHead number).length = numberWidth number + 4 := by
  have hwidth : (toString number).length ≤ numberWidth number := Nat.le_max_right 2 _
  rw [rowHead, toList_alignRight]
  simp only [List.length_cons, List.length_append, List.length_replicate, List.length_nil,
    String.length_toList]
  omega

theorem feed_notMem_rowHead (number : Nat) : '\n' ∉ rowHead number := by
  have hblanks (n : Nat) : '\n' ∉ List.replicate n ' ' := by simp
  rw [rowHead, toList_alignRight]
  simp only [List.mem_cons, List.mem_append, not_or]
  exact ⟨by decide, ⟨hblanks _, feed_notMem_toString number⟩, by decide⟩

/-- **The rows of a snippet** without colours. -/
theorem splitAll_drawn (number : Nat) {line : String} (h : '\n' ∉ line.toList)
    (start width : Nat) : splitAll '\n' (drawn false number line start width).toList =
      [List.replicate (numberWidth number + 2) ' ', rowHead number ++ line.toList,
        List.replicate (numberWidth number + 3 + start) ' ' ++ List.replicate width '^', []] := by
  have hself : ('\n' == '\n') = true := by decide
  have hfirst : '\n' ∉ List.replicate (numberWidth number + 2) ' ' := by simp
  have hline : '\n' ∉ rowHead number ++ line.toList := by
    rw [List.mem_append, not_or]
    exact ⟨feed_notMem_rowHead number, h⟩
  have hlast : '\n' ∉ List.replicate (numberWidth number + 3 + start) ' ' ++
      List.replicate width '^' := by simp
  have hmargin : ' ' :: List.replicate (numberWidth number + 1) ' ' =
      List.replicate (numberWidth number + 2) ' ' := rfl
  have hblanks : ' ' :: (List.replicate (numberWidth number + 1) ' ' ++
      ' ' :: List.replicate start ' ') = List.replicate (numberWidth number + 3 + start) ' ' := by
    have hcount : numberWidth number + 3 + start = numberWidth number + 2 + (start + 1) := by omega
    rw [hcount]
    exact (List.replicate_add (numberWidth number + 2) (start + 1) ' ').symm
  have htext : (drawn false number line start width).toList =
      List.replicate (numberWidth number + 2) ' ' ++ '\n' :: (rowHead number ++ line.toList ++
        '\n' :: (List.replicate (numberWidth number + 3 + start) ' ' ++ List.replicate width '^' ++
          '\n' :: [])) := by
    rw [← hmargin, ← hblanks]
    simp [drawn, row, caretRow, rowHead, Style.paint_false, margin, fill]
  rw [htext, splitAll_append_cons hself, splitAll_append_cons hself, splitAll_append_cons hself,
    splitAll_of_notMem hfirst, splitAll_of_notMem hline, splitAll_of_notMem hlast]
  rfl

/-! ## Where the first caret stands -/

/-- The column in which a line starts in its row, counted from zero. -/
def lineColumn? (snippet line : String) : Option Nat := do
  let shown ← (splitAll '\n' snippet.toList)[1]?
  let front ← stripEnd? line.toList shown
  return front.length

/-- The column of the first caret, counted from zero. -/
def caretColumn? (snippet : String) : Option Nat := do
  let carets ← (splitAll '\n' snippet.toList)[2]?
  carets.findIdx? (· == '^')

/-- The character of a line that a span is about, counted from zero: the one in its column, or the
first one that is not blank if it is about the whole line. -/
def pointedAt (span : Span) (line : List Char) : Nat :=
  if 0 < span.column then span.column - 1 else line.findIdx (!isBlank ·)

/-- The blanks in front of a line. -/
def leading (line : String) : List Char := line.toList.takeWhile isBlank

theorem lineColumn?_drawn (number : Nat) (h : '\n' ∉ line.toList) (start width : Nat) :
    lineColumn? (drawn false number line start width) line = some (numberWidth number + 4) := by
  have hfront : stripEnd? line.toList (rowHead number ++ line.toList) = some (rowHead number) := by
    simp [stripEnd?]
  rw [lineColumn?, splitAll_drawn number h]
  dsimp only [Option.bind_eq_bind]
  rw [List.getElem?_cons_succ, List.getElem?_cons_zero, Option.bind_some, hfront,
    Option.bind_some, length_rowHead]
  rfl

theorem caretColumn?_drawn (number : Nat) (h : '\n' ∉ line.toList) (start : Nat) {width : Nat}
    (hwidth : 0 < width) :
    caretColumn? (drawn false number line start width) =
      some (numberWidth number + 3 + start) := by
  rw [caretColumn?, splitAll_drawn number h]
  simp [List.findIdx?_append, hwidth]

theorem underline_snd_pos (span : Span) (line : String) : 0 < (underline span line).2 := by
  unfold underline
  split
  · exact Nat.le_max_left 1 _
  · exact Nat.le_max_left 1 _

/-- The indentation of a line is the number of bytes that its leading blanks take. -/
theorem indentation_eq (line : String) :
    indentation line = (String.ofList (leading line)).utf8ByteSize := by
  have hline : line.utf8ByteSize = (String.ofList (leading line)).utf8ByteSize +
      (String.ofList (trimStart line.toList)).utf8ByteSize := by
    rw [← utf8ByteSize_ofList_append, leading, trimStart, List.takeWhile_append_dropWhile,
      String.ofList_toList]
  rw [indentation, hline, Nat.add_sub_cancel_right]

theorem length_leading (line : String) :
    (leading line).length = line.toList.findIdx (!isBlank ·) := by
  rw [leading, List.takeWhile_eq_take_findIdx_not, List.length_take]
  exact Nat.min_eq_left List.findIdx_le_length

/-- Under a line of one byte for each character the carets are moved by as many blanks as there are
characters in front of the one that the span is about. -/
theorem underline_fst_of_ascii (hascii : ∀ c ∈ line.toList, c.toNat < 128) (span : Span) :
    (underline span line).1 = pointedAt span line.toList := by
  unfold underline pointedAt
  split
  · rfl
  · have hleading : ∀ c ∈ leading line, c.toNat < 128 :=
      fun c hc => hascii c (List.takeWhile_subset _ hc)
    rw [indentation_eq, utf8ByteSize_ofList_eq_length_iff.2 hleading, length_leading]

/-- **The first caret stands beside the place**: one column to the left of the character that the
span is about, whether by its column or as the first one of the line that is not blank, and however
wide the number of the line is. -/
theorem caret_beside_place {d : Diagnostic} (h : sourceLine? source d.span = some line)
    (hascii : ∀ c ∈ line.toList, c.toNat < 128) :
    ∃ before snippet after left caret, d.format false source = before ++ snippet ++ after ∧
      snippet? false source d.span = some snippet ∧ lineColumn? snippet line = some left ∧
      caretColumn? snippet = some caret ∧ caret + 1 = left + pointedAt d.span line.toList := by
  have hfeed := feed_notMem_sourceLine h
  have hsnippet := snippet?_eq h false
  obtain ⟨before, after, hformat⟩ := exists_format_eq_snippet hsnippet
  refine ⟨before, _, after, _, _, hformat, hsnippet, lineColumn?_drawn _ hfeed _ _,
    caretColumn?_drawn _ hfeed _ (underline_snd_pos d.span line), ?_⟩
  rw [underline_fst_of_ascii hascii]
  omega

/-- A caret behind the line that it stands under is beside its place as well. -/
theorem caret_beside_place_behindLine :
    sourceLine? "int x;\n  y = 1" ⟨"a.c", 2, 8, 1⟩ = some "  y = 1" ∧
    (∀ c ∈ "  y = 1".toList, c.toNat < 128) ∧
    ∃ before snippet after left caret,
      (plain .error "';' expected" ⟨"a.c", 2, 8, 1⟩).format false "int x;\n  y = 1" =
        before ++ snippet ++ after ∧
      snippet? false "int x;\n  y = 1" ⟨"a.c", 2, 8, 1⟩ = some snippet ∧
      lineColumn? snippet "  y = 1" = some left ∧ caretColumn? snippet = some caret ∧
      caret + 1 = left + pointedAt ⟨"a.c", 2, 8, 1⟩ "  y = 1".toList := by
  have hline : sourceLine? "int x;\n  y = 1" ⟨"a.c", 2, 8, 1⟩ = some "  y = 1" := by decide +kernel
  have hascii : ∀ c ∈ "  y = 1".toList, c.toNat < 128 :=
    utf8ByteSize_ofList_eq_length_iff.1 (by decide +kernel)
  exact ⟨hline, hascii,
    caret_beside_place (d := plain .error "';' expected" ⟨"a.c", 2, 8, 1⟩) hline hascii⟩

/-- The first of the carets under `return y;` stands in column 9, and the first letter of the
statement in column 10, whether the span names its column or not. -/
theorem caret_misses_return :
    (∀ c ∈ "    return y;".toList, c.toNat < 128 ∧ c ≠ '\t') ∧
    ∀ span ∈ [Span.wholeLine "demo.c" 2, ⟨"demo.c", 2, 5, 6⟩],
      sourceLine? "int main(void) \x7b\n    return y;\n\x7d" span = some "    return y;" ∧
      (snippet? false "int main(void) \x7b\n    return y;\n\x7d" span).bind
        (lineColumn? · "    return y;") = some 6 ∧
      pointedAt span "    return y;".toList = 4 ∧
      (snippet? false "int main(void) \x7b\n    return y;\n\x7d" span).bind caretColumn? = some 9 ∧
      9 ≠ 6 + 4 := by
  have hascii : ∀ c ∈ "    return y;".toList, c.toNat < 128 :=
    utf8ByteSize_ofList_eq_length_iff.1 (by decide +kernel)
  have htab : '\t' ∉ "    return y;".toList := by decide
  exact ⟨fun c hc => ⟨hascii c hc, ne_of_mem_of_not_mem hc htab⟩, by decide +kernel⟩

/-! ## Underlined lines -/

/-- Carets of a colour stand between the same two sequences, however many they are. -/
theorem exists_paint_carets (colors : Bool) : ∃ front back, ∀ n,
    ((Style.strongIn .red).paint colors (fill n '^')).toList =
      front ++ List.replicate n '^' ++ back := by
  cases colors with
  | false =>
    refine ⟨[], [], fun n => ?_⟩
    rw [Style.paint_false, toList_fill, List.nil_append, List.append_nil]
  | true =>
    refine ⟨(Style.strongIn .red).opening, Style.reset, fun n => ?_⟩
    have hpaint : (Style.strongIn .red).paint true (fill n '^') = String.ofList
        ((Style.strongIn .red).opening ++ Style.reopened (Style.strongIn .red).opening
          (fill n '^').toList ++ Style.reset) := rfl
    rw [hpaint, toList_fill, String.toList_ofList, Style.reopened_carets]

/-- **Blanks and carets can be read off a snippet**, with colours and without. -/
theorem drawn_inj {colors : Bool} {number start width start' width' : Nat}
    (h : drawn colors number line start width = drawn colors number line start' width') :
    start = start' ∧ width = width' := by
  obtain ⟨front, back, hcarets⟩ := exists_paint_carets colors
  have hrow := congrArg String.toList h
  simp only [drawn, caretRow, String.toList_append, hcarets, toList_fill, List.append_assoc,
    List.append_cancel_left_eq] at hrow
  have hnone (n : Nat) : (List.replicate n '^').count ' ' = 0 := List.count_eq_zero.2 (by simp)
  have hnone' (n : Nat) : (List.replicate n ' ').count '^' = 0 := List.count_eq_zero.2 (by simp)
  have hblanks := congrArg (List.count ' ') hrow
  have hmarks := congrArg (List.count '^') hrow
  simp only [List.count_append, List.count_replicate_self, hnone, hnone'] at hblanks hmarks
  omega

/-- **A whole line is underlined in bytes.** The carets start behind as many blanks as its leading
blanks have bytes, and are as many as the rest has bytes once it is trimmed. That is as many as
there are characters exactly if the line, without the blanks at its end, holds only characters of
one byte. -/
theorem underline_iff_ascii (h : sourceLine? source span = some line) (hcolumn : span.column = 0)
    (colors : Bool) :
    snippet? colors source span = some (drawn colors span.line line
      (String.ofList (leading line)).utf8ByteSize (max 1 (trimmed line).utf8ByteSize)) ∧
    (snippet? colors source span = some (drawn colors span.line line (leading line).length
      (max 1 (trimmed line).length)) ↔
      (∀ c ∈ leading line, c.toNat < 128) ∧ ∀ c ∈ (trimmed line).toList, c.toNat < 128) := by
  have hunderline : underline span line =
      ((String.ofList (leading line)).utf8ByteSize, max 1 (trimmed line).utf8ByteSize) := by
    rw [underline, hcolumn, if_neg (by decide), indentation_eq]
  have hsnippet := snippet?_eq h colors
  rw [hunderline] at hsnippet
  have hcarets := max_utf8ByteSize_eq_iff (s := (trimmed line).toList)
  rw [String.ofList_toList, String.length_toList] at hcarets
  refine ⟨hsnippet, ?_⟩
  rw [hsnippet, Option.some.injEq, ← utf8ByteSize_ofList_eq_length_iff, ← hcarets]
  constructor
  · intro heq
    exact drawn_inj heq
  · rintro ⟨hblanks, hmarks⟩
    rw [hblanks, hmarks]

/-- A line with an accented letter, in colours: the tab in front of it is one blank, and there is
one caret too many. -/
theorem underline_iff_ascii_accented :
    sourceLine? "int x;\n\ty = é;\n" (.wholeLine "a.c" 2) = some "\ty = é;" ∧
    (Span.wholeLine "a.c" 2).column = 0 ∧
    snippet? true "int x;\n\ty = é;\n" (.wholeLine "a.c" 2) = some (drawn true 2 "\ty = é;" 1 7) ∧
    snippet? true "int x;\n\ty = é;\n" (.wholeLine "a.c" 2) ≠ some (drawn true 2 "\ty = é;"
      (leading "\ty = é;").length (max 1 (trimmed "\ty = é;").length)) := by
  have hline : sourceLine? "int x;\n\ty = é;\n" (.wholeLine "a.c" 2) = some "\ty = é;" := by
    decide +kernel
  have hcolumn : (Span.wholeLine "a.c" 2).column = 0 := rfl
  have hbytes : (String.ofList (leading "\ty = é;")).utf8ByteSize = 1 ∧
      max 1 (trimmed "\ty = é;").utf8ByteSize = 7 := by decide +kernel
  have haccent : ¬∀ c ∈ (trimmed "\ty = é;").toList, c.toNat < 128 := fun hall =>
    absurd (utf8ByteSize_ofList_eq_length_iff.2 hall) (by decide +kernel)
  obtain ⟨hdrawn, hiff⟩ := underline_iff_ascii hline hcolumn true
  rw [hbytes.1, hbytes.2] at hdrawn
  exact ⟨hline, hcolumn, hdrawn, fun heq => haccent (hiff.1 heq).2⟩

/-- Behind a wide blank, one accented letter stands above three blanks and two carets. -/
theorem accent_underlined_twice :
    sourceLine? "\u3000é" (.wholeLine "a.c" 1) = some "\u3000é" ∧
    (leading "\u3000é").length = 1 ∧ max 1 (trimmed "\u3000é").length = 1 ∧
    snippet? false "\u3000é" (.wholeLine "a.c" 1) = some (drawn false 1 "\u3000é" 3 2) ∧
    snippet? false "\u3000é" (.wholeLine "a.c" 1) ≠ some (drawn false 1 "\u3000é"
      (leading "\u3000é").length (max 1 (trimmed "\u3000é").length)) := by
  decide +kernel

end Diagnostic

end LiveC
