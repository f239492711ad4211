import Mathlib.Algebra.Order.Floor.Div
import Mathlib.Tactic.Common
import Xmodem.HexDump.Reader

/-!
# The layout of a hex dump

A dump is made of lines of sixteen bytes, in columns: what stands where on a line is `Columns.Shows`, which speaks
of characters by their positions and of digits by what they read as. So the columns can be told apart whatever
characters stand between the bars, and the bytes be read back (`HexDump.read`). `HexDump.render_columns` says
both of every dump.
-/

namespace Xmodem

namespace Hex

/-! ### Numerals -/

/-- The number that upper-case hexadecimal digits stand for. -/
def number? (cs : List Char) : Option Nat :=
  cs.foldlM (fun n c => (value? c).map (16 * n + ·)) 0

theorem number?_concat (cs : List Char) (c : Char) :
    number? (cs ++ [c]) = (number? cs).bind fun n => (value? c).map (16 * n + ·) := by
  rw [number?, List.foldlM_append]
  exact bind_congr fun n => by simp

theorem number?_toDigits (n : Nat) : number? ((Nat.toDigits 16 n).map Char.toUpper) = some n := by
  induction n using Nat.strongRecOn with
  | ind n ih =>
    rw [Nat.toDigits_eq_if (by decide)]
    split
    · rename_i hlt
      show (value? (digit n)).map (16 * 0 + ·) >>= pure = _
      rw [value?_digit hlt]
      simp
    · have hdiv : 16 * (n / 16) + n % 16 = n := Nat.div_add_mod n 16
      rw [List.map_append, List.map_singleton, number?_concat, ih (n / 16) (by omega)]
      show (value? (digit (n % 16))).map (16 * (n / 16) + ·) = _
      rw [value?_digit (by omega), Option.map_some, hdiv]

theorem number?_zeros (zeros : Nat) (cs : List Char) :
    number? (List.replicate zeros '0' ++ cs) = number? cs := by
  induction zeros with
  | zero => rfl
  | succ zeros ih => exact ih

/-- What is written with zeros in front reads as the same number. -/
theorem number?_padded (width n : Nat) : number? (padded width n) = some n := by
  rw [padded, List.leftpad, number?_zeros, number?_toDigits]

/-- There are as few digits as the number needs, and at least `width`. -/
theorem length_padded_le_iff {width n k : Nat} (hwidth : 0 < width) :
    (padded width n).length ≤ k ↔ width ≤ k ∧ n < 16 ^ k := by
  rw [padded, List.length_leftpad, List.length_map, Nat.max_le]
  refine and_congr_right fun hk => ?_
  exact Nat.length_toDigits_le_iff (by decide) (Nat.lt_of_lt_of_le hwidth hk)

end Hex

namespace HexDump

/-! ### Columns -/

/-- A line of a dump in its columns: the offset, the area of the bytes, the characters. -/
structure Columns where
  digits : List Char
  area : List Char
  glyphs : List Char

namespace Columns

def text (row : Columns) : List Char :=
  row.digits ++ [':'] ++ row.area ++ [' ', ' ', '|'] ++ row.glyphs ++ ['|']

/-- The three characters of the area in which its `i`-th byte stands. -/
def cell (row : Columns) (i : Nat) : List Char :=
  (row.area.drop (3 * i)).take 3

/-- The line shows `bytes`, of which the first one lies at `offset`. -/
structure Shows (row : Columns) (offset : Nat) (bytes : List UInt8) : Prop where
  number : Hex.number? row.digits = some offset
  /-- There are as few digits as the offset needs, and at least eight. -/
  digits : ∀ k, row.digits.length ≤ k ↔ 8 ≤ k ∧ offset < 16 ^ k
  area : row.area.length = 48
  byte : ∀ (i : Nat) (b : UInt8), bytes[i]? = some b →
    ∃ high low, row.cell i = [' ', high, low] ∧ Hex.byte? high low = some b
  blank : ∀ i, bytes.length ≤ i → i < 16 → row.cell i = [' ', ' ', ' ']
  glyphs : row.glyphs.length = bytes.length
  glyph : ∀ (i : Nat) (b : UInt8), bytes[i]? = some b → ∃ c, row.glyphs[i]? = some c ∧
    if 0x21 ≤ b ∧ b ≤ 0x7E then c.toNat = b.toNat else c = '.'

end Columns

theorem drop_cells (chunk : List UInt8) (i : Nat) :
    (chunk.flatMap HexDump.cell).drop (3 * i) = (chunk.drop i).flatMap HexDump.cell := by
  induction chunk generalizing i with
  | nil => simp
  | cons b chunk ih =>
    cases i with
    | zero => rfl
    | succ i => exact ih i

theorem area_eq (chunk : List UInt8) :
    area chunk = chunk.flatMap HexDump.cell ++ List.replicate (areaWidth - 3 * chunk.length) ' ' := by
  rw [area, List.rightpad, length_cells]

theorem take_drop_area {chunk : List UInt8} {i : Nat} {b : UInt8} (h : chunk[i]? = some b) :
    ((area chunk).drop (3 * i)).take 3 = HexDump.cell b := by
  obtain ⟨hi, rfl⟩ := List.getElem?_eq_some_iff.1 h
  have hcells : 3 * i ≤ (chunk.flatMap HexDump.cell).length := by
    rw [length_cells]
    omega
  rw [area_eq, List.drop_append_of_le_length hcells, drop_cells, List.drop_eq_getElem_cons hi]
  rfl

theorem take_drop_area_blank {chunk : List UInt8} {i : Nat} (hle : chunk.length ≤ i) (hlt : i < width) :
    ((area chunk).drop (3 * i)).take 3 = List.replicate 3 ' ' := by
  have hcells : (chunk.flatMap HexDump.cell).length ≤ 3 * i := by
    rw [length_cells]
    omega
  have hblanks : 3 ≤ areaWidth - 3 * i := by
    simp only [areaWidth]
    omega
  rw [area_eq, List.drop_append, List.drop_eq_nil_of_le hcells, List.nil_append, length_cells,
    List.drop_replicate, List.take_replicate]
  congr 1
  omega

theorem glyph_spec (b : UInt8) :
    if 0x21 ≤ b ∧ b ≤ 0x7E then (glyph b).toNat = b.toNat else glyph b = '.' := by
  unfold glyph
  split
  · have hvalid : b.toNat.isValidChar := .inl (Nat.lt_trans b.toNat_lt (by decide))
    rw [Char.ofNat, dif_pos hvalid]
    rfl
  · rfl

/-- The line that shows `chunk` in its columns. -/
def columns (offset : Nat) (chunk : List UInt8) : Columns :=
  ⟨Hex.padded 8 offset, area chunk, chunk.map glyph⟩

theorem line_eq_text (offset : Nat) (chunk : List UInt8) :
    line offset chunk = (columns offset chunk).text ++ ['\n'] := by
  simp [line, columns, Columns.text]

theorem shows_columns (offset : Nat) {chunk : List UInt8} (h : chunk.length ≤ width) :
    (columns offset chunk).Shows offset chunk where
  number := Hex.number?_padded 8 offset
  digits k := Hex.length_padded_le_iff (by decide)
  area := length_area h
  byte i b hb := ⟨_, _, take_drop_area hb, Hex.byte?_digits b⟩
  blank _ := take_drop_area_blank
  glyphs := List.length_map _
  glyph i b hb := by
    refine ⟨glyph b, ?_, glyph_spec b⟩
    show (chunk.map glyph)[i]? = _
    rw [List.getElem?_map, hb]
    rfl

/-! ### The text -/

theorem newline_notMem_cell (b : UInt8) : '\n' ∉ HexDump.cell b := by
  have all : ∀ b : Fin 256, '\n' ∉ HexDump.cell (UInt8.ofNat b) := by decide +kernel
  simpa using all ⟨b.toNat, b.toNat_lt⟩

theorem glyph_ne_newline (b : UInt8) : glyph b ≠ '\n' := by
  have hspec := glyph_spec b
  intro h
  rw [h] at hspec
  split at hspec
  · rename_i hvisible
    have hcode : b.toNat = 10 := hspec.symm
    have hge : 0x21 ≤ b.toNat := hvisible.1
    omega
  · cases hspec

theorem newline_notMem_text (offset : Nat) (chunk : List UInt8) : '\n' ∉ (columns offset chunk).text := by
  have hdigits : '\n' ∉ Hex.padded 8 offset := fun h => by
    obtain ⟨d, hd, hc⟩ := Hex.exists_digit_of_mem_padded h
    have all : ∀ d : Fin 16, '\n' ≠ Hex.digit d := by decide
    exact all ⟨d, hd⟩ hc
  have harea : '\n' ∉ area chunk := fun h => by
    rw [area_eq, List.mem_append, List.mem_flatMap] at h
    rcases h with ⟨b, -, hb⟩ | h
    · exact newline_notMem_cell b hb
    · cases List.eq_of_mem_replicate h
  have hglyphs : '\n' ∉ chunk.map glyph := fun h => by
    obtain ⟨b, -, hb⟩ := List.mem_map.1 h
    exact glyph_ne_newline b hb
  simp [columns, Columns.text, hdigits, harea, hglyphs]

/-- A text of lines is split into them again, and nothing is left behind the last newline. -/
theorem splitOn_flatMap {rows : List (List Char)} (h : ∀ row ∈ rows, '\n' ∉ row) :
    (rows.flatMap (· ++ ['\n'])).splitOn '\n' = rows ++ [[]] := by
  induction rows with
  | nil => rfl
  | cons row rows ih =>
    rw [List.flatMap_cons, List.append_assoc, List.singleton_append,
      List.splitOn_append_cons_self_of_not_mem (h row List.mem_cons_self),
      ih fun r hr => h r (List.mem_cons_of_mem _ hr)]
    rfl

theorem flatten_chunks (l : List UInt8) (n : Nat) :
    (List.range n).flatMap (fun i => (l.drop (width * i)).take width) = l.take (width * n) := by
  induction n with
  | zero => simp
  | succ n ih =>
    rw [List.range_succ, List.flatMap_append, ih, List.flatMap_singleton, Nat.mul_succ, List.take_add]

theorem chunk_eq (data : Array UInt8) (n : Nat) : chunk data n = (data.toList.drop (width * n)).take width := by
  rw [chunk, Array.toList_extract, List.extract_eq_take_drop, Nat.mul_succ, Nat.add_sub_cancel_left]

theorem length_chunk (data : Array UInt8) (n : Nat) :
    (chunk data n).length = min width (data.size - width * n) := by
  rw [chunk_eq, List.length_take, List.length_drop, Array.length_toList]

def rows (data : Array UInt8) : List Columns :=
  (List.range (data.size ⌈/⌉ width)).map fun n => columns (width * n) (chunk data n)

theorem length_rows (data : Array UInt8) : (rows data).length = data.size ⌈/⌉ width := by
  rw [rows, List.length_map, List.length_range]

theorem eq_columns_of_getElem? {data : Array UInt8} {n : Nat} {row : Columns}
    (h : (rows data)[n]? = some row) : row = columns (width * n) (chunk data n) := by
  rw [rows, List.getElem?_map] at h
  obtain ⟨m, hm, rfl⟩ := Option.map_eq_some_iff.1 h
  obtain ⟨hlt, rfl⟩ := List.getElem?_eq_some_iff.1 hm
  rw [List.getElem_range]

/-- There is an `n`-th line exactly if there is a byte at its offset. -/
theorem lt_ceilDiv_iff {data : Array UInt8} {n : Nat} : n < data.size ⌈/⌉ width ↔ width * n < data.size := by
  rw [Nat.ceilDiv_eq_add_pred_div, width]
  omega

theorem toList_render (data : Array UInt8) :
    (render data).toList = ((rows data).map Columns.text).flatMap (· ++ ['\n']) := by
  have hlines : lines data = (rows data).map fun row => row.text ++ ['\n'] := by
    rw [lines, rows, Nat.ceilDiv_eq_add_pred_div, List.map_map]
    exact List.map_congr_left fun n _ => line_eq_text _ _
  rw [render, String.toList_join, hlines]
  simp [List.flatMap_map]

theorem splitOn_render (data : Array UInt8) :
    (render data).toList.splitOn '\n' = (rows data).map Columns.text ++ [[]] := by
  rw [toList_render, splitOn_flatMap]
  intro text htext
  simp only [rows, List.map_map, List.mem_map] at htext
  obtain ⟨n, -, rfl⟩ := htext
  exact newline_notMem_text _ _

theorem length_chunk_le (data : Array UInt8) (n : Nat) : (chunk data n).length ≤ width := by
  rw [length_chunk]
  exact Nat.min_le_left _ _

theorem readLine_text (offset : Nat) {chunk : List UInt8} (h : chunk.length ≤ width) :
    readLine (columns offset chunk).text = chunk := by
  simp only [columns, Columns.text, List.append_assoc, List.cons_append, List.nil_append]
  exact readLine_area offset _ h

theorem size_le (data : Array UInt8) : data.size ≤ width * (data.size ⌈/⌉ width) := by
  rw [Nat.ceilDiv_eq_add_pred_div, width]
  omega

theorem read_render (data : Array UInt8) : read (render data) = data.toList := by
  have hread (n : Nat) : readLine (columns (width * n) (chunk data n)).text =
      (data.toList.drop (width * n)).take width := by
    rw [readLine_text _ (length_chunk_le data n), chunk_eq]
  rw [read, splitOn_render, List.flatMap_append, rows, List.map_map, List.flatMap_map]
  simp only [Function.comp_apply, hread, flatten_chunks]
  rw [List.take_of_length_le (size_le data)]
  exact List.append_nil _

/-- A dump has a line for every sixteen bytes and one for the rest, and each stands in its columns: the offset,
the bytes, the characters. The bytes can be read back from it, so that different bytes have different dumps. -/
theorem render_columns (data : Array UInt8) :
    (∃ rows : List Columns,
      (render data).toList = (rows.map Columns.text).flatMap (· ++ ['\n']) ∧
      (render data).toList.splitOn '\n' = rows.map Columns.text ++ [[]] ∧
      rows.length = data.size ⌈/⌉ (16 : Nat) ∧
      ∀ n row, rows[n]? = some row → ∃ bytes, row.Shows (16 * n) bytes ∧
        bytes = (data.toList.drop (16 * n)).take 16 ∧ 1 ≤ bytes.length ∧ bytes.length ≤ 16 ∧
        (n + 1 < rows.length → bytes.length = 16)) ∧
    read (render data) = data.toList ∧
    ∀ other, render data = render other → data = other := by
  refine ⟨⟨rows data, toList_render data, splitOn_render data, length_rows data, ?_⟩, read_render data, ?_⟩
  · intro n row hrow
    have hn : width * n < data.size := by
      rw [← lt_ceilDiv_iff, ← length_rows]
      exact (List.getElem?_eq_some_iff.1 hrow).1
    have hlength := length_chunk data n
    refine ⟨chunk data n, eq_columns_of_getElem? hrow ▸ shows_columns _ (length_chunk_le data n), chunk_eq data n,
      ?_, length_chunk_le data n, fun hnext => ?_⟩
    · rw [hlength, Nat.le_min]
      exact ⟨by decide, by omega⟩
    · rw [length_rows, lt_ceilDiv_iff, Nat.mul_succ] at hnext
      rw [hlength]
      exact Nat.min_eq_left (by omega)
  · intro other h
    rw [← Array.toList_inj, ← read_render data, ← read_render other, h]

/-- A bar among the characters is no closing bar. -/
example : render #[0x41, 0x7C, 0x0A] =
    "00000000: 41 7C 0A                                         |A|.|\n" := by
  decide +kernel

end HexDump

end Xmodem
