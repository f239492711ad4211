import Xmodem.Hex

/-!
# Hex dumps

A dump shows 16 bytes a line: the offset of the first one, the bytes in hexadecimal, and between
bars the characters that they stand for. A last line with fewer bytes is filled up with blanks, so
that the characters stand in the same column on every line.
-/

namespace Xmodem.HexDump

def width : Nat := 16

def areaWidth : Nat := 3 * width

/-- The character that stands for a byte: itself if it is visible ASCII, and a dot otherwise. -/
def glyph (b : UInt8) : Char :=
  if 0x21 ≤ b ∧ b ≤ 0x7E then Char.ofNat b.toNat else '.'

def cell (b : UInt8) : List Char :=
  ' ' :: Hex.byte b

def area (chunk : List UInt8) : List Char :=
  (chunk.flatMap cell).rightpad areaWidth ' '

theorem length_cells (chunk : List UInt8) : (chunk.flatMap cell).length = 3 * chunk.length := by
  induction chunk with
  | nil => rfl
  | cons b chunk ih =>
    rw [List.flatMap_cons, List.length_append, ih, List.length_cons]
    simp only [cell, List.length_cons, Hex.length_byte]
    omega

theorem length_area {chunk : List UInt8} (h : chunk.length ≤ width) :
    (area chunk).length = areaWidth := by
  rw [area, List.length_rightpad, length_cells, areaWidth]
  omega

/-- The line that shows `chunk`, which lies at `offset`. -/
def line (offset : Nat) (chunk : List UInt8) : List Char :=
  Hex.padded 8 offset ++ [':'] ++ area chunk ++ [' ', ' ', '|'] ++ chunk.map glyph ++ ['|', '\n']

def chunk (data : Array UInt8) (n : Nat) : List UInt8 :=
  (data.extract (width * n) (width * (n + 1))).toList

def lines (data : Array UInt8) : List (List Char) :=
  (List.range ((data.size + width - 1) / width)).map fun n => line (width * n) (chunk data n)

def render (data : Array UInt8) : String :=
  String.join ((lines data).map String.ofList)

end Xmodem.HexDump
