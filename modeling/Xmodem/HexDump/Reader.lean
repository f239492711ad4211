import Xmodem.HexDump

/-!
# Reading hex dumps

The bytes of a line are read from the area behind its colon, column by column; the characters
between the bars say less and are not looked at. A line gives back the bytes that it was written
for, whatever its offset and whatever stands behind the area (`HexDump.readLine_area`).
-/

namespace Xmodem.HexDump

def readArea : List Char → List UInt8
  | _ :: high :: low :: cs =>
    match Hex.byte? high low with
    | some b => b :: readArea cs
    | none => []
  | _ => []

def readLine (cs : List Char) : List UInt8 :=
  readArea (((cs.dropWhile (· ≠ ':')).drop 1).take areaWidth)

/-- The bytes that a dump shows, line by line. -/
def read (text : String) : List UInt8 :=
  (text.toList.splitOn '\n').flatMap readLine

theorem readArea_blank (n : Nat) : readArea (List.replicate n ' ') = [] := by
  match n with
  | 0 | 1 | 2 => rfl
  | n + 3 => rfl

theorem readArea_area (chunk : List UInt8) : readArea (area chunk) = chunk := by
  rw [area, List.rightpad]
  generalize areaWidth - _ = blanks
  induction chunk with
  | nil => exact readArea_blank blanks
  | cons b chunk ih =>
    have cells : (b :: chunk).flatMap cell ++ List.replicate blanks ' ' =
        ' ' :: Hex.digit (b.toNat / 16) :: Hex.digit (b.toNat % 16) ::
          (chunk.flatMap cell ++ List.replicate blanks ' ') := rfl
    rw [cells, readArea, Hex.byte?_digits]
    exact congrArg (b :: ·) ih

theorem colon_notMem_padded (digits offset : Nat) : ':' ∉ Hex.padded digits offset := by
  intro h
  obtain ⟨d, hd, hc⟩ := Hex.exists_digit_of_mem_padded h
  have all : ∀ d : Fin 16, ':' ≠ Hex.digit d := by decide
  exact all ⟨d, hd⟩ hc

theorem readLine_area (offset : Nat) {chunk : List UInt8} (rest : List Char) (h : chunk.length ≤ width) :
    readLine (Hex.padded 8 offset ++ ':' :: (area chunk ++ rest)) = chunk := by
  have offsetOnly : ∀ c ∈ Hex.padded 8 offset, decide (c ≠ ':') = true := fun c hc =>
    decide_eq_true fun e => colon_notMem_padded _ _ (e ▸ hc)
  simp only [readLine, List.dropWhile_append_of_pos offsetOnly]
  change readArea ((area chunk ++ rest).take areaWidth) = chunk
  rw [← length_area h, List.take_left, readArea_area]

end Xmodem.HexDump
