/-!
# Hexadecimal text

Upper-case hexadecimal digits: `Hex.byte` writes a byte with two of them, `Hex.padded` a number
with as many as it needs and at least as many as asked for. `Hex.byte?` reads the digits of a
byte, and gives back the byte that was written (`Hex.byte?_digits`).
-/

namespace Xmodem.Hex

/-! ### Digits -/

def digit (n : Nat) : Char :=
  (Nat.digitChar n).toUpper

def value? (c : Char) : Option Nat :=
  if '0' ≤ c ∧ c ≤ '9' then some (c.toNat - '0'.toNat)
  else if 'A' ≤ c ∧ c ≤ 'F' then some (c.toNat - 'A'.toNat + 10)
  else none

/-- The two digits of a byte, the high one first. -/
def byte (b : UInt8) : List Char :=
  [digit (b.toNat / 16), digit (b.toNat % 16)]

/-- The byte that two digits stand for. -/
def byte? (high low : Char) : Option UInt8 := do
  let h ← value? high
  let l ← value? low
  return UInt8.ofNat (16 * h + l)

/-- The digits of `n`, with zeros in front up to `width` of them. -/
def padded (width n : Nat) : List Char :=
  ((Nat.toDigits 16 n).map Char.toUpper).leftpad width '0'

/-! ### Reading what was written -/

theorem value?_digit {n : Nat} (h : n < 16) : value? (digit n) = some n := by
  have all : ∀ m : Fin 16, value? (digit m) = some m.val := by decide
  exact all ⟨n, h⟩

theorem byte?_digits (b : UInt8) :
    byte? (digit (b.toNat / 16)) (digit (b.toNat % 16)) = some b := by
  have hb := b.toNat_lt
  have sum : 16 * (b.toNat / 16) + b.toNat % 16 = b.toNat := by omega
  rw [byte?, value?_digit (by omega), value?_digit (by omega)]
  show some (UInt8.ofNat (16 * (b.toNat / 16) + b.toNat % 16)) = some b
  rw [sum, UInt8.ofNat_toNat]

@[simp] theorem length_byte (b : UInt8) : (byte b).length = 2 := rfl

theorem exists_digit_of_mem_toDigits {n : Nat} {c : Char} (h : c ∈ Nat.toDigits 16 n) :
    ∃ d < 16, c = Nat.digitChar d := by
  induction n using Nat.strongRecOn with
  | ind n ih =>
    rw [Nat.toDigits_eq_if (by decide)] at h
    split at h
    · exact ⟨n, by omega, by simpa using h⟩
    · rcases List.mem_append.1 h with h | h
      · exact ih (n / 16) (by omega) h
      · exact ⟨n % 16, by omega, by simpa using h⟩

theorem exists_digit_of_mem_padded {width n : Nat} {c : Char} (h : c ∈ padded width n) :
    ∃ d < 16, c = digit d := by
  rcases List.mem_append.1 h with h | h
  · exact ⟨0, by decide, List.eq_of_mem_replicate h⟩
  · obtain ⟨c, hc, rfl⟩ := List.mem_map.1 h
    obtain ⟨d, hd, rfl⟩ := exists_digit_of_mem_toDigits hc
    exact ⟨d, hd, rfl⟩

/-! ### In messages -/

/-- A byte as messages show it, `0x` and its two digits. -/
def literal (b : UInt8) : String :=
  "0x" ++ String.ofList (byte b)

end Xmodem.Hex
