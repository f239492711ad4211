/-!
# Bursts of bytes

A run of bytes that a simulated sender has on the wire: a pattern that repeats a number of times,
of which the first few bytes have been taken.
-/

namespace Xmodem.Bench

structure Burst where
  pattern : Array UInt8
  times : Nat := 1
  taken : Nat := 0
  deriving Repr

namespace Burst

/-- How many bytes are left. -/
def left (b : Burst) : Nat :=
  b.pattern.size * b.times - b.taken

/-- The next byte, and what is left without it. -/
def next? (b : Burst) : Option (UInt8 × Burst) :=
  if b.left = 0 then none
  else do
    let byte ← b.pattern[b.taken % b.pattern.size]?
    return (byte, { b with taken := b.taken + 1 })

end Burst

end Xmodem.Bench
