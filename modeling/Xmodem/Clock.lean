/-!
# Deadlines on a wrapping clock

The clock of a line counts microseconds in 32 bits and starts again at 0. An instant is compared
with another by the signed value of their difference, so a comparison is right across the wrap as
long as the two are less than 2^31 microseconds apart.
-/

namespace Xmodem

/-- What the clock shows when `elapsed` microseconds have passed since it showed 0. -/
def Clock.reading (elapsed : Nat) : UInt32 :=
  UInt32.ofNat elapsed

structure Deadline where
  instant : UInt32
  deriving DecidableEq, Repr

namespace Deadline

def after (now wait : UInt32) : Deadline :=
  ⟨now + wait⟩

/-- The clock has reached the deadline: `now` is not before it. The difference of the two, read as
a signed number, is not negative exactly if it is below 2^31. -/
def reached (d : Deadline) (now : UInt32) : Bool :=
  now - d.instant < 0x80000000

theorem reached_add (d : Deadline) (now shift : UInt32) :
    (Deadline.mk (d.instant + shift)).reached (now + shift) = d.reached now := by
  have same : now + shift - (d.instant + shift) = now - d.instant := by grind
  simp only [reached, same]

end Deadline

end Xmodem
