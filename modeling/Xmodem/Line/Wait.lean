import Xmodem.Clock
import Xmodem.Line

/-!
# Waiting for a byte

There is nothing to sleep on, so a wait polls the line until a byte comes or the clock reaches a
deadline. The clock is read once to set the deadline and once after each poll that found nothing;
a byte that is found is taken without a look at the clock, so a wait of no time still polls once.
-/

namespace Xmodem

inductive Wait where
  /-- About to set the deadline `window` microseconds ahead. -/
  | arming (window : UInt32)
  | listening (deadline : Deadline)
  /-- About to look at the clock, since the last poll found nothing. -/
  | checking (deadline : Deadline)
  deriving DecidableEq, Repr

/-- The next question of a wait. It is over with a byte, with nothing once the deadline has been
reached, or with the error of a poll. -/
def Wait.ask : Wait → Ask (Progress Wait Polled)
  | arming window => .clock fun now => .going (listening (.after now window))
  | listening deadline => .poll fun
    | .error e => .ended (.error e)
    | .ok (some byte) => .ended (.ok (some byte))
    | .ok none => .going (checking deadline)
  | checking deadline => .clock fun now =>
    if deadline.reached now then .ended (.ok none) else .going (listening deadline)

/-- Waits for a byte, at most `window` microseconds. -/
def Line.readWithin {m : Type → Type} [Monad m] (line : Line m) (window : UInt32) (fuel : Nat) :
    m (Progress Wait Polled) :=
  line.run (fun wait => wait.ask.map (⟨[], ·⟩)) fuel (.arming window)

end Xmodem
