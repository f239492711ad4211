import Xmodem.Line.Wait

/-!
# Flushing a line

A flush takes bytes from the line and throws them away until none has come for a while. Each byte
starts the wait for the next one anew.
-/

namespace Xmodem

/-- A flush at work: the idle time that ends it, the bytes thrown away so far, and the wait for
the next one. -/
structure Drain where
  window : UInt32
  discarded : Nat
  wait : Wait
  deriving DecidableEq, Repr

namespace Drain

def start (window : UInt32) : Drain :=
  ⟨window, 0, .arming window⟩

def summary (d : Drain) : List Message :=
  if 0 < d.discarded then [.flushed d.discarded] else []

/-- The next question of a flush. It is over with the number of bytes thrown away, or with the
error of a poll. -/
def ask (d : Drain) : Ask (Turn Drain (Except IoError Nat)) :=
  d.wait.ask.map fun
    | .going wait => .going { d with wait }
    | .ended (.ok (some _)) => .going ⟨d.window, d.discarded + 1, .arming d.window⟩
    | .ended (.ok none) => ⟨d.summary, .ended (.ok d.discarded)⟩
    | .ended (.error e) => .ended (.error e)

end Drain

/-- Throws bytes away until the line has been idle for `window` microseconds. -/
def Line.flush {m : Type → Type} [Monad m] (line : Line m) (window : UInt32) (fuel : Nat) :
    m (Progress Drain (Except IoError Nat)) :=
  line.run Drain.ask fuel (.start window)

end Xmodem
