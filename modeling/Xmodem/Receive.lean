import Xmodem.Receiver

/-!
# The receiver's entry point

`Line.receive` receives one file into a buffer. It refuses a capacity that is zero or larger than
the buffer; otherwise it flushes the line, asks for the first block and goes on as a `Session`
says.
-/

namespace Xmodem

/-- Why a receiver does not start. -/
inductive Refusal where
  | noCapacity
  | beyondBuffer (capacity size : Nat)
  deriving DecidableEq, Repr

def Refusal.message : Refusal → String
  | noCapacity => "receive buffer capacity must be non-zero"
  | beyondBuffer capacity size => s!"capacity {capacity} exceeds buffer length {size}"

/-- A receiver that is about to flush the line for its first attempt. -/
def Receiver.start (config : Config) (capacity : Nat) (buffer : Array UInt8) : Receiver :=
  ⟨{ config, capacity, buffer }, .flushing .retry (.start config.flushIdle)⟩

/-- A receiver for the first `capacity` bytes of `buffer`. -/
def Receiver.start? (config : Config) (capacity : Nat) (buffer : Array UInt8) :
    Except Refusal Receiver :=
  if capacity = 0 then .error .noCapacity
  else if buffer.size < capacity then .error (.beyondBuffer capacity buffer.size)
  else .ok (.start config capacity buffer)

/-- Receives one file into the first `capacity` bytes of `buffer`. -/
def Line.receive {m : Type → Type} [Monad m] (line : Line m) (config : Config) (capacity : Nat)
    (buffer : Array UInt8) (fuel : Nat) : m (Except Refusal (Progress Receiver Outcome)) :=
  match Receiver.start? config capacity buffer with
  | .error refusal => return .error refusal
  | .ok receiver => return .ok (← line.run Receiver.ask fuel receiver)

end Xmodem
