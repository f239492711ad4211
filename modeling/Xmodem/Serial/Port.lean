import Xmodem.Line

/-!
# A line over a serial port

A serial port can tell how many bytes are waiting, read one, and take one for sending. Polling it
reads only when a byte is announced, and a read that comes back without one finds nothing. Sending
a byte repeats a write that was interrupted and then waits until the byte has left.
-/

namespace Xmodem.Serial

/-- The class of an error of the port itself, as opposed to one of a read or a write. -/
inductive PortError.Kind where
  | noDevice
  | invalidInput
  | unknown
  | io (kind : IoError.Kind)
  deriving DecidableEq, Repr

structure PortError where
  kind : PortError.Kind
  message : String
  deriving DecidableEq, Repr

/-- The I/O error that stands for an error of the port. -/
def PortError.toIoError (e : PortError) : IoError where
  kind := match e.kind with
    | .noDevice => .notFound
    | .invalidInput => .invalidInput
    | .unknown => .other
    | .io kind => kind
  message := e.message

/-- An open serial port, in a monad of effects. -/
structure Port (m : Type → Type) where
  waiting : m (Except PortError Nat)
  /-- Reads a byte; there may be none. -/
  read : m Polled
  /-- Takes a byte for sending, and tells whether it did. -/
  write : UInt8 → m (Except IoError Bool)
  /-- Waits until all that was taken has been sent. -/
  flush : m (Except IoError Unit)

namespace Port

variable {m : Type → Type} [Monad m]

/-- Finds a byte if one is waiting. A read that times out finds nothing. -/
def poll (port : Port m) : m Polled := do
  match ← port.waiting with
  | .error e => return .error e.toIoError
  | .ok 0 => return .ok none
  | .ok _ =>
    match ← port.read with
    | .ok byte => return .ok byte
    | .error e => return if e.kind = .timedOut then .ok none else .error e

def nothingTaken : IoError :=
  ⟨.writeZero, "failed to write whole buffer"⟩

/-- Writes a byte, again and again while the writes are interrupted; `none` if that happens `fuel`
times. -/
def put (port : Port m) (byte : UInt8) : Nat → m (Option (Except IoError Unit))
  | 0 => return none
  | fuel + 1 => do
    match ← port.write byte with
    | .ok true => return some (.ok ())
    | .ok false => return some (.error nothingTaken)
    | .error e => if e.kind = .interrupted then port.put byte fuel else return some (.error e)

/-- Writes a byte and waits until it has been sent. -/
def send (port : Port m) (byte : UInt8) (fuel : Nat) : m (Option (Except IoError Unit)) := do
  match ← port.put byte fuel with
  | some (.ok _) => return some (← port.flush)
  | result => return result

/-- The port as a line. What does not finish within `fuel` repetitions has no result. -/
def line (port : Port m) (clock : m UInt32) (report : Message → m Unit) (fuel : Nat) :
    Line (OptionT m) where
  poll := .lift port.poll
  write byte := .mk (port.send byte fuel)
  clock := .lift clock
  report message := .lift (report message)

end Port

end Xmodem.Serial
