import Xmodem.CommandLine.Grammar
import Xmodem.CommandLine.Number

/-!
# The command line of the receiver

The program takes the options of the serial port, then the command `receive`, then the options of
the transfer. `Arguments.parse` reads the words that follow the program's name. The options of the
command are read and checked before the last option of the program is checked.
-/

namespace Xmodem.CommandLine

inductive PortOption where
  | port
  | baud
  | dataBits
  | parity
  | stopBits
  | debug
  | help
  deriving DecidableEq, Repr

inductive ReceiveOption where
  | output
  | capacity
  | retries
  | startTimeout
  | byteTimeout
  | hexdump
  | help
  deriving DecidableEq, Repr

/-- The serial port and its settings, not yet checked. -/
structure PortArguments where
  port : Option String := none
  baud : UInt32 := 115200
  dataBits : UInt8 := 8
  parity : String := "none"
  stopBits : UInt8 := 1
  debug : Bool := false
  deriving DecidableEq, Repr

/-- How a file is received and what becomes of it. -/
structure ReceiveArguments where
  /-- The file that the received bytes are written to. -/
  output : Option String := none
  capacity : Nat := 1048576
  retries : UInt32 := 10
  startTimeoutMs : UInt32 := 3000
  byteTimeoutMs : UInt32 := 250
  hexdump : Bool := false
  deriving DecidableEq, Repr

structure Arguments where
  port : String
  baud : UInt32
  dataBits : UInt8
  parity : String
  stopBits : UInt8
  debug : Bool
  receive : ReceiveArguments
  deriving DecidableEq, Repr

def receiveCommand : String := "receive"

/-- The longest timeout in milliseconds. A longer one has more than 2^31 - 1 microseconds, which a
deadline on the wrapping clock cannot express. -/
def maxTimeoutMs : Nat := 0x7FFFFFFF / 1000

namespace PortOption

def grammar : Grammar PortOption PortArguments where
  long
    | "port" => some port
    | "baud" => some baud
    | "data-bits" => some dataBits
    | "parity" => some parity
    | "stop-bits" => some stopBits
    | "debug" => some debug
    | "help" => some help
    | _ => none
  short
    | 'p' => some port
    | 'b' => some baud
    | 'h' => some help
    | _ => none
  takesValue
    | debug | help => false
    | _ => true
  name
    | port => "--port"
    | baud => "--baud"
    | dataBits => "--data-bits"
    | parity => "--parity"
    | stopBits => "--stop-bits"
    | debug => "--debug"
    | help => "--help"
  set option value a :=
    match option with
    | port => .ok { a with port := some value }
    | baud =>
      match within? 0 (UInt32.size - 1) value with
      | some n => .ok { a with baud := UInt32.ofNat n }
      | none => .error (.badValue "--baud" value)
    | dataBits =>
      match within? 0 (UInt8.size - 1) value with
      | some n => .ok { a with dataBits := UInt8.ofNat n }
      | none => .error (.badValue "--data-bits" value)
    | parity => .ok { a with parity := value }
    | stopBits =>
      match within? 0 (UInt8.size - 1) value with
      | some n => .ok { a with stopBits := UInt8.ofNat n }
      | none => .error (.badValue "--stop-bits" value)
    | debug => .ok { a with debug := true }
    | help => .error (.help none)

end PortOption

namespace ReceiveOption

def grammar : Grammar ReceiveOption ReceiveArguments where
  long
    | "output" => some output
    | "capacity" => some capacity
    | "retries" => some retries
    | "start-timeout-ms" => some startTimeout
    | "byte-timeout-ms" => some byteTimeout
    | "hexdump" => some hexdump
    | "help" => some help
    | _ => none
  short
    | 'o' => some output
    | 'c' => some capacity
    | 'h' => some help
    | _ => none
  takesValue
    | hexdump | help => false
    | _ => true
  name
    | output => "--output"
    | capacity => "--capacity"
    | retries => "--retries"
    | startTimeout => "--start-timeout-ms"
    | byteTimeout => "--byte-timeout-ms"
    | hexdump => "--hexdump"
    | help => "--help"
  set option value a :=
    match option with
    | output =>
      if value.isEmpty then .error (.noValue "--output")
      else .ok { a with output := some value }
    | capacity =>
      match natural? value with
      | some n =>
        if n < UInt64.size then .ok { a with capacity := n }
        else .error (.badValue "--capacity" value)
      | none => .error (.badValue "--capacity" value)
    | retries =>
      match within? 0 (UInt32.size - 1) value with
      | some n => .ok { a with retries := UInt32.ofNat n }
      | none => .error (.badValue "--retries" value)
    | startTimeout =>
      match within? 1 maxTimeoutMs value with
      | some n => .ok { a with startTimeoutMs := UInt32.ofNat n }
      | none => .error (.badValue "--start-timeout-ms" value)
    | byteTimeout =>
      match within? 1 maxTimeoutMs value with
      | some n => .ok { a with byteTimeoutMs := UInt32.ofNat n }
      | none => .error (.badValue "--byte-timeout-ms" value)
    | hexdump => .ok { a with hexdump := true }
    | help => .error (.help (some receiveCommand))

def parse (words : List String) : Except UsageError ReceiveArguments := do
  let level ← grammar.scan (fun _ => false) (fun _ word => .surplus word) false ⟨{}, [], none⟩ words
  return (← grammar.settle level.reading).record

end ReceiveOption

def strayWord (ended : Bool) (word : String) : UsageError :=
  if ended ∧ word = receiveCommand then .surplus word else .unknownCommand word

def Arguments.parse (words : List String) : Except UsageError Arguments := do
  let level ← PortOption.grammar.scan (· = receiveCommand) strayWord false ⟨{}, [], none⟩ words
  let receive ← level.command.mapM ReceiveOption.parse
  let reading ← PortOption.grammar.settle level.reading
  match receive, reading.record.port with
  | none, _ => throw (if reading.given.isEmpty then .nothing else .noCommand)
  | some _, none => throw (.missing "--port")
  | some receive, some port =>
    let { baud, dataBits, parity, stopBits, debug, .. } := reading.record
    return { port, baud, dataBits, parity, stopBits, debug, receive }

end Xmodem.CommandLine
