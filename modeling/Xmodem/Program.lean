import Xmodem.CommandLine.Arguments
import Xmodem.CommandLine.Help
import Xmodem.HexDump
import Xmodem.Output
import Xmodem.Receive
import Xmodem.Serial.Port
import Xmodem.Serial.Settings

/-!
# The program

`Program.run` is the whole program over a `Host`, which stands for all that lies outside of it:
serial ports, time, files, the two output streams and the log. It checks the settings of the port,
opens the port, receives a file, writes it to the output file if there is one, prints a hex dump
if one is wanted, and says how much it received. The first of these that fails ends the program.
-/

namespace Xmodem

open CommandLine Serial

/-- What the program uses of the system it runs on, in a monad of effects. -/
structure Host (m : Type → Type) where
  openPort : Settings → m (Except PortError (Port m))
  /-- Starts a stopwatch; the action that it gives tells the microseconds since. -/
  stopwatch : m (m Nat)
  save : String → Array UInt8 → m (Except IoError Unit)
  print : String → m Unit
  printError : String → m Unit
  /-- Opens the log for entries at a level and above. -/
  openLog : Level → m Unit
  log : LogEntry → m Unit

/-- Why the program fails after it has understood its command line. -/
inductive Failure where
  | setting (error : SettingError)
  | unopened (error : PortError)
  | noCapacity
  | transfer (error : TransferError)
  | output (error : OutputError)
  /-- A buffer is wanted that is larger than anything can be in memory. -/
  | tooLarge
  /-- A transfer went through more attempts than can be counted. -/
  | exhausted
  deriving DecidableEq, Repr

namespace Failure

def message : Failure → String
  | setting error => "Error: " ++ error.message
  | unopened error => "Failed to open serial port: " ++ error.message
  | noCapacity => "Error: capacity must be at least 1 byte"
  | transfer error => "Receive failed: " ++ error.message
  | output error => "Error: " ++ error.message
  | tooLarge => "capacity overflow"
  | exhausted => "attempt to add with overflow"

def exitCode : Failure → UInt32
  | tooLarge | exhausted => 101
  | _ => 1

end Failure

namespace Program

/-- The settings of the port, if all of them are such as a port has. -/
def portSettings (args : Arguments) : Except SettingError Settings := do
  let dataBits ← DataBits.ofCount args.dataBits
  let parity ← Parity.ofWord args.parity
  let stopBits ← StopBits.ofCount args.stopBits
  return { port := args.port, baud := args.baud, dataBits, parity, stopBits }

def config (args : ReceiveArguments) : Config :=
  .ofMillis args.retries args.startTimeoutMs args.byteTimeoutMs

def logLevel (args : Arguments) : Level :=
  if args.debug then .debug else .info

def opening (s : Settings) : List LogEntry :=
  let baud := s.baud
  [⟨.info, "Opening serial port: " ++ s.port⟩,
    ⟨.info, s!"Settings: {baud} baud, " ++ s.dataBits.name ++ ", " ++ s.parity.name ++ ", "
      ++ s.stopBits.name⟩]

def maxCapacity : Nat := 0x7FFFFFFFFFFFFFFF

def waiting (capacity : Nat) : String :=
  s!"\nWaiting for sender (up to {capacity} bytes)...\n"

def received (length : Nat) : String :=
  s!"\nReceived {length} bytes\n"

variable {m : Type → Type} [Monad m]

/-- Receives a file from an open port, within `fuel` steps. The buffer grows as it is filled, so a
large capacity takes no memory before it is used. -/
def receive (host : Host m) (level : Level) (args : ReceiveArguments) (port : Port m)
    (fuel : Nat) : OptionT m (Except Failure (Array UInt8)) := do
  let elapsed ← OptionT.lift host.stopwatch
  let report (message : Message) :=
    if level.admits message.level then host.log message.entry else pure ()
  let line := port.line (Clock.reading <$> elapsed) report fuel
  match ← line.run Receiver.ask fuel (.start (config args) args.capacity #[]) with
  | .going _ => failure
  | .ended ⟨.received length, buffer⟩ => return .ok (buffer.extract 0 length)
  | .ended ⟨.failed error, _⟩ => return .error (.transfer error)
  | .ended ⟨.exhausted, _⟩ => return .error .exhausted

/-- Writes data to the output file, if there is one. -/
def save (host : Host m) (output : Option String) (data : Array UInt8) : m (Except OutputError Unit) :=
  match output with
  | none => return .ok ()
  | some path => saveOutput host.save host.log path data

/-- Saves what was received and prints a dump of it if one is wanted; gives the number of bytes. -/
def keep (host : Host m) (args : ReceiveArguments) (data : Array UInt8) : m (Except Failure Nat) := do
  match ← save host args.output data with
  | .error error => return .error (.output error)
  | .ok _ =>
    if args.hexdump then
      host.print (HexDump.render data)
    return .ok data.size

/-- Receives a file and keeps it; gives the number of bytes. -/
def receiveFile (host : Host m) (level : Level) (args : ReceiveArguments) (port : Port m) (fuel : Nat) :
    OptionT m (Except Failure Nat) := do
  match ← receive host level args port fuel with
  | .error failure => return .error failure
  | .ok data => OptionT.lift (keep host args data)

/-- Does what the command line asks for; gives the number of bytes received. -/
def perform (host : Host m) (args : Arguments) (fuel : Nat) : OptionT m (Except Failure Nat) := do
  match portSettings args with
  | .error error => return .error (.setting error)
  | .ok settings =>
    (opening settings).forM fun entry => OptionT.lift (host.log entry)
    match ← OptionT.lift (host.openPort settings) with
    | .error error => return .error (.unopened error)
    | .ok port =>
      if args.receive.capacity = 0 then
        return .error .noCapacity
      OptionT.lift (host.print (waiting args.receive.capacity))
      if maxCapacity < args.receive.capacity then
        return .error .tooLarge
      receiveFile host (logLevel args) args.receive port fuel

/-- Runs the program on the words of its command line and gives its exit code. There is none if
the transfer has not come to an end within `fuel` steps. -/
def run (host : Host m) (words : List String) (fuel : Nat) : OptionT m UInt32 := do
  match Arguments.parse words with
  | .error (.help command) =>
    OptionT.lift (host.print (helpText command))
    return 0
  | .error .nothing =>
    OptionT.lift (host.printError (helpText none))
    return 2
  | .error error =>
    OptionT.lift (host.printError (error.message ++ "\n"))
    return 2
  | .ok args =>
    OptionT.lift (host.openLog (logLevel args))
    match ← perform host args fuel with
    | .ok length =>
      OptionT.lift (host.print (received length))
      return 0
    | .error failure =>
      OptionT.lift (host.printError (failure.message ++ "\n"))
      return failure.exitCode

end Program

end Xmodem
