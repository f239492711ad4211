import Xmodem.Program

/-!
# The program on a real system

A host on top of the operating system, and `main`. A serial device is a file that is read and
written. The device keeps the speed and the character format that it was set to beforehand, and it
has to be set so that a read without input comes back after a while with nothing
(`stty raw min 0 time 1`).
-/

namespace Xmodem.System

open Serial

def describe : IO.Error → String
  | .alreadyExists _ code text | .interrupted _ code text | .noFileOrDirectory _ code text
  | .invalidArgument _ code text | .permissionDenied _ code text | .resourceExhausted _ code text
  | .inappropriateType _ code text | .noSuchThing _ code text | .otherError code text
  | .resourceBusy code text | .resourceVanished code text | .unsupportedOperation code text
  | .hardwareFault code text | .unsatisfiedConstraints code text | .illegalOperation code text
  | .protocolError code text | .timeExpired code text => text ++ s!" (os error {code})"
  | .unexpectedEof => "unexpected end of file"
  | .userError text => text

def kind : IO.Error → IoError.Kind
  | .noFileOrDirectory .. | .noSuchThing .. => .notFound
  | .permissionDenied .. => .permissionDenied
  | .resourceVanished .. => .brokenPipe
  | .timeExpired .. => .timedOut
  | .interrupted .. => .interrupted
  | .invalidArgument .. => .invalidInput
  | .unexpectedEof => .unexpectedEof
  | _ => .other

/-- Carries an action out and keeps its error as a value. -/
def attempt {α : Type} (action : IO α) : BaseIO (Except IoError α) := do
  return (← action.toBaseIO).mapError fun e => ⟨kind e, describe e⟩

def PortError.ofIoError (e : IoError) : PortError :=
  ⟨.io e.kind, e.message⟩

/-- An open device. A byte is announced by reading it, so it is kept until it is asked for. -/
def portOver (device : IO.FS.Handle) (ahead : IO.Ref (Option UInt8)) : Port IO where
  waiting := do
    if (← ahead.get).isSome then return .ok 1
    match ← attempt (device.read 1) with
    | .error e => return .error (PortError.ofIoError e)
    | .ok bytes =>
      ahead.set bytes.data[0]?
      return .ok bytes.size
  read := return .ok (← ahead.swap none)
  write byte := return (← attempt (device.write (ByteArray.mk #[byte]))).map fun _ => true
  flush := attempt device.flush

def openPort (settings : Settings) : IO (Except PortError (Port IO)) := do
  match ← attempt (IO.FS.Handle.mk settings.port .readWrite) with
  | .error e => return .error (PortError.ofIoError e)
  | .ok device => return .ok (portOver device (← IO.mkRef none))

def host : Host IO where
  openPort := openPort
  stopwatch := do
    let start ← IO.monoNanosNow
    return (return ((← IO.monoNanosNow) - start) / 1000)
  save path bytes := attempt (IO.FS.writeBinFile path (ByteArray.mk bytes))
  print text := do
    IO.print text
    (← IO.getStdout).flush
  printError text := IO.eprint text
  openLog _ := pure ()
  log entry := IO.eprintln ("[" ++ entry.level.name ++ "] " ++ entry.text)

def fuel : Nat := 0x4000000000000000

end Xmodem.System

def main (args : List String) : IO UInt32 := do
  let exitCode ← (Xmodem.Program.run Xmodem.System.host args Xmodem.System.fuel).run
  return exitCode.getD 1
