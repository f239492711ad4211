import Xmodem.Bench.Burst
import Xmodem.Line

/-!
# A scripted line

A line whose sender follows a script and whose clock moves only as the script and the polls say,
so that every session over it can be repeated exactly. It counts what is asked of it and keeps a
trace of the bytes written to it and of the messages reported to it.
-/

namespace Xmodem.Bench

inductive Cue where
  /-- Nothing, for longer than any wait: one poll finds no byte, and ten seconds have passed. -/
  | silence
  /-- Nothing, for so many more microseconds of polling. -/
  | gap (left : Nat)
  /-- Nothing, until so many bytes have been written to the line in all. -/
  | await (writes : Nat)
  | fault (error : IoError)
  | bytes (burst : Burst)
  deriving Repr

inductive Encounter where
  | byte (value : UInt8)
  /-- No byte, while so many microseconds pass. -/
  | quiet (usecs : Nat)
  /-- No byte, and nothing in the script says how long that takes. -/
  | idle
  | fault (error : IoError)

def silenceUsecs : Nat := 10000000

/-- What a poll meets when `written` bytes have been written to the line, with the script that is
left. A poll in a gap takes `gapStep` microseconds at most. -/
def Cue.poll (written gapStep : Nat) : List Cue → Encounter × List Cue
  | [] => (.idle, [])
  | .silence :: rest => (.quiet silenceUsecs, rest)
  | .gap 0 :: rest => poll written gapStep rest
  | .gap left :: rest =>
    let step := min left gapStep
    (.quiet step, .gap (left - step) :: rest)
  | .await writes :: rest =>
    if writes ≤ written then poll written gapStep rest else (.idle, .await writes :: rest)
  | .fault error :: rest => (.fault error, rest)
  | .bytes burst :: rest =>
    match burst.next? with
    | none => poll written gapStep rest
    | some (byte, burst) => (.byte byte, .bytes burst :: rest)

/-- A write that fails, given by its position among all writes; a sticky fault also fails all the
writes behind it. -/
structure WriteFault where
  position : Nat
  error : IoError
  sticky : Bool := false
  deriving Repr

def WriteFault.applies (f : WriteFault) (position : Nat) : Bool :=
  f.position = position || (f.sticky && f.position < position)

inductive TraceEvent where
  /-- A byte was written, or was not, while the clock showed `clock`. -/
  | write (byte : UInt8) (clock : UInt32) (succeeded : Bool)
  | report (message : Message)

/-- The line with its script, its clock and its counts. Steps of the clock are in microseconds. -/
structure ScriptedLine where
  script : List Cue := []
  now : UInt32 := 0
  /-- Passes after each reading of the clock. -/
  tick : Nat := 0
  /-- Passes in a poll that finds nothing where the script does not say how long that takes. -/
  idleStep : Nat := 100000
  /-- Passes at most in a poll inside a gap. -/
  gapStep : Nat := 10000
  byteStep : Nat := 0
  maxPolls : Nat := 100000
  writeFaults : List WriteFault := []
  readings : Nat := 0
  polls : Nat := 0
  delivered : Nat := 0
  attempted : Nat := 0
  written : Nat := 0
  trace : Array TraceEvent := #[]

namespace ScriptedLine

def pollLimit : IoError :=
  ⟨.other, "poll limit"⟩

def pass (line : ScriptedLine) (usecs : Nat) : ScriptedLine :=
  { line with now := line.now + UInt32.ofNat usecs }

def poll (line : ScriptedLine) : Polled × ScriptedLine :=
  let line := { line with polls := line.polls + 1 }
  if line.maxPolls < line.polls then (.error pollLimit, line)
  else
    let (met, script) := Cue.poll line.written line.gapStep line.script
    let line := { line with script }
    match met with
    | .byte value =>
      (.ok (some value), { line with delivered := line.delivered + 1 }.pass line.byteStep)
    | .quiet usecs => (.ok none, line.pass usecs)
    | .idle => (.ok none, line.pass line.idleStep)
    | .fault error => (.error error, line)

def write (byte : UInt8) (line : ScriptedLine) : Except IoError Unit × ScriptedLine :=
  let fault := line.writeFaults.find? (·.applies line.attempted)
  let trace := line.trace.push (.write byte line.now fault.isNone)
  let line := { line with trace, attempted := line.attempted + 1 }
  match fault with
  | some fault => (.error fault.error, line)
  | none => (.ok (), { line with written := line.written + 1 })

def clock (line : ScriptedLine) : UInt32 × ScriptedLine :=
  (line.now, { line with readings := line.readings + 1 }.pass line.tick)

def report (message : Message) (line : ScriptedLine) : Unit × ScriptedLine :=
  ((), { line with trace := line.trace.push (.report message) })

def line : Line (StateM ScriptedLine) where
  poll := poll
  write := write
  clock := clock
  report := report

/-- Questions enough for any procedure to come to an end: between two polls there are a few
questions at most, and once a poll has failed a few more. -/
def fuel (line : ScriptedLine) : Nat :=
  8 * (line.maxPolls + 2)

end ScriptedLine

end Xmodem.Bench
