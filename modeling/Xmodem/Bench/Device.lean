import Xmodem.Bench.Burst
import Xmodem.Serial.Port
import Xmodem.Serial.Settings

/-!
# A simulated serial device

A device with a queue of events on the receiving side, which the bytes sent to it can add to. Time
passes only in polls that find nothing. The device counts the calls that are made on it and keeps
the bytes that it took.
-/

namespace Xmodem.Bench

open Serial

/-- What a device has in store for its reader. -/
inductive Event where
  | bytes (burst : Burst)
  /-- Nothing, for so many more microseconds of polling. -/
  | gap (left : Nat)
  /-- A byte is announced, but reading finds none. -/
  | empty
  /-- A poll that fails; a sticky one fails again and again. -/
  | pollFault (error : PortError) (sticky : Bool)
  /-- A byte is announced, but reading fails. -/
  | readFault (error : IoError)
  deriving Repr

/-- How sending a byte goes wrong. -/
inductive SendFault.Stage where
  /-- The write takes nothing. -/
  | untaken
  /-- The write fails. -/
  | write (error : IoError)
  /-- The byte is taken, but the flush after it fails. -/
  | flush (error : IoError)
  deriving Repr

/-- A fault of the calls on the sending side, given by their position among all of one kind; a
sticky fault also strikes all calls behind it. -/
structure SendFault where
  position : Nat
  stage : SendFault.Stage
  sticky : Bool := false
  deriving Repr

def SendFault.applies (f : SendFault) (position : Nat) : Bool :=
  f.position = position || (f.sticky && f.position < position)

structure Device where
  queue : List Event := []
  /-- The events that follow each byte taken, first byte first. -/
  replies : List (List Event) := []
  sendFaults : List SendFault := []
  openFault : Option PortError := none
  /-- Microseconds on the time base of the device. -/
  time : Nat := 0
  /-- Microseconds that pass in a poll that finds nothing. -/
  idleStep : Nat := 1000
  polls : Nat := 0
  reads : Nat := 0
  writes : Nat := 0
  flushes : Nat := 0
  /-- The bytes taken. -/
  control : Array UInt8 := #[]
  /-- What the device was opened with. -/
  opened : Option Settings := none

namespace Device

/-- The name of the one device there is. -/
def portName : String := "@PORT"

def maxPolls : Nat := 200000

/-- The queue without the events at its head that are over. -/
def skipSpent : List Event → List Event
  | .gap 0 :: rest => skipSpent rest
  | .bytes burst :: rest => if burst.left = 0 then skipSpent rest else .bytes burst :: rest
  | queue => queue

def waiting (d : Device) : Except PortError Nat × Device :=
  let d := { d with polls := d.polls + 1 }
  if maxPolls < d.polls then (.error ⟨.unknown, "poll limit"⟩, d)
  else
    match skipSpent d.queue with
    | [] => (.ok 0, { d with queue := [], time := d.time + d.idleStep })
    | .gap left :: rest =>
      let step := min left d.idleStep
      (.ok 0, { d with queue := .gap (left - step) :: rest, time := d.time + step })
    | .pollFault error sticky :: rest =>
      (.error error, { d with queue := if sticky then .pollFault error sticky :: rest else rest })
    | .bytes burst :: rest => (.ok burst.left, { d with queue := .bytes burst :: rest })
    | queue => (.ok 1, { d with queue })

def read (d : Device) : Polled × Device :=
  let d := { d with reads := d.reads + 1 }
  match d.queue with
  | .bytes burst :: rest =>
    match burst.next? with
    | some (byte, burst) => (.ok (some byte), { d with queue := .bytes burst :: rest })
    | none => (.ok none, d)
  | .empty :: rest => (.ok none, { d with queue := rest })
  | .readFault error :: rest => (.error error, { d with queue := rest })
  | _ => (.ok none, d)

/-- Takes a byte, which may have a reply. -/
def take (d : Device) (byte : UInt8) : Device :=
  let control := d.control.push byte
  match d.replies with
  | [] => { d with control }
  | reply :: replies => { d with control, replies, queue := d.queue ++ reply }

def write (byte : UInt8) (d : Device) : Except IoError Bool × Device :=
  let faults := (d.sendFaults.filter (·.applies d.writes)).map (·.stage)
  let d := { d with writes := d.writes + 1 }
  if faults.any fun | .untaken => true | _ => false then (.ok false, d)
  else
    match faults.findSome? fun | .write error => some error | _ => none with
    | some error => (.error error, d)
    | none => (.ok true, d.take byte)

def flush (d : Device) : Except IoError Unit × Device :=
  let faults := (d.sendFaults.filter (·.applies d.flushes)).map (·.stage)
  let d := { d with flushes := d.flushes + 1 }
  match faults.findSome? fun | .flush error => some error | _ => none with
  | some error => (.error error, d)
  | none => (.ok (), d)

/-- The device as an open port. -/
def port : Port (StateM Device) where
  waiting := waiting
  read := read
  write := write
  flush := flush

/-- What is missing where no device has the name that is asked for. -/
def absent : PortError :=
  ⟨.io .notFound, "No such file or directory"⟩

/-- Opens the port that the settings name. -/
def openWith (settings : Settings) (d : Device) : Except PortError Unit × Device :=
  if settings.port ≠ portName then (.error absent, d)
  else
    match d.openFault with
    | some error => (.error error, d)
    | none => (.ok (), { d with opened := some settings })

/-- Repetitions enough for any transfer over the device to come to an end, unless the device
interrupts a write for ever. -/
def fuel (d : Device) : Nat :=
  8 * (maxPolls + d.sendFaults.length + 2)

end Device

end Xmodem.Bench
