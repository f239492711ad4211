import Xmodem.Bench.Device
import Xmodem.Bench.FileTree
import Xmodem.Program

/-!
# A simulated workstation

A host for the program whose only serial port is a simulated device, whose files are a tree in
memory, and whose outputs and log can be looked at afterwards.
-/

namespace Xmodem.Bench

open Serial

structure Workstation where
  device : Device := {}
  files : FileTree := {}
  output : String := ""
  errorOutput : String := ""
  level : Option Level := none
  log : Array LogEntry := #[]

namespace Workstation

def onDevice {α : Type} (operation : StateM Device α) : StateM Workstation α := fun w =>
  let (result, device) := operation w.device
  (result, { w with device })

def port : Port (StateM Workstation) where
  waiting := onDevice Device.port.waiting
  read := onDevice Device.port.read
  write byte := onDevice (Device.port.write byte)
  flush := onDevice Device.port.flush

def host : Host (StateM Workstation) where
  openPort settings := do
    match ← onDevice (Device.openWith settings) with
    | .error e => return .error e
    | .ok _ => return .ok port
  stopwatch := return (return (← get).device.time)
  save path bytes := fun w =>
    let (result, files) := w.files.write path bytes
    (result, { w with files })
  print text := modify fun w => { w with output := w.output ++ text }
  printError text := modify fun w => { w with errorOutput := w.errorOutput ++ text }
  openLog level := modify fun w => { w with level := some level }
  log entry := modify fun w => { w with log := w.log.push entry }

def run (w : Workstation) (words : List String) : Option UInt32 × Workstation :=
  (Program.run host words w.device.fuel).run.run w

end Workstation

end Xmodem.Bench
