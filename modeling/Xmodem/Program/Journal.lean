import Xmodem.Program
import Xmodem.Serial.Journal

/-!
# Journals of a host

What a program does with its host, each deed with what came of it. `Host.journaled` is the host with a
journal of the deeds beside its environment.
-/

namespace Xmodem

open Serial

inductive Deed where
  | logOpened (level : Level)
  | logged (entry : LogEntry)
  | opened (settings : Settings) (result : Except PortError Unit)
  /-- The open port was used, or the stopwatch beside it was read. -/
  | used (use : Use)
  | saved (path : String) (bytes : Array UInt8) (result : Except IoError Unit)
  | printed (text : String)
  | printedError (text : String)

namespace Deed

def opened? : Deed → Option (Settings × Except PortError Unit)
  | opened settings result => some (settings, result)
  | _ => none

def used? : Deed → Option Use
  | used use => some use
  | _ => none

def saved? : Deed → Option (String × Array UInt8 × Except IoError Unit)
  | saved path bytes result => some (path, bytes, result)
  | _ => none

def printed? : Deed → Option String
  | printed text => some text
  | _ => none

def printedError? : Deed → Option String
  | printedError text => some text
  | _ => none

end Deed

def Host.journaled {τ : Type} (host : Host (StateM τ)) : Host (StateM (τ × List Deed)) where
  openPort settings := do
    let result ← noting (host.openPort settings) fun result => [.opened settings (result.map fun _ => ())]
    return result.map fun port => port.journaled .used
  stopwatch := do
    let elapsed ← noting host.stopwatch fun _ => []
    return noting elapsed fun elapsed => [.used (.timed elapsed)]
  save path bytes := noting (host.save path bytes) fun result => [.saved path bytes result]
  print text := noting (host.print text) fun _ => [.printed text]
  printError text := noting (host.printError text) fun _ => [.printedError text]
  openLog level := noting (host.openLog level) fun _ => [.logOpened level]
  log entry := noting (host.log entry) fun _ => [.logged entry]

end Xmodem
