import Xmodem.Serial.Port

/-!
# Journals of a serial port

What is done with an open port: each operation, with its answer, and the readings of the stopwatch in
between. `Port.journaled` is the port with a journal beside its environment, in which each operation makes
an entry.
-/

namespace Xmodem

/-- The action, with a journal beside the environment, which it carries on with entries that depend on its
result. -/
def noting {τ δ α : Type} (action : StateM τ α) (entries : α → List δ) : StateM (τ × List δ) α
  | (env, journal) =>
    let (a, env') := action.run env
    (a, (env', journal ++ entries a))

namespace Serial

inductive Use where
  | announced (waiting : Except PortError Nat)
  | read (found : Polled)
  | wrote (byte : UInt8) (taken : Except IoError Bool)
  | flushed (result : Except IoError Unit)
  | timed (elapsed : Nat)

/-- The byte that the port handed over. -/
def Use.delivered? : Use → Option UInt8
  | read (.ok found) => found
  | _ => none

def Port.journaled {τ δ : Type} (port : Port (StateM τ)) (entry : Use → δ) : Port (StateM (τ × List δ)) where
  waiting := noting port.waiting fun waiting => [entry (.announced waiting)]
  read := noting port.read fun found => [entry (.read found)]
  write byte := noting (port.write byte) fun taken => [entry (.wrote byte taken)]
  flush := noting port.flush fun result => [entry (.flushed result)]

end Serial

end Xmodem
