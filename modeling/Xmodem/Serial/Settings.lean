/-!
# Settings of a serial port

How many data bits, which parity and how many stop bits a character has on the wire, the words
that a user gives for them, and all that a port is opened with.
-/

namespace Xmodem.Serial

inductive DataBits where
  | five
  | six
  | seven
  | eight
  deriving DecidableEq, Repr

inductive Parity where
  | none
  | odd
  | even
  deriving DecidableEq, Repr

inductive StopBits where
  | one
  | two
  deriving DecidableEq, Repr

inductive SettingError where
  | dataBits (given : UInt8)
  | parity (given : String)
  | stopBits (given : UInt8)
  deriving DecidableEq, Repr

def SettingError.message : SettingError → String
  | dataBits given => s!"Invalid data bits: {given}. Must be 5, 6, 7, or 8"
  | parity given => "Invalid parity: " ++ given ++ ". Must be 'none', 'odd', or 'even'"
  | stopBits given => s!"Invalid stop bits: {given}. Must be 1 or 2"

namespace DataBits

def ofCount : UInt8 → Except SettingError DataBits
  | 5 => .ok five
  | 6 => .ok six
  | 7 => .ok seven
  | 8 => .ok eight
  | given => .error (.dataBits given)

def name : DataBits → String
  | five => "Five"
  | six => "Six"
  | seven => "Seven"
  | eight => "Eight"

end DataBits

namespace Parity

/-- Reads a parity in any mixture of cases. No character beyond ASCII has a lower case that occurs
in these words, so folding the ASCII letters is enough. -/
def ofWord (word : String) : Except SettingError Parity :=
  match word.map Char.toLower with
  | "none" => .ok none
  | "odd" => .ok odd
  | "even" => .ok even
  | _ => .error (.parity word)

def name : Parity → String
  | none => "None"
  | odd => "Odd"
  | even => "Even"

end Parity

namespace StopBits

def ofCount : UInt8 → Except SettingError StopBits
  | 1 => .ok one
  | 2 => .ok two
  | given => .error (.stopBits given)

def name : StopBits → String
  | one => "One"
  | two => "Two"

end StopBits

structure Settings where
  port : String
  baud : UInt32
  dataBits : DataBits
  parity : Parity
  stopBits : StopBits
  /-- How long a single read or write may block. -/
  timeoutMs : Nat := 100
  deriving DecidableEq, Repr

end Xmodem.Serial
