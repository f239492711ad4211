/-!
# Numbers on a command line

Decimal numbers as a user writes them: digits, with a sign in front where one is allowed. Nothing
else may stand beside them, and no digits are no number.
-/

namespace Xmodem.CommandLine

def digits? (cs : List Char) : Option Nat :=
  if cs.isEmpty || !cs.all Char.isDigit then none
  else some (cs.foldl (fun n c => 10 * n + (c.toNat - '0'.toNat)) 0)

def natural? (text : String) : Option Nat :=
  match text.toList with
  | '+' :: cs => digits? cs
  | cs => digits? cs

def integer? (text : String) : Option Int :=
  match text.toList with
  | '-' :: cs => (digits? cs).map fun n => -(n : Int)
  | '+' :: cs => (digits? cs).map fun n => (n : Int)
  | cs => (digits? cs).map fun n => (n : Int)

/-- An integer from `low` to `high`; minus zero counts as zero. -/
def within? (low high : Nat) (text : String) : Option Nat := do
  let n ← integer? text
  if (low : Int) ≤ n ∧ n ≤ (high : Int) then some n.toNat else none

end Xmodem.CommandLine
