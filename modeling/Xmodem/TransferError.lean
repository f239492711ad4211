import Xmodem.IoError

/-!
# Why a transfer fails

The causes for which a receiver gives up, with the text that a log shows for each and the short
fixed text that fits a monitor's prompt.
-/

namespace Xmodem

inductive TransferError where
  /-- Too many attempts in a row have failed. -/
  | timeout
  /-- The sender is on a block that is neither the expected one nor the one before it. -/
  | unexpectedBlock (expected received : UInt8)
  /-- The sender offers a block for which there is no room. -/
  | bufferFull
  | io (error : IoError)
  deriving DecidableEq, Repr

namespace TransferError

def message : TransferError → String
  | timeout => "TIMEOUT"
  | unexpectedBlock _ _ => "UNEXPECTED BLOCK #"
  | bufferFull => "BUFFER FULL"
  | io error => "I/O error: " ++ error.message

/-- The short form, which does not depend on the details of the failure. -/
def diagnostic : TransferError → String
  | timeout => "TIMEOUT"
  | unexpectedBlock _ _ => "UNEXPECTED BLOCK #"
  | bufferFull => "BUFFER FULL"
  | io _ => "I/O ERROR"

end TransferError

end Xmodem
