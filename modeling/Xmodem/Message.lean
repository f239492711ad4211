import Xmodem.Frame
import Xmodem.Hex
import Xmodem.Log
import Xmodem.TransferError

/-!
# What a transfer reports

The messages that a receiver and the operations under it report while they work, each as a value;
`Message.entry` gives the level and the wording.
-/

namespace Xmodem

inductive Message where
  | flushed (count : Nat)
  /-- An attempt after a failed one begins: the how-many-th retry, and how many there may be. -/
  | retrying (retry limit : UInt32) (block : UInt8)
  | sent (reply : Reply)
  | endOfTransmission
  | strayStart (byte : UInt8)
  | noStart
  | repeated (block : UInt8)
  | badComplement (byte block : UInt8)
  | stalled (taken : Nat)
  | stored (block : UInt8) (total : Nat)
  | badChecksum (received computed : UInt8)
  | noChecksum
  | cancelFailed (error : IoError)
  | cancelled
  | received (length : Nat)
  | failed (error : TransferError)
  deriving DecidableEq, Repr

namespace Message

def level : Message → Level
  | retrying .. | cancelFailed _ => .warn
  | received _ => .info
  | failed _ => .error
  | _ => .debug

def text : Message → String
  | flushed count => s!"Flushed {count} stray bytes"
  | retrying retry limit block => s!"Retry {retry} of {limit} for block #{block}"
  | sent reply => "Sent: " ++ reply.name
  | endOfTransmission => "Received: EOT"
  | strayStart byte => "Expected SOH or EOT, got " ++ Hex.literal byte
  | noStart => "No start of header"
  | repeated block => s!"Block #{block} resent, acknowledging again"
  | badComplement byte block =>
    "Bad inverse block number " ++ Hex.literal byte ++ s!" for block #{block}"
  | stalled taken => s!"Payload stalled after {taken} bytes"
  | stored block total => s!"Block #{block} OK ({total} bytes total)"
  | badChecksum byte sum =>
    "Checksum mismatch: received " ++ Hex.literal byte ++ ", expected " ++ Hex.literal sum
  | noChecksum => "Checksum byte timed out"
  | cancelFailed error => "Could not send CAN: " ++ error.message
  | cancelled => s!"Sent: CAN x{cancelCount}"
  | received length =>
    let blocks := length / blockSize
    s!"Received {length} bytes ({blocks} blocks)"
  | failed error => "Transfer failed: " ++ error.message

def entry (m : Message) : LogEntry :=
  ⟨m.level, m.text⟩

end Message

end Xmodem
