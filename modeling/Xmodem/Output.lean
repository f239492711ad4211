import Xmodem.IoError
import Xmodem.Log

/-!
# Saving what was received

The received bytes go to a file as a whole. If that fails, the message still says how many bytes
there were, since they have been acknowledged and the sender will not send them again.
-/

namespace Xmodem

structure OutputError where
  length : Nat
  path : String
  error : IoError
  deriving DecidableEq, Repr

def OutputError.message (e : OutputError) : String :=
  let length := e.length
  s!"received {length} bytes but could not write " ++ e.path ++ ": " ++ e.error.message

/-- Writes `data` to a file by means of `save`, and logs that. -/
def saveOutput {m : Type → Type} [Monad m] (save : String → Array UInt8 → m (Except IoError Unit))
    (log : LogEntry → m Unit) (path : String) (data : Array UInt8) :
    m (Except OutputError Unit) := do
  match ← save path data with
  | .ok _ =>
    log ⟨.info, "Wrote " ++ path⟩
    return .ok ()
  | .error error => return .error ⟨data.size, path, error⟩

end Xmodem
