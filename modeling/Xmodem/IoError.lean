/-!
# I/O errors

What a byte channel, a serial device or a file reports when it fails: the class of the error and
the text it is shown with. The text belongs to the error and not to its class, so two errors of
one class may read differently.
-/

namespace Xmodem

/-- The class of an I/O error. -/
inductive IoError.Kind where
  | notFound
  | permissionDenied
  | notConnected
  | brokenPipe
  | wouldBlock
  | notADirectory
  | isADirectory
  | invalidInput
  | invalidData
  | timedOut
  | writeZero
  | invalidFilename
  | storageFull
  | interrupted
  | unexpectedEof
  | other
  deriving DecidableEq, Repr

/-- An I/O error; it is shown as its `message`. -/
structure IoError where
  kind : IoError.Kind
  message : String
  deriving DecidableEq, Repr

end Xmodem
