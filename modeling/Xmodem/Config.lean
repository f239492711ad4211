/-!
# Timing of a transfer

How long a receiver waits at each point, and how often it asks for the same block. Times are in
microseconds of the line's clock.
-/

namespace Xmodem

structure Config where
  /-- The wait for a block to start, after a control byte was sent. -/
  startTimeout : UInt32 := 3000000
  /-- The wait for each further byte of a block. -/
  byteTimeout : UInt32 := 250000
  /-- How long the line has to be idle for a flush to end. -/
  flushIdle : UInt32 := 250000
  /-- Attempts in a row that may fail before the transfer is abandoned. -/
  maxRetries : UInt32 := 10
  deriving DecidableEq, Repr

namespace Config

/-- Milliseconds as microseconds; what does not fit becomes the largest count. -/
def microseconds (ms : UInt32) : UInt32 :=
  UInt32.ofNat (min (ms.toNat * 1000) (UInt32.size - 1))

/-- The timing that a user gives in milliseconds. -/
def ofMillis (retries startMs byteMs : UInt32) : Config :=
  { startTimeout := microseconds startMs
    byteTimeout := microseconds byteMs
    maxRetries := retries }

end Config

end Xmodem
