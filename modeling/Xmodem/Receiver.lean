import Xmodem.Session

/-!
# The receiver

An attempt opens with a control byte and reads a frame field by field. It ends with a stored
block, with a block seen before, with the end of the transmission, with a failure of the transfer,
or with nothing: then the line is flushed and the next attempt asks for the block again. A
transfer that fails is cancelled first.
-/

namespace Xmodem

namespace Session

variable (s : Session)

/-! ### Turning to something -/

def read (field : Field) : Receiver.Turn :=
  .going ⟨s, .reading field (.arming (field.window s.config))⟩

def flush (cause : FlushCause) : Receiver.Turn :=
  .going ⟨s, .flushing cause (.start s.config.flushIdle)⟩

def send (what : Sending) : Receiver.Turn :=
  .going ⟨s, .sending what⟩

def finish (ending : Ending) : Receiver.Turn :=
  .ended ⟨ending, s.buffer⟩

/-- Gives the transfer up: it is cancelled before it ends. -/
def fail (error : TransferError) : Receiver.Turn :=
  s.send (.cancel error cancelCount)

@[simp] theorem next_read (field : Field) :
    (s.read field).next = .going ⟨s, .reading field (.arming (field.window s.config))⟩ := rfl

@[simp] theorem said_read (field : Field) : (s.read field).said = [] := rfl

@[simp] theorem next_flush (cause : FlushCause) :
    (s.flush cause).next = .going ⟨s, .flushing cause (.start s.config.flushIdle)⟩ := rfl

@[simp] theorem said_flush (cause : FlushCause) : (s.flush cause).said = [] := rfl

@[simp] theorem next_send (what : Sending) : (s.send what).next = .going ⟨s, .sending what⟩ := rfl

@[simp] theorem said_send (what : Sending) : (s.send what).said = [] := rfl

@[simp] theorem next_finish (ending : Ending) : (s.finish ending).next = .ended ⟨ending, s.buffer⟩ := rfl

@[simp] theorem said_finish (ending : Ending) : (s.finish ending).said = [] := rfl

@[simp] theorem next_fail (error : TransferError) :
    (s.fail error).next = .going ⟨s, .sending (.cancel error cancelCount)⟩ := rfl

@[simp] theorem said_fail (error : TransferError) : (s.fail error).said = [] := rfl

/-- Opens an attempt, unless too many have failed. -/
def openAttempt : Receiver.Turn :=
  if s.attempts.toNat + 1 < UInt32.size then
    let attempt := s.attempts + 1
    if s.config.maxRetries < attempt then
      s.fail .timeout
    else
      let warning := if 1 < attempt then
        [.retrying (attempt - 1) (s.config.maxRetries - 1) s.expected] else []
      ({ s with attempts := attempt }.send .reply).after warning
  else
    s.finish .exhausted

/-- Opens the next attempt with an acknowledgement; the count of attempts starts anew. -/
def acknowledge : Receiver.Turn :=
  { s with attempts := 0, reply := .ack }.openAttempt

/-- Asks for the block again, once what is left of the last attempt has been flushed. -/
def retry : Receiver.Turn :=
  s.flush .retry

@[simp] theorem next_retry :
    s.retry.next = .going ⟨s, .flushing .retry (.start s.config.flushIdle)⟩ := rfl

@[simp] theorem said_retry : s.retry.said = [] := rfl

/-! ### Answers -/

/-- What a byte of the awaited field, or its absence, leads to. -/
def heard : Field → Option UInt8 → Receiver.Turn
  | .start, some byte =>
    if byte = Control.soh then s.read .number
    else if byte = Control.eot then (s.send .farewell).after [.endOfTransmission]
    else s.retry.after [.strayStart byte]
  | .start, none => s.retry.after [.noStart]
  | .number, some block =>
    if block = s.expected - 1 then (s.flush .repeated).after [.repeated block]
    else if block ≠ s.expected then s.flush (.unexpected block)
    else if s.capacity < s.filled + blockSize then s.fail .bufferFull
    else s.read .complement
  | .number, none => s.retry
  | .complement, some byte =>
    if byte = ~~~s.expected then s.read (.payload 0 0)
    else s.retry.after [.badComplement byte s.expected]
  | .complement, none => s.retry
  | .payload taken sum, some byte =>
    if taken + 1 < blockSize then (s.store byte).read (.payload (taken + 1) (sum + byte))
    else (s.store byte).read (.checksum (sum + byte))
  | .payload taken _, none => (s.takeBack taken).retry.after [.stalled taken]
  | .checksum sum, some byte =>
    if byte = sum then s.commit.acknowledge.after [.stored s.expected s.filled]
    else (s.takeBack blockSize).retry.after [.badChecksum byte sum]
  | .checksum _, none => (s.takeBack blockSize).retry.after [.noChecksum]

def flushed : FlushCause → Receiver.Turn
  | .retry => s.openAttempt
  | .repeated => s.acknowledge
  | .unexpected received => s.fail (.unexpectedBlock s.expected received)

def byteFor : Sending → UInt8
  | .reply => s.reply.byte
  | .farewell => Control.ack
  | .cancel .. => Control.can

/-- What comes after a byte was sent, or could not be sent. A failure to cancel does not replace
the failure that is cancelled. -/
def wrote : Sending → Except IoError Unit → Receiver.Turn
  | .reply, .ok _ => ({ s with reply := .nak }.read .start).after [.sent s.reply]
  | .reply, .error e => s.fail (.io e)
  | .farewell, .ok _ => (s.finish (.received s.filled)).after [.received s.filled]
  | .farewell, .error e => s.fail (.io e)
  | .cancel cause left, .ok _ =>
    if 1 < left then s.send (.cancel cause (left - 1))
    else (s.finish (.failed cause)).after [.cancelled, .failed cause]
  | .cancel cause _, .error e =>
    (s.finish (.failed cause)).after [.cancelFailed e, .failed cause]

end Session

def Receiver.ask : Receiver → Ask Receiver.Turn
  | ⟨s, .reading field wait⟩ => wait.ask.map fun
    | .going wait => .going ⟨s, .reading field wait⟩
    | .ended (.ok byte) => s.heard field byte
    | .ended (.error e) => s.fail (.io e)
  | ⟨s, .flushing cause drain⟩ => drain.ask.map fun
    | ⟨said, .going drain⟩ => ⟨said, .going ⟨s, .flushing cause drain⟩⟩
    | ⟨said, .ended (.ok _)⟩ => (s.flushed cause).after said
    | ⟨said, .ended (.error e)⟩ => (s.fail (.io e)).after said
  | ⟨s, .sending what⟩ => .write (s.byteFor what) fun result => s.wrote what result

end Xmodem
