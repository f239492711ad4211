import Xmodem.Config
import Xmodem.Line.Drain

/-!
# Sessions

A session is what a receiver knows: its timing, the buffer and how much of it may be used, how far
it is filled, the block it expects, how many attempts it has made since it last acknowledged one,
and what it will answer next. A receiver is a session together with what it is doing: it reads a
field of a frame, it flushes the line, or it sends a byte.

The buffer is filled while a payload is read, and the fill is taken back if the block turns out
bad.
-/

namespace Xmodem

structure Session where
  config : Config
  capacity : Nat
  buffer : Array UInt8
  /-- How far the buffer is filled; within a payload this counts its bytes too. -/
  filled : Nat := 0
  expected : UInt8 := 1
  /-- Attempts since the last acknowledgement. -/
  attempts : UInt32 := 0
  reply : Reply := .nak

inductive Field where
  | start
  | number
  | complement
  /-- `taken` bytes of the payload have come, and they add up to `sum`. -/
  | payload (taken : Nat) (sum : UInt8)
  /-- The payload is complete and adds up to `sum`. -/
  | checksum (sum : UInt8)
  deriving DecidableEq, Repr

inductive FlushCause where
  /-- The last attempt failed, or there was none. -/
  | retry
  | repeated
  | unexpected (received : UInt8)
  deriving DecidableEq, Repr

inductive Sending where
  | reply
  /-- To acknowledge the end of the transmission. -/
  | farewell
  /-- To cancel a transfer that failed, `left` times from now on. -/
  | cancel (cause : TransferError) (left : Nat)
  deriving DecidableEq, Repr

inductive Activity where
  | reading (field : Field) (wait : Wait)
  | flushing (cause : FlushCause) (drain : Drain)
  | sending (what : Sending)

structure Receiver where
  session : Session
  activity : Activity

inductive Ending where
  /-- The file is complete in the first `length` bytes of the buffer. -/
  | received (length : Nat)
  | failed (error : TransferError)
  /-- The count of attempts has no room for another one. -/
  | exhausted
  deriving DecidableEq, Repr

structure Outcome where
  ending : Ending
  buffer : Array UInt8

abbrev Receiver.Turn := Xmodem.Turn Receiver Outcome

def Field.window (config : Config) : Field → UInt32
  | start => config.startTimeout
  | _ => config.byteTimeout

namespace Session

variable (s : Session)

/-- Puts a byte behind those that the buffer is filled with. A buffer that ends there grows. -/
def store (byte : UInt8) : Session :=
  { s with
    buffer :=
      if h : s.filled < s.buffer.size then s.buffer.set s.filled byte h else s.buffer.push byte
    filled := s.filled + 1 }

theorem size_buffer_store (byte : UInt8) (h : s.filled < s.buffer.size) :
    (s.store byte).buffer.size = s.buffer.size := by
  simp [store, h]

@[simp] theorem filled_store (byte : UInt8) : (s.store byte).filled = s.filled + 1 := rfl

def takeBack (count : Nat) : Session :=
  { s with filled := s.filled - count }

@[simp] theorem filled_takeBack (count : Nat) : (s.takeBack count).filled = s.filled - count := rfl

@[simp] theorem expected_takeBack (count : Nat) : (s.takeBack count).expected = s.expected := rfl

/-- The bytes that the buffer is filled with. -/
def contents : List UInt8 :=
  s.buffer.toList.take s.filled

theorem drop_contents : s.contents.drop s.filled = [] :=
  List.drop_eq_nil_of_le (List.length_take_le ..)

theorem length_contents (h : s.filled ≤ s.buffer.size) : s.contents.length = s.filled := by
  rw [contents, List.length_take, Array.length_toList, Nat.min_eq_left h]

theorem contents_store (byte : UInt8) (h : s.filled ≤ s.buffer.size) :
    (s.store byte).contents = s.contents ++ [byte] := by
  unfold contents store
  by_cases hlt : s.filled < s.buffer.size
  · simp only [hlt, ↓reduceDIte, Array.toList_set]
    rw [List.take_add_one, List.getElem?_set_self (by simpa using hlt), List.take_set_of_le (Nat.le_refl _)]
    rfl
  · have heq : s.filled = s.buffer.toList.length := Nat.le_antisymm h (Nat.le_of_not_lt hlt)
    simp only [hlt, ↓reduceDIte, Array.toList_push]
    rw [heq, List.take_length, List.take_of_length_le (by simp)]

theorem contents_takeBack (count : Nat) :
    (s.takeBack count).contents = s.contents.take (s.filled - count) := by
  simp [contents, takeBack, List.take_take]

/-- Keeps the block that the buffer was filled with last, and expects the next one. -/
def commit : Session :=
  { s with expected := s.expected + 1 }

end Session

end Xmodem
