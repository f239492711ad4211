/-!
# Blocks on the wire

The control bytes of XMODEM in its checksum variant, and the frame that carries one block: a start
of header, the block's number, the complement of the number, 128 bytes of payload and their sum.
Block numbers count modulo 256 from 1.
-/

namespace Xmodem

namespace Control

/-- Start of header: a block follows. -/
def soh : UInt8 := 0x01

/-- End of transmission: the sender has no more blocks. -/
def eot : UInt8 := 0x04

/-- Acknowledge: the receiver took the last block. -/
def ack : UInt8 := 0x06

/-- Negative acknowledge: the receiver is ready, or wants the last block again. -/
def nak : UInt8 := 0x15

/-- Cancel: the receiver gives up. -/
def can : UInt8 := 0x18

end Control

def blockSize : Nat := 128

/-- How many times a receiver that gives up says so; a single byte may be lost to noise. -/
def cancelCount : Nat := 3

/-- The sum of the bytes modulo 256. -/
def checksum (block : List UInt8) : UInt8 :=
  block.foldl (· + ·) 0

theorem foldl_add_eq (block : List UInt8) (a : UInt8) :
    block.foldl (· + ·) a = a + checksum block := by
  induction block generalizing a with
  | nil => simp [checksum]
  | cons b block ih =>
    have sum : checksum (b :: block) = block.foldl (· + ·) (0 + b) := rfl
    rw [sum, List.foldl_cons, ih, ih (0 + b), UInt8.zero_add, UInt8.add_assoc]

theorem checksum_cons (b : UInt8) (block : List UInt8) : checksum (b :: block) = b + checksum block := by
  rw [checksum, List.foldl_cons, foldl_add_eq, UInt8.zero_add]

theorem checksum_concat (block : List UInt8) (b : UInt8) : checksum (block ++ [b]) = checksum block + b :=
  List.foldl_append

/-- What a receiver asks its sender for: the next block, or the last one again. -/
inductive Reply where
  | ack
  | nak
  deriving DecidableEq, Repr

namespace Reply

def byte : Reply → UInt8
  | ack => Control.ack
  | nak => Control.nak

def name : Reply → String
  | ack => "ACK"
  | nak => "NAK"

end Reply

structure Frame where
  number : UInt8
  payload : Vector UInt8 blockSize

/-- The bytes of a frame in the order in which they are sent. -/
def Frame.bytes (f : Frame) : List UInt8 :=
  [Control.soh, f.number, ~~~f.number] ++ f.payload.toList ++ [checksum f.payload.toList]

@[simp] theorem Frame.length_bytes (f : Frame) : f.bytes.length = blockSize + 4 := by
  simp [Frame.bytes]

end Xmodem
