import Mathlib.Tactic.Common
import Xmodem.Line.Wait
import Xmodem.Frame
import Xmodem.Config

/-!
# Senders

A sender answers each control byte that it gets with an attempt: a frame, a frame that suffered on
the way, noise, or nothing. After it the line is quiet until the next control byte. A transmission
(`Transmission`) has for each block some attempts that fail, among them the last block again, and
then the frame; after the blocks comes the end of the transmission. At most so many attempts fail in a
row.

`Line.Carries` says what it takes for a line to carry what senders send: each byte comes within the
wait that is in force, and when no byte is on its way every wait comes to its end.
-/

namespace Xmodem

/-- The waits that a receiver is configured with. -/
inductive Pause where
  | start
  | byte
  | idle

def Pause.window (config : Config) : Pause → UInt32
  | start => config.startTimeout
  | byte => config.byteTimeout
  | idle => config.flushIdle

/-- What is still to come from a sender: the bytes on their way, each with the wait in which it comes,
and the bytes with which the next control bytes are answered. -/
structure Sender where
  pending : List (Pause × UInt8)
  turns : List (List (Pause × UInt8))

/-- The sender has got a control byte. -/
def Sender.answer (sender : Sender) : Sender :=
  ⟨sender.turns.headD [], sender.turns.tail⟩

/-! ### Lines that carry -/

namespace Line
variable {τ : Type}

/-- From here polls find nothing until they find a byte, or until the clock reaches the deadline after
a poll. -/
inductive Waits (line : Line (StateM τ)) (deadline : Deadline) : τ → Option UInt8 → τ → Prop
  | found {env env' : τ} {byte : UInt8} (h : line.poll.run env = (.ok (some byte), env')) :
    Waits line deadline env (some byte) env'
  | lapsed {env env₁ env' : τ} {now : UInt32} (h₁ : line.poll.run env = (.ok none, env₁))
    (h₂ : line.clock.run env₁ = (now, env')) (h₃ : deadline.reached now = true) :
    Waits line deadline env none env'
  | early {env env₁ env₂ env' : τ} {now : UInt32} {byte : Option UInt8}
    (h₁ : line.poll.run env = (.ok none, env₁)) (h₂ : line.clock.run env₁ = (now, env₂))
    (h₃ : deadline.reached now = false) :
    Waits line deadline env₂ byte env' → Waits line deadline env byte env'

/-- A byte comes within so many microseconds, or none does. -/
def Brings (line : Line (StateM τ)) (window : UInt32) (env : τ) (byte : Option UInt8) (env' : τ) : Prop :=
  line.Waits (.after (line.clock.run env).1 window) (line.clock.run env).2 byte env'

/-- The line carries what senders send: `stage` relates what is still to come from a sender to the state
of the line. -/
structure Carries (line : Line (StateM τ)) (config : Config) (stage : Sender → τ → Prop) : Prop where
  found : ∀ (pause : Pause) (byte : UInt8) (pending : List (Pause × UInt8))
    (turns : List (List (Pause × UInt8))) (env : τ), stage ⟨(pause, byte) :: pending, turns⟩ env →
      ∃ env', line.Brings (pause.window config) env (some byte) env' ∧ stage ⟨pending, turns⟩ env'
  quiet : ∀ (pause : Pause) (turns : List (List (Pause × UInt8))) (env : τ), stage ⟨[], turns⟩ env →
    ∃ env', line.Brings (pause.window config) env none env' ∧ stage ⟨[], turns⟩ env'
  written : ∀ (byte : UInt8) (turns : List (List (Pause × UInt8))) (env : τ), stage ⟨[], turns⟩ env →
    ∃ env', (line.write byte).run env = (.ok (), env') ∧ stage (Sender.answer ⟨[], turns⟩) env'
  reported : ∀ (message : Message) (sender : Sender) (env : τ), stage sender env →
    stage sender ((line.report message).run env).2

/-- A line on which bytes do not wait, and so many microseconds pass in each poll that finds none. -/
def playing (lapse : UInt32) : Line (StateM (Sender × UInt32)) where
  poll
    | (⟨(_, byte) :: pending, turns⟩, now) => (.ok (some byte), (⟨pending, turns⟩, now))
    | (sender, now) => (.ok none, (sender, now + lapse))
  write _
    | (sender, now) => (.ok (), (sender.answer, now))
  clock
    | (sender, now) => (now, (sender, now))
  report _ := pure ()

/-- A clock that moves by more than each wait at once, but not by half of its range, ends each wait. -/
theorem playing_carries {config : Config} {lapse : UInt32} (h : lapse < 0x80000000)
    (hwindow : ∀ pause : Pause, pause.window config ≤ lapse) :
    (playing lapse).Carries config fun sender env => env.1 = sender := by
  refine ⟨?_, ?_, ?_, ?_⟩
  · rintro pause byte pending turns ⟨sender, now⟩ rfl
    exact ⟨_, .found rfl, rfl⟩
  · rintro pause turns ⟨sender, now⟩ rfl
    refine ⟨_, .lapsed rfl rfl ?_, rfl⟩
    show (Deadline.after now (pause.window config)).reached (now + lapse) = true
    have hle : (lapse - pause.window config).toNat ≤ lapse.toNat := by
      rw [UInt32.toNat_sub_of_le _ _ (hwindow pause)]
      exact Nat.sub_le ..
    rw [Deadline.after, UInt32.add_comm now, UInt32.add_comm now, Deadline.reached_add]
    exact decide_eq_true (Nat.lt_of_le_of_lt hle h)
  · rintro byte turns ⟨sender, now⟩ rfl
    exact ⟨_, rfl, rfl⟩
  · rintro message sender ⟨_, now⟩ rfl
    rfl

end Line

/-! ### Transmissions -/

/-- What a sender sends in answer to a control byte: bytes that are taken for the fields of a frame, and
bytes behind them. -/
structure Attempt where
  fields : List UInt8
  rest : List UInt8 := []

/-- The bytes of an attempt with the waits in which they come. -/
def Attempt.bytes (a : Attempt) : List (Pause × UInt8) :=
  (match a.fields with
    | [] => []
    | first :: fields => (.start, first) :: fields.map (.byte, ·)) ++ a.rest.map (.idle, ·)

namespace Attempt

theorem bytes_frame (number complement : UInt8) (payload sum rest : List UInt8) :
    bytes ⟨[Control.soh, number, complement] ++ payload ++ sum, rest⟩ =
      (.start, Control.soh) :: (.byte, number) :: (.byte, complement) ::
        (payload.map (.byte, ·) ++ (sum.map (.byte, ·) ++ rest.map (.idle, ·))) := by
  simp [bytes]

/-- The attempt to send a frame. -/
def ofFrame (f : Frame) : Attempt :=
  ⟨f.bytes, []⟩

/-- The sender has no more blocks. -/
def finish : Attempt :=
  ⟨[Control.eot], []⟩

end Attempt

/-- The sender of these frames, one in answer to each control byte, and of the end after them. -/
def Sender.ofFrames (frames : List Frame) : Sender :=
  ⟨[], (frames.map Attempt.ofFrame ++ [Attempt.finish]).map Attempt.bytes⟩

namespace Attempt

/-- No block number comes. -/
inductive Empty : Attempt → Prop
  | nothing : Empty ⟨[], []⟩
  | stray {byte : UInt8} (h₁ : byte ≠ Control.soh) (h₂ : byte ≠ Control.eot) (rest : List UInt8) :
    Empty ⟨[byte], rest⟩
  | header : Empty ⟨[Control.soh], []⟩

/-- The attempt to send the block of a number fails. A payload that is cut short may be complete, but
then the sum is missing. -/
inductive Faulty (number : UInt8) : Attempt → Prop
  | empty {a : Attempt} (h : a.Empty) : Faulty number a
  | number : Faulty number ⟨[Control.soh, number], []⟩
  | complement {byte : UInt8} (h : byte ≠ ~~~number) (rest : List UInt8) :
    Faulty number ⟨[Control.soh, number, byte], rest⟩
  | cut {payload : List UInt8} (h : payload.length ≤ blockSize) :
    Faulty number ⟨[Control.soh, number, ~~~number] ++ payload, []⟩
  | checksum (payload : Vector UInt8 blockSize) {sum : UInt8} (h : sum ≠ Xmodem.checksum payload.toList)
    (rest : List UInt8) :
    Faulty number ⟨[Control.soh, number, ~~~number] ++ payload.toList ++ [sum], rest⟩

/-- The block of a number comes once more. -/
def Repeats (number : UInt8) (a : Attempt) : Prop :=
  ∃ rest, a = ⟨[Control.soh, number], rest⟩

end Attempt

/-- Some attempts of which `left` may fail before one repeats a block; after that, and after each that
repeats a block, `limit` may fail. -/
inductive Mix (limit : Nat) (fails repeats : Attempt → Prop) : Nat → List Attempt → Prop
  | nil {left : Nat} : Mix limit fails repeats left []
  | failed {left : Nat} {a : Attempt} {rest : List Attempt} (h : fails a) :
    Mix limit fails repeats left rest → Mix limit fails repeats (left + 1) (a :: rest)
  | repeated {left : Nat} {a : Attempt} {rest : List Attempt} (h : repeats a) :
    Mix limit fails repeats limit rest → Mix limit fails repeats left (a :: rest)

/-- A transmission of the blocks that are left when `sent` blocks have been sent. -/
inductive Transmission (limit : Nat) : Nat → List (Vector UInt8 blockSize) → List Attempt → Prop
  | finish {sent : Nat} {mix : List Attempt}
    (h : Mix limit Attempt.Empty (fun a => 0 < sent ∧ a.Repeats (UInt8.ofNat sent)) limit mix) :
    Transmission limit sent [] (mix ++ [.finish])
  | block {sent : Nat} {mix turns : List Attempt} {payload : Vector UInt8 blockSize}
    {payloads : List (Vector UInt8 blockSize)}
    (h : Mix limit (Attempt.Faulty (UInt8.ofNat (sent + 1)))
      (fun a => 0 < sent ∧ a.Repeats (UInt8.ofNat sent)) limit mix) :
    Transmission limit (sent + 1) payloads turns →
      Transmission limit sent (payload :: payloads)
        (mix ++ .ofFrame ⟨UInt8.ofNat (sent + 1), payload⟩ :: turns)

end Xmodem
