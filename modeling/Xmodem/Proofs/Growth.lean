import Xmodem.Proofs.Representation

/-!
# A buffer that grows

A receiver may start with an empty buffer, which grows by a byte whenever one is stored behind its end, or
with all of it in place. That is the same, but for zeros behind the bytes that have been stored
(`Receiver.padded`): it asks the same, and each answer leads to the same (`Receiver.ask_padded`). So what
is received into the one buffer is what is received into the other (`Trace.padded`).
-/

namespace Xmodem

/-- The buffer with zeros behind it, up to a size. -/
def padTo (size : Nat) (buffer : Array UInt8) : Array UInt8 :=
  buffer ++ Array.replicate (size - buffer.size) 0

section
variable {size : Nat} {buffer : Array UInt8}

theorem extract_padTo {n : Nat} (h : n ≤ buffer.size) : (padTo size buffer).extract 0 n = buffer.extract 0 n := by
  simp [padTo, Array.extract_append, h]

theorem padTo_set {i : Nat} (byte : UInt8) (h : i < buffer.size) (h' : i < (padTo size buffer).size) :
    padTo size (buffer.set i byte) = (padTo size buffer).set i byte := by
  simp [padTo, h]

theorem padTo_push (byte : UInt8) (h : buffer.size < (padTo size buffer).size) :
    padTo size (buffer.push byte) = (padTo size buffer).set buffer.size byte := by
  have hlt : size - buffer.size = size - (buffer.size + 1) + 1 := by
    simp [padTo] at h
    omega
  simp only [padTo, Array.size_push]
  rw [Array.set_append_right _ (Nat.le_refl _)]
  simp [hlt, Array.replicate_succ']

end

/-! ### Receivers -/

def Session.padded (size : Nat) (s : Session) : Session :=
  { s with buffer := padTo size s.buffer }

def Receiver.padded (size : Nat) (r : Receiver) : Receiver :=
  ⟨r.session.padded size, r.activity⟩

def Outcome.padded (size : Nat) (o : Outcome) : Outcome :=
  { o with buffer := padTo size o.buffer }

def Progress.padded (size : Nat) : Progress Receiver Outcome → Progress Receiver Outcome
  | going r => .going (r.padded size)
  | ended o => .ended (o.padded size)

def Turn.padded (size : Nat) (turn : Turn Receiver Outcome) : Turn Receiver Outcome :=
  ⟨turn.said, turn.next.padded size⟩

namespace Session
variable (size : Nat) (s : Session)

theorem store_padded {size : Nat} {s : Session} (byte : UInt8) (hle : s.filled ≤ s.buffer.size)
    (hlt : s.filled < (padTo size s.buffer).size) :
    (s.padded size).store byte = (s.store byte).padded size := by
  unfold store Session.padded
  dsimp only
  rw [dif_pos hlt]
  congr 1
  by_cases h : s.filled < s.buffer.size
  · rw [dif_pos h, padTo_set _ h]
  · obtain heq : s.filled = s.buffer.size := Nat.le_antisymm hle (Nat.le_of_not_lt h)
    rw [dif_neg h, padTo_push byte (by rwa [← heq])]
    simp only [heq]

theorem openAttempt_padded : (s.padded size).openAttempt = s.openAttempt.padded size := by
  unfold openAttempt
  rw [apply_ite (Turn.padded size)]
  dsimp only
  rw [apply_ite (Turn.padded size)]
  rfl

theorem acknowledge_padded : (s.padded size).acknowledge = s.acknowledge.padded size :=
  openAttempt_padded size { s with attempts := 0, reply := .ack }

theorem flushed_padded (cause : FlushCause) : (s.padded size).flushed cause = (s.flushed cause).padded size := by
  cases cause with
  | retry => exact openAttempt_padded size s
  | repeated => exact acknowledge_padded size s
  | unexpected received => rfl

theorem wrote_padded (what : Sending) (result : Except IoError Unit) :
    (s.padded size).wrote what result = (s.wrote what result).padded size := by
  unfold wrote
  split
  case h_5 => rw [apply_ite (Turn.padded size)]; rfl
  all_goals rfl

theorem heard_padded {size : Nat} {s : Session} {field : Field} (byte : Option UInt8)
    (hle : s.filled ≤ s.buffer.size)
    (hlt : ∀ taken sum, field = .payload taken sum → s.filled < (padTo size s.buffer).size) :
    (s.padded size).heard field byte = (s.heard field byte).padded size := by
  have hretry (messages : List Message) (count : Nat) : ((s.padded size).takeBack count).retry.after messages =
      ((s.takeBack count).retry.after messages).padded size := rfl
  cases byte with
  | none =>
    cases field with
    | payload taken sum => exact hretry _ taken
    | checksum sum => exact hretry _ blockSize
    | _ => rfl
  | some byte =>
    cases field with
    | start =>
      rw [heard, heard, apply_ite (Turn.padded size), apply_ite (Turn.padded size)]
      rfl
    | number =>
      rw [heard, heard, apply_ite (Turn.padded size), apply_ite (Turn.padded size), apply_ite (Turn.padded size)]
      rfl
    | complement =>
      rw [heard, heard, apply_ite (Turn.padded size)]
      rfl
    | payload taken sum =>
      rw [heard, heard, apply_ite (Turn.padded size), store_padded byte hle (hlt taken sum rfl)]
      rfl
    | checksum sum =>
      have hack : (s.padded size).commit.acknowledge = s.commit.acknowledge.padded size :=
        s.commit.acknowledge_padded size
      rw [heard, heard, apply_ite (Turn.padded size), hack, ← hretry]
      rfl

end Session

/-- The receiver with the padded buffer asks the same, and each answer leads it to the same. -/
theorem Receiver.ask_padded {size : Nat} {r : Receiver} (hle : r.session.filled ≤ r.session.buffer.size)
    (hlt : ∀ taken sum wait, r.activity = .reading (.payload taken sum) wait →
      r.session.filled < (padTo size r.session.buffer).size) :
    (r.padded size).ask = r.ask.map (Turn.padded size) := by
  obtain ⟨s, activity⟩ := r
  cases activity with
  | reading field wait =>
    show ask ⟨s.padded size, .reading field wait⟩ = _
    rw [ask, ask, Ask.map_map]
    refine congrArg (Ask.map · wait.ask) (funext fun p => ?_)
    match p with
    | .going wait' => rfl
    | .ended (.ok byte) => exact Session.heard_padded byte hle fun taken sum hf => hlt taken sum wait (hf ▸ rfl)
    | .ended (.error e) => rfl
  | flushing cause drain =>
    show ask ⟨s.padded size, .flushing cause drain⟩ = _
    rw [ask, ask, Ask.map_map]
    refine congrArg (Ask.map · drain.ask) (funext fun turn => ?_)
    match turn with
    | ⟨said, .going drain'⟩ => rfl
    | ⟨said, .ended (.ok _)⟩ => exact congrArg (Turn.after said) (s.flushed_padded size cause)
    | ⟨said, .ended (.error e)⟩ => rfl
  | sending what => exact congrArg (Ask.write _) (funext fun result => s.wrote_padded size what result)

/-! ### Along a trace -/

/-- The buffer reaches as far as it is filled. -/
def Receiver.Grown (r : Receiver) : Prop :=
  r.session.filled ≤ r.session.buffer.size

/-- What was received is in the buffer. -/
def Outcome.Grown (o : Outcome) : Prop :=
  ∀ n, o.ending = .received n → n ≤ o.buffer.size

namespace Session
variable {s : Session} {p : Progress Receiver Outcome}

theorem Opens.grown (h : s.Opens p) (hle : s.filled ≤ s.buffer.size) :
    p.Holds Receiver.Grown Outcome.Grown := by
  cases h with
  | opened _ => exact hle
  | abandoned _ => exact hle
  | exhausted _ => exact fun _ => nofun

theorem grown_store (byte : UInt8) (hle : s.filled ≤ s.buffer.size) :
    (s.store byte).filled ≤ (s.store byte).buffer.size := by
  by_cases h : s.filled < s.buffer.size
  · rw [size_buffer_store s byte h]
    exact h
  · simp [store, h, hle]

theorem Hears.grown {field : Field} {byte : Option UInt8} (h : s.Hears field byte p)
    (hle : s.filled ≤ s.buffer.size) : p.Holds Receiver.Grown Outcome.Grown := by
  cases h with
  | payload _ => exact grown_store _ hle
  | lastPayload _ => exact grown_store _ hle
  | checksum => exact (opens_openAttempt _).grown hle
  | rejected _ => exact Nat.le_trans (Nat.sub_le ..) hle
  | _ => exact hle

end Session

theorem Receiver.Step.grown {r : Receiver} {call : Call} {turn : Receiver.Turn} (hs : r.Step call turn)
    (hle : r.Grown) : turn.next.Holds Grown Outcome.Grown := by
  cases hs with
  | heard _ => exact (Session.hears_heard _ _ _).grown hle
  | @drained s cause drain call said count _ =>
    cases cause with
    | retry => exact s.opens_openAttempt.grown hle
    | repeated => exact (Session.opens_openAttempt _).grown hle
    | unexpected received => exact hle
  | @wrote s what result =>
    have hwrites := s.writes_wrote what result
    generalize (s.wrote what result).next = p at hwrites ⊢
    cases hwrites with
    | finished =>
      rintro n ⟨⟩
      exact hle
    | cancelled cause left => exact fun _ => nofun
    | _ => exact hle
  | _ => exact hle

/-- The trace of a receiver whose buffer grows is a run of one that has its buffer in place. -/
theorem Trace.padded {config : Config} {capacity : Nat} {steps : List (Receiver × Call)}
    {p : Progress Receiver Outcome} (h : Trace Receiver.ask (.start config capacity #[]) steps p)
    (hpos : 0 < capacity) :
    Receiver.Run config capacity (Array.replicate capacity 0)
        (steps.map fun step => (step.1.padded capacity, step.2)) (p.padded capacity) ∧
      p.Holds Receiver.Grown Outcome.Grown := by
  induction h with
  | start =>
    refine ⟨⟨hpos, by simp, ?_⟩, Nat.le_refl 0⟩
    have hempty : padTo capacity #[] = Array.replicate capacity 0 := by simp [padTo]
    rw [← hempty]
    exact .start
  | @step steps r call turn _ ha ih =>
    obtain ⟨hrun, hle⟩ := ih
    refine ⟨⟨hpos, by simp, ?_⟩, (Receiver.step_of_answer ha).grown hle⟩
    -- That a payload has room is known of the buffer in place only, by the invariant of its run.
    have hi := hrun.inv
    have hlt : ∀ taken sum wait, r.activity = .reading (.payload taken sum) wait →
        r.session.filled < (padTo capacity r.session.buffer).size := by
      intro taken sum wait hactivity
      have hf : (r.session.padded capacity).Fits (.reading (.payload taken sum) wait) := hactivity ▸ hi.fits
      exact hf.2.lt_size hi.within (by simp) hf.1
    have ha' := ha.map (Turn.padded capacity)
    rw [← Receiver.ask_padded hle hlt] at ha'
    rw [List.map_append]
    exact hrun.trace.step ha'

end Xmodem
