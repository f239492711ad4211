import Xmodem.Proofs.Trace
import Xmodem.Receive

/-!
# Runs of a receiver

A run is a trace of a receiver that starts with an empty fill of its buffer. Runs are exactly what
is received over lines (`Line.run_of_receive`, `Receiver.Run.exists_receive`). What one step of a
run can do is said once: `Receiver.Step` has a case for each way in which a call is taken up, and
`Session.Hears` one for each way in which a byte of a frame, or its absence, is taken up. An
invariant follows from these two by cases.
-/

namespace Xmodem

/-- The steps of a receiver that fills a buffer, and how it stands after them. -/
structure Receiver.Run (config : Config) (capacity : Nat) (buffer : Array UInt8)
    (steps : List (Receiver × Call)) (p : Progress Receiver Outcome) : Prop where
  pos : 0 < capacity
  le : capacity ≤ buffer.size
  trace : Trace Receiver.ask (.start config capacity buffer) steps p

section
variable {τ : Type} {config : Config} {capacity : Nat} {buffer : Array UInt8}
variable {steps : List (Receiver × Call)} {p : Progress Receiver Outcome}

theorem Receiver.start?_eq_ok {r : Receiver} :
    Receiver.start? config capacity buffer = .ok r ↔
      0 < capacity ∧ capacity ≤ buffer.size ∧ r = .start config capacity buffer := by
  unfold Receiver.start?
  split
  · simp; omega
  · split <;> simp <;> grind

theorem Line.receive_eq_ok {line : Line (StateM τ)} {fuel : Nat} {env env' : τ} :
    (line.receive config capacity buffer fuel).run env = (.ok p, env') ↔
      0 < capacity ∧ capacity ≤ buffer.size ∧
        (line.run Receiver.ask fuel (.start config capacity buffer)).run env = (p, env') := by
  have hok (r : Receiver) :
      (Except.ok <$> line.run Receiver.ask fuel r : StateM τ (Except Refusal _)).run env =
        (.ok p, env') ↔ (line.run Receiver.ask fuel r).run env = (p, env') := by
    rw [StateT.run_map]
    obtain ⟨p', env''⟩ := (line.run Receiver.ask fuel r).run env
    constructor <;> rintro ⟨⟩ <;> rfl
  rw [receive]
  cases hstart : Receiver.start? config capacity buffer with
  | error refusal =>
    refine iff_of_false nofun fun ⟨h₀, h₁, _⟩ => ?_
    rw [Receiver.start?_eq_ok.2 ⟨h₀, h₁, rfl⟩] at hstart
    cases hstart
  | ok r =>
    obtain ⟨h₀, h₁, rfl⟩ := Receiver.start?_eq_ok.1 hstart
    exact (hok _).trans ⟨fun h => ⟨h₀, h₁, h⟩, fun h => h.2.2⟩

theorem Line.run_receive (line : Line (StateM τ)) (fuel : Nat) (env : τ) (h₀ : 0 < capacity)
    (h₁ : capacity ≤ buffer.size) :
    ((line.recorded.receive config capacity buffer fuel).run []).run env =
      let ((p, calls), env') :=
        ((line.recorded.run Receiver.ask fuel (.start config capacity buffer)).run []).run env
      ((.ok p, calls), env') := by
  rw [receive, Receiver.start?_eq_ok.2 ⟨h₀, h₁, rfl⟩]
  rfl

theorem Line.run_receive_eq_ok {line : Line (StateM τ)} {fuel : Nat} {calls : List Call} {env env' : τ}
    (h₀ : 0 < capacity) (h₁ : capacity ≤ buffer.size) :
    ((line.recorded.receive config capacity buffer fuel).run []).run env = ((.ok p, calls), env') ↔
      ((line.recorded.run Receiver.ask fuel (.start config capacity buffer)).run []).run env =
        ((p, calls), env') := by
  rw [line.run_receive fuel env h₀ h₁]
  obtain ⟨⟨p', calls'⟩, env''⟩ :=
    ((line.recorded.run Receiver.ask fuel (.start config capacity buffer)).run []).run env
  constructor <;> rintro ⟨⟩ <;> rfl

theorem Line.receive_of_recorded {line : Line (StateM τ)} {fuel : Nat} {calls : List Call} {env env' : τ}
    {result : Except Refusal (Progress Receiver Outcome)}
    (h : ((line.recorded.receive config capacity buffer fuel).run []).run env = ((result, calls), env')) :
    (line.receive config capacity buffer fuel).run env = (result, env') := by
  have hfst : Prod.fst <$> (line.recorded.receive config capacity buffer fuel).run [] =
      line.receive config capacity buffer fuel := by
    unfold receive
    cases Receiver.start? config capacity buffer with
    | error refusal => simp
    | ok receiver => simp [← line.run_recorded Receiver.ask fuel receiver []]
  rw [← hfst, StateT.run_map, h]
  rfl

theorem Line.run_of_receive {line : Line (StateM τ)} {fuel : Nat} {calls : List Call} {env env' : τ}
    (h : ((line.recorded.receive config capacity buffer fuel).run []).run env = ((.ok p, calls), env')) :
    ∃ steps, Receiver.Run config capacity buffer steps p ∧ calls = steps.map Prod.snd := by
  cases hs : Receiver.start? config capacity buffer with
  | error refusal =>
    rw [receive, hs] at h
    cases h
  | ok r =>
    obtain ⟨h₀, h₁, rfl⟩ := Receiver.start?_eq_ok.1 hs
    rw [line.run_receive fuel env h₀ h₁] at h
    cases h
    obtain ⟨steps, ht, hc⟩ := line.trace_of_run rfl
    exact ⟨steps, ⟨h₀, h₁, ht⟩, hc⟩

/-- How a receiver stands after so many questions to a line. -/
def Line.standing (line : Line (StateM τ)) (config : Config) (capacity : Nat) (buffer : Array UInt8)
    (fuel : Nat) (env : τ) : Progress Receiver Outcome :=
  (((line.recorded.run Receiver.ask fuel (.start config capacity buffer)).run []).run env).1.1

theorem Line.exists_run_standing (line : Line (StateM τ)) (config : Config) (capacity : Nat)
    (buffer : Array UInt8) (fuel : Nat) (env : τ) (h₀ : 0 < capacity) (h₁ : capacity ≤ buffer.size) :
    ∃ steps, Receiver.Run config capacity buffer steps
      (line.standing config capacity buffer fuel env) := by
  have hrun : ((line.recorded.run Receiver.ask fuel (.start config capacity buffer)).run []).run env =
    ((line.standing config capacity buffer fuel env, _), _) := rfl
  obtain ⟨steps, ht, -⟩ := line.trace_of_run hrun
  exact ⟨steps, h₀, h₁, ht⟩

theorem Line.receive_of_standing {line : Line (StateM τ)} {fuel : Nat} {env : τ} (h₀ : 0 < capacity)
    (h₁ : capacity ≤ buffer.size) (h : line.standing config capacity buffer fuel env = p) :
    ∃ calls env', ((line.recorded.receive config capacity buffer fuel).run []).run env =
      ((.ok p, calls), env') := by
  rw [line.run_receive fuel env h₀ h₁, ← h]
  exact ⟨_, _, rfl⟩

/-- Each run is what is received over some line. -/
theorem Receiver.Run.exists_receive (h : Receiver.Run config capacity buffer steps p) :
    ∃ (line : Line (StateM (List Call))) (fuel : Nat) (env : List Call),
      ((line.recorded.receive config capacity buffer fuel).run []).run env =
        ((.ok p, steps.map Prod.snd), []) := by
  obtain ⟨line, fuel, env, hrun⟩ := h.trace.exists_line
  refine ⟨line, fuel, env, ?_⟩
  rw [line.run_receive fuel env h.pos h.le, hrun]

end

/-! ### One step -/

/-- What a call does to a wait. -/
inductive Wait.Step : Wait → Call → Progress Wait Polled → Prop
  | armed {window now : UInt32} :
    Step (.arming window) (.timed now) (.going (.listening (.after now window)))
  | found {deadline : Deadline} {byte : UInt8} :
    Step (.listening deadline) (.polled (.ok (some byte))) (.ended (.ok (some byte)))
  | missed {deadline : Deadline} :
    Step (.listening deadline) (.polled (.ok none)) (.going (.checking deadline))
  | broken {deadline : Deadline} {e : IoError} :
    Step (.listening deadline) (.polled (.error e)) (.ended (.error e))
  | early {deadline : Deadline} {now : UInt32} (h : deadline.reached now = false) :
    Step (.checking deadline) (.timed now) (.going (.listening deadline))
  | late {deadline : Deadline} {now : UInt32} (h : deadline.reached now = true) :
    Step (.checking deadline) (.timed now) (.ended (.ok none))

namespace Wait.Step
variable {wait : Wait} {call : Call}

theorem of_answer {p : Progress Wait Polled} (h : wait.ask.Answer call p) : wait.Step call p := by
  cases wait with
  | arming window => cases h with | clock next now => exact .armed
  | listening deadline =>
    cases h with
    | poll next found =>
      match found with
      | .ok (some byte) => exact .found
      | .ok none => exact .missed
      | .error e => exact .broken
  | checking deadline =>
    cases h with
    | clock next now =>
      cases hr : deadline.reached now with
      | true => simpa [hr] using Step.late hr
      | false => simpa [hr] using Step.early hr

theorem answer {p : Progress Wait Polled} (h : wait.Step call p) : wait.ask.Answer call p := by
  cases h with
  | armed => exact .clock _ _
  | found => exact .poll _ (.ok (some _))
  | missed => exact .poll _ (.ok none)
  | broken => exact .poll _ (.error _)
  | @early deadline now h =>
    have ha : (checking deadline).ask.Answer (.timed now)
        (if deadline.reached now then .ended (.ok none) else .going (listening deadline)) := .clock _ now
    rwa [if_neg (by simp [h])] at ha
  | @late deadline now h =>
    have ha : (checking deadline).ask.Answer (.timed now)
        (if deadline.reached now then .ended (.ok none) else .going (listening deadline)) := .clock _ now
    rwa [if_pos h] at ha

theorem taken?_of_going {wait' : Wait} (h : wait.Step call (.going wait')) : call.taken? = none := by
  cases h <;> rfl

theorem taken?_of_ended {byte : Option UInt8} (h : wait.Step call (.ended (.ok byte))) :
    call.taken? = byte := by
  cases h <;> rfl

theorem taken?_of_error {e : IoError} (h : wait.Step call (.ended (.error e))) : call.taken? = none := by
  cases h
  rfl

end Wait.Step

/-- What a call does to a flush. -/
inductive Drain.Step (d : Drain) (call : Call) : Progress Drain (Except IoError Nat) → Prop
  | waiting {wait : Wait} (h : d.wait.Step call (.going wait)) : Step d call (.going { d with wait })
  | discarded {byte : UInt8} (h : d.wait.Step call (.ended (.ok (some byte)))) :
    Step d call (.going ⟨d.window, d.discarded + 1, .arming d.window⟩)
  | idle (h : d.wait.Step call (.ended (.ok none))) : Step d call (.ended (.ok d.discarded))
  | broken {e : IoError} (h : d.wait.Step call (.ended (.error e))) : Step d call (.ended (.error e))

theorem Drain.Step.of_answer {d : Drain} {call : Call} {turn : Turn Drain (Except IoError Nat)}
    (h : d.ask.Answer call turn) : d.Step call turn.next := by
  obtain ⟨p, hp, rfl⟩ := h.of_map
  match p, Wait.Step.of_answer hp with
  | .going wait, hp => exact .waiting hp
  | .ended (.ok (some byte)), hp => exact .discarded hp
  | .ended (.ok none), hp => exact .idle hp
  | .ended (.error e), hp => exact .broken hp

/-- What a call does to a receiver. -/
inductive Receiver.Step : Receiver → Call → Receiver.Turn → Prop
  | waiting {s : Session} {field : Field} {wait wait' : Wait} {call : Call}
    (h : wait.Step call (.going wait')) :
    Step ⟨s, .reading field wait⟩ call (.going ⟨s, .reading field wait'⟩)
  | heard {s : Session} {field : Field} {wait : Wait} {call : Call} {byte : Option UInt8}
    (h : wait.Step call (.ended (.ok byte))) :
    Step ⟨s, .reading field wait⟩ call (s.heard field byte)
  | unheard {s : Session} {field : Field} {wait : Wait} {call : Call} {e : IoError}
    (h : wait.Step call (.ended (.error e))) :
    Step ⟨s, .reading field wait⟩ call (s.fail (.io e))
  | draining {s : Session} {cause : FlushCause} {drain drain' : Drain} {call : Call}
    {said : List Message} (h : drain.ask.Answer call ⟨said, .going drain'⟩) :
    Step ⟨s, .flushing cause drain⟩ call ⟨said, .going ⟨s, .flushing cause drain'⟩⟩
  | drained {s : Session} {cause : FlushCause} {drain : Drain} {call : Call} {said : List Message}
    {count : Nat} (h : drain.ask.Answer call ⟨said, .ended (.ok count)⟩) :
    Step ⟨s, .flushing cause drain⟩ call ((s.flushed cause).after said)
  | undrained {s : Session} {cause : FlushCause} {drain : Drain} {call : Call} {said : List Message}
    {e : IoError} (h : drain.ask.Answer call ⟨said, .ended (.error e)⟩) :
    Step ⟨s, .flushing cause drain⟩ call ((s.fail (.io e)).after said)
  | wrote {s : Session} {what : Sending} (result : Except IoError Unit) :
    Step ⟨s, .sending what⟩ (.wrote (s.byteFor what) result) (s.wrote what result)

theorem Receiver.step_of_answer {r : Receiver} {call : Call} {turn : Receiver.Turn}
    (h : r.ask.Answer call turn) : r.Step call turn := by
  obtain ⟨s, activity⟩ := r
  cases activity with
  | reading field wait =>
    unfold Receiver.ask at h
    obtain ⟨p, hp, rfl⟩ := h.of_map
    match p, Wait.Step.of_answer hp with
    | .going wait', hp => exact .waiting hp
    | .ended (.ok byte), hp => exact .heard hp
    | .ended (.error e), hp => exact .unheard hp
  | flushing cause drain =>
    unfold Receiver.ask at h
    obtain ⟨turn, ht, rfl⟩ := h.of_map
    match turn, ht with
    | ⟨said, .going drain'⟩, ht => exact .draining ht
    | ⟨said, .ended (.ok count)⟩, ht => exact .drained ht
    | ⟨said, .ended (.error e)⟩, ht => exact .undrained ht
  | sending what =>
    cases h with
    | write byte next result => exact .wrote result

/-! ### Along a run -/

namespace Receiver
variable {config : Config} {capacity : Nat} {buffer : Array UInt8}
variable {steps past latest : List (Receiver × Call)} {p : Progress Receiver Outcome}

/-- What holds at the start, and is kept by each step of a run, holds along the run. -/
theorem Run.induct {P : List (Receiver × Call) → Progress Receiver Outcome → Prop}
    (h : Run config capacity buffer steps p) (h₀ : P [] (.going (.start config capacity buffer)))
    (hstep : ∀ steps r call turn, Run config capacity buffer steps (.going r) → P steps (.going r) →
      r.Step call turn → P (steps ++ [(r, call)]) turn.next) : P steps p := by
  obtain ⟨hpos, hle, htrace⟩ := h
  induction htrace with
  | start => exact h₀
  | step ht ha ih => exact hstep _ _ _ _ ⟨hpos, hle, ht⟩ ih (step_of_answer ha)

/-- What holds behind one step, and is kept by each step that follows, holds from there on. It may speak of
the steps since then. -/
theorem Run.since {r₁ : Receiver} {call₁ : Call}
    {P : List (Receiver × Call) → Progress Receiver Outcome → Prop}
    (h : Run config capacity buffer (past ++ (r₁, call₁) :: latest) p)
    (h₀ : ∀ turn, Run config capacity buffer past (.going r₁) → r₁.Step call₁ turn → P [] turn.next)
    (hstep : ∀ latest r call turn, Run config capacity buffer (past ++ (r₁, call₁) :: latest) (.going r) →
      P latest (.going r) → r.Step call turn → P (latest ++ [(r, call)]) turn.next) : P latest p := by
  generalize hsteps : past ++ (r₁, call₁) :: latest = steps at h
  refine h.induct (P := fun steps p => ∀ latest, past ++ (r₁, call₁) :: latest = steps → P latest p)
    (fun latest hnil => by simp at hnil) (fun before r call turn hrun ih hs latest hsplit => ?_) latest hsteps
  -- The last step is the one from which on it holds, or one of those that follow it.
  rcases List.eq_nil_or_concat latest with rfl | ⟨latest', step, rfl⟩
  · obtain ⟨rfl, hfirst⟩ := List.append_inj' hsplit rfl
    obtain ⟨rfl, rfl⟩ := Prod.mk.inj (List.cons.inj hfirst).1
    exact h₀ turn hrun hs
  · have hconcat : (past ++ (r₁, call₁) :: latest') ++ [step] = before ++ [(r, call)] := by
      simpa using hsplit
    obtain ⟨rfl, hlast⟩ := List.append_inj' hconcat rfl
    obtain rfl := (List.cons.inj hlast).1
    rw [List.concat_eq_append]
    exact hstep latest' r call turn hrun (ih latest' rfl) hs

end Receiver

/-! ### What an attempt comes to -/

/-- How many bytes of the block in hand have been stored when a field is awaited. -/
def Field.held : Field → Nat
  | payload taken _ => taken
  | checksum _ => blockSize
  | _ => 0

namespace Session

/-- What makes an attempt fail: the awaited byte does not come, or does not fit its field. -/
inductive Rejects (s : Session) : Field → Option UInt8 → Prop
  | silence (field : Field) : Rejects s field none
  | start {byte : UInt8} (h₁ : byte ≠ Control.soh) (h₂ : byte ≠ Control.eot) : Rejects s .start (some byte)
  | complement {byte : UInt8} (h : byte ≠ ~~~s.expected) : Rejects s .complement (some byte)
  | checksum {sum byte : UInt8} (h : byte ≠ sum) : Rejects s (.checksum sum) (some byte)

/-- What a byte of the awaited field, or its absence, leads to. -/
inductive Hears (s : Session) : Field → Option UInt8 → Progress Receiver Outcome → Prop
  | header : Hears s .start (some Control.soh) (s.read .number).next
  | farewell : Hears s .start (some Control.eot) (s.send .farewell).next
  | repeated : Hears s .number (some (s.expected - 1)) (s.flush .repeated).next
  | unexpected {byte : UInt8} (h₁ : byte ≠ s.expected - 1) (h₂ : byte ≠ s.expected) :
    Hears s .number (some byte) (s.flush (.unexpected byte)).next
  | noRoom (h : s.capacity < s.filled + blockSize) :
    Hears s .number (some s.expected) (s.fail .bufferFull).next
  | number (h : s.filled + blockSize ≤ s.capacity) :
    Hears s .number (some s.expected) (s.read .complement).next
  | complement : Hears s .complement (some (~~~s.expected)) (s.read (.payload 0 0)).next
  | payload {taken : Nat} {sum byte : UInt8} (h : taken + 1 < blockSize) :
    Hears s (.payload taken sum) (some byte) ((s.store byte).read (.payload (taken + 1) (sum + byte))).next
  | lastPayload {taken : Nat} {sum byte : UInt8} (h : blockSize ≤ taken + 1) :
    Hears s (.payload taken sum) (some byte) ((s.store byte).read (.checksum (sum + byte))).next
  | checksum {sum : UInt8} : Hears s (.checksum sum) (some sum) s.commit.acknowledge.next
  | rejected {field : Field} {byte : Option UInt8} (h : s.Rejects field byte) :
    Hears s field byte (s.takeBack field.held).retry.next

theorem hears_heard (s : Session) (field : Field) (byte : Option UInt8) :
    s.Hears field byte (s.heard field byte).next := by
  cases byte with
  | none => cases field <;> exact .rejected (.silence _)
  | some byte =>
    cases field with
    | start =>
      by_cases h₁ : byte = Control.soh
      · subst h₁; exact .header
      by_cases h₂ : byte = Control.eot
      · subst h₂; exact .farewell
      rw [heard, if_neg h₁, if_neg h₂]
      exact .rejected (.start h₁ h₂)
    | number =>
      by_cases h₁ : byte = s.expected - 1
      · rw [heard, if_pos h₁, h₁]; exact .repeated
      by_cases h₂ : byte = s.expected
      · subst h₂
        rw [heard, if_neg h₁, if_neg (not_not_intro rfl)]
        split
        · exact .noRoom ‹_›
        · exact .number (Nat.le_of_not_lt ‹_›)
      · rw [heard, if_neg h₁, if_pos h₂]; exact .unexpected h₁ h₂
    | complement =>
      by_cases h : byte = ~~~s.expected
      · subst h; rw [heard, if_pos rfl]; exact .complement
      · rw [heard, if_neg h]; exact .rejected (.complement h)
    | payload taken sum =>
      by_cases h : taken + 1 < blockSize
      · rw [heard, if_pos h]; exact .payload h
      · rw [heard, if_neg h]; exact .lastPayload (Nat.le_of_not_lt h)
    | checksum sum =>
      by_cases h : byte = sum
      · subst h; rw [heard, if_pos rfl]; exact .checksum
      · rw [heard, if_neg h]; exact .rejected (.checksum h)

/-- What the opening of an attempt leads to. -/
inductive Opens (s : Session) : Progress Receiver Outcome → Prop
  | opened (h : s.attempts.toNat + 1 ≤ s.config.maxRetries.toNat) :
    Opens s ({ s with attempts := s.attempts + 1 }.send .reply).next
  | abandoned (h : s.config.maxRetries.toNat < s.attempts.toNat + 1) : Opens s (s.fail .timeout).next
  | exhausted (h : UInt32.size ≤ s.attempts.toNat + 1) : Opens s (s.finish .exhausted).next

theorem opens_openAttempt (s : Session) : s.Opens s.openAttempt.next := by
  unfold openAttempt
  split
  · rename_i h
    have hn : (s.attempts + 1).toNat = s.attempts.toNat + 1 := by
      rw [UInt32.toNat_add]
      exact Nat.mod_eq_of_lt h
    dsimp only
    split
    · rename_i hlt
      exact .abandoned (by rw [← hn]; exact hlt)
    · rename_i hle
      exact .opened (by rw [← hn]; exact Nat.le_of_not_lt hle)
  · exact .exhausted (Nat.le_of_not_lt ‹_›)

/-- What becomes of a byte that is sent. -/
inductive Writes (s : Session) : Sending → Progress Receiver Outcome → Prop
  | opened : Writes s .reply ({ s with reply := .nak }.read .start).next
  | finished : Writes s .farewell (s.finish (.received s.filled)).next
  | broken (what : Sending) (e : IoError) : Writes s what (s.fail (.io e)).next
  | cancelling (cause : TransferError) (left : Nat) :
    Writes s (.cancel cause left) (s.send (.cancel cause (left - 1))).next
  | cancelled (cause : TransferError) (left : Nat) :
    Writes s (.cancel cause left) (s.finish (.failed cause)).next

theorem writes_wrote (s : Session) (what : Sending) (result : Except IoError Unit) :
    s.Writes what (s.wrote what result).next := by
  cases what with
  | reply =>
    cases result with
    | ok _ => exact .opened
    | error e => exact .broken _ e
  | farewell =>
    cases result with
    | ok _ => exact .finished
    | error e => exact .broken _ e
  | cancel cause left =>
    cases result with
    | ok _ =>
      by_cases h : 1 < left
      · rw [wrote, if_pos h]
        exact .cancelling cause left
      · rw [wrote, if_neg h]
        exact .cancelled cause left
    | error e => exact .cancelled cause left

end Session

end Xmodem
