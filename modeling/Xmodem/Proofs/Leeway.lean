import Xmodem.Proofs.ClockShift
import Xmodem.Proofs.Representation

/-!
# More room, and more attempts

What a receiver does depends on the capacity only where a block is offered for which there may be no room,
and on the limit of attempts only where an attempt is opened. So a receiver that may use more of the buffer,
and that may fail more often, goes in step with one that may not (`Receiver.Agree`), until the latter gives
up for want of room or of attempts. Which of its calls bring it there is said by `Receiver.Exhausts`.
-/

namespace Xmodem

/-- The messages are the same, but for the number of retries that the report of one gives as the limit. -/
inductive Message.SameButLimit : Message → Message → Prop
  | same (message : Message) : SameButLimit message message
  | retrying (retry limit limit' : UInt32) (block : UInt8) :
    SameButLimit (.retrying retry limit block) (.retrying retry limit' block)

theorem Message.sameButLimit_same (messages : List Message) :
    List.Forall₂ SameButLimit messages messages :=
  List.forall₂_same.2 fun message _ => .same message

/-- The transfer failed for want of room or of attempts. -/
def TransferError.OfLimits : TransferError → Prop
  | timeout => True
  | bufferFull => True
  | _ => False

/-! ### Failures -/

/-- What a receiver cancels its transfer for. -/
def Receiver.failure? : Receiver → Option TransferError
  | ⟨_, .sending (.cancel error _)⟩ => some error
  | _ => none

def Outcome.failure? (o : Outcome) : Option TransferError :=
  match o.ending with
  | .failed error => some error
  | _ => none

/-- What a transfer has failed for, whether it is cancelled already or not. -/
def Progress.failure? : Progress Receiver Outcome → Option TransferError
  | going r => r.failure?
  | ended o => o.failure?

namespace Receiver

/-- The transfer is given up for want of room or of attempts. -/
def GivesUp (r : Receiver) : Prop :=
  ∃ error, r.failure? = some error ∧ error.OfLimits

theorem givesUp_iff {p : Progress Receiver Outcome} :
    p.Holds GivesUp (fun o => ∃ error, o.failure? = some error ∧ error.OfLimits) ↔
      ∃ error, p.failure? = some error ∧ error.OfLimits := by
  cases p <;> rfl

theorem failure?_eq_some {r : Receiver} {error : TransferError} (h : r.failure? = some error) :
    ∃ s left, r = ⟨s, .sending (.cancel error left)⟩ := by
  unfold failure? at h
  split at h
  · obtain rfl := Option.some.inj h
    exact ⟨_, _, rfl⟩
  · cases h

/-- A transfer that has failed ends with what it failed for. -/
theorem Step.failure? {r : Receiver} {call : Call} {turn : Receiver.Turn} {error : TransferError}
    (hs : r.Step call turn) (h : r.failure? = some error) : turn.next.failure? = some error := by
  obtain ⟨s, left, rfl⟩ := failure?_eq_some h
  cases hs with
  | wrote result =>
    cases result with
    | error e => rfl
    | ok _ =>
      by_cases hleft : 1 < left
      · rw [Session.wrote, if_pos hleft]
        rfl
      · rw [Session.wrote, if_neg hleft]
        rfl

/-- Behind the first flush, and unless the transfer is cancelled, an attempt has been made: so the limit allows
one. -/
def Tried : Receiver → Prop
  | ⟨_, .flushing .retry _⟩ => True
  | ⟨_, .sending (.cancel ..)⟩ => True
  | ⟨s, _⟩ => 0 < s.config.maxRetries.toNat

/-- The call by which a receiver finds that there is no room for the block that is offered, or no attempt
left for another flush. -/
inductive Exhausts : Receiver → Call → TransferError → Prop
  | room {s : Session} {deadline : Deadline} (h : s.capacity < s.filled + blockSize) :
    Exhausts ⟨s, .reading .number (.listening deadline)⟩ (.polled (.ok (some s.expected))) .bufferFull
  | attempts {s : Session} {drain : Drain} {call : Call} (hflushed : drain.wait.Step call (.ended (.ok none)))
    (h : s.config.maxRetries.toNat < s.attempts.toNat + 1) :
    Exhausts ⟨s, .flushing .retry drain⟩ call .timeout

end Receiver

namespace Session
variable {s : Session} {p : Progress Receiver Outcome} {error : TransferError}

theorem Opens.tried (h : s.Opens p) : p.Holds Receiver.Tried fun _ => True := by
  cases h with
  | opened hle => exact Nat.lt_of_lt_of_le (Nat.succ_pos _) hle
  | abandoned _ => trivial
  | exhausted _ => trivial

theorem Hears.tried {field : Field} {byte : Option UInt8} (h : s.Hears field byte p)
    (ht : 0 < s.config.maxRetries.toNat) : p.Holds Receiver.Tried fun _ => True := by
  cases h with
  | checksum => exact (opens_openAttempt _).tried
  | noRoom _ => trivial
  | rejected _ => trivial
  | _ => exact ht

/-- Only for want of attempts does the opening of one fail. -/
theorem Opens.abandoned_of_failure (h : s.Opens p) (he : p.failure? = some error) :
    error = .timeout ∧ s.config.maxRetries.toNat < s.attempts.toNat + 1 ∧ p = (s.fail error).next := by
  cases h with
  | opened _ => cases he
  | abandoned hlt =>
    cases he
    exact ⟨rfl, hlt, rfl⟩
  | exhausted _ => cases he

theorem acknowledge_failure? (ht : 0 < s.config.maxRetries.toNat) : s.acknowledge.next.failure? = none := by
  cases he : s.acknowledge.next.failure? with
  | none => rfl
  | some error =>
    obtain ⟨-, hlt, -⟩ := (opens_openAttempt _).abandoned_of_failure he
    exact absurd hlt (Nat.not_lt_of_le (Nat.succ_le_of_lt ht))

theorem Hears.noRoom_of_failure {field : Field} {byte : Option UInt8} (h : s.Hears field byte p)
    (ht : 0 < s.config.maxRetries.toNat) (he : p.failure? = some error) :
    field = .number ∧ byte = some s.expected ∧ s.capacity < s.filled + blockSize ∧ error = .bufferFull ∧
      p = (s.fail error).next := by
  cases h with
  | noRoom hroom =>
    cases he
    exact ⟨rfl, rfl, hroom, rfl, rfl⟩
  | checksum =>
    have hnone := acknowledge_failure? (s := s.commit) ht
    cases hnone.symm.trans he
  | _ => cases he

end Session

namespace Receiver
variable {r : Receiver} {call : Call} {turn : Receiver.Turn} {error : TransferError}

theorem Tried.step (h : r.Tried) (hs : r.Step call turn) : turn.next.Holds Tried fun _ => True := by
  cases hs with
  | waiting _ => exact h
  | heard _ => exact (Session.hears_heard _ _ _).tried h
  | unheard _ => trivial
  | @draining s cause drain drain' call said _ =>
    cases cause <;> exact h
  | @drained s cause drain call said count _ =>
    cases cause with
    | retry => exact s.opens_openAttempt.tried
    | repeated => exact (Session.opens_openAttempt _).tried
    | unexpected received => trivial
  | undrained _ => trivial
  | @wrote s what result =>
    have hwrites := s.writes_wrote what result
    generalize (s.wrote what result).next = p at hwrites ⊢
    cases hwrites with
    | opened => exact h
    | _ => trivial

/-- A receiver that gives up for want of room or of attempts has just found that out. -/
theorem Step.exhausts (hs : r.Step call turn) (ht : r.Tried) (hr : ¬ r.GivesUp)
    (he : turn.next.failure? = some error) (hlimits : error.OfLimits) :
    r.Exhausts call error ∧ turn.next = .going ⟨r.session, .sending (.cancel error cancelCount)⟩ := by
  cases hs with
  | waiting _ => cases he
  | heard h =>
    obtain ⟨rfl, rfl, hroom, rfl, hnext⟩ := (Session.hears_heard _ _ _).noRoom_of_failure ht he
    cases h with
    | found => exact ⟨.room hroom, hnext⟩
  | unheard _ =>
    cases he
    exact hlimits.elim
  | draining _ => cases he
  | @drained s cause drain call said count h =>
    cases cause with
    | retry =>
      obtain ⟨rfl, hlt, hnext⟩ := s.opens_openAttempt.abandoned_of_failure he
      cases Drain.Step.of_answer h with
      | idle hflushed => exact ⟨.attempts hflushed hlt, hnext⟩
    | repeated =>
      have hnone := Session.acknowledge_failure? (s := s) ht
      cases hnone.symm.trans he
    | unexpected received =>
      cases he
      exact hlimits.elim
  | undrained _ =>
    cases he
    exact hlimits.elim
  | @wrote s what result =>
    have hwrites := s.writes_wrote what result
    generalize (s.wrote what result).next = p at hwrites he ⊢
    cases hwrites with
    | opened => cases he
    | finished => cases he
    | broken _ e =>
      cases he
      exact hlimits.elim
    | cancelling cause left =>
      cases he
      exact absurd ⟨_, rfl, hlimits⟩ hr
    | cancelled cause left =>
      cases he
      exact absurd ⟨_, rfl, hlimits⟩ hr

end Receiver

/-! ### In step -/

/-- The session with another capacity and another limit of attempts. -/
def Session.widen (capacity : Nat) (limit : UInt32) (s : Session) : Session :=
  { s with capacity, config := { s.config with maxRetries := limit } }

def Receiver.widen (capacity : Nat) (limit : UInt32) (r : Receiver) : Receiver :=
  ⟨r.session.widen capacity limit, r.activity⟩

/-- The second turn is that of the wider receiver, unless the first gives up. -/
inductive Receiver.Agree (capacity : Nat) (limit : UInt32) (turn turn' : Receiver.Turn) : Prop
  | parted {error : TransferError} (h : turn.next.failure? = some error) (hlimits : error.OfLimits)
  | together (hnext : turn'.next = turn.next.map (Receiver.widen capacity limit))
    (hsaid : List.Forall₂ Message.SameButLimit turn.said turn'.said)

namespace Session
variable {s : Session} {capacity : Nat} {limit : UInt32}

open Receiver

theorem agree_after {turn turn' : Receiver.Turn} (h : Agree capacity limit turn turn')
    (messages : List Message) : Agree capacity limit (turn.after messages) (turn'.after messages) := by
  cases h with
  | parted h hlimits => exact .parted h hlimits
  | together hnext hsaid => exact .together hnext (List.rel_append (Message.sameButLimit_same _) hsaid)

theorem agree_ite {c : Prop} [Decidable c] {t t' u u' : Receiver.Turn} (h₁ : c → Agree capacity limit t t')
    (h₂ : ¬ c → Agree capacity limit u u') :
    Agree capacity limit (if c then t else u) (if c then t' else u') := by
  split
  · exact h₁ ‹_›
  · exact h₂ ‹_›

/-- A check that the wider receiver passes if the other does, and that makes the other give up if it does not. -/
theorem agree_ite_limit {c c' : Prop} [Decidable c] [Decidable c'] {t t' u u' : Receiver.Turn}
    (error : TransferError) (ht : t.next.failure? = some error) (hlimits : error.OfLimits) (hc : c' → c)
    (h : Agree capacity limit u u') : Agree capacity limit (if c then t else u) (if c' then t' else u') := by
  by_cases hcond : c
  · rw [if_pos hcond]
    exact .parted ht hlimits
  · rw [if_neg hcond, if_neg fun hc' => hcond (hc hc')]
    exact h

theorem agree_read (field : Field) :
    Agree capacity limit (s.read field) ((s.widen capacity limit).read field) := by
  refine .together ?_ .nil
  cases field <;> rfl

theorem agree_flush (cause : FlushCause) :
    Agree capacity limit (s.flush cause) ((s.widen capacity limit).flush cause) :=
  .together rfl .nil

theorem agree_send (what : Sending) :
    Agree capacity limit (s.send what) ((s.widen capacity limit).send what) :=
  .together rfl .nil

theorem agree_finish (ending : Ending) :
    Agree capacity limit (s.finish ending) ((s.widen capacity limit).finish ending) :=
  .together rfl .nil

theorem agree_openAttempt (hlimit : s.config.maxRetries ≤ limit) :
    Agree capacity limit s.openAttempt (s.widen capacity limit).openAttempt := by
  refine agree_ite (fun _ => ?_) fun _ => agree_finish _
  refine agree_ite_limit .timeout rfl trivial (fun hlt => Nat.lt_of_le_of_lt hlimit hlt) ?_
  refine .together rfl (List.rel_append ?_ .nil)
  show List.Forall₂ _ (if 1 < s.attempts + 1 then _ else _) (if 1 < s.attempts + 1 then _ else _)
  split
  · exact .cons (.retrying ..) .nil
  · exact .nil

theorem agree_acknowledge (hlimit : s.config.maxRetries ≤ limit) :
    Agree capacity limit s.acknowledge (s.widen capacity limit).acknowledge :=
  agree_openAttempt (s := { s with attempts := 0, reply := .ack }) hlimit

theorem agree_heard (hcapacity : s.capacity ≤ capacity) (hlimit : s.config.maxRetries ≤ limit) (field : Field)
    (byte : Option UInt8) :
    Agree capacity limit (s.heard field byte) ((s.widen capacity limit).heard field byte) := by
  have hfail (messages : List Message) (count : Nat) : Agree capacity limit
      ((s.takeBack count).retry.after messages) (((s.widen capacity limit).takeBack count).retry.after messages) :=
    agree_after (agree_flush (s := s.takeBack count) .retry) messages
  cases byte with
  | none =>
    cases field with
    | start => exact hfail _ 0
    | number => exact hfail [] 0
    | complement => exact hfail [] 0
    | payload taken sum => exact hfail _ taken
    | checksum sum => exact hfail _ blockSize
  | some byte =>
    cases field with
    | start =>
      refine agree_ite (fun _ => agree_read .number) fun _ => ?_
      exact agree_ite (fun _ => agree_after (agree_send .farewell) _) fun _ => hfail _ 0
    | number =>
      refine agree_ite (fun _ => agree_after (agree_flush .repeated) _) fun _ => ?_
      refine agree_ite (fun _ => agree_flush _) fun _ => ?_
      exact agree_ite_limit .bufferFull rfl trivial (fun hlt => Nat.lt_of_le_of_lt hcapacity hlt)
        (agree_read .complement)
    | complement => exact agree_ite (fun _ => agree_read (.payload 0 0)) fun _ => hfail _ 0
    | payload taken sum =>
      exact agree_ite (fun _ => agree_read (s := s.store byte) _) fun _ => agree_read (s := s.store byte) _
    | checksum sum =>
      refine agree_ite (fun _ => agree_after (agree_acknowledge (s := s.commit) hlimit) _) fun _ => ?_
      exact hfail _ blockSize

theorem agree_flushed (hlimit : s.config.maxRetries ≤ limit) (cause : FlushCause) :
    Agree capacity limit (s.flushed cause) ((s.widen capacity limit).flushed cause) := by
  cases cause with
  | retry => exact agree_openAttempt hlimit
  | repeated => exact agree_acknowledge hlimit
  | unexpected received => exact agree_send _

theorem agree_wrote (what : Sending) (result : Except IoError Unit) :
    Agree capacity limit (s.wrote what result) ((s.widen capacity limit).wrote what result) := by
  cases what with
  | reply =>
    cases result with
    | ok _ => exact agree_after (agree_read (s := { s with reply := .nak }) .start) _
    | error e => exact agree_send _
  | farewell =>
    cases result with
    | ok _ => exact agree_after (agree_finish _) _
    | error e => exact agree_send _
  | cancel cause left =>
    cases result with
    | ok _ =>
      exact agree_ite (fun _ => agree_send _) fun _ => agree_after (agree_finish _) _
    | error e => exact agree_after (agree_finish _) _

end Session

section
variable {capacity : Nat} {limit : UInt32}

theorem Line.Awaits.answer_widen {e e' : Wait → Receiver} {k k' : Polled → Receiver.Turn}
    (he : Awaits Receiver.ask e k) (he' : Awaits Receiver.ask e' k')
    (hwiden : ∀ wait, (e wait).widen capacity limit = e' wait)
    (hk : ∀ result, Receiver.Agree capacity limit (k result) (k' result)) {wait : Wait} {call : Call}
    {turn : Receiver.Turn} (h : (e wait).ask.Answer call turn) :
    ∃ turn', ((e wait).widen capacity limit).ask.Answer call turn' ∧ Receiver.Agree capacity limit turn turn' := by
  rw [he wait] at h
  rw [hwiden wait, he' wait]
  obtain ⟨p, hp, rfl⟩ := h.of_map
  refine ⟨waiting e' k' p, hp.map _, ?_⟩
  cases p with
  | going wait' => exact .together (congrArg Progress.going (hwiden wait').symm) .nil
  | ended result => exact hk result

/-- The wider receiver asks the same, and the answer leads it to the same, unless the other gives up. -/
theorem Receiver.Inv.answer_widen {config : Config} {capacity₀ size : Nat} {r : Receiver} {call : Call}
    {turn : Receiver.Turn} (hi : r.Inv config capacity₀ size) (hle : capacity₀ ≤ capacity)
    (hmax : config.maxRetries ≤ limit) (h : r.ask.Answer call turn) :
    ∃ turn', (r.widen capacity limit).ask.Answer call turn' ∧ Agree capacity limit turn turn' := by
  obtain ⟨s, activity⟩ := r
  have hcapacity : s.capacity ≤ capacity := by
    rw [hi.within.capacity_eq]
    exact hle
  have hlimit : s.config.maxRetries ≤ limit := by
    rw [hi.within.config_eq]
    exact hmax
  cases activity with
  | reading field wait =>
    have hwindow : field.window (s.widen capacity limit).config = field.window s.config := by
      cases field <;> rfl
    refine (Line.Carries.awaits_reading s field).answer_widen
      (Line.Carries.awaits_reading (s.widen capacity limit) field) (fun _ => rfl) (fun result => ?_) h
    cases result with
    | ok byte => exact Session.agree_heard hcapacity hlimit field byte
    | error e => exact Session.agree_send _
  | flushing cause drain =>
    obtain ⟨window, discarded, wait⟩ := drain
    refine (Line.Carries.awaits_flushing s cause window discarded).answer_widen
      (Line.Carries.awaits_flushing (s.widen capacity limit) cause window discarded) (fun _ => rfl)
      (fun result => ?_) h
    match result with
    | .ok (some byte) => exact .together rfl .nil
    | .ok none => exact Session.agree_after (Session.agree_flushed hlimit cause) _
    | .error e => exact Session.agree_send _
  | sending what =>
    cases h with
    | write byte next result => exact ⟨_, .write _ _ result, Session.agree_wrote what result⟩

end

/-! ### On a line -/

namespace Line
variable {τ σ ρ : Type} {line : Line (StateM τ)} {ask : σ → Ask (Turn σ ρ)} {env env' env₁ : τ}

/-- One more question. -/
theorem run_add_one {s s' : σ} {call : Call} {turn : Turn σ ρ} {fuel : Nat}
    (h : (line.run ask fuel s).run env = (.going s', env')) (ha : (ask s').Answer call turn)
    (hm : line.Makes env' call env₁) :
    (line.run ask (fuel + 1) s).run env = (turn.next, line.told turn.said env₁) := by
  rw [run_add, StateT.run_bind, h]
  show (line.run ask 1 s').run env' = _
  rw [run_succ 0 (answer_of_makes ha hm)]
  cases turn.next <;> rfl

/-- What holds in the end, and not at the start, comes with one of the questions. -/
theorem exists_first {G : σ → Prop} {Q : ρ → Prop} {fuel : Nat} {s : σ} {p : Progress σ ρ} (hs : ¬ G s)
    (hrun : (line.run ask fuel s).run env = (p, env')) (hp : p.Holds G Q) :
    ∃ k s₁ env₁ call turn env₂, k < fuel ∧ (line.run ask k s).run env = (.going s₁, env₁) ∧ ¬ G s₁ ∧
      (ask s₁).Answer call turn ∧ line.Makes env₁ call env₂ ∧ turn.next.Holds G Q := by
  induction fuel generalizing s env with
  | zero =>
    cases hrun
    exact absurd hp hs
  | succ fuel ih =>
    obtain ⟨⟨turn, env₁⟩, hanswer⟩ : ∃ r, (line.answer (ask s)).run env = r := ⟨_, rfl⟩
    obtain ⟨call, ha, hm⟩ := exists_makes hanswer
    by_cases hnext : turn.next.Holds G Q
    · exact ⟨0, s, env, call, turn, env₁, Nat.succ_pos _, rfl, hs, ha, hm, hnext⟩
    · rw [run_succ fuel hanswer] at hrun
      cases hn : turn.next with
      | going s₁ =>
        rw [hn] at hnext hrun
        obtain ⟨k, s₂, env₂, call₂, turn₂, env₃, hk, hrun₂, hrest⟩ := ih hnext hrun
        refine ⟨k + 1, s₂, env₂, call₂, turn₂, env₃, Nat.succ_lt_succ hk, ?_, hrest⟩
        rw [run_succ k hanswer, hn]
        exact hrun₂
      | ended r =>
        rw [hn] at hnext hrun
        cases hrun
        exact absurd hp hnext

/-- After so many questions a transfer stands so, and the journal of its line is this. -/
def Stands (line : Line (StateM τ)) (config : Config) (capacity : Nat) (buffer : Array UInt8) (env : τ)
    (fuel : Nat) (p : Progress Receiver Outcome) (journal : List Entry) : Prop :=
  ∃ env', (line.journaled.receive config capacity buffer fuel).run (env, []) = (.ok p, (env', journal))

theorem exists_stands (line : Line (StateM τ)) (config : Config) (capacity : Nat) (buffer : Array UInt8)
    (hpos : 0 < capacity) (hsize : capacity ≤ buffer.size) (env : τ) (fuel : Nat) :
    ∃ p journal, line.Stands config capacity buffer env fuel p journal ∧
      ((line.receive config capacity buffer fuel).run env).1 = .ok p := by
  obtain ⟨⟨p, env', journal⟩, hrun⟩ : ∃ r,
      (line.journaled.run Receiver.ask fuel (.start config capacity buffer)).run (env, []) = r := ⟨_, rfl⟩
  have hreceive := receive_eq_ok.2 ⟨hpos, hsize, hrun⟩
  refine ⟨p, journal, ⟨env', hreceive⟩, ?_⟩
  rw [← line.receive_journaled config capacity buffer fuel env [], hreceive]

theorem told_journaled (line : Line (StateM τ)) (messages : List Message) (env : τ) (journal : List Entry) :
    line.journaled.told messages (env, journal) =
      (line.told messages env, journal ++ messages.map Entry.report) := by
  induction messages generalizing env journal with
  | nil => exact Prod.ext rfl (List.append_nil journal).symm
  | cons message messages ih =>
    refine (ih ((line.report message).run env).2 (journal ++ [.report message])).trans ?_
    rw [List.append_assoc]
    rfl

/-- A question adds one call to the journal, whatever is reported then. -/
theorem calls_told {past : List Entry} {call : Call} {next : τ × List Entry}
    (hm : line.journaled.Makes (env, past) call next) (said : List Message) :
    (line.journaled.told said next).2.filterMap Entry.call? = past.filterMap Entry.call? ++ [call] := by
  obtain ⟨env', journal⟩ := next
  obtain ⟨-, rfl⟩ := makes_journaled_iff.1 hm
  have hreports : (said.map Entry.report).filterMap Entry.call? = [] := by
    simp [List.filterMap_map, Function.comp_def, Entry.call?]
  rw [told_journaled, List.filterMap_append, List.filterMap_append, hreports, List.append_nil]
  rfl

theorem calls_of_alike {agree : Message → Message → Prop} {past past' : List Entry}
    (h : List.Forall₂ (Entry.Alike 0 agree) past past') :
    past.filterMap Entry.call? = past'.filterMap Entry.call? := by
  induction h with
  | nil => rfl
  | cons halike _ ih =>
    cases halike with
    | call c =>
      rw [c.later_zero]
      exact congrArg (c :: ·) ih
    | report _ => exact ih

theorem failure?_of_run {fuel : Nat} {r : Receiver} {p : Progress Receiver Outcome} {error : TransferError}
    (hr : r.failure? = some error) (h : (line.run Receiver.ask fuel r).run env = (p, env')) :
    p.failure? = some error := by
  have hkept := run_holds (P := fun r _ => r.failure? = some error) (Q := fun o _ => o.failure? = some error)
    (fun r env call turn env₁ hr ha _ => ?_) hr h
  · cases p <;> exact hkept
  · have hnext := (Receiver.step_of_answer ha).failure? hr
    cases hn : turn.next with
    | going r' =>
      rw [hn] at hnext
      exact hnext
    | ended o =>
      rw [hn] at hnext
      exact hnext

variable {config : Config} {capacity capacity' : Nat} {limit : UInt32} {buffer : Array UInt8}

theorem run_tried (hsize : capacity ≤ buffer.size) {fuel : Nat} {p : Progress Receiver Outcome}
    (hrun : (line.run Receiver.ask fuel (.start config capacity buffer)).run env = (p, env')) :
    p.Holds (fun r => r.Inv config capacity buffer.size ∧ r.Tried) fun _ => True := by
  refine run_holds (P := fun r _ => r.Inv config capacity buffer.size ∧ r.Tried) (Q := fun _ _ => True)
    (fun r env call turn env₁ ⟨hi, ht⟩ ha _ => ?_) ⟨.start .., trivial⟩ hrun
  have hi' := hi.step hsize (Receiver.step_of_answer ha)
  have ht' := ht.step (Receiver.step_of_answer ha)
  cases hn : turn.next with
  | going r' =>
    rw [hn] at hi' ht'
    exact ⟨hi', ht'⟩
  | ended o => trivial

/-- A transfer that fails for want of room or of attempts has found that out with one of its calls. -/
theorem run_exhausts (hsize : capacity ≤ buffer.size) {fuel : Nat} {p : Progress Receiver Outcome}
    {error : TransferError}
    (hrun : (line.run Receiver.ask fuel (.start config capacity buffer)).run env = (p, env'))
    (he : p.failure? = some error) (hlimits : error.OfLimits) :
    ∃ k r env₁ call turn env₂, k < fuel ∧
      (line.run Receiver.ask k (.start config capacity buffer)).run env = (.going r, env₁) ∧ ¬ r.GivesUp ∧
      r.Inv config capacity buffer.size ∧ r.ask.Answer call turn ∧ line.Makes env₁ call env₂ ∧
      r.Exhausts call error ∧ turn.next = .going ⟨r.session, .sending (.cancel error cancelCount)⟩ := by
  have hfresh : ¬ (Receiver.start config capacity buffer).GivesUp := fun ⟨_, hnone, _⟩ => nomatch hnone
  obtain ⟨k, r, env₁, call, turn, env₂, hk, hrun₁, hr, ha, hm, hnext⟩ :=
    exists_first hfresh hrun (Receiver.givesUp_iff.2 ⟨error, he, hlimits⟩)
  obtain ⟨error', he', hlimits'⟩ := Receiver.givesUp_iff.1 hnext
  obtain ⟨hi, htried⟩ := run_tried hsize hrun₁
  obtain ⟨hexhausts, hturn⟩ := (Receiver.step_of_answer ha).exhausts htried hr he' hlimits'
  -- The run goes on from here, and keeps what it fails for.
  obtain rfl : error' = error := by
    obtain ⟨more, rfl⟩ := Nat.exists_eq_add_of_le (Nat.succ_le_of_lt hk)
    rw [run_add, StateT.run_bind, run_add_one hrun₁ ha hm, hturn] at hrun
    exact Option.some.inj ((failure?_of_run rfl hrun).symm.trans he)
  exact ⟨k, r, env₁, call, turn, env₂, hk, hrun₁, hr, hi, ha, hm, hexhausts, hturn⟩

variable {τ' : Type} {line' : Line (StateM τ')} {stage : τ → τ' → Prop} {env₀ : τ'}

/-- The wider receiver stands where the other does, unless that one has given up. -/
theorem run_widen (halike : line.Alike line' 0 Message.SameButLimit stage) (hstage : stage env env₀)
    (hsize : capacity ≤ buffer.size) (hcapacity : capacity ≤ capacity')
    (hlimit : config.maxRetries ≤ limit) {fuel : Nat} {p : Progress Receiver Outcome} {journal : List Entry}
    (hrun : (line.journaled.run Receiver.ask fuel (.start config capacity buffer)).run (env, []) =
      (p, (env₁, journal))) :
    (∃ error, p.failure? = some error ∧ error.OfLimits) ∨
      ∃ env₁' journal',
        (line'.journaled.run Receiver.ask fuel (.start { config with maxRetries := limit } capacity' buffer)).run
          (env₀, []) = (p.map (Receiver.widen capacity' limit), (env₁', journal')) ∧
        stage env₁ env₁' ∧ List.Forall₂ (Entry.Alike 0 Message.SameButLimit) journal journal' := by
  have hstep := run_in_step (f := Receiver.widen capacity' limit) (G := Receiver.GivesUp)
    (Q := fun o => ∃ error, o.failure? = some error ∧ error.OfLimits)
    (I := fun r => r.Inv config capacity buffer.size) Receiver.ask (env₀, []) halike.journaled
    (fun r call turn hi ha => ?_) (fun r call turn ⟨error, he, hlimits⟩ ha => ?_) (.start ..) ⟨hstage, .nil⟩ hrun
  · rw [Receiver.givesUp_iff] at hstep
    rcases hstep with hparted | ⟨-, ⟨env₁', journal'⟩, hrun', hstage', hjournal⟩
    · exact .inl hparted
    · exact .inr ⟨env₁', journal', hrun', hstage', hjournal⟩
  · rw [Receiver.givesUp_iff]
    obtain ⟨turn', ha', hagree⟩ := hi.answer_widen hcapacity hlimit ha
    cases hagree with
    | parted h hlimits => exact .inl ⟨_, h, hlimits⟩
    | together hnext hsaid =>
      have hi' := hi.step hsize (Receiver.step_of_answer ha)
      refine .inr ⟨hi'.mono (fun _ h => h) fun _ _ => trivial, turn'.said, ?_, hsaid⟩
      rw [call.later_zero, ← hnext]
      exact ha'
  · exact Receiver.givesUp_iff.2 ⟨error, (Receiver.step_of_answer ha).failure? he, hlimits⟩

/-- On lines that answer alike a transfer with more room and more attempts makes the same calls as one with
less, reports the same but for the limit of retries, and stands where the other does: it comes to the same
result, unless the other fails for want of room or of attempts. Then the two make the same calls up to the
one by which the other finds that out: the number of the block that has no room, or the end of the flush
behind the last attempt. -/
theorem receive_widen (halike : line.Alike line' 0 Message.SameButLimit stage) (hstage : stage env env₀)
    (hcapacity : capacity ≤ capacity') (hsize : capacity' ≤ buffer.size)
    (hlimit : config.maxRetries ≤ limit) {fuel : Nat} {p : Progress Receiver Outcome} {journal : List Entry}
    (h : line.Stands config capacity buffer env fuel p journal) :
    ((∀ error, p.failure? = some error → ¬ error.OfLimits) →
      ∃ journal', line'.Stands { config with maxRetries := limit } capacity' buffer env₀ fuel
          (p.map (Receiver.widen capacity' limit)) journal' ∧
        List.Forall₂ (Entry.Alike 0 Message.SameButLimit) journal journal') ∧
    (∀ error, p.failure? = some error → error.OfLimits →
      ∃ k r call past past' journal₁ journal₁' p', k < fuel ∧ r.Exhausts call error ∧
        line.Stands config capacity buffer env k (.going r) past ∧
        line'.Stands { config with maxRetries := limit } capacity' buffer env₀ k
          (.going (r.widen capacity' limit)) past' ∧
        List.Forall₂ (Entry.Alike 0 Message.SameButLimit) past past' ∧
        line.Stands config capacity buffer env (k + 1)
          (.going ⟨r.session, .sending (.cancel error cancelCount)⟩) journal₁ ∧
        line'.Stands { config with maxRetries := limit } capacity' buffer env₀ (k + 1) p' journal₁' ∧
        journal₁.filterMap Entry.call? = past.filterMap Entry.call? ++ [call] ∧
        journal₁'.filterMap Entry.call? = past.filterMap Entry.call? ++ [call]) := by
  obtain ⟨env₁, hreceive⟩ := h
  obtain ⟨hpos, hle, hrun⟩ := receive_eq_ok.1 hreceive
  have hpos' : 0 < capacity' := Nat.lt_of_lt_of_le hpos hcapacity
  refine ⟨fun hnot => ?_, fun error he hlimits => ?_⟩
  · obtain ⟨error, he, hlimits⟩ | ⟨env₁', journal', hrun', -, hjournal⟩ :=
      run_widen halike hstage hle hcapacity hlimit hrun
    · exact absurd hlimits (hnot error he)
    · exact ⟨journal', ⟨env₁', receive_eq_ok.2 ⟨hpos', hsize, hrun'⟩⟩, hjournal⟩
  · obtain ⟨k, r, ⟨env₂, past⟩, call, turn, env₃, hk, hrun₂, hr, hi, ha, hm, hexhausts, hturn⟩ :=
      run_exhausts hle hrun he hlimits
    obtain hgives | ⟨env₂', past', hrun₂', hstage', hpast⟩ := run_widen halike hstage hle hcapacity hlimit hrun₂
    · exact absurd hgives hr
    -- The second receiver asks the same question, and gets the same answer.
    obtain ⟨turn', ha', -⟩ := hi.answer_widen hcapacity hlimit ha
    obtain ⟨env₃', hm', -⟩ := halike.journaled.answered _ (env₂', past') call env₃ ⟨hstage', hpast⟩ hm
    rw [call.later_zero] at hm'
    have hrun₃ := run_add_one hrun₂ ha hm
    have hrun₃' := run_add_one hrun₂' ha' hm'
    rw [hturn] at hrun₃
    refine ⟨k, r, call, past, past', _, _, turn'.next, hk, hexhausts,
      ⟨env₂, receive_eq_ok.2 ⟨hpos, hle, hrun₂⟩⟩, ⟨env₂', receive_eq_ok.2 ⟨hpos', hsize, hrun₂'⟩⟩, hpast,
      ⟨_, receive_eq_ok.2 ⟨hpos, hle, hrun₃⟩⟩, ⟨_, receive_eq_ok.2 ⟨hpos', hsize, hrun₃'⟩⟩, ?_, ?_⟩
    · exact calls_told hm turn.said
    · rw [calls_of_alike hpast]
      exact calls_told hm' turn'.said

/-- With room for one block, one that comes is received, and a second one is refused. -/
theorem receive_widen_blocks :
    (∃ p journal journal',
      (playing 3000000).Stands {} 128 (Array.replicate 256 0)
        (.ofFrames [⟨1, Vector.replicate blockSize 7⟩], 0) 300 p journal ∧
      p.result?.map Outcome.ending = some (.received 128) ∧
      (playing 3000000).Stands { maxRetries := 12 } 256 (Array.replicate 256 0)
        (.ofFrames [⟨1, Vector.replicate blockSize 7⟩], 0) 300 (p.map (Receiver.widen 256 12)) journal' ∧
      List.Forall₂ (Entry.Alike 0 Message.SameButLimit) journal journal') ∧
    ∃ k r call past past', k < 600 ∧ r.Exhausts call .bufferFull ∧
      (playing 3000000).Stands {} 128 (Array.replicate 256 0)
        (.ofFrames [⟨1, Vector.replicate blockSize 7⟩, ⟨2, Vector.replicate blockSize 8⟩], 0) k (.going r) past ∧
      (playing 3000000).Stands { maxRetries := 12 } 256 (Array.replicate 256 0)
        (.ofFrames [⟨1, Vector.replicate blockSize 7⟩, ⟨2, Vector.replicate blockSize 8⟩], 0) k
        (.going (r.widen 256 12)) past' ∧
      List.Forall₂ (Entry.Alike 0 Message.SameButLimit) past past' := by
  have halike := playing_alike 3000000 0 Message.SameButLimit
  have hcapacity : 128 ≤ 256 := by decide
  have hsize : 256 ≤ (Array.replicate 256 (0 : UInt8)).size := by simp
  have hlimit : ({} : Config).maxRetries ≤ 12 := by decide
  constructor
  · obtain ⟨p, journal, hstands, hreceive⟩ := (playing 3000000).exists_stands {} 128 (Array.replicate 256 0)
      (by decide) (Nat.le_trans hcapacity hsize) (.ofFrames [⟨1, Vector.replicate blockSize 7⟩], 0) 300
    have hends : ((((playing 3000000).receive {} 128 (Array.replicate 256 0) 300).run
        (.ofFrames [⟨1, Vector.replicate blockSize 7⟩], 0)).1.toOption.bind Progress.result?).map
          Outcome.ending = some (.received 128) := by
      decide +kernel
    have hnone : ((((playing 3000000).receive {} 128 (Array.replicate 256 0) 300).run
        (.ofFrames [⟨1, Vector.replicate blockSize 7⟩], 0)).1.toOption.bind Progress.failure?) = none := by
      decide +kernel
    rw [hreceive] at hends hnone
    obtain ⟨journal', hstands', hjournal⟩ := (receive_widen halike (by rfl) hcapacity hsize hlimit hstands).1
      fun error he => nomatch he.symm.trans hnone
    exact ⟨p, journal, journal', hstands, hends, hstands', hjournal⟩
  · obtain ⟨p, journal, hstands, hreceive⟩ := (playing 3000000).exists_stands {} 128 (Array.replicate 256 0)
      (by decide) (Nat.le_trans hcapacity hsize)
      (.ofFrames [⟨1, Vector.replicate blockSize 7⟩, ⟨2, Vector.replicate blockSize 8⟩], 0) 600
    have hfails : ((((playing 3000000).receive {} 128 (Array.replicate 256 0) 600).run
        (.ofFrames [⟨1, Vector.replicate blockSize 7⟩, ⟨2, Vector.replicate blockSize 8⟩], 0)).1.toOption.bind
          Progress.failure?) = some .bufferFull := by
      decide +kernel
    rw [hreceive] at hfails
    obtain ⟨k, r, call, past, past', -, -, -, hk, hexhausts, hfirst, hsecond, hpast, -⟩ :=
      (receive_widen halike (by rfl) hcapacity hsize hlimit hstands).2 .bufferFull hfails trivial
    exact ⟨k, r, call, past, past', hk, hexhausts, hfirst, hsecond, hpast⟩

end Line

end Xmodem
