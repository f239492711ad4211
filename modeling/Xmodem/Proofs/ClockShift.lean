import Xmodem.Proofs.Lockstep

/-!
# Where the clock starts

A receiver reads the clock to set a deadline, and to compare a later reading with it. On a clock that is
ahead by a constant every deadline is later by that constant, and the comparison comes out the same, wherever
the two clocks wrap (`Deadline.reached_later`). Nothing else of a receiver depends on the clock: each
question is the same, and each answer leads to the same but for the deadlines (`Receiver.answer_later`). So
a transfer does not depend on what the clock showed when it began.
-/

namespace Xmodem

/-! ### Waits -/

namespace Deadline

def later (shift : UInt32) (d : Deadline) : Deadline :=
  ⟨d.instant + shift⟩

theorem after_later (now wait shift : UInt32) :
    after (now + shift) wait = (after now wait).later shift := by
  rw [after, after, later, UInt32.add_assoc, UInt32.add_comm shift, ← UInt32.add_assoc]

theorem reached_later (d : Deadline) (now shift : UInt32) :
    (d.later shift).reached (now + shift) = d.reached now :=
  d.reached_add now shift

end Deadline

namespace Wait

def later (shift : UInt32) : Wait → Wait
  | arming window => arming window
  | listening deadline => listening (deadline.later shift)
  | checking deadline => checking (deadline.later shift)

theorem Step.later (shift : UInt32) {wait : Wait} {call : Call} {p : Progress Wait Polled}
    (h : wait.Step call p) : (wait.later shift).Step (call.later shift) (p.map (Wait.later shift)) := by
  cases h with
  | @armed window now =>
    have harmed : (arming window).Step (.timed (now + shift)) (.going (listening (.after (now + shift) window))) :=
      .armed
    rwa [Deadline.after_later] at harmed
  | found => exact .found
  | missed => exact .missed
  | broken => exact .broken
  | @early deadline now h => exact .early ((deadline.reached_later now shift).trans h)
  | @late deadline now h => exact .late ((deadline.reached_later now shift).trans h)

end Wait

/-! ### Receivers -/

/-- The receiver on a clock that is ahead: its deadlines are later. -/
def Receiver.later (shift : UInt32) : Receiver → Receiver
  | ⟨s, .reading field wait⟩ => ⟨s, .reading field (wait.later shift)⟩
  | ⟨s, .flushing cause drain⟩ => ⟨s, .flushing cause { drain with wait := drain.wait.later shift }⟩
  | ⟨s, .sending what⟩ => ⟨s, .sending what⟩

namespace Session
variable (s : Session) (shift : UInt32)

/-! What a session turns to has no deadline yet. -/

theorem later_openAttempt : s.openAttempt.next.map (Receiver.later shift) = s.openAttempt.next := by
  have hopens := s.opens_openAttempt
  generalize s.openAttempt.next = p at hopens ⊢
  cases hopens <;> rfl

theorem later_heard (field : Field) (byte : Option UInt8) :
    (s.heard field byte).next.map (Receiver.later shift) = (s.heard field byte).next := by
  have hhears := s.hears_heard field byte
  generalize (s.heard field byte).next = p at hhears ⊢
  cases hhears with
  | checksum => exact later_openAttempt _ shift
  | _ => rfl

theorem later_flushed (cause : FlushCause) :
    (s.flushed cause).next.map (Receiver.later shift) = (s.flushed cause).next := by
  cases cause with
  | retry => exact s.later_openAttempt shift
  | repeated => exact later_openAttempt _ shift
  | unexpected received => rfl

theorem later_wrote (what : Sending) (result : Except IoError Unit) :
    (s.wrote what result).next.map (Receiver.later shift) = (s.wrote what result).next := by
  have hwrites := s.writes_wrote what result
  generalize (s.wrote what result).next = p at hwrites ⊢
  cases hwrites <;> rfl

end Session

theorem Line.Awaits.answer_later {e : Wait → Receiver} {k : Polled → Receiver.Turn} {shift : UInt32}
    (he : Awaits Receiver.ask e k) (hlater : ∀ wait, (e wait).later shift = e (wait.later shift))
    (hk : ∀ result, (k result).next.map (Receiver.later shift) = (k result).next) {wait : Wait}
    {call : Call} {turn : Receiver.Turn} (h : (e wait).ask.Answer call turn) :
    ((e wait).later shift).ask.Answer (call.later shift)
      ⟨turn.said, turn.next.map (Receiver.later shift)⟩ := by
  rw [he wait] at h
  rw [hlater wait, he]
  obtain ⟨p, hp, rfl⟩ := h.of_map
  have hanswer := ((Wait.Step.of_answer hp).later shift).answer.map (waiting e k)
  cases p with
  | going wait' =>
    show Ask.Answer _ _ (Turn.mk [] (.going ((e wait').later shift)))
    rw [hlater wait']
    exact hanswer
  | ended result =>
    show Ask.Answer _ _ (Turn.mk (k result).said ((k result).next.map (Receiver.later shift)))
    rw [hk result]
    exact hanswer

/-- On a clock that is ahead the receiver asks the same, and the answer leads to the same, but that
deadlines are later. -/
theorem Receiver.answer_later (shift : UInt32) {r : Receiver} {call : Call} {turn : Receiver.Turn}
    (h : r.ask.Answer call turn) :
    (r.later shift).ask.Answer (call.later shift) ⟨turn.said, turn.next.map (later shift)⟩ := by
  obtain ⟨s, activity⟩ := r
  cases activity with
  | reading field wait =>
    refine (Line.Carries.awaits_reading s field).answer_later (fun _ => rfl) (fun result => ?_) h
    cases result with
    | ok byte => exact s.later_heard shift field byte
    | error e => rfl
  | flushing cause drain =>
    obtain ⟨window, discarded, wait⟩ := drain
    refine (Line.Carries.awaits_flushing s cause window discarded).answer_later (fun _ => rfl)
      (fun result => ?_) h
    match result with
    | .ok (some byte) => rfl
    | .ok none => exact s.later_flushed shift cause
    | .error e => rfl
  | sending what =>
    cases h with
    | write byte next result =>
      rw [s.later_wrote shift what result]
      exact .write _ _ result

/-! ### On a line -/

/-- Over two lines that answer alike, the clock of the second ahead by a constant, a transfer makes the same
calls with the same answers but for what the clock shows, reports the same messages in between, and comes
to the same result; as long as it goes on, it stands where the other does with its deadlines later. -/
theorem Line.receive_later {τ τ' : Type} {line : Line (StateM τ)} {line' : Line (StateM τ')} {shift : UInt32}
    {stage : τ → τ' → Prop} (halike : line.Alike line' shift Eq stage) (env : τ) (env' : τ')
    (hstage : stage env env') (config : Config) (capacity : Nat) (buffer : Array UInt8) (fuel : Nat) :
    ∃ result journal journal' env₁ env₁',
      (line.journaled.receive config capacity buffer fuel).run (env, []) = (result, (env₁, journal)) ∧
      (line'.journaled.receive config capacity buffer fuel).run (env', []) =
        (result.map fun p => p.map (Receiver.later shift), (env₁', journal')) ∧
      List.Forall₂ (Entry.Alike shift Eq) journal journal' ∧ stage env₁ env₁' ∧
      ((line.receive config capacity buffer fuel).run env).1 = result ∧
      ((line'.receive config capacity buffer fuel).run env').1 =
        result.map fun p => p.map (Receiver.later shift) := by
  cases hstart : Receiver.start? config capacity buffer with
  | error refusal =>
    refine ⟨.error refusal, [], [], env, env', ?_, ?_, .nil, hstage, ?_, ?_⟩ <;>
      rw [Line.receive, hstart] <;> rfl
  | ok r =>
    obtain ⟨hpos, hsize, rfl⟩ := Receiver.start?_eq_ok.1 hstart
    obtain ⟨⟨p, env₁, journal⟩, hrun⟩ : ∃ r,
        (line.journaled.run Receiver.ask fuel (.start config capacity buffer)).run (env, []) = r := ⟨_, rfl⟩
    have hstep := run_in_step (f := Receiver.later shift) (I := fun _ => True) (G := fun _ => False)
      (Q := fun _ => False) Receiver.ask (env', []) halike.journaled
      (fun r call turn _ ha => .inr ⟨by cases turn.next <;> trivial, turn.said, Receiver.answer_later shift ha,
        List.forall₂_same.2 fun _ _ => rfl⟩)
      (fun _ _ _ h _ => h.elim) trivial ⟨hstage, .nil⟩ hrun
    obtain hparted | ⟨-, ⟨env₁', journal'⟩, hrun', hstage', hjournal⟩ := hstep
    · cases p <;> exact hparted.elim
    · have hreceive := receive_eq_ok.2 ⟨hpos, hsize, hrun⟩
      have hreceive' := receive_eq_ok.2 ⟨hpos, hsize, hrun'⟩
      refine ⟨.ok p, journal, journal', env₁, env₁', hreceive, hreceive', hjournal, hstage', ?_, ?_⟩
      · rw [← line.receive_journaled config capacity buffer fuel env [], hreceive]
      · rw [← line'.receive_journaled config capacity buffer fuel env' [], hreceive']
        rfl

theorem Line.playing_alike (lapse shift : UInt32) (agree : Message → Message → Prop) :
    (playing lapse).Alike (playing lapse) shift agree fun env env' => env' = (env.1, env.2 + shift) := by
  refine ⟨?_, ?_⟩
  · rintro ⟨sender, now⟩ _ call env₁ rfl hm
    cases call with
    | polled found =>
      match sender, hm with
      | ⟨(_, byte) :: pending, turns⟩, hm =>
        cases hm
        exact ⟨_, rfl, rfl⟩
      | ⟨[], turns⟩, hm =>
        cases hm
        have hnow : now + shift + lapse = now + lapse + shift := by grind
        exact ⟨_, rfl, Prod.ext rfl hnow⟩
    | timed now' =>
      cases hm
      exact ⟨_, rfl, rfl⟩
    | wrote byte result =>
      cases hm
      exact ⟨_, rfl, rfl⟩
  · rintro message message' ⟨sender, now⟩ _ _ rfl
    rfl

/-- One frame on a clock that starts at 0, and on one that wraps in the flush before it. -/
theorem Line.receive_later_wrap : ∃ result journal journal' env₁ env₁',
    (result.toOption.bind Progress.result?).map Outcome.ending = some (.received 128) ∧
      ((playing 3000000).journaled.receive {} 128 (Array.replicate 130 0) 300).run
        ((.ofFrames [⟨1, Vector.replicate blockSize 7⟩], 0), []) =
          (result, (env₁, journal)) ∧
      ((playing 3000000).journaled.receive {} 128 (Array.replicate 130 0) 300).run
        ((.ofFrames [⟨1, Vector.replicate blockSize 7⟩], 4294967295), []) =
          (result.map fun p => p.map (Receiver.later 4294967295), (env₁', journal')) ∧
      List.Forall₂ (Entry.Alike 4294967295 Eq) journal journal' := by
  obtain ⟨result, journal, journal', env₁, env₁', hrun, hrun', hjournal, -, hresult, -⟩ :=
    receive_later (playing_alike 3000000 4294967295 Eq) (.ofFrames [⟨1, Vector.replicate blockSize 7⟩], 0) _ rfl
      {} 128 (Array.replicate 130 0) 300
  have hends : ((((playing 3000000).receive {} 128 (Array.replicate 130 0) 300).run
      (.ofFrames [⟨1, Vector.replicate blockSize 7⟩], 0)).1.toOption.bind
        Progress.result?).map Outcome.ending = some (.received 128) := by
    decide +kernel
  rw [hresult] at hends
  exact ⟨result, journal, journal', env₁, env₁', hends, hrun, hrun', hjournal⟩

end Xmodem
