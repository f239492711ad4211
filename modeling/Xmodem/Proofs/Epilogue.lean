import Mathlib.Data.List.Basic
import Xmodem.Bench.ScriptedLine
import Xmodem.Proofs.Run

/-!
# How a transfer ends

As long as a transfer goes on, none of its calls has failed and none was made to cancel. When it fails,
nothing follows but the writes that cancel it, and it ends with the error that it failed with
(`Receiver.Closing`). That error is an I/O error exactly if a call failed, and then it is the error of
that call.
-/

namespace Xmodem

namespace Call

/-- The call was made to cancel a transfer. -/
def cancels : Call → Bool
  | wrote byte _ => byte == Control.can
  | _ => false

/-- The call succeeded, and was not made to cancel. -/
structure Calm (call : Call) : Prop where
  error?_eq : call.error? = none
  cancels_eq : call.cancels = false

theorem calm_polled (found : Option UInt8) : Calm (.polled (.ok found)) :=
  ⟨rfl, rfl⟩

theorem calm_timed (now : UInt32) : Calm (.timed now) :=
  ⟨rfl, rfl⟩

end Call

/-- What makes a transfer fail: the last call failed with an I/O error, or every call succeeded and the
transfer failed for another reason. -/
def TransferError.ArisesFrom (calls : List Call) : TransferError → Prop
  | .io e => ∃ past call, calls = past ++ [call] ∧ (∀ c ∈ past, c.Calm) ∧ call.error? = some e ∧
      call.cancels = false
  | _ => ∀ c ∈ calls, c.Calm

/-- The calls that cancel a transfer: some writes that succeed, and one more, which is the last of those
that may be made, or fails. -/
def Cancellation (calls : List Call) : Prop :=
  ∃ sent result,
    calls = List.replicate sent (.wrote Control.can (.ok ())) ++ [.wrote Control.can result] ∧
      (sent + 1 = cancelCount ∨ sent + 1 < cancelCount ∧ ∃ e, result = .error e)

theorem Cancellation.cancels {calls : List Call} (h : Cancellation calls) :
    ∀ call ∈ calls, call.cancels = true := by
  obtain ⟨sent, result, rfl, -⟩ := h
  intro call hmem
  rcases List.mem_append.1 hmem with hmem | hmem
  · rw [List.eq_of_mem_replicate hmem]
    rfl
  · rw [List.mem_singleton.1 hmem]
    rfl

namespace Receiver

section
variable (config : Config) (capacity : Nat) (buffer : Array UInt8)

/-- The calls brought the transfer to fail, and after that `cans` were made. -/
def Fails (s : Session) (error : TransferError) (cans calls : List Call) : Prop :=
  ∃ before, Run config capacity buffer before (.going ⟨s, .sending (.cancel error cancelCount)⟩) ∧
    error.ArisesFrom (before.map Prod.snd) ∧ calls = before.map Prod.snd ++ cans

/-- How the calls so far end, seen from the receiver. -/
def Closing (calls : List Call) : Receiver → Prop
  | ⟨s, .sending (.cancel error left)⟩ => ∃ sent, sent + left = cancelCount ∧ 0 < left ∧
      Fails config capacity buffer s error (List.replicate sent (.wrote Control.can (.ok ()))) calls
  | ⟨_, .sending .farewell⟩ => (∀ c ∈ calls, c.Calm) ∧
      ∃ past, calls = past ++ [.polled (.ok (some Control.eot))]
  | _ => ∀ c ∈ calls, c.Calm

/-- How the calls of a transfer end. -/
def Closed (calls : List Call) (o : Outcome) : Prop :=
  match o.ending with
  | .failed error => ∃ s cans, Cancellation cans ∧ Fails config capacity buffer s error cans calls
  | .received _ => (∀ c ∈ calls, c.Calm) ∧
      ∃ past, calls = past ++ [.polled (.ok (some Control.eot)), .wrote Control.ack (.ok ())]
  | .exhausted => ∀ c ∈ calls, c.Calm

end

end Receiver

theorem Wait.Step.calm_of_going {wait wait' : Wait} {call : Call} (h : wait.Step call (.going wait')) :
    call.Calm := by
  cases h with
  | armed => exact Call.calm_timed _
  | missed => exact Call.calm_polled _
  | early _ => exact Call.calm_timed _

theorem Wait.Step.calm_of_ended {wait : Wait} {call : Call} {byte : Option UInt8}
    (h : wait.Step call (.ended (.ok byte))) : call.Calm := by
  cases h with
  | found => exact Call.calm_polled _
  | late _ => exact Call.calm_timed _

theorem Wait.Step.eq_polled_of_found {wait : Wait} {call : Call} {byte : UInt8}
    (h : wait.Step call (.ended (.ok (some byte)))) : call = .polled (.ok (some byte)) := by
  cases h
  rfl

theorem Wait.Step.eq_polled_of_error {wait : Wait} {call : Call} {e : IoError}
    (h : wait.Step call (.ended (.error e))) : call = .polled (.error e) := by
  cases h
  rfl

namespace Drain.Step
variable {drain : Drain} {call : Call}

theorem calm_of_going {drain' : Drain} (h : drain.Step call (.going drain')) : call.Calm := by
  cases h with
  | waiting h => exact h.calm_of_going
  | discarded h => exact h.calm_of_ended

theorem calm_of_ended {count : Nat} (h : drain.Step call (.ended (.ok count))) : call.Calm := by
  cases h with
  | idle h => exact h.calm_of_ended

theorem eq_polled_of_error {e : IoError} (h : drain.Step call (.ended (.error e))) :
    call = .polled (.error e) := by
  cases h with
  | broken h => exact h.eq_polled_of_error

end Drain.Step

theorem Call.forall_calm_concat {calls : List Call} {call : Call} (h : ∀ c ∈ calls, c.Calm)
    (hcall : call.Calm) : ∀ c ∈ calls ++ [call], c.Calm :=
  List.forall_mem_append.2 ⟨h, List.forall_mem_singleton.2 hcall⟩

theorem TransferError.arisesFrom_io {calls : List Call} {call : Call} {e : IoError}
    (h : ∀ c ∈ calls, c.Calm) (herror : call.error? = some e) (hcancels : call.cancels = false) :
    (TransferError.io e).ArisesFrom (calls ++ [call]) :=
  ⟨calls, call, rfl, h, herror, hcancels⟩

section
variable {config : Config} {capacity : Nat} {buffer : Array UInt8} {s : Session}
variable {steps : List (Receiver × Call)} {p : Progress Receiver Outcome}

open Receiver

theorem Session.closing_fail {error : TransferError}
    (hrun : Run config capacity buffer steps (s.fail error).next)
    (h : error.ArisesFrom (steps.map Prod.snd)) :
    (s.fail error).next.Holds (Closing config capacity buffer (steps.map Prod.snd))
      (Closed config capacity buffer (steps.map Prod.snd)) :=
  ⟨0, rfl, by decide, steps, hrun, h, (List.append_nil _).symm⟩

theorem Session.Opens.closing (h : s.Opens p) (hrun : Run config capacity buffer steps p)
    (hcalm : ∀ c ∈ steps.map Prod.snd, c.Calm) :
    p.Holds (Closing config capacity buffer (steps.map Prod.snd))
      (Closed config capacity buffer (steps.map Prod.snd)) := by
  cases h with
  | opened _ => exact hcalm
  | abandoned _ => exact Session.closing_fail hrun hcalm
  | exhausted _ => exact hcalm

theorem Session.Hears.closing {field : Field} {byte : Option UInt8} {wait : Wait} {call : Call}
    {calls : List Call} (h : s.Hears field byte p) (hwait : wait.Step call (.ended (.ok byte)))
    (hrun : Run config capacity buffer steps p) (hcalls : steps.map Prod.snd = calls ++ [call])
    (hcalm : ∀ c ∈ steps.map Prod.snd, c.Calm) :
    p.Holds (Closing config capacity buffer (steps.map Prod.snd))
      (Closed config capacity buffer (steps.map Prod.snd)) := by
  cases h with
  | header => exact hcalm
  | farewell => exact ⟨hcalm, calls, by rw [hcalls, hwait.eq_polled_of_found]⟩
  | repeated => exact hcalm
  | unexpected _ _ => exact hcalm
  | noRoom _ => exact Session.closing_fail hrun hcalm
  | number _ => exact hcalm
  | complement => exact hcalm
  | payload _ => exact hcalm
  | lastPayload _ => exact hcalm
  | checksum => exact (Session.opens_openAttempt _).closing hrun hcalm
  | rejected _ => exact hcalm

/-- A write of the cancellation is one more that succeeds, or the last call. -/
theorem Receiver.Closing.cancel {error : TransferError} {left : Nat} {calls : List Call}
    (hc : Closing config capacity buffer calls ⟨s, .sending (.cancel error left)⟩)
    (result : Except IoError Unit) :
    (s.wrote (.cancel error left) result).next.Holds
      (Closing config capacity buffer (calls ++ [.wrote Control.can result]))
      (Closed config capacity buffer (calls ++ [.wrote Control.can result])) := by
  obtain ⟨sent, hsent, hleft, before, hrun, herror, rfl⟩ := hc
  have hlast (h : sent + 1 = cancelCount ∨ sent + 1 < cancelCount ∧ ∃ e, result = .error e) :
      Closed config capacity buffer
        (before.map Prod.snd ++ List.replicate sent (.wrote Control.can (.ok ())) ++
          [.wrote Control.can result])
        ⟨.failed error, s.buffer⟩ :=
    ⟨s, _, ⟨sent, result, rfl, h⟩, before, hrun, herror, List.append_assoc ..⟩
  cases result with
  | ok _ =>
    by_cases h : 1 < left
    · rw [Session.wrote, if_pos h]
      refine ⟨sent + 1, by omega, by omega, before, hrun, herror, ?_⟩
      rw [List.replicate_succ', List.append_assoc]
    · rw [Session.wrote, if_neg h]
      exact hlast (.inl (by omega))
  | error e =>
    refine hlast ?_
    by_cases h : 1 < left
    · exact .inr ⟨by omega, e, rfl⟩
    · exact .inl (by omega)

theorem Receiver.Closing.step {r : Receiver} {call : Call} {turn : Receiver.Turn}
    (hc : Closing config capacity buffer (steps.map Prod.snd) r)
    (hrun : Run config capacity buffer (steps ++ [(r, call)]) turn.next) (hs : r.Step call turn) :
    turn.next.Holds (Closing config capacity buffer ((steps ++ [(r, call)]).map Prod.snd))
      (Closed config capacity buffer ((steps ++ [(r, call)]).map Prod.snd)) := by
  have hcalls : (steps ++ [(r, call)]).map Prod.snd = steps.map Prod.snd ++ [call] := by simp
  cases hs with
  | waiting h =>
    rw [hcalls]
    exact Call.forall_calm_concat hc h.calm_of_going
  | heard h =>
    have hcalm := Call.forall_calm_concat hc h.calm_of_ended
    exact (Session.hears_heard _ _ _).closing h hrun hcalls (hcalls ▸ hcalm)
  | unheard h =>
    obtain rfl := h.eq_polled_of_error
    refine Session.closing_fail hrun ?_
    rw [hcalls]
    exact TransferError.arisesFrom_io hc rfl rfl
  | draining h =>
    rw [hcalls]
    exact Call.forall_calm_concat hc (Drain.Step.of_answer h).calm_of_going
  | @drained s cause drain call said count h =>
    have hcalm := hcalls ▸ Call.forall_calm_concat hc (Drain.Step.of_answer h).calm_of_ended
    cases cause with
    | retry => exact s.opens_openAttempt.closing hrun hcalm
    | repeated => exact (Session.opens_openAttempt _).closing hrun hcalm
    | unexpected received => exact Session.closing_fail hrun hcalm
  | undrained h =>
    obtain rfl := (Drain.Step.of_answer h).eq_polled_of_error
    refine Session.closing_fail hrun ?_
    rw [hcalls]
    exact TransferError.arisesFrom_io hc rfl rfl
  | @wrote s what result =>
    cases what with
    | reply =>
      have hbyte : (s.reply.byte == Control.can) = false := by cases s.reply <;> rfl
      cases result with
      | ok _ =>
        rw [hcalls]
        exact Call.forall_calm_concat hc ⟨rfl, hbyte⟩
      | error e =>
        refine Session.closing_fail hrun ?_
        rw [hcalls]
        exact TransferError.arisesFrom_io hc rfl hbyte
    | farewell =>
      obtain ⟨hcalm, past, hpast⟩ := hc
      cases result with
      | ok _ =>
        rw [hcalls]
        exact ⟨Call.forall_calm_concat hcalm ⟨rfl, rfl⟩, past, by rw [hpast, List.append_assoc]; rfl⟩
      | error e =>
        refine Session.closing_fail hrun ?_
        rw [hcalls]
        exact TransferError.arisesFrom_io hcalm rfl rfl
    | cancel error left =>
      rw [hcalls]
      exact hc.cancel result

theorem Receiver.Run.closing (h : Run config capacity buffer steps p) :
    p.Holds (Closing config capacity buffer (steps.map Prod.snd))
      (Closed config capacity buffer (steps.map Prod.snd)) := by
  obtain ⟨hpos, hle, htrace⟩ := h
  induction htrace with
  | start => exact fun _ hmem => absurd hmem List.not_mem_nil
  | step ht ha ih => exact ih.step ⟨hpos, hle, ht.step ha⟩ (step_of_answer ha)

end

/-! ### On a line -/

namespace Line
variable {τ : Type} {line : Line (StateM τ)} {config : Config} {capacity fuel : Nat} {buffer : Array UInt8}
variable {calls : List Call} {env env' : τ}

/-- A cancellation comes to its end, whatever becomes of its writes. -/
theorem run_cancel (line : Line (StateM τ)) (s : Session) (error : TransferError) {left fuel : Nat}
    (hpos : 0 < left) (hle : left ≤ fuel) (calls : List Call) (env : τ) :
    ∃ calls' env',
      ((line.recorded.run Receiver.ask fuel ⟨s, .sending (.cancel error left)⟩).run calls).run env =
        ((.ended ⟨.failed error, s.buffer⟩, calls'), env') := by
  induction fuel generalizing left calls env with
  | zero => omega
  | succ fuel ih =>
    obtain ⟨call, turn, env₁, ha, h₁⟩ :=
      line.exists_answer (Receiver.ask ⟨s, .sending (.cancel error left)⟩) calls env
    obtain ⟨env₂, h₂⟩ := line.exists_report turn.said (calls ++ [call]) env₁
    rw [line.run_step fuel h₁ h₂]
    cases Receiver.step_of_answer ha with
    | wrote result =>
      cases result with
      | ok _ =>
        by_cases h : 1 < left
        · rw [Session.wrote, if_pos h]
          exact ih (by omega) (by omega) _ _
        · rw [Session.wrote, if_neg h]
          exact ⟨_, _, rfl⟩
      | error e => exact ⟨_, _, rfl⟩

end Line

namespace Receiver
variable {config : Config} {capacity : Nat} {buffer : Array UInt8} {calls before after : List Call}
variable {call : Call} {e : IoError}

theorem Closing.eq_cancel {r : Receiver} (h : Closing config capacity buffer calls r)
    (hmem : call ∈ calls) (hcall : ¬ call.Calm) :
    ∃ s error left, r = ⟨s, .sending (.cancel error left)⟩ ∧ 0 < left ∧ left ≤ cancelCount := by
  obtain ⟨s, activity⟩ := r
  cases activity with
  | reading field wait => exact absurd (h call hmem) hcall
  | flushing cause drain => exact absurd (h call hmem) hcall
  | sending what =>
    cases what with
    | reply => exact absurd (h call hmem) hcall
    | farewell => exact absurd (h.1 call hmem) hcall
    | cancel error left =>
      obtain ⟨sent, hsent, hleft, -⟩ := h
      exact ⟨s, error, left, rfl, hleft, by omega⟩

theorem Closed.eq_failed {o : Outcome} (h : Closed config capacity buffer calls o) (hmem : call ∈ calls)
    (hcall : ¬ call.Calm) :
    ∃ error s cans, o.ending = .failed error ∧ Cancellation cans ∧
      Fails config capacity buffer s error cans calls := by
  unfold Closed at h
  split at h
  · obtain ⟨s, cans, hcans, hfails⟩ := h
    exact ⟨_, s, cans, ‹_›, hcans, hfails⟩
  · exact absurd (h.1 call hmem) hcall
  · exact absurd (h call hmem) hcall

/-- A call that failed before the cancellation is the one that made the transfer fail. -/
theorem Fails.of_failing_call {s : Session} {error : TransferError} {cans : List Call}
    (h : Fails config capacity buffer s error cans calls) (hcans : Cancellation cans)
    (hsplit : calls = before ++ call :: after) (herror : call.error? = some e)
    (hcancels : call.cancels = false) :
    error = .io e ∧ (∀ c ∈ before, c.Calm) ∧ after = cans := by
  obtain ⟨steps, -, harises, hcalls⟩ := h
  have hcall : ¬ call.Calm := fun hcalm => by simp [hcalm.error?_eq] at herror
  have hnotin : call ∉ cans := fun hmem => by simp [hcans.cancels call hmem] at hcancels
  have hmem : call ∈ steps.map Prod.snd := by
    have hmem : call ∈ steps.map Prod.snd ++ cans := by simp [← hcalls, hsplit]
    exact (List.mem_append.1 hmem).resolve_right hnotin
  cases error with
  | io e' =>
    obtain ⟨past, last, hpast, hcalm, hlast, -⟩ := harises
    -- Neither before the last of these calls nor among the cancelling ones is there one that failed.
    have heq : past ++ last :: cans = before ++ call :: after := by
      rw [← hsplit, hcalls, hpast, List.append_assoc]
      rfl
    obtain ⟨rfl, rfl, rfl⟩ :=
      (List.append_cons_inj_of_notMem (fun hin => hcall (hcalm call hin)) hnotin).1 heq
    exact ⟨congrArg TransferError.io (Option.some.inj (hlast.symm.trans herror)), hcalm, rfl⟩
  | timeout => exact absurd (harises call hmem) hcall
  | unexpectedBlock expected received => exact absurd (harises call hmem) hcall
  | bufferFull => exact absurd (harises call hmem) hcall

end Receiver

/-- How a transfer over a line ends. If a call fails, the transfer fails with that error, no other call
failed before, and only the cancellation follows, which takes three more questions at most. A transfer that
fails was about to cancel with the error that it ends with, and it is an I/O error only if the last call
failed; only the cancellation follows. A transfer that ends well was never cancelled, and its last calls
take the end of the transmission and acknowledge it. -/
theorem Line.receive_epilogue {τ : Type} {line : Line (StateM τ)} {config : Config} {capacity fuel : Nat}
    {buffer : Array UInt8} {calls : List Call} {env env' : τ} {p : Progress Receiver Outcome}
    (h : ((line.recorded.receive config capacity buffer fuel).run []).run env = ((.ok p, calls), env')) :
    (∀ before call after e, calls = before ++ call :: after → call.error? = some e →
      call.cancels = false → (∀ c ∈ before, c.Calm) ∧
        ∃ cans stored env'', Cancellation cans ∧
          ((line.recorded.receive config capacity buffer (fuel + cancelCount)).run []).run env =
            ((.ok (.ended ⟨.failed (.io e), stored⟩), before ++ call :: cans), env'')) ∧
    (∀ error stored, p = .ended ⟨.failed error, stored⟩ → ∃ before cans s,
      Receiver.Run config capacity buffer before (.going ⟨s, .sending (.cancel error cancelCount)⟩) ∧
        error.ArisesFrom (before.map Prod.snd) ∧ calls = before.map Prod.snd ++ cans ∧
          Cancellation cans) ∧
    (∀ n stored, p = .ended ⟨.received n, stored⟩ → (∀ c ∈ calls, c.cancels = false) ∧
      ∃ past, calls = past ++ [.polled (.ok (some Control.eot)), .wrote Control.ack (.ok ())]) := by
  obtain ⟨steps, hrun, hsteps⟩ := Line.run_of_receive h
  have hclosing := hsteps ▸ hrun.closing
  refine ⟨fun before call after e hsplit herror hcancels => ?_, ?_, ?_⟩
  · have hcall : ¬ call.Calm := fun hcalm => by simp [hcalm.error?_eq] at herror
    have hmem : call ∈ calls := by simp [hsplit]
    have hbase := (Line.run_receive_eq_ok hrun.pos hrun.le).1 h
    obtain ⟨o, rest, env'', hended⟩ : ∃ o rest env'',
        ((line.recorded.run Receiver.ask (fuel + cancelCount) (.start config capacity buffer)).run []).run
          env = ((.ended o, calls ++ rest), env'') := by
      cases p with
      | going r =>
        obtain ⟨s, error, left, rfl, hpos, hle⟩ := hclosing.eq_cancel hmem hcall
        obtain ⟨calls', env'', hcancel⟩ := line.run_cancel s error hpos hle calls env'
        obtain ⟨more, -, rfl⟩ := line.extend_trace cancelCount .start hcancel
        exact ⟨_, _, env'', (line.run_add_of_going cancelCount hbase).trans hcancel⟩
      | ended o =>
        rw [← List.append_nil calls] at hbase
        exact ⟨o, [], env', line.run_add_of_ended cancelCount hbase⟩
    have h' := (Line.run_receive_eq_ok hrun.pos hrun.le).2 hended
    obtain ⟨steps', hrun', hsteps'⟩ := Line.run_of_receive h'
    have hclosed := hsteps' ▸ hrun'.closing
    have hsplit' : calls ++ rest = before ++ call :: (after ++ rest) := by rw [hsplit]; simp
    obtain ⟨error, s, cans, hending, hcans, hfails⟩ :=
      hclosed.eq_failed (List.mem_append_left _ hmem) hcall
    obtain ⟨rfl, hcalm, hafter⟩ := hfails.of_failing_call hcans hsplit' herror hcancels
    obtain ⟨ending, stored⟩ := o
    obtain rfl : ending = .failed (.io e) := hending
    exact ⟨hcalm, cans, stored, env'', hcans, by rw [h', hsplit', hafter]⟩
  · rintro error stored rfl
    obtain ⟨s, cans, hcans, before, hbefore, harises, hcalls⟩ := hclosing
    exact ⟨before, cans, s, hbefore, harises, hcalls, hcans⟩
  · rintro n stored rfl
    exact ⟨fun c hc => (hclosing.1 c hc).cancels_eq, hclosing.2⟩

/-- The line breaks down within a header, and again while the transfer is cancelled. -/
theorem Line.receive_epilogue_breakdown : ∃ (env : Bench.ScriptedLine) (e : IoError)
    (p : Progress Receiver Outcome) (before : List Call) (env' : Bench.ScriptedLine) (call : Call),
    ((Bench.ScriptedLine.line.recorded.receive {} 128 (Array.replicate 128 0) 8).run []).run env =
        ((.ok p, before ++ [call]), env') ∧
      call.error? = some e ∧ ∃ cans stored env'', Cancellation cans ∧
        ((Bench.ScriptedLine.line.recorded.receive {} 128 (Array.replicate 128 0) 11).run []).run env =
          ((.ok (.ended ⟨.failed (.io e), stored⟩), before ++ call :: cans), env'') := by
  let env : Bench.ScriptedLine :=
    { script := [.silence, .bytes ⟨#[1], 1, 0⟩, .fault ⟨.brokenPipe, "unplugged"⟩]
      writeFaults := [{ position := 2, error := ⟨.other, "gone"⟩ }] }
  obtain ⟨calls, env', hrun⟩ := Line.receive_of_standing (by decide) (by simp)
    (rfl : Bench.ScriptedLine.line.standing {} 128 (Array.replicate 128 0) 8 env = _)
  have hlast : (((Bench.ScriptedLine.line.recorded.receive {} 128 (Array.replicate 128 0) 8).run []).run
      env).1.2.getLast?.map (fun call => (call.error?, call.cancels)) =
        some (some ⟨.brokenPipe, "unplugged"⟩, false) := by
    decide +kernel
  rw [hrun] at hlast
  obtain ⟨call, hcall, hfault⟩ := Option.map_eq_some_iff.1 hlast
  obtain ⟨before, rfl⟩ := List.getLast?_eq_some_iff.1 hcall
  obtain ⟨herror, hcancels⟩ := Prod.mk.inj hfault
  obtain ⟨-, hended⟩ := (Line.receive_epilogue hrun).1 before call [] _ rfl herror hcancels
  exact ⟨env, _, _, before, env', call, hrun, herror, hended⟩

end Xmodem
