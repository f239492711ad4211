import Mathlib.Tactic.Common
import Xmodem.Line.Record

/-!
# Traces

A trace is what a procedure does when its questions get arbitrary answers: the states in which it
asked, each with the call that answered. Whatever a line does, what is carried out over it is a
trace (`Line.trace_of_run`), and every trace is carried out over some line (`Trace.exists_line`).
So a property of all traces is a property of all lines, and it takes one induction over a trace.
-/

namespace Xmodem

deriving instance DecidableEq for Call

/-- `ask.Answer call a`: the call puts the question `ask`, and its answer leads to `a`. -/
inductive Ask.Answer {α : Type} : Ask α → Call → α → Prop
  | poll (next : Polled → α) (found : Polled) : Answer (.poll next) (.polled found) (next found)
  | clock (next : UInt32 → α) (now : UInt32) : Answer (.clock next) (.timed now) (next now)
  | write (byte : UInt8) (next : Except IoError Unit → α) (result : Except IoError Unit) :
    Answer (.write byte next) (.wrote byte result) (next result)

namespace Ask.Answer
variable {α β : Type} {ask : Ask α} {call : Call}

theorem map {a : α} (f : α → β) (h : ask.Answer call a) : (ask.map f).Answer call (f a) := by
  cases h with
  | poll next found => exact .poll _ found
  | clock next now => exact .clock _ now
  | write byte next result => exact .write byte _ result

theorem of_map {f : α → β} {b : β} (h : (ask.map f).Answer call b) :
    ∃ a, ask.Answer call a ∧ f a = b := by
  cases ask <;> cases h
  exacts [⟨_, .poll .., rfl⟩, ⟨_, .clock .., rfl⟩, ⟨_, .write .., rfl⟩]

end Ask.Answer

/-- The steps of a procedure that starts at `s₀` and stands as the last argument after them. -/
inductive Trace {σ ρ : Type} (ask : σ → Ask (Turn σ ρ)) (s₀ : σ) :
    List (σ × Call) → Progress σ ρ → Prop
  | start : Trace ask s₀ [] (.going s₀)
  | step {steps : List (σ × Call)} {s : σ} {call : Call} {turn : Turn σ ρ} :
    Trace ask s₀ steps (.going s) → (ask s).Answer call turn →
      Trace ask s₀ (steps ++ [(s, call)]) turn.next

def Progress.state? {σ ρ : Type} : Progress σ ρ → Option σ
  | going s => some s
  | ended _ => none

theorem Progress.eq_going {σ ρ : Type} {p : Progress σ ρ} {s : σ} (h : p.state? = some s) :
    p = .going s := by
  cases p <;> simp_all [state?]

def Progress.result? {σ ρ : Type} : Progress σ ρ → Option ρ
  | going _ => none
  | ended r => some r

theorem Progress.eq_ended {σ ρ : Type} {p : Progress σ ρ} {r : ρ} (h : p.result? = some r) :
    p = .ended r := by
  cases p <;> simp_all [result?]

/-- `P` holds of the state of a procedure that goes on, and `Q` of the result of one that is over. -/
def Progress.Holds {σ ρ : Type} (P : σ → Prop) (Q : ρ → Prop) : Progress σ ρ → Prop
  | going s => P s
  | ended r => Q r

theorem Progress.Holds.mono {σ ρ : Type} {P P' : σ → Prop} {Q Q' : ρ → Prop} {p : Progress σ ρ}
    (hP : ∀ s, P s → P' s) (hQ : ∀ r, Q r → Q' r) (h : p.Holds P Q) : p.Holds P' Q' := by
  cases p with
  | going s => exact hP s h
  | ended r => exact hQ r h

/-- What holds at the start and is kept by every step holds after every trace. It may speak of the
steps so far. -/
theorem Trace.invariant {σ ρ : Type} {ask : σ → Ask (Turn σ ρ)} {s₀ : σ} {steps : List (σ × Call)}
    {p : Progress σ ρ} {P : List (σ × Call) → σ → Prop} {Q : List (σ × Call) → ρ → Prop}
    (h₀ : P [] s₀)
    (hstep : ∀ steps s call turn, P steps s → (ask s).Answer call turn →
      turn.next.Holds (P (steps ++ [(s, call)])) (Q (steps ++ [(s, call)])))
    (h : Trace ask s₀ steps p) : p.Holds (P steps) (Q steps) := by
  induction h with
  | start => exact h₀
  | step _ ha ih => exact hstep _ _ _ _ ih ha

namespace Line
variable {τ σ ρ : Type} {ask : σ → Ask (Turn σ ρ)}

theorem exists_answer {α : Type} (line : Line (StateM τ)) (q : Ask α) (calls : List Call) (env : τ) :
    ∃ call a env', q.Answer call a ∧
      ((line.recorded.answer q).run calls).run env = ((a, calls ++ [call]), env') := by
  cases q with
  | poll next => exact ⟨_, _, _, .poll next (line.poll env).1, rfl⟩
  | clock next => exact ⟨_, _, _, .clock next (line.clock env).1, rfl⟩
  | write byte next => exact ⟨_, _, _, .write byte next (line.write byte env).1, rfl⟩

theorem exists_report (line : Line (StateM τ)) (messages : List Message) (calls : List Call) (env : τ) :
    ∃ env', ((messages.forM line.recorded.report).run calls).run env = (((), calls), env') := by
  rw [forM_report_recorded]
  exact ⟨_, rfl⟩

theorem run_step (line : Line (StateM τ)) {s : σ} {turn : Turn σ ρ} {calls calls' : List Call}
    {env env₁ env₂ : τ} (fuel : Nat)
    (h₁ : ((line.recorded.answer (ask s)).run calls).run env = ((turn, calls'), env₁))
    (h₂ : ((turn.said.forM line.recorded.report).run calls').run env₁ = (((), calls'), env₂)) :
    ((line.recorded.run ask (fuel + 1) s).run calls).run env =
      match turn.next with
      | .going s => ((line.recorded.run ask fuel s).run calls').run env₂
      | .ended r => ((.ended r, calls'), env₂) := by
  simp only [run, StateT.run_bind, h₁]
  show (do
    let p ← ((turn.said.forM line.recorded.report).run calls').run env₁
    ((match turn.next with
      | .going s => line.recorded.run ask fuel s
      | .ended r => pure (.ended r)).run p.1.2).run p.2 : Id _) = _
  rw [h₂]
  cases turn.next <;> rfl

theorem extend_trace (line : Line (StateM τ)) {s₀ : σ} (fuel : Nat) {before : List (σ × Call)}
    {s : σ} {calls calls' : List Call} {env env' : τ} {p : Progress σ ρ}
    (ht : Trace ask s₀ before (.going s))
    (h : ((line.recorded.run ask fuel s).run calls).run env = ((p, calls'), env')) :
    ∃ steps, Trace ask s₀ (before ++ steps) p ∧ calls' = calls ++ steps.map Prod.snd := by
  -- A run unfolds at its front and a trace grows at its end, so the steps before are kept general.
  induction fuel generalizing before s calls env with
  | zero =>
    cases h
    exact ⟨[], by simpa using ht, by simp⟩
  | succ fuel ih =>
    obtain ⟨call, turn, env₁, ha, h₁⟩ := line.exists_answer (ask s) calls env
    obtain ⟨env₂, h₂⟩ := line.exists_report turn.said (calls ++ [call]) env₁
    have ht₁ := ht.step ha
    rw [line.run_step fuel h₁ h₂] at h
    cases hn : turn.next with
    | going s₁ =>
      rw [hn] at ht₁ h
      obtain ⟨steps, ht₂, hc⟩ := ih ht₁ h
      exact ⟨(s, call) :: steps, by simpa using ht₂, by simp [hc]⟩
    | ended r =>
      rw [hn] at ht₁ h
      cases h
      exact ⟨[(s, call)], ht₁, by simp⟩

/-- A run is a trace, and its record has the calls of the trace. -/
theorem trace_of_run (line : Line (StateM τ)) {s : σ} {fuel : Nat} {calls : List Call} {env env' : τ}
    {p : Progress σ ρ}
    (h : ((line.recorded.run ask fuel s).run []).run env = ((p, calls), env')) :
    ∃ steps, Trace ask s steps p ∧ calls = steps.map Prod.snd := by
  obtain ⟨steps, ht, hc⟩ := line.extend_trace fuel .start h
  exact ⟨steps, ht, hc⟩

section
variable {m : Type → Type} [Monad m] [LawfulMonad m]

theorem run_add (line : Line m) (ask : σ → Ask (Turn σ ρ)) (fuel more : Nat) (s : σ) :
    line.run ask (fuel + more) s = line.run ask fuel s >>= fun
      | .going s => line.run ask more s
      | .ended r => return .ended r := by
  induction fuel generalizing s with
  | zero => simp [run]
  | succ fuel ih =>
    rw [Nat.succ_add]
    simp only [run, bind_assoc]
    refine bind_congr fun turn => bind_congr fun _ => ?_
    cases turn.next with
    | going s => exact ih s
    | ended r => simp

end

/-- More fuel carries on from where a run stood. -/
theorem run_add_of_going (line : Line (StateM τ)) {s s' : σ} {calls calls' : List Call} {env env' : τ}
    {fuel : Nat} (more : Nat)
    (h : ((line.recorded.run ask fuel s).run calls).run env = ((.going s', calls'), env')) :
    ((line.recorded.run ask (fuel + more) s).run calls).run env =
      ((line.recorded.run ask more s').run calls').run env' := by
  rw [run_add, StateT.run_bind, StateT.run_bind, h]
  rfl

/-- More fuel changes nothing for a run that is over. -/
theorem run_add_of_ended (line : Line (StateM τ)) {s : σ} {r : ρ} {calls calls' : List Call} {env env' : τ}
    {fuel : Nat} (more : Nat)
    (h : ((line.recorded.run ask fuel s).run calls).run env = ((.ended r, calls'), env')) :
    ((line.recorded.run ask (fuel + more) s).run calls).run env = ((.ended r, calls'), env') := by
  rw [run_add, StateT.run_bind, StateT.run_bind, h]
  rfl

/-- A run that is not over has used up its fuel. -/
theorem length_of_run_going (line : Line (StateM τ)) {s s' : σ} {calls calls' : List Call} {env env' : τ}
    {fuel : Nat} (h : ((line.recorded.run ask fuel s).run calls).run env = ((.going s', calls'), env')) :
    calls'.length = calls.length + fuel := by
  induction fuel generalizing s calls env with
  | zero =>
    cases h
    rfl
  | succ fuel ih =>
    obtain ⟨call, turn, env₁, -, h₁⟩ := line.exists_answer (ask s) calls env
    obtain ⟨env₂, h₂⟩ := line.exists_report turn.said (calls ++ [call]) env₁
    rw [line.run_step fuel h₁ h₂] at h
    cases hn : turn.next with
    | going s₁ =>
      rw [hn] at h
      rw [ih h, List.length_append, List.length_singleton]
      omega
    | ended r =>
      rw [hn] at h
      cases h

/-- A line that gives the answers of some calls, one after the other. -/
def replaying : Line (StateM (List Call)) where
  poll
    | .polled found :: rest => (found, rest)
    | calls => (.ok none, calls)
  write _
    | .wrote _ result :: rest => (result, rest)
    | calls => (.ok (), calls)
  clock
    | .timed now :: rest => (now, rest)
    | calls => (0, calls)
  report _ := pure ()

theorem run_answer_replaying {α : Type} {q : Ask α} {call : Call} {a : α} (h : q.Answer call a)
    (calls rest : List Call) :
    ((replaying.recorded.answer q).run calls).run (call :: rest) = ((a, calls ++ [call]), rest) := by
  cases h <;> rfl

theorem run_report_replaying (messages : List Message) (calls rest : List Call) :
    ((messages.forM replaying.recorded.report).run calls).run rest = (((), calls), rest) := by
  rw [forM_report_recorded]
  induction messages with
  | nil => rfl
  | cons message messages ih => exact ih

end Line

namespace Trace
variable {σ ρ : Type} {ask : σ → Ask (Turn σ ρ)} {s₀ : σ} {steps : List (σ × Call)} {p : Progress σ ρ}

theorem run_replaying (h : Trace ask s₀ steps p) (rest : List Call) :
    ((Line.replaying.recorded.run ask steps.length s₀).run []).run (steps.map Prod.snd ++ rest) =
      ((p, steps.map Prod.snd), rest) := by
  induction h generalizing rest with
  | start => rfl
  | @step steps s call turn ht ha ih =>
    -- The last step takes the last unit of fuel, after the others have left its call.
    have before := ih (call :: rest)
    have last := Line.replaying.run_step 0 (Line.run_answer_replaying ha (steps.map Prod.snd) rest)
      (Line.run_report_replaying turn.said _ rest)
    rw [List.length_append, List.length_singleton, Line.run_add, StateT.run_bind, StateT.run_bind]
    simp only [List.map_append, List.map_cons, List.map_nil, List.append_assoc, List.cons_append,
      List.nil_append]
    rw [before]
    refine Eq.trans last ?_
    cases turn.next <;> rfl

/-- Every trace is carried out over some line. -/
theorem exists_line (h : Trace ask s₀ steps p) :
    ∃ (line : Line (StateM (List Call))) (fuel : Nat) (env : List Call),
      ((line.recorded.run ask fuel s₀).run []).run env = ((p, steps.map Prod.snd), []) :=
  ⟨.replaying, steps.length, _, h.run_replaying []⟩

end Trace

end Xmodem
