import Mathlib.Data.List.Forall2
import Xmodem.Proofs.Upload

/-!
# Two lines that answer alike

Two lines are alike if they answer the same calls in the same way, whatever was asked before, but that the
clock of the second is ahead by a constant (`Line.Alike`). On such lines a procedure and a second one whose
states are images of those of the first go in step, question by question, until the first does something
that the second need not do (`Line.run_in_step`). A journal of what passes over a line, with the messages
that are reported in between, shows how far two runs agree (`Line.journaled`).
-/

namespace Xmodem

/-- The call on a clock that is ahead. -/
def Call.later (shift : UInt32) : Call → Call
  | timed now => timed (now + shift)
  | call => call

@[simp] theorem Call.later_zero (call : Call) : call.later 0 = call := by
  cases call <;> simp [later]

/-- The same standing in other states. -/
def Progress.map {σ σ' ρ : Type} (f : σ → σ') : Progress σ ρ → Progress σ' ρ
  | going s => .going (f s)
  | ended r => .ended r

@[simp] theorem Progress.map_id {σ ρ : Type} (p : Progress σ ρ) : p.map id = p := by
  cases p <;> rfl

/-! ### Journals -/

/-- What a journal of a line has: the calls, and the messages that are reported between them. -/
inductive Entry where
  | call (call : Call)
  | report (message : Message)
  deriving DecidableEq

namespace Entry

def call? : Entry → Option Call
  | call c => some c
  | report _ => none

/-- The same on a clock that is ahead, with messages that may be put in another way. -/
inductive Alike (shift : UInt32) (agree : Message → Message → Prop) : Entry → Entry → Prop
  | call (c : Call) : Alike shift agree (.call c) (.call (c.later shift))
  | report {message message' : Message} (h : agree message message') :
    Alike shift agree (.report message) (.report message')

end Entry

namespace Line
variable {τ τ' σ σ' ρ : Type}

/-- The line, with a journal in its state. -/
def journaled (line : Line (StateM τ)) : Line (StateM (τ × List Entry)) where
  poll
    | (env, journal) =>
      let (found, env') := line.poll.run env
      (found, (env', journal ++ [.call (.polled found)]))
  write byte
    | (env, journal) =>
      let (result, env') := (line.write byte).run env
      (result, (env', journal ++ [.call (.wrote byte result)]))
  clock
    | (env, journal) =>
      let (now, env') := line.clock.run env
      (now, (env', journal ++ [.call (.timed now)]))
  report message
    | (env, journal) => ((), (((line.report message).run env).2, journal ++ [.report message]))

theorem makes_journaled_iff {line : Line (StateM τ)} {env : τ} {journal : List Entry} {call : Call}
    {next : τ × List Entry} :
    line.journaled.Makes (env, journal) call next ↔
      line.Makes env call next.1 ∧ next.2 = journal ++ [.call call] := by
  obtain ⟨env', journal'⟩ := next
  cases call <;> simp [Makes, journaled, StateT.run] <;> grind

/-! ### Lines that are alike -/

/-- From states that are in relation, the second line answers each call as the first one does, but that its
clock is ahead. Reports may be put in another way. -/
structure Alike (line : Line (StateM τ)) (line' : Line (StateM τ')) (shift : UInt32)
    (agree : Message → Message → Prop) (stage : τ → τ' → Prop) : Prop where
  answered : ∀ (env : τ) (env' : τ') (call : Call) (env₁ : τ), stage env env' → line.Makes env call env₁ →
    ∃ env₁', line'.Makes env' (call.later shift) env₁' ∧ stage env₁ env₁'
  reported : ∀ (message message' : Message) (env : τ) (env' : τ'), agree message message' →
    stage env env' → stage ((line.report message).run env).2 ((line'.report message').run env').2

variable {line : Line (StateM τ)} {line' : Line (StateM τ')} {shift : UInt32}
variable {agree : Message → Message → Prop} {stage : τ → τ' → Prop} {env env₁ : τ} {env' : τ'}

theorem Alike.told (h : line.Alike line' shift agree stage) {messages messages' : List Message}
    (hsaid : List.Forall₂ agree messages messages') (hs : stage env env') :
    stage (line.told messages env) (line'.told messages' env') := by
  induction hsaid generalizing env env' with
  | nil => exact hs
  | cons hsays _ ih => exact ih (h.reported _ _ env env' hsays hs)

/-- Journals of lines that are alike are alike. -/
theorem Alike.journaled (h : line.Alike line' shift agree stage) :
    line.journaled.Alike line'.journaled shift agree fun env env' =>
      stage env.1 env'.1 ∧ List.Forall₂ (Entry.Alike shift agree) env.2 env'.2 := by
  refine ⟨?_, ?_⟩
  · rintro ⟨env, journal⟩ ⟨env', journal'⟩ call ⟨env₁, journal₁⟩ ⟨hs, hj⟩ hm
    obtain ⟨hm, rfl⟩ := makes_journaled_iff.1 hm
    obtain ⟨env₁', hm', hs'⟩ := h.answered env env' call env₁ hs hm
    refine ⟨(env₁', journal' ++ [.call (call.later shift)]), makes_journaled_iff.2 ⟨hm', rfl⟩, hs', ?_⟩
    exact List.rel_append hj (.cons (.call call) .nil)
  · rintro message message' ⟨env, journal⟩ ⟨env', journal'⟩ hsays ⟨hs, hj⟩
    exact ⟨h.reported message message' env env' hsays hs, List.rel_append hj (.cons (.report hsays) .nil)⟩

/-- A journal does not change what a line answers. -/
theorem alike_journaled (line : Line (StateM τ)) :
    line.Alike line.journaled 0 Eq fun env env' => env'.1 = env := by
  refine ⟨?_, ?_⟩
  · rintro env ⟨_, journal⟩ call env₁ rfl hm
    refine ⟨(env₁, journal ++ [.call call]), ?_, rfl⟩
    rw [call.later_zero]
    exact makes_journaled_iff.2 ⟨hm, rfl⟩
  · rintro message _ env ⟨_, journal⟩ rfl rfl
    rfl

/-! ### Procedures that go in step -/

section
variable {ask : σ → Ask (Turn σ ρ)}

theorem answer_of_makes {α : Type} {q : Ask α} {call : Call} {a : α} (ha : q.Answer call a)
    (hm : line.Makes env call env₁) : (line.answer q).run env = (a, env₁) := by
  cases ha with
  | poll next found => exact line.answer_poll next hm
  | clock next now => exact line.answer_clock next hm
  | write byte next result => exact line.answer_write next hm

/-- On lines that are alike, the second procedure stands where the first does, unless the first has parted
(`G`). `I` is what the states of the first keep until then. -/
theorem run_in_step {f : σ → σ'} {I G : σ → Prop} {Q : ρ → Prop} (ask' : σ' → Ask (Turn σ' ρ)) (env' : τ')
    (halike : line.Alike line' shift agree stage)
    (hstep : ∀ s call turn, I s → (ask s).Answer call turn → turn.next.Holds G Q ∨
      turn.next.Holds I (fun _ => True) ∧ ∃ said, (ask' (f s)).Answer (call.later shift) ⟨said, turn.next.map f⟩ ∧
        List.Forall₂ agree turn.said said)
    (hparted : ∀ s call turn, G s → (ask s).Answer call turn → turn.next.Holds G Q)
    {fuel : Nat} {s : σ} {p : Progress σ ρ} (hI : I s) (hs : stage env env')
    (hrun : (line.run ask fuel s).run env = (p, env₁)) :
    p.Holds G Q ∨ p.Holds I (fun _ => True) ∧
      ∃ env₁', (line'.run ask' fuel (f s)).run env' = (p.map f, env₁') ∧ stage env₁ env₁' := by
  induction fuel generalizing s env env' with
  | zero =>
    cases hrun
    exact .inr ⟨hI, env', rfl, hs⟩
  | succ fuel ih =>
    obtain ⟨⟨turn, env₂⟩, hanswer⟩ : ∃ r, (line.answer (ask s)).run env = r := ⟨_, rfl⟩
    obtain ⟨call, ha, hm⟩ := exists_makes hanswer
    rw [run_succ fuel hanswer] at hrun
    rcases hstep s call turn hI ha with hG | ⟨hnext, said, ha', hsaid⟩
    · left
      cases hn : turn.next with
      | going s₁ =>
        rw [hn] at hG hrun
        exact run_holds (P := fun s _ => G s) (Q := fun r _ => Q r)
          (fun s _ call turn _ hG ha _ => hparted s call turn hG ha) hG hrun
      | ended r =>
        rw [hn] at hG hrun
        cases hrun
        exact hG
    · obtain ⟨env₂', hm', hs'⟩ := halike.answered env env' call env₂ hs hm
      have htold := halike.told hsaid hs'
      rw [run_succ fuel (answer_of_makes ha' hm')]
      cases hn : turn.next with
      | going s₁ =>
        rw [hn] at hnext hrun
        exact ih _ hnext htold hrun
      | ended r =>
        rw [hn] at hrun
        cases hrun
        exact .inr ⟨trivial, _, rfl, htold⟩

end

/-- A journal changes nothing for a transfer. -/
theorem receive_journaled (line : Line (StateM τ)) (config : Config) (capacity : Nat) (buffer : Array UInt8)
    (fuel : Nat) (env : τ) (journal : List Entry) :
    ((line.journaled.receive config capacity buffer fuel).run (env, journal)).1 =
      ((line.receive config capacity buffer fuel).run env).1 := by
  cases hstart : Receiver.start? config capacity buffer with
  | error refusal =>
    rw [receive, receive, hstart]
    rfl
  | ok r =>
    obtain ⟨hpos, hsize, rfl⟩ := Receiver.start?_eq_ok.1 hstart
    obtain ⟨⟨p, env₁⟩, hrun⟩ : ∃ r, (line.run Receiver.ask fuel (.start config capacity buffer)).run env = r :=
      ⟨_, rfl⟩
    have hstep := run_in_step (f := id) (I := fun _ => True) (G := fun _ => False) (Q := fun _ => False)
      Receiver.ask (env, journal) line.alike_journaled
      (fun s call turn _ ha => .inr ⟨by cases turn.next <;> trivial, turn.said, by simpa using ha,
        List.forall₂_same.2 fun _ _ => rfl⟩)
      (fun _ _ _ h _ => h.elim) trivial rfl hrun
    obtain hparted | ⟨-, env₁', hrun', -⟩ := hstep
    · cases p <;> exact hparted.elim
    · rw [Progress.map_id] at hrun'
      rw [receive_eq_ok.2 ⟨hpos, hsize, hrun⟩, receive_eq_ok.2 ⟨hpos, hsize, hrun'⟩]

end Line

end Xmodem
