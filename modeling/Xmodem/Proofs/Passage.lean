import Xmodem.Proofs.Lockstep

/-!
# What passes between two states

`Line.Leads` says that a procedure comes from one state to another over a line, and with which calls.
Where only the bytes matter that are taken from the line and sent over it, `Line.Exchanges` says which
these are; it is put together from single steps and from whole waits. So a transfer of which it is known
what comes over the line is followed forwards, piece by piece.
-/

namespace Xmodem

namespace Line
variable {τ σ ρ : Type} {line : Line (StateM τ)} {ask : σ → Ask (Turn σ ρ)}
variable {p p' p'' : Progress σ ρ} {env env₁ env' env'' : τ} {calls calls' : List Call}

/-- The procedure comes from here to there with these calls. -/
inductive Leads (line : Line (StateM τ)) (ask : σ → Ask (Turn σ ρ)) :
    Progress σ ρ → τ → List Call → Progress σ ρ → τ → Prop
  | here (p : Progress σ ρ) (env : τ) : Leads line ask p env [] p env
  | step {s : σ} {env env₁ env' : τ} {call : Call} {turn : Turn σ ρ} {calls : List Call} {p : Progress σ ρ}
    (ha : (ask s).Answer call turn) (hm : line.Makes env call env₁)
    (h : Leads line ask turn.next (line.told turn.said env₁) calls p env') :
    Leads line ask (.going s) env (call :: calls) p env'

theorem Leads.trans (h₁ : line.Leads ask p env calls p' env') (h₂ : line.Leads ask p' env' calls' p'' env'') :
    line.Leads ask p env (calls ++ calls') p'' env'' := by
  induction h₁ with
  | here => exact h₂
  | step ha hm _ ih => exact .step ha hm (ih h₂)

theorem answer_recorded_of_makes {α : Type} {q : Ask α} {call : Call} {a : α} (ha : q.Answer call a)
    (hm : line.Makes env call env₁) (before : List Call) :
    ((line.recorded.answer q).run before).run env = ((a, before ++ [call]), env₁) := by
  -- A call is made with what the line answers, so it names nothing else.
  cases ha with
  | poll next found =>
    have hanswer : (found, env₁) = ((line.poll.run env).1, (line.poll.run env).2) := Eq.symm hm
    cases hanswer
    rfl
  | clock next now =>
    have hanswer : (now, env₁) = ((line.clock.run env).1, (line.clock.run env).2) := Eq.symm hm
    cases hanswer
    rfl
  | write byte next result =>
    have hanswer : (result, env₁) = (((line.write byte).run env).1, ((line.write byte).run env).2) := Eq.symm hm
    cases hanswer
    rfl

/-- What leads from here to there is what a run does that asks so many questions. -/
theorem Leads.run_recorded (h : line.Leads ask p env calls p' env') (before : List Call) :
    p.Holds (fun s => ((line.recorded.run ask calls.length s).run before).run env =
      ((p', before ++ calls), env')) (fun r => p' = .ended r ∧ calls = [] ∧ env' = env) := by
  induction h generalizing before with
  | here p env =>
    cases p with
    | going s =>
      show ((Progress.going s, before), env) = _
      rw [List.append_nil]
    | ended r => exact ⟨rfl, rfl, rfl⟩
  | @step s env env₁ env' call turn calls p' ha hm h ih =>
    have hreport : ((turn.said.forM line.recorded.report).run (before ++ [call])).run env₁ =
        (((), before ++ [call]), line.told turn.said env₁) := by
      rw [forM_report_recorded]
      rfl
    have hnext := ih (before ++ [call])
    show ((line.recorded.run ask (calls.length + 1) s).run before).run env = _
    rw [line.run_step calls.length (answer_recorded_of_makes ha hm before) hreport]
    cases hn : turn.next with
    | going s' =>
      rw [hn] at hnext
      rw [List.append_assoc] at hnext
      exact hnext
    | ended r =>
      rw [hn] at hnext
      obtain ⟨rfl, rfl, rfl⟩ := hnext
      rfl

/-! ### Bytes -/

/-- The procedure comes from here to there; no call fails, and the bytes that are taken from the line and
sent over it are these. -/
def Exchanges (line : Line (StateM τ)) (ask : σ → Ask (Turn σ ρ)) (p : Progress σ ρ) (env : τ)
    (taken sent : List UInt8) (p' : Progress σ ρ) (env' : τ) : Prop :=
  ∃ calls, line.Leads ask p env calls p' env' ∧ (∀ call ∈ calls, call.error? = none) ∧
    calls.filterMap Call.taken? = taken ∧ calls.filterMap Call.sent? = sent

variable {taken taken' sent sent' : List UInt8}

theorem Exchanges.refl (p : Progress σ ρ) (env : τ) : line.Exchanges ask p env [] [] p env :=
  ⟨[], .here p env, fun _ h => absurd h List.not_mem_nil, rfl, rfl⟩

theorem Exchanges.trans (h₁ : line.Exchanges ask p env taken sent p' env')
    (h₂ : line.Exchanges ask p' env' taken' sent' p'' env'') :
    line.Exchanges ask p env (taken ++ taken') (sent ++ sent') p'' env'' := by
  obtain ⟨calls, hleads, herror, rfl, rfl⟩ := h₁
  obtain ⟨calls', hleads', herror', rfl, rfl⟩ := h₂
  refine ⟨calls ++ calls', hleads.trans hleads', fun call hcall => ?_, List.filterMap_append,
    List.filterMap_append⟩
  exact (List.mem_append.1 hcall).elim (herror call) (herror' call)

/-- One question. -/
theorem Exchanges.step {s : σ} {call : Call} {turn : Turn σ ρ} (ha : (ask s).Answer call turn)
    (hm : line.Makes env call env₁) (herror : call.error? = none) :
    line.Exchanges ask (.going s) env call.taken?.toList call.sent?.toList turn.next
      (line.told turn.said env₁) := by
  refine ⟨[call], .step ha hm (.here ..), fun other hother => ?_, ?_, ?_⟩
  · rwa [List.mem_singleton.1 hother]
  · cases htaken : call.taken? <;> simp [htaken]
  · cases hsent : call.sent? <;> simp [hsent]

/-! ### Waits -/

namespace Awaits
variable {e : Wait → σ} {k : Polled → Turn σ ρ}

theorem answer (he : Awaits ask e k) {wait : Wait} {call : Call} {p : Progress Wait Polled}
    (h : wait.Step call p) : (ask (e wait)).Answer call (waiting e k p) := by
  rw [he wait]
  exact h.answer.map _

theorem exchanges_waits (he : Awaits ask e k) {deadline : Deadline} {byte : Option UInt8}
    (h : line.Waits deadline env byte env') :
    line.Exchanges ask (.going (e (.listening deadline))) env byte.toList [] (k (.ok byte)).next
      (line.told (k (.ok byte)).said env') := by
  -- On the polls of the wait: one that finds nothing takes nothing from the line.
  induction h with
  | found h => exact .step (he.answer .found) h rfl
  | lapsed h₁ h₂ h₃ => exact .trans (.step (he.answer .missed) h₁ rfl) (.step (he.answer (.late h₃)) h₂ rfl)
  | early h₁ h₂ h₃ _ ih =>
    exact .trans (.step (he.answer .missed) h₁ rfl) (.trans (.step (he.answer (.early h₃)) h₂ rfl) ih)

theorem exchanges_brings (he : Awaits ask e k) {window : UInt32} {byte : Option UInt8}
    (h : line.Brings window env byte env') :
    line.Exchanges ask (.going (e (.arming window))) env byte.toList [] (k (.ok byte)).next
      (line.told (k (.ok byte)).said env') :=
  .trans (.step (he.answer .armed) rfl rfl) (he.exchanges_waits h)

end Awaits

/-! ### Giving up -/

/-- A transfer that is given up is cancelled, if the bytes for that can be sent. -/
theorem exchanges_cancel {P : τ → Prop} {env : τ}
    (hwrite : ∀ env, P env → ∃ env', (line.write Control.can).run env = (.ok (), env') ∧ P env')
    (hreport : ∀ message env, P env → P ((line.report message).run env).2) (s : Session)
    (cause : TransferError) (left : Nat) (h : P env) :
    ∃ env', line.Exchanges Receiver.ask (.going ⟨s, .sending (.cancel cause (left + 1))⟩) env []
      (List.replicate (left + 1) Control.can) (.ended ⟨.failed cause, s.buffer⟩) env' ∧ P env' := by
  have hstep (left : Nat) {env : τ} (h : P env) : ∃ env',
      line.Exchanges Receiver.ask (.going ⟨s, .sending (.cancel cause left)⟩) env [] [Control.can]
        (s.wrote (.cancel cause left) (.ok ())).next env' ∧ P env' := by
    obtain ⟨env', hcan, h'⟩ := hwrite env h
    have ha : Ask.Answer (Receiver.ask ⟨s, .sending (.cancel cause left)⟩) (.wrote Control.can (.ok ()))
        (s.wrote (.cancel cause left) (.ok ())) := .write ..
    exact ⟨_, .step ha hcan rfl, told_induct hreport _ h'⟩
  induction left generalizing env with
  | zero => exact hstep 1 h
  | succ left ih =>
    obtain ⟨env₁, hfirst, h₁⟩ := hstep (left + 2) h
    obtain ⟨env', hrest, h'⟩ := ih h₁
    have hmore : 1 < left + 2 := by omega
    rw [Session.wrote, if_pos hmore] at hfirst
    exact ⟨env', hfirst.trans hrest, h'⟩

/-! ### Transfers that come to their end -/

/-- What a receiver exchanges from where it stands to its end, it exchanges as part of the transfer. -/
theorem Exchanges.receives {config : Config} {capacity asked : Nat} {buffer : Array UInt8} {r : Receiver}
    {o : Outcome} {before : List Call} (h : line.Exchanges Receiver.ask (.going r) env₁ taken sent (.ended o) env')
    (hpos : 0 < capacity) (hsize : capacity ≤ buffer.size)
    (hrun : ((line.recorded.receive config capacity buffer asked).run []).run env =
      ((.ok (.going r), before), env₁)) :
    ∃ fuel calls, (∀ more, ((line.recorded.receive config capacity buffer (asked + (fuel + more))).run []).run env =
        ((.ok (.ended o), before ++ calls), env')) ∧
      (∀ call ∈ calls, call.error? = none) ∧ calls.filterMap Call.sent? = sent ∧
      calls.filterMap Call.taken? = taken := by
  obtain ⟨calls, hleads, herror, htaken, hsent⟩ := h
  have hstart := (run_receive_eq_ok hpos hsize).1 hrun
  refine ⟨calls.length, calls, fun more => ?_, herror, hsent, htaken⟩
  rw [run_receive_eq_ok hpos hsize, line.run_add_of_going _ hstart]
  exact line.run_add_of_ended more (hleads.run_recorded before)

end Line

end Xmodem
