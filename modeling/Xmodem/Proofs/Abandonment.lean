import Xmodem.Proofs.Silence
import Xmodem.Proofs.Stream
import Xmodem.Proofs.TrueTime

/-!
# A sender that falls silent

Some frames come without a pause, and then nothing more, on a clock that is ahead by the same time in each
poll that finds nothing. Then every call of a transfer is foretold by those before it (`Call.Foretold`), so
that a transfer on any such line makes the calls that it makes on one line that keeps its own history
(`Line.foretelling`). There the frames are followed as on any line that feeds them, and the attempts behind
them as on any line on which the waits come to nothing, and what the waits cost in polls is counted
(`Line.receive_abandoned`).
-/

namespace Xmodem

/-! ### What is foretold -/

namespace Call

/-- So many polls found nothing. -/
def misses (calls : List Call) : Nat :=
  (calls.filterMap found?).count (.ok none)

/-- What the next poll finds: nothing until a byte has been sent, and then the next one of the bytes. -/
def coming (bytes : List UInt8) (calls : List Call) : Option UInt8 :=
  if calls.filterMap sent? = [] then none else bytes[(calls.filterMap taken?).length]?

/-- The next call, whatever is asked. The clock showed `start` at first and is ahead by `lapse` for each poll
that found nothing. -/
inductive Foreseen (bytes : List UInt8) (start lapse : Nat) (before : List Call) : Call → Prop
  | polled : Foreseen bytes start lapse before (.polled (.ok (coming bytes before)))
  | timed : Foreseen bytes start lapse before (.timed (Clock.reading (start + lapse * misses before)))
  | wrote (byte : UInt8) : Foreseen bytes start lapse before (.wrote byte (.ok ()))

/-- Each of the calls is foreseen when those before it have been made. -/
def Foretold (bytes : List UInt8) (start lapse : Nat) (calls : List Call) : Prop :=
  ∀ before call, before ++ [call] <+: calls → Foreseen bytes start lapse before call

variable {bytes : List UInt8} {start lapse : Nat} {calls : List Call} {call : Call}

theorem Foretold.nil : Foretold bytes start lapse [] :=
  fun before _ h => absurd (List.prefix_nil.1 h) (List.append_ne_nil_of_right_ne_nil before (List.cons_ne_nil _ _))

theorem Foretold.concat (h : Foretold bytes start lapse calls) (hcall : Foreseen bytes start lapse calls call) :
    Foretold bytes start lapse (calls ++ [call]) := by
  intro before last hbegins
  rcases List.prefix_concat_iff.1 hbegins with heq | hbegins
  · obtain ⟨rfl, hlast⟩ := List.append_inj' heq rfl
    rwa [List.singleton_inj.1 hlast]
  · exact h before last hbegins

/-- What the calls come to: the bytes that were sent and taken, and the polls that found nothing. -/
structure Comes (sent taken : List UInt8) (count : Nat) (calls : List Call) : Prop where
  sent_eq : calls.filterMap sent? = sent
  taken_eq : calls.filterMap taken? = taken
  misses_eq : misses calls = count

namespace Comes
variable {sent taken : List UInt8} {count : Nat}

theorem nil : Comes [] [] 0 [] :=
  ⟨rfl, rfl, rfl⟩

theorem timed (h : Comes sent taken count calls) (now : UInt32) :
    Comes sent taken count (calls ++ [.timed now]) := by
  obtain ⟨rfl, rfl, rfl⟩ := h
  constructor <;> simp [misses, sent?, taken?, List.filterMap_cons, found?]

theorem missed (h : Comes sent taken count calls) :
    Comes sent taken (count + 1) (calls ++ [.polled (.ok none)]) := by
  obtain ⟨rfl, rfl, rfl⟩ := h
  constructor <;> simp [misses, sent?, taken?, found?]

theorem found (h : Comes sent taken count calls) (byte : UInt8) :
    Comes sent (taken ++ [byte]) count (calls ++ [.polled (.ok (some byte))]) := by
  obtain ⟨rfl, rfl, rfl⟩ := h
  constructor <;> simp [misses, sent?, taken?, found?]

theorem wrote (h : Comes sent taken count calls) (byte : UInt8) :
    Comes (sent ++ [byte]) taken count (calls ++ [.wrote byte (.ok ())]) := by
  obtain ⟨rfl, rfl, rfl⟩ := h
  constructor <;> simp [misses, sent?, taken?, List.filterMap_cons, found?]

theorem coming_eq (h : Comes sent taken count calls) (bytes : List UInt8) :
    coming bytes calls = if sent = [] then none else bytes[taken.length]? := by
  rw [coming, h.sent_eq, h.taken_eq]

/-- Nothing comes before a byte has been sent, nor when all bytes have been taken. -/
theorem foreseen_none (h : Comes sent taken count calls) (start lapse : Nat)
    (hnone : sent = [] ∨ taken = bytes) : Foreseen bytes start lapse calls (.polled (.ok none)) := by
  have hcoming : coming bytes calls = none := by
    rw [h.coming_eq]
    rcases hnone with rfl | rfl
    · rfl
    · rw [List.getElem?_length, ite_self]
  rw [← hcoming]
  exact .polled

theorem foreseen_some {byte : UInt8} {rest : List UInt8} (h : Comes sent taken count calls) (start lapse : Nat)
    (hsent : sent ≠ []) (hbytes : taken ++ byte :: rest = bytes) :
    Foreseen bytes start lapse calls (.polled (.ok (some byte))) := by
  have hcoming : coming bytes calls = some byte := by
    rw [h.coming_eq, if_neg hsent, ← hbytes, List.getElem?_append_right (Nat.le_refl _), Nat.sub_self,
      List.getElem?_cons_zero]
  rw [← hcoming]
  exact .polled

theorem foreseen_timed (h : Comes sent taken count calls) (bytes : List UInt8) (start lapse : Nat) :
    Foreseen bytes start lapse calls (.timed (Clock.reading (start + lapse * count))) := by
  rw [← h.misses_eq]
  exact .timed

end Comes

end Call

/-! ### The line that is foretold -/

/-- A line that answers as is foreseen, in view of its own history. -/
def Line.foretelling (bytes : List UInt8) (start lapse : Nat) : Line (StateM (List Call)) where
  poll calls := (.ok (Call.coming bytes calls), calls ++ [.polled (.ok (Call.coming bytes calls))])
  write byte calls := (.ok (), calls ++ [.wrote byte (.ok ())])
  clock calls :=
    let now := Clock.reading (start + lapse * Call.misses calls)
    (now, calls ++ [.timed now])
  report _ := pure ()

namespace Line
variable {τ σ ρ : Type} {ask : σ → Ask (Turn σ ρ)} {bytes : List UInt8} {start lapse : Nat}
variable {calls calls' : List Call}

theorem foretelling_makes {call : Call} (h : Call.Foreseen bytes start lapse calls call) :
    (foretelling bytes start lapse).Makes calls call (calls ++ [call]) := by
  cases h <;> rfl

theorem told_foretelling (messages : List Message) (calls : List Call) :
    (foretelling bytes start lapse).told messages calls = calls := by
  have hreport (message : Message) (env : List Call) (h : env = calls) :
      (((foretelling bytes start lapse).report message).run env).2 = calls := h
  exact told_induct hreport messages rfl

theorem forM_report_foretelling (messages : List Message) (calls before : List Call) :
    ((messages.forM (foretelling bytes start lapse).recorded.report).run before).run calls =
      (((), before), calls) := by
  rw [forM_report_recorded]
  exact congrArg _ (told_foretelling messages calls)

/-- Calls that are foreseen one after the other, in view of what the line keeps with them, are foretold. -/
theorem run_foreseen {line : Line (StateM τ)} {P : List Call → τ → Prop}
    (hstep : ∀ calls env call env', P calls env → line.Makes env call env' →
      Call.Foreseen bytes start lapse calls call ∧ P (calls ++ [call]) env')
    (hreport : ∀ message calls env, P calls env → P calls ((line.report message).run env).2)
    {fuel : Nat} {s : σ} {p : Progress σ ρ} {env env' : τ} (hkeeps : P calls env)
    (hcalls : Call.Foretold bytes start lapse calls)
    (h : ((line.recorded.run ask fuel s).run calls).run env = ((p, calls'), env')) :
    Call.Foretold bytes start lapse calls' ∧ P calls' env' := by
  induction fuel generalizing s calls env with
  | zero =>
    cases h
    exact ⟨hcalls, hkeeps⟩
  | succ fuel ih =>
    obtain ⟨⟨turn, env₁⟩, hanswer⟩ : ∃ r, (line.answer (ask s)).run env = r := ⟨_, rfl⟩
    obtain ⟨call, ha, hm⟩ := exists_makes hanswer
    obtain ⟨hforeseen, hkeeps₁⟩ := hstep calls env call env₁ hkeeps hm
    have htold := told_induct (fun message => hreport message (calls ++ [call])) turn.said hkeeps₁
    have hsaid : ((turn.said.forM line.recorded.report).run (calls ++ [call])).run env₁ =
        (((), calls ++ [call]), line.told turn.said env₁) := by
      rw [forM_report_recorded]
      rfl
    rw [run_step _ fuel (answer_recorded_of_makes ha hm calls) hsaid] at h
    cases hn : turn.next with
    | going s' =>
      rw [hn] at h
      exact ih htold (hcalls.concat hforeseen) h
    | ended r =>
      rw [hn] at h
      cases h
      exact ⟨hcalls.concat hforeseen, htold⟩

theorem foreseen_of_makes {call : Call} {env' : List Call}
    (h : (foretelling bytes start lapse).Makes calls call env') :
    Call.Foreseen bytes start lapse calls call ∧ env' = calls ++ [call] := by
  cases call with
  | polled found =>
    cases h
    exact ⟨.polled, rfl⟩
  | timed now =>
    cases h
    exact ⟨.timed, rfl⟩
  | wrote byte result =>
    cases h
    exact ⟨.wrote byte, rfl⟩

/-- The line knows its history. -/
theorem run_foretelling {fuel : Nat} {s : σ} {p : Progress σ ρ} {env' : List Call}
    (h : (((foretelling bytes start lapse).recorded.run ask fuel s).run []).run [] = ((p, calls), env')) :
    Call.Foretold bytes start lapse calls ∧ env' = calls := by
  refine run_foreseen (P := fun calls env => env = calls) ?_ ?_ rfl .nil h
  · rintro calls _ call env' rfl hm
    exact foreseen_of_makes hm
  · rintro message calls _ rfl
    rfl

/-- Where everything goes as foretold, it goes as on this line. -/
theorem run_foretold {line : Line (StateM τ)} {fuel : Nat} {s : σ} {p : Progress σ ρ} {env env' : τ}
    (h : ((line.recorded.run ask fuel s).run calls).run env = ((p, calls'), env'))
    (hcalls : Call.Foretold bytes start lapse calls') :
    (((foretelling bytes start lapse).recorded.run ask fuel s).run calls).run calls =
      ((p, calls'), calls') := by
  induction fuel generalizing s calls env with
  | zero =>
    cases h
    rfl
  | succ fuel ih =>
    obtain ⟨call, turn, env₁, ha, h₁⟩ := line.exists_answer (ask s) calls env
    obtain ⟨env₂, h₂⟩ := line.exists_report turn.said (calls ++ [call]) env₁
    rw [line.run_step fuel h₁ h₂] at h
    have hforeseen (hbegins : calls ++ [call] <+: calls') :=
      run_step (foretelling bytes start lapse) fuel
        (answer_recorded_of_makes ha (foretelling_makes (hcalls calls call hbegins)) calls)
        (forM_report_foretelling turn.said (calls ++ [call]) (calls ++ [call]))
    cases hn : turn.next with
    | going s' =>
      rw [hn] at h hforeseen
      obtain ⟨steps, -, hmore⟩ := line.extend_trace fuel .start h
      exact (hforeseen ⟨_, hmore.symm⟩).trans (ih h)
    | ended r =>
      rw [hn] at h hforeseen
      cases h
      exact hforeseen List.prefix_rfl

/-! ### What the waits cost -/

end Line

/-- So many polls find nothing before a wait is over to which no byte comes. -/
def Wait.polls (lapse : Nat) (window : UInt32) : Nat :=
  max 1 ((window.toNat + lapse - 1) / lapse)

theorem Wait.le_mul_polls {lapse : Nat} (h : 1 ≤ lapse) (window : UInt32) :
    window.toNat ≤ lapse * polls lapse window := by
  have hsplit := Nat.div_add_mod (window.toNat + lapse - 1) lapse
  have hmod := Nat.mod_lt (window.toNat + lapse - 1) h
  have hle : lapse * ((window.toNat + lapse - 1) / lapse) ≤ lapse * polls lapse window :=
    Nat.mul_le_mul_left _ (Nat.le_max_right ..)
  omega

theorem Wait.mul_lt_of_lt_polls {lapse n : Nat} {window : UInt32} (h : 1 ≤ lapse) (hpos : 1 ≤ n)
    (hlt : n < polls lapse window) : lapse * n < window.toNat := by
  have hdiv : n + 1 ≤ (window.toNat + lapse - 1) / lapse := by
    unfold polls at hlt
    omega
  have hle := (Nat.le_div_iff_mul_le h).1 hdiv
  rw [Nat.succ_mul, Nat.mul_comm] at hle
  omega

/-- Of so many polls that find nothing, the last one is over when the time of the wait has passed. -/
theorem Wait.reached_iff_polls {lapse n : Nat} {window : UInt32} (now : UInt32) (h₀ : 1 ≤ lapse)
    (h₁ : lapse < 2 ^ 31) (hwindow : window.toNat ≤ 2 ^ 31) (hlt : n < polls lapse window) :
    (Deadline.after now window).reached (now + UInt32.ofNat (lapse * (n + 1))) = true ↔
      n + 1 = polls lapse window := by
  have hbound : lapse * (n + 1) < window.toNat + 2 ^ 31 := by
    rw [Nat.mul_succ]
    rcases Nat.eq_zero_or_pos n with rfl | hpos
    · omega
    · have hearly := mul_lt_of_lt_polls h₀ hpos hlt
      omega
  rw [Deadline.reached_after hwindow hbound]
  constructor
  · intro hlate
    by_contra hne
    have hearly := mul_lt_of_lt_polls h₀ (Nat.succ_pos n) (Nat.lt_of_le_of_ne hlt hne)
    exact Nat.not_le.2 hearly hlate
  · intro hlast
    rw [hlast]
    exact le_mul_polls h₀ window

namespace Line
variable {bytes sent taken : List UInt8} {start lapse base count : Nat} {window : UInt32} {calls : List Call}

/-- A poll that finds nothing, and the reading of the clock behind it. -/
theorem foretelling_misses (start lapse base : Nat) (h : Call.Comes sent taken (base + count) calls)
    (hnone : sent = [] ∨ taken = bytes) :
    ∃ calls₁ calls₂, (foretelling bytes start lapse).poll.run calls = (.ok none, calls₁) ∧
      (foretelling bytes start lapse).clock.run calls₁ =
        (Clock.reading (start + lapse * base) + UInt32.ofNat (lapse * (count + 1)), calls₂) ∧
      Call.Comes sent taken (base + (count + 1)) calls₂ := by
  have hmissed := h.missed
  have hclock := foretelling_makes (hmissed.foreseen_timed bytes start lapse)
  rw [Nat.add_assoc base, Nat.mul_add, ← Nat.add_assoc start, Clock.reading_add (_ + _)] at hclock
  exact ⟨_, _, foretelling_makes (h.foreseen_none start lapse hnone), hclock, hmissed.timed _⟩

theorem foretelling_waits (start base : Nat) (h₀ : 1 ≤ lapse) (h₁ : lapse < 2 ^ 31)
    (hwindow : window.toNat ≤ 2 ^ 31) (left : Nat) (hleft : count + left + 1 = Wait.polls lapse window)
    (h : Call.Comes sent taken (base + count) calls) (hnone : sent = [] ∨ taken = bytes) :
    ∃ calls', (foretelling bytes start lapse).Waits (.after (Clock.reading (start + lapse * base)) window) calls
        none calls' ∧ Call.Comes sent taken (base + Wait.polls lapse window) calls' := by
  have hreached {count : Nat} (hlt : count < Wait.polls lapse window) :=
    Wait.reached_iff_polls (Clock.reading (start + lapse * base)) h₀ h₁ hwindow hlt
  -- On the polls that are left behind the next one.
  induction left generalizing count calls with
  | zero =>
    obtain ⟨calls₁, calls', hpoll, hclock, h'⟩ := foretelling_misses start lapse base h hnone
    have hlast : count + 1 = Wait.polls lapse window := hleft
    exact ⟨calls', .lapsed hpoll hclock ((hreached (by omega)).2 hlast), hlast ▸ h'⟩
  | succ left ih =>
    obtain ⟨calls₁, calls₂, hpoll, hclock, h₂⟩ := foretelling_misses start lapse base h hnone
    have hlt : count + 1 < Wait.polls lapse window := by omega
    have hearly := (hreached (Nat.lt_of_succ_lt hlt)).not.2 (Nat.ne_of_lt hlt)
    obtain ⟨calls', hwaits, h'⟩ := ih (by omega) h₂
    exact ⟨calls', .early hpoll hclock (Bool.eq_false_iff.2 hearly) hwaits, h'⟩

theorem foretelling_brings (bytes : List UInt8) (start : Nat) (h₀ : 1 ≤ lapse) (h₁ : lapse < 2 ^ 31)
    (hwindow : window.toNat ≤ 2 ^ 31) (h : Call.Comes sent taken count calls)
    (hnone : sent = [] ∨ taken = bytes) :
    ∃ calls', (foretelling bytes start lapse).Brings window calls none calls' ∧
      Call.Comes sent taken (count + Wait.polls lapse window) calls' := by
  have hpolls : 0 + (Wait.polls lapse window - 1) + 1 = Wait.polls lapse window := by
    rw [Nat.zero_add]
    exact Nat.sub_add_cancel (Nat.le_max_left ..)
  have harmed := h.timed (Clock.reading (start + lapse * Call.misses calls))
  obtain ⟨calls', hwaits, h'⟩ := foretelling_waits start count h₀ h₁ hwindow _ hpolls harmed hnone
  rw [← h.misses_eq] at hwaits
  exact ⟨calls', hwaits, h'⟩

/-- As long as bytes come, no poll finds nothing. -/
theorem foretelling_feeds (config : Config) (bytes : List UInt8) (start lapse count : Nat) :
    (foretelling bytes start lapse).Feeds config fun sender calls =>
      ∃ sent taken, Call.Comes sent taken count calls ∧ taken ++ sender.bytes = bytes ∧
        (sent = [] → sender.pending = []) := by
  refine ⟨?_, ?_, ?_⟩
  · rintro pause byte pending turns calls ⟨sent, taken, h, hbytes, hsent⟩
    have hne : sent ≠ [] := fun hnil => List.cons_ne_nil _ _ (hsent hnil)
    have harmed := h.timed (Clock.reading (start + lapse * Call.misses calls))
    have hnext : taken ++ byte :: Sender.bytes ⟨pending, turns⟩ = bytes := hbytes
    refine ⟨_, .found (foretelling_makes (harmed.foreseen_some start lapse hne hnext)), sent, taken ++ [byte],
      harmed.found byte, ?_, fun hnil => absurd hnil hne⟩
    rw [← hnext, List.append_assoc, List.singleton_append]
  · rintro reply turns calls ⟨sent, taken, h, hbytes, -⟩
    refine ⟨_, rfl, sent ++ [reply.byte], taken, h.wrote reply.byte, ?_, by simp⟩
    rw [← hbytes]
    cases turns <;> rfl
  · rintro message sender calls h
    exact h

/-- When all bytes have been taken, each wait costs its polls. -/
theorem foretelling_idles {config : Config} (bytes : List UInt8) (start base : Nat) (h₀ : 1 ≤ lapse)
    (h₁ : lapse < 2 ^ 31) (hstart : config.startTimeout.toNat ≤ 2 ^ 31) (hidle : config.flushIdle.toNat ≤ 2 ^ 31) :
    (foretelling bytes start lapse).Idles config (Wait.polls lapse) fun spent calls =>
      ∃ sent, Call.Comes sent bytes (base + spent) calls := by
  refine ⟨?_, ?_, ?_, ?_⟩
  · rintro spent calls ⟨sent, h⟩
    obtain ⟨calls', hbrings, h'⟩ := foretelling_brings bytes start h₀ h₁ hstart h (.inr rfl)
    exact ⟨calls', hbrings, sent, Nat.add_assoc .. ▸ h'⟩
  · rintro spent calls ⟨sent, h⟩
    obtain ⟨calls', hbrings, h'⟩ := foretelling_brings bytes start h₀ h₁ hidle h (.inr rfl)
    exact ⟨calls', hbrings, sent, Nat.add_assoc .. ▸ h'⟩
  · rintro byte spent calls ⟨sent, h⟩
    exact ⟨_, rfl, _, h.wrote byte⟩
  · rintro message spent calls h
    exact h

end Line

/-! ### Transfers -/

theorem Sender.bytes_map_ofFrame (frames : List Frame) :
    bytes ⟨[], frames.map (Attempt.bytes ∘ .ofFrame)⟩ = frames.flatMap Frame.bytes := by
  have hframe (f : Frame) : (Attempt.ofFrame f).bytes.map Prod.snd = f.bytes := by
    simp [Attempt.ofFrame, Attempt.bytes, Frame.bytes, Function.comp_def]
  rw [bytes, List.nil_append, List.map_flatten, List.map_map, List.flatMap_def]
  exact congrArg List.flatten (List.map_congr_left fun f _ => hframe f)

section
variable {config : Config} {capacity start lapse : Nat} {buffer : Array UInt8}
variable {payloads : List (Vector UInt8 blockSize)}

/-- The transfer on the line that keeps its history. -/
theorem Line.foretelling_ends (buffer : Array UInt8) (start : Nat) (hmax : 1 ≤ config.maxRetries.toNat)
    (hlimit : config.maxRetries.toNat < UInt32.size - 1) (h₀ : 1 ≤ lapse) (h₁ : lapse < 2 ^ 31)
    (hstart : config.startTimeout.toNat ≤ 2 ^ 31) (hidle : config.flushIdle.toNat ≤ 2 ^ 31)
    (hsize : capacity ≤ buffer.size) (hroom : blockSize * payloads.length ≤ capacity) :
    ∃ stored calls,
      (((foretelling ((Frame.sequence 0 payloads).flatMap Frame.bytes) start lapse).recorded.run Receiver.ask
        calls.length (.start config capacity buffer)).run []).run [] =
          ((.ended ⟨.failed .timeout, stored⟩, calls), calls) ∧
      stored.toList = payloads.flatMap Vector.toList ++ buffer.toList.drop (blockSize * payloads.length) ∧
      (∀ call ∈ calls, call.error? = none) ∧
      Call.Comes (Control.nak :: List.replicate payloads.length Control.ack ++
        List.replicate (config.maxRetries.toNat - 1) Control.nak ++ List.replicate cancelCount Control.can)
        ((Frame.sequence 0 payloads).flatMap Frame.bytes)
        (config.maxRetries.toNat * Wait.polls lapse config.startTimeout +
          (config.maxRetries.toNat + 1) * Wait.polls lapse config.flushIdle) calls := by
  -- The first flush, the frames, the attempt behind them, and those that are left.
  generalize hbytes : (Frame.sequence 0 payloads).flatMap Frame.bytes = bytes
  obtain ⟨calls₁, hbrings, h₁'⟩ := foretelling_brings bytes start h₀ h₁ hidle .nil (.inl rfl)
  obtain ⟨messages, hopening⟩ := exchanges_opening capacity buffer hmax hbrings
  have hf := foretelling_feeds config bytes start lapse (0 + Wait.polls lapse config.flushIdle)
  obtain ⟨attempt, s, hs, hfirst, hblocks⟩ := hf.passes_blocks hmax payloads
    (((Session.Clean.start config buffer hsize).attempts 1).reply .nak) (by simpa using hroom) []
  obtain ⟨rfl, hnak⟩ := hfirst rfl rfl
  have hsender : Sender.bytes ⟨[], (Frame.sequence 0 payloads).map (Attempt.bytes ∘ .ofFrame) ++ []⟩ = bytes := by
    rw [List.append_nil, Sender.bytes_map_ofFrame, hbytes]
  obtain ⟨calls₂, hfed, sent, taken, h₂, htaken, -⟩ := ((hf.passes_reply _).trans hblocks) _
    (hf.told messages ⟨[], [], h₁', hsender, fun _ => rfl⟩)
  obtain rfl : taken = bytes := (List.append_nil taken).symm.trans htaken
  have hl := foretelling_idles taken start (0 + Wait.polls lapse config.flushIdle) h₀ h₁ hstart hidle
  obtain ⟨calls₃, hfailed, h₃⟩ := hl.exchanges_failed 0 hs.config_eq ⟨sent, h₂⟩
  obtain ⟨calls₄, hgiven, sent', h₄⟩ := hl.exchanges_openAttempt (config.maxRetries.toNat - 1) _ hs.config_eq
    (by rw [hs.attempts_eq]; omega) hnak h₃
  rw [Config.surrender, Config.farewell, if_pos hlimit, if_pos hlimit] at hgiven
  obtain ⟨calls, hleads, herror, htaken, hsent⟩ := hopening.trans (hfed.trans (hfailed.trans hgiven))
  have hrun := hleads.run_recorded []
  obtain ⟨-, rfl⟩ := run_foretelling hrun
  refine ⟨s.buffer, calls₄, hrun, ?_, herror, ?_, ?_, ?_⟩
  · simpa using hs.buffer_eq
  · rw [hsent]
    simp [Reply.byte]
  · simpa [hbytes] using htaken
  · rw [h₄.misses_eq]
    obtain ⟨retries, hretries⟩ := Nat.exists_eq_add_of_le' hmax
    rw [hretries, Nat.add_sub_cancel]
    grind

/-- A sender sends some blocks, as soon as it has been asked for the first one and without a pause, and falls
silent then. The blocks are received, the next one is asked for as often as the limit allows, and the transfer is
given up. Each wait to which no byte comes costs its polls: there is one for each attempt behind the blocks, and a
flush behind each of them and in front of the first. -/
theorem Line.receive_abandoned {τ : Type} {line : Line (StateM τ)} {env : τ}
    (hmax : 1 ≤ config.maxRetries.toNat) (hlimit : config.maxRetries.toNat < UInt32.size - 1)
    (hstart : config.startTimeout.toNat ≤ 2 ^ 31) (hidle : config.flushIdle.toNat ≤ 2 ^ 31)
    (h₀ : 1 ≤ lapse) (h₁ : lapse < 2 ^ 31) (hpos : 0 < capacity) (hsize : capacity ≤ buffer.size)
    (hroom : blockSize * payloads.length ≤ capacity)
    (hcalls : ∀ fuel, Call.Foretold ((Frame.sequence 0 payloads).flatMap Frame.bytes) start lapse
      (line.calls config capacity buffer env fuel)) :
    ∃ fuel stored calls env',
      (∀ more, ((line.recorded.receive config capacity buffer (fuel + more)).run []).run env =
        ((.ok (.ended ⟨.failed .timeout, stored⟩), calls), env')) ∧
      stored.toList = payloads.flatMap Vector.toList ++ buffer.toList.drop (blockSize * payloads.length) ∧
      (∀ call ∈ calls, call.error? = none) ∧
      calls.filterMap Call.sent? = Control.nak :: List.replicate payloads.length Control.ack ++
        List.replicate (config.maxRetries.toNat - 1) Control.nak ++ List.replicate cancelCount Control.can ∧
      calls.filterMap Call.taken? = (Frame.sequence 0 payloads).flatMap Frame.bytes ∧
      (calls.filterMap Call.found?).count (.ok none) =
        config.maxRetries.toNat * Wait.polls lapse config.startTimeout +
          (config.maxRetries.toNat + 1) * Wait.polls lapse config.flushIdle := by
  obtain ⟨stored, calls, hends, hstored, herror, hcomes⟩ :=
    foretelling_ends buffer start hmax hlimit h₀ h₁ hstart hidle hsize hroom
  obtain ⟨⟨⟨p, calls'⟩, env'⟩, hrun⟩ : ∃ r,
      ((line.recorded.run Receiver.ask calls.length (.start config capacity buffer)).run []).run env = r := ⟨_, rfl⟩
  -- What is foretold leaves the line no choice.
  have hforetold := hcalls calls.length
  rw [calls_eq hpos hsize hrun] at hforetold
  cases (run_foretold hrun hforetold).symm.trans hends
  refine ⟨calls.length, stored, calls, env', fun more => ?_, hstored, herror, hcomes.sent_eq, hcomes.taken_eq,
    hcomes.misses_eq⟩
  rw [run_receive_eq_ok hpos hsize]
  exact line.run_add_of_ended more hrun

/-! ### A sender that does not wait -/

/-- How a line stands on which bytes wait for the first control byte, when some calls have been made. -/
def Line.Pours (bytes : List UInt8) (start lapse : Nat) (calls : List Call) :
    (List UInt8 × List UInt8) × UInt32 → Prop
  | ((ready, held), now) => ∃ sent taken count, Call.Comes sent taken count calls ∧
      taken ++ (ready ++ held) = bytes ∧ (sent = [] → ready = []) ∧ (sent = [] ∨ held = []) ∧
        now = Clock.reading (start + lapse * count)

theorem Line.Pours.step {bytes : List UInt8} {lapse : UInt32} {calls : List Call} {call : Call}
    {env env' : (List UInt8 × List UInt8) × UInt32} (h : Pours bytes start lapse.toNat calls env)
    (hm : (pouring lapse).Makes env call env') :
    Call.Foreseen bytes start lapse.toNat calls call ∧ Pours bytes start lapse.toNat (calls ++ [call]) env' := by
  obtain ⟨⟨ready, held⟩, now⟩ := env
  obtain ⟨sent, taken, count, h, hbytes, hready, hheld, rfl⟩ := h
  cases call with
  | polled found =>
    cases ready with
    | nil =>
      obtain ⟨rfl, rfl⟩ := Prod.mk.inj hm
      have hnone : sent = [] ∨ taken = bytes := by
        refine hheld.imp_right fun hnil => ?_
        rwa [hnil, List.append_nil, List.append_nil] at hbytes
      refine ⟨h.foreseen_none _ _ hnone, sent, taken, count + 1, h.missed, hbytes, hready, hheld, ?_⟩
      rw [Nat.mul_succ, ← Nat.add_assoc, Clock.reading_add (_ + _), UInt32.ofNat_toNat]
    | cons byte ready =>
      obtain ⟨rfl, rfl⟩ := Prod.mk.inj hm
      have hne : sent ≠ [] := fun hnil => List.cons_ne_nil _ _ (hready hnil)
      refine ⟨h.foreseen_some _ _ hne hbytes, sent, taken ++ [byte], count, h.found byte, ?_,
        fun hnil => absurd hnil hne, hheld, rfl⟩
      rw [← hbytes, List.append_assoc]
      rfl
  | timed now =>
    obtain ⟨rfl, rfl⟩ := Prod.mk.inj hm
    exact ⟨h.foreseen_timed bytes _ _, sent, taken, count, h.timed _, hbytes, hready, hheld, rfl⟩
  | wrote byte result =>
    obtain ⟨rfl, rfl⟩ := Prod.mk.inj hm
    exact ⟨.wrote byte, sent ++ [byte], taken, count, h.wrote byte, by simpa using hbytes, by simp, .inr rfl, rfl⟩

theorem Line.pouring_foretold (config : Config) (lapse : UInt32) (bytes : List UInt8) (start : Nat)
    (hpos : 0 < capacity) (hsize : capacity ≤ buffer.size) (fuel : Nat) :
    Call.Foretold bytes start lapse.toNat
      ((pouring lapse).calls config capacity buffer (([], bytes), Clock.reading start) fuel) := by
  obtain ⟨⟨⟨p, calls⟩, env'⟩, hrun⟩ : ∃ r, (((pouring lapse).recorded.run Receiver.ask fuel
    (.start config capacity buffer)).run []).run (([], bytes), Clock.reading start) = r := ⟨_, rfl⟩
  rw [calls_eq hpos hsize hrun]
  exact (run_foreseen (P := Pours bytes start lapse.toNat) (fun _ _ _ _ h hm => h.step hm) (fun _ _ _ h => h)
    ⟨[], [], 0, .nil, rfl, fun _ => rfl, .inl rfl, rfl⟩ .nil hrun).1

end

/-- More blocks than there are numbers, on a clock that wraps during the first flush, and then a sender that
stays silent. -/
theorem Line.receive_abandoned_wrap : ∃ fuel stored calls env',
    (∀ more, (((pouring 100000).recorded.receive {} 38500 (Array.replicate 38600 0) (fuel + more)).run []).run
      (([], (Frame.sequence 0 (List.replicate 300 (Vector.replicate blockSize 7))).flatMap Frame.bytes),
        4294967295) = ((.ok (.ended ⟨.failed .timeout, stored⟩), calls), env')) ∧
    stored.toList = (List.replicate 300 (Vector.replicate blockSize 7)).flatMap Vector.toList ++
      (Array.replicate 38600 0).toList.drop 38400 ∧
    calls.filterMap Call.sent? = Control.nak :: List.replicate 300 Control.ack ++ List.replicate 9 Control.nak ++
      List.replicate 3 Control.can ∧
    (calls.filterMap Call.found?).count (.ok none) = 10 * 30 + 11 * 3 := by
  let payloads : List (Vector UInt8 blockSize) := List.replicate 300 (Vector.replicate blockSize 7)
  have hlength : payloads.length = 300 := List.length_replicate
  have hsize : 38500 ≤ (Array.replicate 38600 (0 : UInt8)).size := by simp
  obtain ⟨fuel, stored, calls, env', hruns, hstored, -, hsent, -, hmissed⟩ :=
    @receive_abandoned {} 38500 4294967295 (100000 : UInt32).toNat _ payloads _ (pouring 100000) _ (by decide)
      (by decide) (by decide) (by decide) (by decide) (by decide) (by decide) hsize (by rw [hlength]; decide)
      (pouring_foretold {} 100000 _ 4294967295 (by decide) hsize)
  rw [hlength] at hstored hsent
  exact ⟨fuel, stored, calls, env', hruns, hstored, hsent, hmissed⟩

end Xmodem
