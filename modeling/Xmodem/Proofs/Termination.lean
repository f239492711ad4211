import Xmodem.Proofs.Representation

/-!
# A transfer comes to an end

On a clock that moves in every empty poll, a wait asks a limited number of questions: each reading of the
clock comes nearer to the deadline, and none passes over the half of the range in which the deadline counts
as reached (`Deadline.readings_lt`). A receiver pays for its waits with the attempts that it has left, and
the bytes that come pay for the attempts that start anew with an acknowledgement
(`Receiver.Costs.step`). So the number of questions is bounded by the number of bytes
(`Receiver.Run.length_le`), and a transfer to which only so many bytes come returns
(`Line.receive_returns`).
-/

namespace Xmodem

/-- Between two readings of the clock with an empty poll between them some time passes, and at most half of
the clock's range. -/
def Call.Ticking (calls : List Call) : Prop :=
  ∀ a b, [.timed a, .polled (.ok none), .timed b] <:+: calls →
    1 ≤ (b - a).toNat ∧ (b - a).toNat ≤ 2 ^ 31

theorem Call.Ticking.of_isPrefix {calls calls' : List Call} (hle : calls <+: calls') (h : Ticking calls') :
    Ticking calls :=
  fun a b hin => h a b (hin.trans hle.isInfix)

/-! ### Waits -/

namespace Deadline
variable {d : Deadline} {now a b : UInt32}

/-- How many readings may follow one that shows `now` until one has reached the deadline. -/
def readings (d : Deadline) (now : UInt32) : Nat :=
  if d.reached now then 2 ^ 31 + 1 else 2 ^ 32 - (now - d.instant).toNat

theorem reached_eq_false : d.reached now = false ↔ 2 ^ 31 ≤ (now - d.instant).toNat := by
  simp [reached, UInt32.lt_iff_toNat_lt]

theorem readings_of_reached (h : d.reached now = true) : d.readings now = 2 ^ 31 + 1 :=
  if_pos h

theorem readings_of_early (h : d.reached now = false) : d.readings now = 2 ^ 32 - (now - d.instant).toNat :=
  if_neg (by simp [h])

theorem readings_le (d : Deadline) (now : UInt32) : d.readings now ≤ 2 ^ 31 + 1 := by
  cases h : d.reached now with
  | true => exact Nat.le_of_eq (readings_of_reached h)
  | false =>
    have hle := reached_eq_false.1 h
    rw [readings_of_early h]
    omega

theorem readings_pos (d : Deadline) (now : UInt32) : 0 < d.readings now := by
  cases h : d.reached now with
  | true => rw [readings_of_reached h]; decide
  | false =>
    have hlt := (now - d.instant).toNat_lt
    rw [readings_of_early h]
    omega

/-- A reading that has not reached the deadline either leaves fewer to follow than the one before it. -/
theorem readings_lt (h₀ : 1 ≤ (b - a).toNat) (h₁ : (b - a).toNat ≤ 2 ^ 31) (h : d.reached b = false) :
    d.readings b < d.readings a := by
  have hsum : b - d.instant = (a - d.instant) + (b - a) := by grind
  have hb := reached_eq_false.1 h
  have hlt := (a - d.instant).toNat_lt
  rw [readings_of_early h]
  rw [hsum, UInt32.toNat_add] at hb ⊢
  cases ha : d.reached a with
  | true => rw [readings_of_reached ha]; omega
  | false =>
    -- A step of half of the range at most does not get past the half in which the deadline is reached.
    have hle := reached_eq_false.1 ha
    rw [readings_of_early ha]
    omega

end Deadline

/-- A wait asks so many questions at most. -/
def Wait.limit : Nat :=
  2 * (2 ^ 31 + 1) + 1

/-- After these calls, the wait asks at most `n` more questions. -/
def Wait.Lasts (calls : List Call) (n : Nat) : Wait → Prop
  | arming _ => limit ≤ n
  | listening d => ∃ past now, calls = past ++ [.timed now] ∧ 2 * d.readings now ≤ n
  | checking d => ∃ past now, calls = past ++ [.timed now, .polled (.ok none)] ∧ 2 * d.readings now ≤ n + 1

namespace Wait.Lasts
variable {calls : List Call} {call : Call} {wait : Wait} {n : Nat}

theorem pos (h : wait.Lasts calls n) : 1 ≤ n := by
  cases wait with
  | arming window => exact Nat.le_trans (by decide) h
  | listening d =>
    obtain ⟨past, now, -, hn⟩ := h
    have := d.readings_pos now
    omega
  | checking d =>
    obtain ⟨past, now, -, hn⟩ := h
    have := d.readings_pos now
    omega

theorem step {wait' : Wait} (h : wait.Lasts calls n) (hs : wait.Step call (.going wait'))
    (hticks : Call.Ticking (calls ++ [call])) : wait'.Lasts (calls ++ [call]) (n - 1) := by
  cases hs with
  | @armed window now =>
    refine ⟨calls, now, rfl, ?_⟩
    have hn : limit ≤ n := h
    have := (Deadline.after now window).readings_le now
    unfold limit at hn
    omega
  | @missed deadline =>
    obtain ⟨past, now, rfl, hn⟩ := h
    exact ⟨past, now, by simp, by omega⟩
  | @early deadline b hb =>
    obtain ⟨past, a, rfl, hn⟩ := h
    obtain ⟨h₀, h₁⟩ := hticks a b ⟨past, [], by simp⟩
    have := Deadline.readings_lt h₀ h₁ hb
    exact ⟨_, b, rfl, by omega⟩

end Wait.Lasts

/-! ### Receivers -/

/-- An attempt in which no byte comes asks so many questions at most: the control byte, a wait for the
block, and the wait of the flush behind it. -/
def attemptLimit : Nat :=
  2 * Wait.limit + 2

namespace Config
variable (config : Config)

/-- What the attempts that are left may cost. -/
def spare (attempts : Nat) : Nat :=
  attemptLimit * (config.maxRetries.toNat - attempts)

/-- What a byte is worth: the wait for the next one, and all attempts anew. -/
def worth : Nat :=
  config.spare 0 + Wait.limit

theorem spare_succ {attempts : Nat} (h : attempts + 1 ≤ config.maxRetries.toNat) :
    config.spare (attempts + 1) + attemptLimit = config.spare attempts := by
  have hcount : config.maxRetries.toNat - attempts = config.maxRetries.toNat - (attempts + 1) + 1 := by omega
  rw [spare, spare, hcount, Nat.mul_succ]

/-- What the bytes that have come are worth, and as much for the start. -/
def credit (calls : List Call) : Nat :=
  config.worth * ((calls.filterMap Call.taken?).length + 1) + 4

/-- What a call is worth. -/
def gain (call : Call) : Nat :=
  if call.taken?.isSome then config.worth else 0

theorem credit_concat (calls : List Call) (call : Call) :
    config.credit (calls ++ [call]) = config.credit calls + config.gain call := by
  rw [credit, credit, gain, List.filterMap_append]
  cases h : call.taken? with
  | none => simp [h]
  | some byte =>
    simp only [h, List.filterMap_cons, List.filterMap_nil, List.length_append, List.length_singleton,
      Option.isSome_some, if_true]
    rw [Nat.mul_succ]
    omega

theorem gain_of_some {call : Call} {byte : UInt8} (h : call.taken? = some byte) :
    config.gain call = config.worth := by
  rw [gain, h]
  rfl

end Config

/-- What is kept for the attempts that follow a flush. -/
def FlushCause.reserve (config : Config) : FlushCause → Nat
  | retry => 0
  | repeated => config.spare 0
  | unexpected _ => 0

/-- After these calls, an activity and the ways out of it ask at most `n` more questions until an attempt
is opened, unless a byte comes. -/
def Activity.Lasts (config : Config) (calls : List Call) (n : Nat) : Activity → Prop
  | .reading _ wait => ∃ k, wait.Lasts calls k ∧ k + Wait.limit + 4 ≤ n
  | .flushing cause drain => ∃ k, drain.wait.Lasts calls k ∧ k + cause.reserve config + 4 ≤ n
  | .sending .reply => 2 * Wait.limit + 5 ≤ n
  | .sending .farewell => 4 ≤ n
  | .sending (.cancel _ left) => 0 < left ∧ left ≤ n

/-- After these calls, the receiver asks at most `total` more questions unless a byte comes. -/
def Receiver.Costs (config : Config) (calls : List Call) (total : Nat) (r : Receiver) : Prop :=
  ∃ n, r.activity.Lasts config calls n ∧ config.spare r.session.attempts.toNat + n ≤ total

section
variable {config : Config} {calls : List Call} {call : Call} {total : Nat} {s : Session}
variable {p : Progress Receiver Outcome}

theorem Receiver.Costs.mono {r : Receiver} {more : Nat} (hle : total ≤ more) (h : r.Costs config calls total) :
    r.Costs config calls more := by
  obtain ⟨n, hn, htotal⟩ := h
  exact ⟨n, hn, Nat.le_trans htotal hle⟩

theorem Progress.Holds.costs_mono {more : Nat} (hle : total ≤ more)
    (h : p.Holds (Receiver.Costs config calls total) fun _ => True) :
    p.Holds (Receiver.Costs config calls more) fun _ => True :=
  h.mono (fun _ hr => hr.mono hle) fun _ h => h

namespace Session

theorem attempts_store (byte : UInt8) : (s.store byte).attempts = s.attempts := rfl

theorem attempts_takeBack (count : Nat) : (s.takeBack count).attempts = s.attempts := rfl

theorem costs_reading (field : Field) (window : UInt32) :
    Receiver.Costs config calls (config.spare s.attempts.toNat + (2 * Wait.limit + 4))
      ⟨s, .reading field (.arming window)⟩ :=
  ⟨_, ⟨Wait.limit, Nat.le_refl _, by omega⟩, Nat.le_refl _⟩

theorem costs_flushing (cause : FlushCause) (window : UInt32) :
    Receiver.Costs config calls (config.spare s.attempts.toNat + (Wait.limit + cause.reserve config + 4))
      ⟨s, .flushing cause (.start window)⟩ :=
  ⟨_, ⟨Wait.limit, Nat.le_refl _, Nat.le_refl _⟩, Nat.le_refl _⟩

theorem costs_fail (error : TransferError) :
    Receiver.Costs config calls (config.spare s.attempts.toNat + 3)
      ⟨s, .sending (.cancel error cancelCount)⟩ :=
  ⟨3, ⟨by decide, Nat.le_refl _⟩, Nat.le_refl _⟩

theorem Opens.costs (h : s.Opens p) (hconfig : s.config = config) :
    p.Holds (Receiver.Costs config calls (config.spare s.attempts.toNat + 3)) fun _ => True := by
  cases h with
  | opened hle =>
    have hlt : config.maxRetries.toNat < UInt32.size := config.maxRetries.toNat_lt
    rw [hconfig] at hle
    have hcount : (s.attempts + 1).toNat = s.attempts.toNat + 1 := by
      rw [UInt32.toNat_add]
      exact Nat.mod_eq_of_lt (Nat.lt_of_le_of_lt hle hlt)
    have hspare := config.spare_succ hle
    refine ⟨2 * Wait.limit + 5, Nat.le_refl _, ?_⟩
    show config.spare (s.attempts + 1).toNat + _ ≤ _
    rw [hcount, ← hspare, attemptLimit]
    omega
  | abandoned _ => exact costs_fail _
  | exhausted _ => trivial

theorem costs_acknowledge (hconfig : s.config = config) :
    s.acknowledge.next.Holds (Receiver.Costs config calls (config.spare 0 + 3)) fun _ => True :=
  (opens_openAttempt { s with attempts := 0, reply := .ack }).costs hconfig

/-- What follows a byte, or its absence, costs no more than is left when the wait for it is over. -/
theorem Hears.costs {field : Field} {byte : Option UInt8} (h : s.Hears field byte p)
    (htaken : call.taken? = byte) (hconfig : s.config = config) :
    p.Holds (Receiver.Costs config calls (config.spare s.attempts.toNat + Wait.limit + 4 + config.gain call))
      fun _ => True := by
  have hworth : ∀ b, byte = some b → config.gain call = config.spare 0 + Wait.limit := by
    rintro b rfl
    exact config.gain_of_some htaken
  cases h with
  | header => rw [hworth _ rfl]; exact (costs_reading _ _).mono (by omega)
  | farewell => rw [hworth _ rfl]; exact ⟨4, Nat.le_refl _, by dsimp only; omega⟩
  | repeated =>
    rw [hworth _ rfl]
    exact (costs_flushing .repeated _).mono (by rw [FlushCause.reserve]; omega)
  | unexpected _ _ =>
    rw [hworth _ rfl]
    exact (costs_flushing (.unexpected _) _).mono (by rw [FlushCause.reserve]; omega)
  | noRoom _ => exact (costs_fail _).mono (by omega)
  | number _ => rw [hworth _ rfl]; exact (costs_reading _ _).mono (by omega)
  | complement => rw [hworth _ rfl]; exact (costs_reading _ _).mono (by omega)
  | payload _ => rw [hworth _ rfl]; exact (costs_reading _ _).mono (by rw [attempts_store]; omega)
  | lastPayload _ => rw [hworth _ rfl]; exact (costs_reading _ _).mono (by rw [attempts_store]; omega)
  | checksum =>
    rw [hworth _ rfl]
    exact (costs_acknowledge (s := s.commit) hconfig).costs_mono (by omega)
  | rejected _ =>
    refine (costs_flushing .retry _).mono ?_
    rw [FlushCause.reserve, attempts_takeBack]
    omega

end Session

namespace Receiver

/-- A question costs one, and the byte that it brings is worth what may follow it. -/
theorem Costs.step {r : Receiver} {turn : Receiver.Turn} (h : r.Costs config calls total)
    (hs : r.Step call turn) (hticks : Call.Ticking (calls ++ [call])) (hconfig : r.session.config = config) :
    1 ≤ total ∧
      turn.next.Holds (Costs config (calls ++ [call]) (total - 1 + config.gain call)) fun _ => True := by
  obtain ⟨n, hn, htotal⟩ := h
  cases hs with
  | waiting hw =>
    obtain ⟨k, hk, hkn⟩ := hn
    have := hk.pos
    exact ⟨by omega, n - 1, ⟨k - 1, hk.step hw hticks, by omega⟩, by dsimp only at htotal ⊢; omega⟩
  | @heard s field wait call byte hw =>
    obtain ⟨k, hk, hkn⟩ := hn
    have := hk.pos
    dsimp only at htotal
    exact ⟨by omega, ((s.hears_heard field byte).costs hw.taken?_of_ended hconfig).costs_mono (by omega)⟩
  | unheard _ =>
    obtain ⟨k, hk, hkn⟩ := hn
    dsimp only at htotal
    exact ⟨by omega, (Session.costs_fail _).mono (by omega)⟩
  | @draining s cause drain drain' call said hd =>
    obtain ⟨k, hk, hkn⟩ := hn
    have := hk.pos
    dsimp only at htotal
    refine ⟨by omega, ?_⟩
    cases Drain.Step.of_answer hd with
    | waiting hw => exact ⟨n - 1, ⟨k - 1, hk.step hw hticks, by omega⟩, by dsimp only; omega⟩
    | discarded hw =>
      refine ⟨_, ⟨Wait.limit, Nat.le_refl _, Nat.le_refl _⟩, ?_⟩
      rw [config.gain_of_some hw.taken?_of_ended, Config.worth]
      dsimp only
      omega
  | @drained s cause drain call said count hd =>
    obtain ⟨k, hk, hkn⟩ := hn
    have := hk.pos
    dsimp only at htotal
    refine ⟨by omega, ?_⟩
    cases cause with
    | retry => exact (s.opens_openAttempt.costs hconfig).costs_mono (by omega)
    | repeated =>
      rw [FlushCause.reserve] at hkn
      exact (Session.costs_acknowledge hconfig).costs_mono (by omega)
    | unexpected received => exact (Session.costs_fail _).mono (by omega)
  | undrained _ =>
    obtain ⟨k, hk, hkn⟩ := hn
    dsimp only at htotal
    exact ⟨by omega, (Session.costs_fail _).mono (by omega)⟩
  | @wrote s what result =>
    dsimp only at htotal
    cases what with
    | reply =>
      have hn : 2 * Wait.limit + 5 ≤ n := hn
      refine ⟨by omega, ?_⟩
      cases result with
      | ok _ => exact (Session.costs_reading _ _).mono (by dsimp only; omega)
      | error e => exact (Session.costs_fail _).mono (by omega)
    | farewell =>
      have hn : 4 ≤ n := hn
      refine ⟨by omega, ?_⟩
      cases result with
      | ok _ => trivial
      | error e => exact (Session.costs_fail _).mono (by omega)
    | cancel cause left =>
      obtain ⟨hpos, hleft⟩ : 0 < left ∧ left ≤ n := hn
      refine ⟨by omega, ?_⟩
      cases result with
      | error e => trivial
      | ok _ =>
        by_cases h : 1 < left
        · rw [Session.wrote, if_pos h]
          exact ⟨n - 1, ⟨by omega, by omega⟩, by dsimp only; omega⟩
        · rw [Session.wrote, if_neg h]
          trivial

variable {capacity : Nat} {buffer : Array UInt8} {steps : List (Receiver × Call)}

/-- On a clock that ticks, the bytes that come bound the number of questions. -/
theorem Run.length_le (h : Run config capacity buffer steps p)
    (hticks : Call.Ticking (steps.map Prod.snd)) : steps.length ≤ config.credit (steps.map Prod.snd) := by
  -- What the receiver may still cost is covered by the credit, less what it has asked already.
  have hrun := h.history
    (P := fun steps r => Call.Ticking (steps.map Prod.snd) →
      ∃ total, r.Costs config (steps.map Prod.snd) total ∧
        steps.length + total ≤ config.credit (steps.map Prod.snd))
    (Q := fun steps _ => Call.Ticking (steps.map Prod.snd) →
      steps.length ≤ config.credit (steps.map Prod.snd))
    (fun _ => ⟨_, Session.costs_flushing .retry _, by
      show 0 + (config.spare 0 + (Wait.limit + 0 + 4)) ≤ config.worth * 1 + 4
      rw [Config.worth]
      omega⟩)
    ?_
  · cases p with
    | going r =>
      obtain ⟨total, -, hle⟩ := hrun hticks
      omega
    | ended o => exact hrun hticks
  · intro steps r call turn hi hP hs
    have hcalls : (steps ++ [(r, call)]).map Prod.snd = steps.map Prod.snd ++ [call] := by simp
    rw [hcalls, List.length_append, List.length_singleton, config.credit_concat]
    cases hn : turn.next with
    | going r' =>
      intro hticks
      obtain ⟨total, hcosts, hle⟩ := hP (.of_isPrefix (List.prefix_append ..) hticks)
      obtain ⟨hpos, hnext⟩ := hcosts.step hs hticks hi.within.config_eq
      rw [hn] at hnext
      exact ⟨_, hnext, by omega⟩
    | ended o =>
      intro hticks
      obtain ⟨total, hcosts, hle⟩ := hP (.of_isPrefix (List.prefix_append ..) hticks)
      obtain ⟨hpos, -⟩ := hcosts.step hs hticks hi.within.config_eq
      omega

end Receiver

end

/-! ### On a line -/

namespace Line
variable {τ : Type} {line : Line (StateM τ)} {config : Config} {capacity : Nat} {buffer : Array UInt8}
variable {env : τ}

/-- The calls that a transfer makes on a line, for so much fuel. -/
def calls (line : Line (StateM τ)) (config : Config) (capacity : Nat) (buffer : Array UInt8) (env : τ)
    (fuel : Nat) : List Call :=
  (((line.recorded.receive config capacity buffer fuel).run []).run env).1.2

theorem calls_eq {fuel : Nat} {calls : List Call} {env' : τ} {p : Progress Receiver Outcome}
    (hpos : 0 < capacity) (hsize : capacity ≤ buffer.size)
    (h : ((line.recorded.run Receiver.ask fuel (.start config capacity buffer)).run []).run env =
      ((p, calls), env')) : line.calls config capacity buffer env fuel = calls := by
  rw [Line.calls, (run_receive_eq_ok hpos hsize).2 h]

/-- A transfer to which only so many bytes come, on a clock that ticks, returns. -/
theorem receive_returns {bytes : Nat} (hpos : 0 < capacity) (hsize : capacity ≤ buffer.size)
    (hmax : config.maxRetries.toNat < UInt32.size - 1)
    (hbytes : ∀ fuel, ((line.calls config capacity buffer env fuel).filterMap Call.taken?).length ≤ bytes)
    (hticks : ∀ fuel, Call.Ticking (line.calls config capacity buffer env fuel)) :
    ∃ outcome env', outcome.ending ≠ .exhausted ∧ ∀ fuel, config.worth * (bytes + 1) + 5 ≤ fuel →
      (line.receive config capacity buffer fuel).run env = (.ok (.ended outcome), env') := by
  obtain ⟨calls, env', hreceive⟩ := Line.receive_of_standing hpos hsize
    (rfl : line.standing config capacity buffer (config.worth * (bytes + 1) + 5) env = _)
  have hrun := (run_receive_eq_ok hpos hsize).1 hreceive
  have hcalls := calls_eq hpos hsize hrun
  obtain ⟨steps, hsteps, heq⟩ := run_of_receive hreceive
  generalize line.standing config capacity buffer (config.worth * (bytes + 1) + 5) env = p at hrun hsteps
  cases p with
  | going r =>
    -- Such a run would have asked more questions than the bytes that came allow.
    have hfuel := line.length_of_run_going hrun
    have hle : calls.length ≤ config.worth * ((calls.filterMap Call.taken?).length + 1) + 4 := by
      rw [heq, List.length_map]
      exact hsteps.length_le (heq ▸ hcalls ▸ hticks _)
    have hbound : config.worth * ((calls.filterMap Call.taken?).length + 1) ≤ config.worth * (bytes + 1) :=
      Nat.mul_le_mul_left _ (Nat.succ_le_succ (hcalls ▸ hbytes _))
    rw [List.length_nil] at hfuel
    omega
  | ended o =>
    refine ⟨o, env', hsteps.inv (Nat.add_lt_of_lt_sub hmax), fun fuel hfuel => ?_⟩
    obtain ⟨more, rfl⟩ := Nat.exists_eq_add_of_le hfuel
    exact receive_of_recorded ((run_receive_eq_ok hpos hsize).2 (line.run_add_of_ended more hrun))

/-- More fuel adds calls behind those that are made anyway. -/
theorem calls_isPrefix (line : Line (StateM τ)) (config : Config) (env : τ) (hpos : 0 < capacity)
    (hsize : capacity ≤ buffer.size) (fuel more : Nat) :
    line.calls config capacity buffer env fuel <+: line.calls config capacity buffer env (fuel + more) := by
  rcases hrun : ((line.recorded.run Receiver.ask fuel (.start config capacity buffer)).run []).run env
    with ⟨⟨p, calls⟩, env'⟩
  rw [calls_eq hpos hsize hrun]
  cases p with
  | going r =>
    rcases hmore : ((line.recorded.run Receiver.ask more r).run calls).run env'
      with ⟨⟨p', calls'⟩, env''⟩
    obtain ⟨steps, -, rfl⟩ := line.extend_trace more .start hmore
    exact ⟨_, (calls_eq hpos hsize ((line.run_add_of_going more hrun).trans hmore)).symm⟩
  | ended o => exact calls_eq hpos hsize (line.run_add_of_ended more hrun) ▸ List.prefix_rfl

theorem calls_isPrefix_of_ended {fuel : Nat} {o : Outcome} (hpos : 0 < capacity)
    (hsize : capacity ≤ buffer.size) (h : line.standing config capacity buffer fuel env = .ended o)
    (fuel' : Nat) :
    line.calls config capacity buffer env fuel' <+: line.calls config capacity buffer env fuel := by
  rcases Nat.le_total fuel' fuel with hle | hle
  · obtain ⟨more, rfl⟩ := Nat.exists_eq_add_of_le hle
    exact line.calls_isPrefix config env hpos hsize fuel' more
  · obtain ⟨more, rfl⟩ := Nat.exists_eq_add_of_le hle
    obtain ⟨calls, env', hreceive⟩ := Line.receive_of_standing hpos hsize h
    have hrun := (run_receive_eq_ok hpos hsize).1 hreceive
    rw [calls_eq hpos hsize hrun]
    exact calls_eq hpos hsize (line.run_add_of_ended more hrun) ▸ List.prefix_rfl

end Line

/-- A stray byte, and then a sender that stays silent: the transfer is given up. -/
theorem Line.receive_returns_silent : ∃ (config : Config) (env : Bench.ScriptedLine) (outcome : Outcome)
    (env' : Bench.ScriptedLine), outcome.ending ≠ .exhausted ∧ ∀ fuel, config.worth * (1 + 1) + 5 ≤ fuel →
      (Bench.ScriptedLine.line.receive config 128 (Array.replicate 128 0) fuel).run env =
        (.ok (.ended outcome), env') := by
  let config : Config := { startTimeout := 0, flushIdle := 150000, maxRetries := 1 }
  let env : Bench.ScriptedLine := { script := [.bytes ⟨#[9], 1, 0⟩] }
  -- The transfer is over after 19 questions, so whatever the fuel, it makes no more calls than these.
  have hcalls : Bench.ScriptedLine.line.calls config 128 (Array.replicate 128 0) env 19 =
      [.timed 0, .polled (.ok (some 9)), .timed 0, .polled (.ok none), .timed 100000, .polled (.ok none),
        .timed 200000, .wrote Control.nak (.ok ()), .timed 200000, .polled (.ok none), .timed 300000,
        .timed 300000, .polled (.ok none), .timed 400000, .polled (.ok none), .timed 500000,
        .wrote Control.can (.ok ()), .wrote Control.can (.ok ()), .wrote Control.can (.ok ())] := by
    decide +kernel
  have hended : (Bench.ScriptedLine.line.standing config 128 (Array.replicate 128 0) 19 env).result?.isSome := by
    decide +kernel
  obtain ⟨o, ho⟩ := Option.isSome_iff_exists.1 hended
  have hmore := calls_isPrefix_of_ended (by decide) (by simp) (Progress.eq_ended ho)
  refine ⟨config, env,
    receive_returns (by decide) (by simp) (by decide) (fun fuel => ?_) (fun fuel => ?_)⟩
  · have hle := ((hmore fuel).sublist.filterMap Call.taken?).length_le
    rwa [hcalls] at hle
  · refine .of_isPrefix (hmore fuel) ?_
    rw [hcalls]
    intro a b hin
    have hstep : b - a = 100000 := by
      simp only [List.infix_cons_iff, List.cons_prefix_cons, List.nil_prefix] at hin
      grind
    rw [hstep]
    decide

end Xmodem
