import Xmodem.Proofs.Options
import Xmodem.Proofs.TrueTime

/-!
# The range of timeouts

A deadline is set by adding to the clock, and compared by the sign of a difference. A wait of at most half of
the clock's range lasts as long as it says (`Deadline.reached_after`); a longer one is over before it has
begun, since its deadline seems to lie in the past (`Deadline.reached_self_iff`). Milliseconds become
microseconds by a multiplication that saturates, and the largest number of them that a command line takes is
the last one whose wait can be told from one that is over: `CommandLine.timeouts_exact` says what becomes of
each number, on either side of it.
-/

namespace Xmodem

open CommandLine

/-! ### Deadlines -/

/-- A deadline counts as reached where the clock stood when it was set, if nothing or more than half of the
clock's range lies between. -/
theorem Deadline.reached_self_iff {now window : UInt32} :
    (after now window).reached now = true ↔ window.toNat = 0 ∨ 2 ^ 31 < window.toNat := by
  have hdiff : now - (now + window) = 0 - window := by grind
  have hlt : (0 - window).toNat = (2 ^ 32 - window.toNat) % 2 ^ 32 := by
    rw [UInt32.toNat_sub]
    rfl
  have hwindow := window.toNat_lt
  rw [after, reached, hdiff, decide_eq_true_iff, UInt32.lt_iff_toNat_lt, hlt]
  show _ < 2 ^ 31 ↔ _
  omega

/-- A wait of `window` lasts `usecs` microseconds: from each reading of the clock on, its deadline counts as
reached exactly when that time has passed, up to half of the clock's range behind it. -/
def Deadline.Lasts (window : UInt32) (usecs : Nat) : Prop :=
  window.toNat = usecs ∧ ∀ (now : UInt32) (elapsed : Nat), elapsed < usecs + 2 ^ 31 →
    ((after now window).reached (now + UInt32.ofNat elapsed) = true ↔ usecs ≤ elapsed)

/-! ### Microseconds -/

namespace Config
variable {ms : UInt32}

theorem toNat_microseconds (ms : UInt32) :
    (microseconds ms).toNat = min (1000 * ms.toNat) (UInt32.size - 1) := by
  have hsize : min (ms.toNat * 1000) (UInt32.size - 1) < UInt32.size :=
    Nat.lt_of_le_of_lt (Nat.min_le_right ..) (by decide)
  rw [microseconds, UInt32.toNat_ofNat_of_lt' hsize, Nat.mul_comm]

theorem microseconds_lasts (h : ms.toNat ≤ maxTimeoutMs) :
    Deadline.Lasts (microseconds ms) (1000 * ms.toNat) := by
  -- The bound is a quotient that was rounded down: a thousand times it is still below half of the range.
  have hmax : 1000 * maxTimeoutMs < 2 ^ 31 := by decide
  have hwindow : (microseconds ms).toNat = 1000 * ms.toNat := by
    rw [toNat_microseconds, Nat.min_eq_left (Nat.le_sub_one_of_lt (by simp only [UInt32.size]; omega))]
  refine ⟨hwindow, fun now elapsed helapsed => ?_⟩
  rw [← hwindow] at helapsed ⊢
  exact Deadline.reached_after (by omega) helapsed

theorem lt_microseconds (h : maxTimeoutMs < ms.toNat) : 2 ^ 31 < (microseconds ms).toNat := by
  have hnext : 2 ^ 31 < 1000 * (maxTimeoutMs + 1) := by decide
  have hsize : 2 ^ 31 < UInt32.size - 1 := by decide
  rw [toNat_microseconds]
  omega

end Config

/-! ### A clock that stands still -/

namespace Wait
variable {window now : UInt32} {wait : Wait} {calls : List Call} {call : Call}

/-- The calls of a wait that has not been over at a reading yet. -/
def Unchecked (window now : UInt32) (calls : List Call) : Wait → Prop
  | arming w => w = window ∧ calls = []
  | listening d => d = .after now window ∧ calls = [.timed now]
  | checking d => d = .after now window ∧ calls = [.timed now, .polled (.ok none)]

theorem Unchecked.length_lt (h : wait.Unchecked window now calls) : calls.length < 3 := by
  cases wait with
  | arming w => simp [h.2]
  | listening d => simp [h.2]
  | checking d => simp [h.2]

theorem Unchecked.step {p : Progress Wait Polled} (h : wait.Unchecked window now calls) (hs : wait.Step call p)
    (hreached : (Deadline.after now window).reached now = true) (hstill : ∀ t ∈ call.time?, t = now) :
    p.Holds (Unchecked window now (calls ++ [call]))
      fun result => (calls ++ [call]).filterMap Call.found? = [result] := by
  cases hs with
  | armed =>
    obtain ⟨rfl, rfl⟩ := h
    obtain rfl := hstill _ rfl
    exact ⟨rfl, rfl⟩
  | found =>
    obtain ⟨-, rfl⟩ := h
    rfl
  | missed =>
    obtain ⟨rfl, rfl⟩ := h
    exact ⟨rfl, rfl⟩
  | broken =>
    obtain ⟨-, rfl⟩ := h
    rfl
  | early hearly =>
    obtain ⟨rfl, -⟩ := h
    obtain rfl := hstill _ rfl
    rw [hreached] at hearly
    cases hearly
  | late =>
    obtain ⟨-, rfl⟩ := h
    rfl

end Wait

section
variable {window now : UInt32}

theorem Trace.unchecked {steps : List (Wait × Call)} {p : Progress Wait Polled}
    (h : Trace (fun wait : Wait => wait.ask.map (Turn.mk [] ·)) (.arming window) steps p)
    (hreached : (Deadline.after now window).reached now = true)
    (hstill : ∀ t ∈ (steps.map Prod.snd).filterMap Call.time?, t = now) :
    p.Holds (Wait.Unchecked window now (steps.map Prod.snd))
      fun result => (steps.map Prod.snd).filterMap Call.found? = [result] := by
  induction h with
  | start => exact ⟨rfl, rfl⟩
  | @step steps wait call turn _ ha ih =>
    obtain ⟨p, hp, rfl⟩ := ha.of_map
    rw [List.map_append] at hstill ⊢
    rw [List.filterMap_append] at hstill
    refine (ih fun t ht => hstill t (List.mem_append_left _ ht)).step (.of_answer hp) hreached fun t ht => ?_
    refine hstill t (List.mem_append_right _ (List.mem_filterMap.2 ⟨call, List.mem_singleton_self call, ht⟩))

/-- Where a deadline seems to lie in the past as soon as it is set, a wait on a clock that has not moved
makes one poll, and comes to what that poll comes to. -/
theorem Line.readWithin_of_reached {τ : Type} {line : Line (StateM τ)} {fuel : Nat} {calls : List Call}
    {env env' : τ} {p : Progress Wait Polled} (hreached : (Deadline.after now window).reached now = true)
    (hfuel : 3 ≤ fuel) (hrun : ((line.recorded.readWithin window fuel).run []).run env = ((p, calls), env'))
    (hstill : ∀ t ∈ calls.filterMap Call.time?, t = now) :
    ∃ found, p = .ended found ∧ calls.filterMap Call.found? = [found] := by
  obtain ⟨steps, htrace, rfl⟩ := line.trace_of_run hrun
  have hholds := htrace.unchecked hreached hstill
  cases p with
  | ended found => exact ⟨found, rfl, hholds⟩
  | going wait =>
    have hlength := line.length_of_run_going hrun
    have hlt := hholds.length_lt
    simp only [List.length_nil] at hlength
    omega

end

/-- On a clock that does not move while it waits, a wait of `window` gives up at the first poll that finds
nothing: it makes one poll, and comes to what that poll comes to. -/
def Line.GivesUpAtOnce (window : UInt32) : Prop :=
  ∀ (τ : Type) (line : Line (StateM τ)) (fuel : Nat) (calls : List Call) (env env' : τ)
    (p : Progress Wait Polled) (now : UInt32), 3 ≤ fuel →
    ((line.recorded.readWithin window fuel).run []).run env = ((p, calls), env') →
    (∀ t ∈ calls.filterMap Call.time?, t = now) →
    ∃ found, p = .ended found ∧ calls.filterMap Call.found? = [found]

/-! ### Either side of the bound -/

/-- What a timeout in milliseconds comes to as a wait in microseconds. -/
structure Config.Becomes (ms window : UInt32) : Prop where
  lasts : ms.toNat ≤ maxTimeoutMs → Deadline.Lasts window (1000 * ms.toNat)
  reached : maxTimeoutMs < ms.toNat → ∀ now, (Deadline.after now window).reached now = true
  givesUp : maxTimeoutMs < ms.toNat → Line.GivesUpAtOnce window

theorem Config.becomes_microseconds (ms : UInt32) : Becomes ms (microseconds ms) := by
  have hreached (h : maxTimeoutMs < ms.toNat) (now : UInt32) :
      (Deadline.after now (microseconds ms)).reached now = true :=
    Deadline.reached_self_iff.2 (.inr (lt_microseconds h))
  exact ⟨microseconds_lasts, hreached, fun h _ _ _ _ _ _ _ now hfuel hrun hstill =>
    Line.readWithin_of_reached (hreached h now) hfuel hrun hstill⟩

namespace CommandLine

/-- The timeouts that a command line can ask for, and those that are taken as they are typed, are those whose
waits last as long as they say, down to the last microsecond and on every reading of the clock; a longer one
would be over as soon as it begins. -/
theorem timeouts_exact (retries startMs byteMs : UInt32) :
    ((∃ words args, Arguments.parse words = .ok args ∧ args.receive.startTimeoutMs = startMs ∧
      args.receive.byteTimeoutMs = byteMs) ↔ InRange startMs ∧ InRange byteMs) ∧
    (∀ start byte : Nat,
      ((∃ args, Arguments.parse (timeoutWords start byte) = .ok args) ↔
        (1 ≤ start ∧ start ≤ maxTimeoutMs) ∧ 1 ≤ byte ∧ byte ≤ maxTimeoutMs) ∧
      ∀ args, Arguments.parse (timeoutWords start byte) = .ok args →
        args.receive.startTimeoutMs.toNat = start ∧ args.receive.byteTimeoutMs.toNat = byte) ∧
    Config.Becomes startMs (Config.ofMillis retries startMs byteMs).startTimeout ∧
    Config.Becomes byteMs (Config.ofMillis retries startMs byteMs).byteTimeout :=
  ⟨Arguments.exists_parse_timeouts, Arguments.exists_parse_timeoutWords, Config.becomes_microseconds startMs,
    Config.becomes_microseconds byteMs⟩

/-- The last timeout that is taken and the first that is not, and a line whose clock stands still. -/
theorem timeouts_exact_boundary :
    (¬ ∃ words args, Arguments.parse words = .ok args ∧ args.receive.startTimeoutMs = 2147483 ∧
      args.receive.byteTimeoutMs = 2147484) ∧
    Deadline.Lasts (Config.ofMillis 10 2147483 2147484).startTimeout 2147483000 ∧
    (∀ now, (Deadline.after now (Config.ofMillis 10 2147483 2147484).byteTimeout).reached now = true) ∧
    ∃ (calls : List Call) (env' : Bench.ScriptedLine),
      ((Bench.ScriptedLine.line.recorded.readWithin (Config.ofMillis 10 2147483 2147484).byteTimeout 3).run []).run
        { idleStep := 0 } = ((.ended (.ok none), calls), env') := by
  obtain ⟨haccepted, -, hstart, hbyte⟩ := timeouts_exact 10 2147483 2147484
  let window := (Config.ofMillis 10 2147483 2147484).byteTimeout
  let env : Bench.ScriptedLine := { idleStep := 0 }
  obtain ⟨⟨⟨p, calls⟩, env'⟩, hrun⟩ : ∃ r,
      ((Bench.ScriptedLine.line.recorded.readWithin window 3).run []).run env = r := ⟨_, rfl⟩
  have hcalls : (((Bench.ScriptedLine.line.recorded.readWithin window 3).run []).run env).1.2 =
      [.timed 0, .polled (.ok none), .timed 0] := by
    decide +kernel
  rw [hrun] at hcalls
  obtain rfl : calls = _ := hcalls
  obtain ⟨found, rfl, hfound⟩ := hbyte.givesUp (by decide) _ _ _ _ _ _ _ 0 (Nat.le_refl 3) hrun fun t ht =>
    List.eq_of_mem_replicate (n := 2) ht
  obtain rfl := (List.cons.inj hfound).1
  exact ⟨fun h => absurd (haccepted.1 h).2 (by decide), hstart.lasts (by decide), hbyte.reached (by decide),
    _, env', hrun⟩

end CommandLine

end Xmodem
