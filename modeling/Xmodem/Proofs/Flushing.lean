import Xmodem.Proofs.SerialDevice
import Xmodem.Proofs.TrueTime

/-!
# Flushes in true time

A flush is a wait after a wait, each with a deadline of its own that is set behind the byte before it, until one
finds nothing. So a flush throws away the bytes that come up to the first window in which the line was idle, and no
other: `Drain.Reference` says what its calls are on a clock that does not wrap, and `Line.flush_drains` that these
are its calls on every line.
-/

namespace Xmodem

/-! ### The time from some reading on -/

/-- How often the clock was read. -/
def Call.readings (calls : List Call) : Nat :=
  (calls.filterMap time?).length

/-- The times of the readings behind some calls. -/
def Clock.behind (times : Nat → Nat) (calls : List Call) (i : Nat) : Nat :=
  times (Call.readings calls + i)

theorem Clock.Paced.behind {times : Nat → Nat} (h : Paced times) (calls : List Call) :
    Paced (Clock.behind times calls) :=
  fun i => h (Call.readings calls + i)

theorem Clock.behind_sub (times : Nat → Nat) {calls : List Call} {i : Nat} (h : Call.readings calls ≤ i) :
    behind times calls (i - Call.readings calls) = times i := by
  rw [behind, Nat.add_sub_cancel' h]

theorem Call.readings_append (calls more : List Call) :
    readings (calls ++ more) = readings calls + readings more := by
  rw [readings, List.filterMap_append, List.length_append]
  rfl

theorem Call.Shows.behind {times : Nat → Nat} {calls more : List Call} (h : Shows times (calls ++ more)) :
    Shows (Clock.behind times calls) more := by
  intro i now hi
  refine h (readings calls + i) now ?_
  rw [readings, List.filterMap_append, List.getElem?_append_right (Nat.le_add_right ..), Nat.add_sub_cancel_left]
  exact hi

/-! ### One wait of a flush -/

namespace Wait
variable {window : UInt32} {times : Nat → Nat} {calls : List Call} {wait : Wait}

theorem readings_misses (times : Nat → Nat) (n : Nat) : Call.readings (misses times n) = n + 1 := by
  rw [Call.readings, time?_misses, List.length_map, List.length_range]

theorem found?_mem_misses {n : Nat} {found : Polled} (h : found ∈ (misses times n).filterMap Call.found?) :
    found = .ok none := by
  rw [found?_misses] at h
  exact List.eq_of_mem_replicate h

/-- The calls of a wait that goes on are readings and polls that found nothing. -/
theorem Follows.filterMap_eq {α : Type} {f : Call → Option α} (h : wait.Follows window times calls)
    (htimed : ∀ now, f (.timed now) = none) (hmissed : f (.polled (.ok none)) = none) :
    calls.filterMap f = [] := by
  cases wait with
  | arming w => rw [h.2, List.filterMap_nil]
  | listening d =>
    obtain ⟨-, n, rfl, -⟩ := h
    exact filterMap_misses htimed hmissed times n
  | checking d =>
    obtain ⟨-, n, rfl, -⟩ := h
    rw [List.filterMap_append, filterMap_misses htimed hmissed]
    simp [hmissed]

theorem Follows.early (h : wait.Follows window times calls) {i : Nat} (hpos : 0 < i)
    (hlt : i < Call.readings calls) : times i < times 0 + window.toNat := by
  cases wait with
  | arming w =>
    rw [h.2] at hlt
    cases hlt
  | listening d =>
    obtain ⟨-, n, rfl, hearly⟩ := h
    rw [readings_misses] at hlt
    exact hearly i hpos (Nat.le_of_lt_succ hlt)
  | checking d =>
    obtain ⟨-, n, rfl, hearly⟩ := h
    rw [Call.readings_append, readings_misses] at hlt
    exact hearly i hpos (Nat.le_of_lt_succ hlt)

end Wait

/-! ### What a flush comes to -/

namespace Drain

/-- Calls that throw bytes away: each byte is found by a wait of its own, which begins behind the one before. -/
inductive Discards (window : Nat) (times : Nat → Nat) : List Call → List UInt8 → Prop
  | nil : Discards window times [] []
  | found {calls latest : List Call} {bytes : List UInt8} {byte : UInt8} :
    Discards window times calls bytes →
    Wait.Reference window (Clock.behind times calls) latest (.ok (some byte)) →
      Discards window times (calls ++ latest) (bytes ++ [byte])

/-- The calls of a flush on a clock that does not wrap, and what it comes to. -/
inductive Reference (window : Nat) (times : Nat → Nat) : List Call → Except IoError Nat → Prop
  | idle {before quiet : List Call} {bytes : List UInt8} (hbefore : Discards window times before bytes)
    (hquiet : Wait.Reference window (Clock.behind times before) quiet (.ok none)) :
    Reference window times (before ++ quiet) (.ok bytes.length)
  | broken {before latest : List Call} {bytes : List UInt8} {e : IoError}
    (hbefore : Discards window times before bytes)
    (hlatest : Wait.Reference window (Clock.behind times before) latest (.error e)) :
    Reference window times (before ++ latest) (.error e)

/-- The calls that a flush has made when it stands here. -/
def Follows (window : UInt32) (times : Nat → Nat) (calls : List Call) (d : Drain) : Prop :=
  d.window = window ∧ ∃ before latest bytes, calls = before ++ latest ∧
    Discards window.toNat times before bytes ∧ bytes.length = d.discarded ∧
    d.wait.Follows window (Clock.behind times before) latest

variable {window : UInt32} {times : Nat → Nat} {calls : List Call} {call : Call} {d : Drain}

theorem follows_start (window : UInt32) (times : Nat → Nat) : (start window).Follows window times [] :=
  ⟨rfl, [], [], [], rfl, .nil, rfl, rfl, rfl⟩

theorem Follows.step {p : Progress Drain (Except IoError Nat)} (h : d.Follows window times calls)
    (hs : d.Step call p) (htimes : Clock.Paced times) (hwindow : window.toNat ≤ 2 ^ 31)
    (hshows : Call.Shows times (calls ++ [call])) :
    p.Holds (Follows window times (calls ++ [call])) (Reference window.toNat times (calls ++ [call])) := by
  obtain ⟨rfl, before, latest, bytes, rfl, hdiscards, hcount, hwait⟩ := h
  rw [List.append_assoc] at hshows ⊢
  -- The wait that is on goes by the time from its first reading on.
  have hlatest {p : Progress Wait Polled} (hw : d.wait.Step call p) :=
    hwait.step hw (htimes.behind before) hwindow hshows.behind
  cases hs with
  | waiting hw => exact ⟨rfl, before, latest ++ [call], bytes, rfl, hdiscards, hcount, hlatest hw⟩
  | @discarded byte hw =>
    refine ⟨rfl, before ++ (latest ++ [call]), [], bytes ++ [byte], (List.append_nil _).symm,
      hdiscards.found (hlatest hw), ?_, rfl, rfl⟩
    rw [List.length_append, hcount]
    rfl
  | idle hw => exact hcount ▸ .idle hdiscards (hlatest hw)
  | broken hw => exact .broken hdiscards (hlatest hw)

/-! ### What a flush takes -/

theorem Discards.filterMap_eq {α : Type} {f : Call → Option α} {window : Nat} {bytes : List UInt8}
    (h : Discards window times calls bytes) (htimed : ∀ now, f (.timed now) = none)
    (hmissed : f (.polled (.ok none)) = none) :
    calls.filterMap f = bytes.filterMap fun byte => f (.polled (.ok (some byte))) := by
  induction h with
  | nil => rfl
  | @found calls latest bytes byte _ hlatest ih =>
    rw [List.filterMap_append, List.filterMap_append, ih, hlatest.filterMap_eq htimed hmissed]
    cases hlast : f (.polled (.ok (some byte))) <;> simp [hlast]

theorem Discards.taken?_eq {window : Nat} {bytes : List UInt8} (h : Discards window times calls bytes) :
    calls.filterMap Call.taken? = bytes := by
  rw [h.filterMap_eq (fun _ => rfl) rfl]
  exact List.filterMap_some

theorem Discards.taken?_append {window : Nat} {bytes : List UInt8} {more : List Call}
    (h : Discards window times calls bytes) (hmore : more.filterMap Call.taken? = []) :
    (calls ++ more).filterMap Call.taken? = bytes := by
  rw [List.filterMap_append, h.taken?_eq, hmore, List.append_nil]

theorem Discards.error?_eq {window : Nat} {bytes : List UInt8} (h : Discards window times calls bytes) :
    calls.filterMap Call.error? = [] := by
  rw [h.filterMap_eq (fun _ => rfl) rfl]
  exact List.filterMap_eq_nil_iff.2 fun _ _ => rfl

theorem Follows.error?_eq (h : d.Follows window times calls) : calls.filterMap Call.error? = [] := by
  obtain ⟨-, before, latest, bytes, rfl, hdiscards, -, hwait⟩ := h
  rw [List.filterMap_append, hdiscards.error?_eq, hwait.filterMap_eq (fun _ => rfl) rfl, List.nil_append]

theorem Reference.error?_eq {window : Nat} {result : Except IoError Nat}
    (h : Reference window times calls result) : calls.filterMap Call.error? = match result with
      | .ok _ => []
      | .error e => [e] := by
  cases h with
  | idle hbefore hquiet =>
    rw [List.filterMap_append, hbefore.error?_eq, hquiet.filterMap_eq (fun _ => rfl) rfl]
    rfl
  | broken hbefore hlatest =>
    rw [List.filterMap_append, hbefore.error?_eq, hlatest.filterMap_eq (fun _ => rfl) rfl]
    rfl

/-- Behind these calls no byte has come, for as long as the window says and no longer. -/
structure Idle (window : Nat) (times : Nat → Nat) (before quiet : List Call) : Prop where
  missed : ∀ found ∈ quiet.filterMap Call.found?, found = .ok none
  lapsed : ∃ last, Call.readings (before ++ quiet) = last + 1 ∧ Call.readings before < last ∧
    times (Call.readings before) + window ≤ times last ∧
    ∀ i, Call.readings before < i → i < last → times i < times (Call.readings before) + window

theorem Idle.of_reference {window : Nat} {before quiet : List Call}
    (h : Wait.Reference window (Clock.behind times before) quiet (.ok none)) : Idle window times before quiet := by
  cases h with
  | found hresult => exact absurd rfl hresult
  | @lapsed n hearly hlate =>
    refine ⟨fun _ => Wait.found?_mem_misses, Call.readings before + (n + 1), ?_, by omega, hlate,
      fun i hlo hhi => ?_⟩
    · rw [Call.readings_append, Wait.readings_misses]
      rfl
    · rw [← Clock.behind_sub times (Nat.le_of_lt hlo)]
      exact hearly _ (by omega) (by omega)

end Drain

theorem Trace.drain_follows {window : UInt32} {times : Nat → Nat} {steps : List (Drain × Call)}
    {p : Progress Drain (Except IoError Nat)} (h : Trace Drain.ask (.start window) steps p)
    (htimes : Clock.Paced times) (hwindow : window.toNat ≤ 2 ^ 31)
    (hshows : Call.Shows times (steps.map Prod.snd)) :
    p.Holds (Drain.Follows window times (steps.map Prod.snd))
      (Drain.Reference window.toNat times (steps.map Prod.snd)) := by
  induction h with
  | start => exact Drain.follows_start window times
  | @step steps d call turn _ ha ih =>
    rw [List.map_append] at hshows ⊢
    exact Drain.Follows.step (ih hshows.of_append) (.of_answer ha) htimes hwindow hshows

/-! ### What is left on the line -/

namespace Line
variable {τ σ ρ : Type} {line : Line (StateM τ)} {pending : τ → List UInt8}

/-- The bytes that the line is still to deliver are `pending`: a poll that finds a byte takes the first of
them, and nothing else takes one. -/
structure Delivers (line : Line (StateM τ)) (pending : τ → List UInt8) : Prop where
  polled : ∀ env, pending env =
    (Call.polled (line.poll.run env).1).taken?.toList ++ pending (line.poll.run env).2
  timed : ∀ env, pending (line.clock.run env).2 = pending env
  reported : ∀ message env, pending ((line.report message).run env).2 = pending env

namespace Delivers

theorem answer {α : Type} (h : line.Delivers pending) {q : Ask α} (hq : ∀ byte next, q ≠ .write byte next)
    (calls : List Call) (env : τ) : ∃ call a env',
      ((line.recorded.answer q).run calls).run env = ((a, calls ++ [call]), env') ∧
      pending env = call.taken?.toList ++ pending env' := by
  cases q with
  | poll next => exact ⟨_, _, _, rfl, h.polled env⟩
  | clock next => exact ⟨.timed _, _, _, rfl, (h.timed env).symm⟩
  | write byte next => exact absurd rfl (hq byte next)

theorem forM_report (h : line.Delivers pending) (messages : List Message) (env : τ) :
    pending ((messages.forM line.report).run env).2 = pending env := by
  induction messages generalizing env with
  | nil => rfl
  | cons message messages ih => exact (ih _).trans (h.reported message env)

/-- What a procedure that does not write takes from the line is what stood first among the bytes still to be
delivered. -/
theorem run (h : line.Delivers pending) {ask : σ → Ask (Turn σ ρ)}
    (hask : ∀ s byte next, ask s ≠ .write byte next) {fuel : Nat} {s : σ} {calls calls' : List Call} {env env' : τ}
    {p : Progress σ ρ} (hrun : ((line.recorded.run ask fuel s).run calls).run env = ((p, calls'), env')) :
    ∃ more, calls' = calls ++ more ∧ pending env = more.filterMap Call.taken? ++ pending env' := by
  induction fuel generalizing s calls env with
  | zero =>
    cases hrun
    exact ⟨[], (List.append_nil _).symm, rfl⟩
  | succ fuel ih =>
    obtain ⟨call, turn, env₁, h₁, htaken⟩ := h.answer (hask s) calls env
    have h₂ : ((turn.said.forM line.recorded.report).run (calls ++ [call])).run env₁ =
        (((), calls ++ [call]), ((turn.said.forM line.report).run env₁).2) := by
      rw [forM_report_recorded]
      rfl
    rw [line.run_step fuel h₁ h₂] at hrun
    rw [htaken, ← h.forM_report turn.said env₁]
    have htail (rest : List Call) :
        (call :: rest).filterMap Call.taken? = call.taken?.toList ++ rest.filterMap Call.taken? := by
      cases hcall : call.taken? <;> simp [hcall]
    cases hn : turn.next with
    | going s₁ =>
      rw [hn] at hrun
      obtain ⟨more, rfl, hmore⟩ := ih hrun
      exact ⟨call :: more, by simp, by rw [hmore, htail, List.append_assoc]⟩
    | ended r =>
      rw [hn] at hrun
      cases hrun
      exact ⟨[call], rfl, by rw [htail]; simp⟩

end Delivers

end Line

/-! ### On a scripted line -/

namespace Bench

/-- The bytes that a script still has in store. -/
def Cue.content : Cue → List UInt8
  | bytes burst => burst.bytes
  | _ => []

def Cue.queued (script : List Cue) : List UInt8 :=
  script.flatMap content

def Encounter.byte? : Encounter → Option UInt8
  | byte value => some value
  | _ => none

theorem Burst.bytes_of_next?_eq_none {b : Burst} (h : b.next? = none) : b.bytes = [] := by
  refine b.bytes_of_left (Classical.byContradiction fun hleft => ?_)
  obtain ⟨byte, b', hnext, -⟩ := exists_next? hleft
  rw [h] at hnext
  cases hnext

theorem Cue.queued_poll (written gapStep : Nat) (script : List Cue) :
    queued script = (poll written gapStep script).1.byte?.toList ++ queued (poll written gapStep script).2 := by
  fun_induction poll written gapStep script with
  | case1 => rfl
  | case2 => rfl
  | case3 rest ih => exact ih
  | case4 left rest hpos step => rfl
  | case5 writes rest hle ih => exact ih
  | case6 writes rest hgt => rfl
  | case7 error rest => rfl
  | case8 burst rest hnone ih =>
    show burst.bytes ++ queued rest = _
    rw [Burst.bytes_of_next?_eq_none hnone, List.nil_append, ← ih]
  | case9 burst rest byte burst' hnext =>
    show burst.bytes ++ queued rest = byte :: (burst'.bytes ++ queued rest)
    rw [Burst.bytes_of_next? hnext, List.cons_append]

namespace ScriptedLine

/-- The bytes of the script come from the line one after the other. -/
theorem line_delivers : line.Delivers fun env => Cue.queued env.script where
  polled env := by
    show _ = (Call.polled env.poll.1).taken?.toList ++ Cue.queued env.poll.2.script
    have hpoll := Cue.queued_poll env.written env.gapStep env.script
    unfold poll
    dsimp only
    split
    · rfl
    · generalize Cue.poll env.written env.gapStep env.script = met at hpoll
      obtain ⟨met, script⟩ := met
      cases met <;> exact hpoll
  timed env := rfl
  reported message env := rfl

end ScriptedLine

end Bench

/-! ### A flush on every line -/

theorem Drain.ask_ne_write (d : Drain) (byte : UInt8)
    (next : Except IoError Unit → Turn Drain (Except IoError Nat)) : d.ask ≠ .write byte next := by
  obtain ⟨window, discarded, wait⟩ := d
  cases wait <;> nofun

/-- A flush that is over has thrown away the bytes that came up to the first window in which the line was
idle, and has left those behind it on the line; if a poll fails, it ends there with that error. As long as it
goes on, no poll has failed and the window is not over. -/
theorem Line.flush_drains {τ : Type} {line : Line (StateM τ)} {window : UInt32} {times : Nat → Nat} {fuel : Nat}
    {calls : List Call} {env env' : τ} {p : Progress Drain (Except IoError Nat)} (hwindow : window.toNat ≤ 2 ^ 31)
    (htimes : Clock.Paced times) (hrun : ((line.recorded.flush window fuel).run []).run env = ((p, calls), env'))
    (hshows : Call.Shows times calls) :
    (∀ n, p = .ended (.ok n) → ∃ before quiet bytes, calls = before ++ quiet ∧ bytes.length = n ∧
      calls.filterMap Call.taken? = bytes ∧ Drain.Discards window.toNat times before bytes ∧
      Drain.Idle window.toNat times before quiet) ∧
    (∀ e, Call.polled (.error e) ∈ calls → p = .ended (.error e)) ∧
    (∀ e, p = .ended (.error e) → ∃ before latest bytes, calls = before ++ latest ++ [.polled (.error e)] ∧
      calls.filterMap Call.taken? = bytes ∧ Drain.Discards window.toNat times before bytes ∧
      ∀ found ∈ latest.filterMap Call.found?, found = .ok none) ∧
    (∀ d, p = .going d → ∃ before latest bytes, calls = before ++ latest ∧ bytes.length = d.discarded ∧
      calls.filterMap Call.taken? = bytes ∧ Drain.Discards window.toNat times before bytes ∧
      ∀ i, Call.readings before < i → i < Call.readings calls →
        times i < times (Call.readings before) + window.toNat) ∧
    ∀ pending, line.Delivers pending → pending env = calls.filterMap Call.taken? ++ pending env' := by
  obtain ⟨steps, htrace, rfl⟩ := line.trace_of_run hrun
  have hfollows := htrace.drain_follows htimes hwindow hshows
  generalize steps.map Prod.snd = calls at hfollows hrun ⊢
  refine ⟨?_, fun e hmem => ?_, ?_, ?_, fun pending hpending => ?_⟩
  · rintro n rfl
    cases hfollows with
    | @idle before quiet bytes hbefore hquiet =>
      exact ⟨before, quiet, bytes, rfl, rfl, hbefore.taken?_append hquiet.taken?_eq, hbefore,
        .of_reference hquiet⟩
  · have herror : e ∈ calls.filterMap Call.error? := List.mem_filterMap.2 ⟨_, hmem, rfl⟩
    cases p with
    | going d =>
      rw [Drain.Follows.error?_eq hfollows] at herror
      cases herror
    | ended result =>
      rw [Drain.Reference.error?_eq hfollows] at herror
      cases result with
      | ok n => cases herror
      | error e' => rw [List.mem_singleton.1 herror]
  · rintro e rfl
    cases hfollows with
    | @broken before latest bytes _ hbefore hlatest =>
      have htaken := hbefore.taken?_append hlatest.taken?_eq
      cases hlatest with
      | found =>
        exact ⟨before, _, bytes, (List.append_assoc ..).symm, htaken, hbefore, fun _ => Wait.found?_mem_misses⟩
  · rintro d rfl
    obtain ⟨-, before, latest, bytes, rfl, hbefore, hcount, hwait⟩ := hfollows
    have htaken := hbefore.taken?_append (hwait.filterMap_eq (fun _ => rfl) rfl)
    refine ⟨before, latest, bytes, rfl, hcount, htaken, hbefore, fun i hlo hhi => ?_⟩
    rw [Call.readings_append] at hhi
    rw [← Clock.behind_sub times (Nat.le_of_lt hlo)]
    exact hwait.early (by omega) (by omega)
  · obtain ⟨more, rfl, hmore⟩ := hpending.run Drain.ask_ne_write hrun
    exact hmore

/-- A flush while the clock wraps: a pause shorter than the window, then one that ends it, and a byte behind. -/
theorem Line.flush_drains_wrap : ∃ (env env' : Bench.ScriptedLine) (calls : List Call) (times : Nat → Nat),
    Clock.Paced times ∧ times 0 = 4294900000 ∧ Call.Shows times calls ∧
    ((Bench.ScriptedLine.line.recorded.flush 250000 15).run []).run env = ((.ended (.ok 4), calls), env') ∧
    calls.filterMap Call.taken? = [0x11, 0x22, 0x33, 0x04] ∧ Bench.Cue.queued env'.script = [0x05] ∧
    ∃ before quiet, calls = before ++ quiet ∧ Drain.Discards 250000 times before [0x11, 0x22, 0x33, 0x04] ∧
      Drain.Idle 250000 times before quiet := by
  let env : Bench.ScriptedLine :=
    { now := 4294900000
      gapStep := 50000
      script := [.bytes ⟨#[0x11, 0x22, 0x33], 1, 0⟩, .gap 100000, .bytes ⟨#[0x04], 1, 0⟩, .silence,
        .bytes ⟨#[0x05], 1, 0⟩] }
  -- The clock moves in the three polls that find nothing, before the readings 4, 5 and 7.
  let times (i : Nat) : Nat :=
    4294900000 + if i ≤ 3 then 0 else if i = 4 then 50000 else if i ≤ 6 then 100000 else 10100000
  have htimes : Clock.Paced times := fun i => by
    dsimp only [times]
    constructor <;> grind
  obtain ⟨⟨⟨p, calls⟩, env'⟩, hrun⟩ : ∃ r,
      ((Bench.ScriptedLine.line.recorded.flush 250000 15).run []).run env = r := ⟨_, rfl⟩
  have hresult : (((Bench.ScriptedLine.line.recorded.flush 250000 15).run []).run env).1.1.result? =
      some (.ok 4) := by
    decide +kernel
  have hreadings : (((Bench.ScriptedLine.line.recorded.flush 250000 15).run []).run env).1.2.filterMap Call.time? =
      (List.range 8).map fun i => Clock.reading (times i) := by
    decide +kernel
  have htaken : (((Bench.ScriptedLine.line.recorded.flush 250000 15).run []).run env).1.2.filterMap Call.taken? =
      [0x11, 0x22, 0x33, 0x04] := by
    decide +kernel
  rw [hrun] at hresult hreadings htaken
  obtain rfl := Progress.eq_ended hresult
  have hshows := Call.Shows.of_eq hreadings
  obtain ⟨hdrained, -, -, -, hleft⟩ := flush_drains (by decide) htimes hrun hshows
  obtain ⟨before, quiet, bytes, hcalls, -, hbytes, hdiscards, hidle⟩ := hdrained 4 rfl
  obtain rfl := hbytes.symm.trans htaken
  have hqueued : [0x11, 0x22, 0x33, 0x04] ++ [0x05] =
      calls.filterMap Call.taken? ++ Bench.Cue.queued env'.script :=
    hleft _ Bench.ScriptedLine.line_delivers
  rw [htaken] at hqueued
  exact ⟨env, env', calls, times, htimes, rfl, hshows, hrun, htaken,
    (List.append_cancel_left hqueued).symm, before, quiet, hcalls, hdiscards, hidle⟩

end Xmodem
