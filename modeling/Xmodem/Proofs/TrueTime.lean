import Mathlib.Algebra.Group.Nat.Defs
import Xmodem.Bench.ScriptedLine
import Xmodem.Proofs.Run

/-!
# Waits in true time

A clock shows the time without its upper digits, and starts again at 0. Where less than half of its range
lies between one reading and the next, a deadline counts as reached exactly when the time up to it has
passed (`Deadline.reached_after`), so that a wait comes to what it would come to on a clock that does not
wrap: `Wait.Reference` says what that is without a deadline, and `Line.readWithin_reference` that it is what
happens on every line.
-/

namespace Xmodem

/-! ### True times -/

/-- The true times of readings: they do not go back, and less than half of the clock's range lies between
one and the next. -/
def Clock.Paced (times : Nat → Nat) : Prop :=
  ∀ i, times i ≤ times (i + 1) ∧ times (i + 1) < times i + 2 ^ 31

theorem Clock.Paced.le {times : Nat → Nat} (h : Paced times) (i : Nat) : times 0 ≤ times i := by
  induction i with
  | zero => exact Nat.le_refl _
  | succ i ih => exact Nat.le_trans ih (h i).1

/-- Up to half of the clock's range behind a deadline it counts as reached, and before it does not, if it
was set at most half of the range ahead. -/
theorem Deadline.reached_after {now window : UInt32} {elapsed : Nat} (hwindow : window.toNat ≤ 2 ^ 31)
    (h : elapsed < window.toNat + 2 ^ 31) :
    (after now window).reached (now + UInt32.ofNat elapsed) = true ↔ window.toNat ≤ elapsed := by
  have hdiff : now + UInt32.ofNat elapsed - (now + window) = UInt32.ofNat elapsed - window := by
    grind
  have hlt : (UInt32.ofNat elapsed - window).toNat = (2 ^ 32 - window.toNat + elapsed) % 2 ^ 32 := by
    rw [UInt32.toNat_sub, UInt32.toNat_ofNat']
    omega
  rw [after, reached, hdiff, decide_eq_true_iff, UInt32.lt_iff_toNat_lt, hlt]
  show _ < 2 ^ 31 ↔ _
  omega

theorem Clock.reading_add (start elapsed : Nat) :
    reading (start + elapsed) = reading start + UInt32.ofNat elapsed :=
  UInt32.ofNat_add start elapsed

namespace Call

/-- What the clock showed. -/
def time? : Call → Option UInt32
  | timed now => some now
  | _ => none

/-- What a poll came to. -/
def found? : Call → Option Polled
  | polled found => some found
  | _ => none

/-- The clock was read at these times, the first reading first. -/
def Shows (times : Nat → Nat) (calls : List Call) : Prop :=
  ∀ i now, (calls.filterMap time?)[i]? = some now → now = Clock.reading (times i)

theorem Shows.of_eq {times : Nat → Nat} {calls : List Call} {n : Nat}
    (h : calls.filterMap time? = (List.range n).map fun i => Clock.reading (times i)) : Shows times calls := by
  intro i now hi
  rw [h, List.getElem?_map] at hi
  obtain ⟨j, hj, rfl⟩ := Option.map_eq_some_iff.1 hi
  obtain ⟨hlt, rfl⟩ := List.getElem?_eq_some_iff.1 hj
  rw [List.getElem_range]

theorem Shows.of_append {times : Nat → Nat} {calls more : List Call} (h : Shows times (calls ++ more)) :
    Shows times calls := by
  intro i now hi
  refine h i now ?_
  rw [List.filterMap_append, List.getElem?_append_left (List.getElem?_eq_some_iff.1 hi).1]
  exact hi

theorem Shows.concat {times : Nat → Nat} {calls : List Call} {now : UInt32}
    (h : Shows times (calls ++ [.timed now])) : now = Clock.reading (times (calls.filterMap time?).length) := by
  refine h _ now ?_
  rw [List.filterMap_append]
  exact List.getElem?_concat_length

end Call

/-! ### What a wait comes to -/

namespace Wait

/-- The first calls of a wait: the clock is read, and then `n` polls find nothing and the clock is read
behind each of them. -/
def misses (times : Nat → Nat) (n : Nat) : List Call :=
  .timed (Clock.reading (times 0)) ::
    (List.range n).flatMap fun i => [.polled (.ok none), .timed (Clock.reading (times (i + 1)))]

/-- The wait is not over at the first `n` readings behind a poll. -/
def Early (window : Nat) (times : Nat → Nat) (n : Nat) : Prop :=
  ∀ i, 1 ≤ i → i ≤ n → times i < times 0 + window

/-- The calls of a wait on a clock that does not wrap, and what it comes to. -/
inductive Reference (window : Nat) (times : Nat → Nat) : List Call → Polled → Prop
  | found {n : Nat} {result : Polled} (hresult : result ≠ .ok none) (hearly : Early window times n) :
    Reference window times (misses times n ++ [.polled result]) result
  | lapsed {n : Nat} (hearly : Early window times n) (hlate : times 0 + window ≤ times (n + 1)) :
    Reference window times (misses times (n + 1)) (.ok none)

variable {times : Nat → Nat} {window : UInt32} {calls : List Call} {call : Call} {n : Nat}

theorem misses_succ (times : Nat → Nat) (n : Nat) : misses times (n + 1) =
    misses times n ++ [.polled (.ok none)] ++ [.timed (Clock.reading (times (n + 1)))] := by
  simp [misses, List.range_succ]

theorem time?_misses (times : Nat → Nat) (n : Nat) :
    (misses times n).filterMap Call.time? = (List.range (n + 1)).map fun i => Clock.reading (times i) := by
  induction n with
  | zero => rfl
  | succ n ih =>
    rw [misses_succ, List.filterMap_append, List.filterMap_append, ih, List.range_succ (n := n + 1),
      List.map_append]
    simp [Call.time?]

theorem shows_misses (times : Nat → Nat) (n : Nat) : Call.Shows times (misses times n) :=
  .of_eq (time?_misses times n)

theorem found?_misses (times : Nat → Nat) (n : Nat) :
    (misses times n).filterMap Call.found? = List.replicate n (.ok none) := by
  induction n with
  | zero => rfl
  | succ n ih =>
    rw [misses_succ, List.filterMap_append, List.filterMap_append, ih, List.replicate_succ']
    simp [Call.found?]

/-- Nothing is left of these calls where readings and polls that find nothing are left out. -/
theorem filterMap_misses {α : Type} {f : Call → Option α} (htimed : ∀ now, f (.timed now) = none)
    (hmissed : f (.polled (.ok none)) = none) (times : Nat → Nat) (n : Nat) :
    (misses times n).filterMap f = [] := by
  induction n with
  | zero => simp [misses, htimed]
  | succ n ih => simp [misses_succ, ih, htimed, hmissed]

theorem length_misses (times : Nat → Nat) (n : Nat) : (misses times n).length = 2 * n + 1 := by
  induction n with
  | zero => rfl
  | succ n ih =>
    rw [misses_succ, List.length_append, List.length_append, ih]
    rfl

theorem Early.succ {window : Nat} (h : Early window times n) (hlt : times (n + 1) < times 0 + window) :
    Early window times (n + 1) := by
  intro i hpos hle
  rcases Nat.lt_or_eq_of_le hle with hi | rfl
  · exact h i hpos (Nat.le_of_lt_succ hi)
  · exact hlt

/-- A reading behind a poll of a wait that was not over tells whether it is over now. -/
theorem Early.reached_iff (h : Early window.toNat times n) (htimes : Clock.Paced times)
    (hwindow : window.toNat ≤ 2 ^ 31) :
    (Deadline.after (Clock.reading (times 0)) window).reached (Clock.reading (times (n + 1))) = true ↔
      times 0 + window.toNat ≤ times (n + 1) := by
  -- One step of the clock does not lead past the half of its range in which the deadline counts as reached.
  have hlast : times n ≤ times 0 + window.toNat := by
    rcases Nat.eq_zero_or_pos n with rfl | hpos
    · exact Nat.le_add_right ..
    · exact Nat.le_of_lt (h n hpos (Nat.le_refl n))
  have hstep := (htimes n).2
  have hle := htimes.le (n + 1)
  have htime : times (n + 1) = times 0 + (times (n + 1) - times 0) := by omega
  rw [htime, Clock.reading_add, Deadline.reached_after hwindow (by omega)]
  omega

/-- The reading behind the next poll that finds nothing. -/
theorem reading_of_shows {now : UInt32}
    (h : Call.Shows times (misses times n ++ [.polled (.ok none)] ++ [.timed now])) :
    now = Clock.reading (times (n + 1)) := by
  have hconcat := h.concat
  rwa [List.filterMap_append, time?_misses, List.length_append, List.length_map, List.length_range] at hconcat

/-- The calls that a wait has made when it stands here. -/
def Follows (window : UInt32) (times : Nat → Nat) (calls : List Call) : Wait → Prop
  | arming w => w = window ∧ calls = []
  | listening d => d = .after (Clock.reading (times 0)) window ∧
      ∃ n, calls = misses times n ∧ Early window.toNat times n
  | checking d => d = .after (Clock.reading (times 0)) window ∧
      ∃ n, calls = misses times n ++ [.polled (.ok none)] ∧ Early window.toNat times n

theorem Follows.step {wait : Wait} {p : Progress Wait Polled} (h : wait.Follows window times calls)
    (hs : wait.Step call p) (htimes : Clock.Paced times) (hwindow : window.toNat ≤ 2 ^ 31)
    (hshows : Call.Shows times (calls ++ [call])) :
    p.Holds (Follows window times (calls ++ [call]))
      (Reference window.toNat times (calls ++ [call])) := by
  cases hs with
  | armed =>
    obtain ⟨rfl, rfl⟩ := h
    obtain rfl := hshows.concat
    exact ⟨rfl, 0, rfl, fun i hpos hle => absurd hle (Nat.not_le_of_lt hpos)⟩
  | found =>
    obtain ⟨-, n, rfl, hearly⟩ := h
    exact .found nofun hearly
  | missed =>
    obtain ⟨rfl, n, rfl, hearly⟩ := h
    exact ⟨rfl, n, rfl, hearly⟩
  | broken =>
    obtain ⟨-, n, rfl, hearly⟩ := h
    exact .found nofun hearly
  | @early deadline now hreached =>
    obtain ⟨rfl, n, rfl, hearly⟩ := h
    obtain rfl := reading_of_shows hshows
    have hnot := (hearly.reached_iff htimes hwindow).not.1 (by simp [hreached])
    exact ⟨rfl, n + 1, (misses_succ times n).symm, hearly.succ (Nat.lt_of_not_le hnot)⟩
  | @late deadline now hreached =>
    obtain ⟨rfl, n, rfl, hearly⟩ := h
    obtain rfl := reading_of_shows hshows
    rw [← misses_succ]
    exact .lapsed hearly ((hearly.reached_iff htimes hwindow).1 hreached)

/-! ### What a wait costs -/

/-- Beside readings and polls that find nothing, a wait makes the poll that it comes to. -/
theorem Reference.filterMap_eq {α : Type} {f : Call → Option α} {window : Nat} {result : Polled}
    (h : Reference window times calls result) (htimed : ∀ now, f (.timed now) = none)
    (hmissed : f (.polled (.ok none)) = none) : calls.filterMap f = (f (.polled result)).toList := by
  cases h with
  | found hresult hearly =>
    rw [List.filterMap_append, filterMap_misses htimed hmissed]
    cases hlast : f (.polled result) <;> simp [hlast]
  | lapsed hearly hlate => rw [filterMap_misses htimed hmissed, hmissed, Option.toList_none]

theorem Reference.taken?_eq {window : Nat} {result : Polled} (h : Reference window times calls result) :
    calls.filterMap Call.taken? = (Call.polled result).taken?.toList :=
  h.filterMap_eq (fun _ => rfl) rfl

theorem Reference.length_time? {window : Nat} {result : Polled} (h : Reference window times calls result) :
    (calls.filterMap Call.time?).length = 1 + (calls.filterMap Call.found?).count (.ok none) := by
  cases h with
  | @found n result hresult hearly =>
    rw [List.filterMap_append, List.filterMap_append, time?_misses, found?_misses, List.count_append,
      List.count_replicate_self]
    simp [Call.time?, Call.found?, hresult, Nat.add_comm]
  | @lapsed n hearly hlate =>
    rw [time?_misses, found?_misses, List.count_replicate_self, List.length_map, List.length_range,
      Nat.add_comm]

theorem Reference.exists_polled {window : Nat} {result : Polled} (h : Reference window times calls result) :
    ∃ found, Call.polled found ∈ calls := by
  cases h with
  | found hresult hearly => exact ⟨_, List.mem_concat_self⟩
  | lapsed hearly hlate => exact ⟨.ok none, by simp [misses_succ]⟩

end Wait

/-! ### On a line -/

section
variable {times : Nat → Nat} {window : UInt32}

theorem Trace.follows {steps : List (Wait × Call)} {p : Progress Wait Polled}
    (h : Trace (fun wait : Wait => wait.ask.map (Turn.mk [] ·)) (.arming window) steps p)
    (htimes : Clock.Paced times) (hwindow : window.toNat ≤ 2 ^ 31)
    (hshows : Call.Shows times (steps.map Prod.snd)) :
    p.Holds (Wait.Follows window times (steps.map Prod.snd))
      (Wait.Reference window.toNat times (steps.map Prod.snd)) := by
  have hinv := h.invariant
    (P := fun steps wait => Call.Shows times (steps.map Prod.snd) → wait.Follows window times (steps.map Prod.snd))
    (Q := fun steps result => Call.Shows times (steps.map Prod.snd) →
      Wait.Reference window.toNat times (steps.map Prod.snd) result)
    (fun _ => ⟨rfl, rfl⟩) fun steps wait call turn hP ha => ?_
  · cases p with
    | going wait => exact hinv hshows
    | ended result => exact hinv hshows
  · obtain ⟨p, hp, rfl⟩ := ha.of_map
    rw [List.map_append]
    cases p with
    | going wait' =>
      exact fun hs => (hP hs.of_append).step (.of_answer hp) htimes hwindow hs
    | ended result =>
      exact fun hs => (hP hs.of_append).step (.of_answer hp) htimes hwindow hs

/-- A wait on a line comes to what it would come to on a clock that does not wrap. It takes a byte from the
line exactly when that is what it comes to, polls at least once, and reads the clock once at its start and
once behind each poll that finds nothing. It returns at the first such reading at which the time has passed,
and until then as soon as a poll finds a byte, or fails. -/
theorem Line.readWithin_reference {τ : Type} {line : Line (StateM τ)} {fuel : Nat} {calls : List Call}
    {env env' : τ} {p : Progress Wait Polled} (hwindow : window.toNat ≤ 2 ^ 31) (htimes : Clock.Paced times)
    (hrun : ((line.recorded.readWithin window fuel).run []).run env = ((p, calls), env'))
    (hshows : Call.Shows times calls) :
    (∀ result, p = .ended result →
      Wait.Reference window.toNat times calls result ∧
      calls.filterMap Call.taken? = (Call.polled result).taken?.toList ∧
      (∃ found, Call.polled found ∈ calls) ∧
      (calls.filterMap Call.time?).length = 1 + (calls.filterMap Call.found?).count (.ok none)) ∧
    ∀ wait, p = .going wait → (∀ found, Call.polled found ∈ calls → found = .ok none) ∧
      ∀ n, 1 ≤ n → 2 * n < fuel → times n < times 0 + window.toNat := by
  obtain ⟨steps, htrace, rfl⟩ := line.trace_of_run hrun
  have hfollows := htrace.follows htimes hwindow hshows
  refine ⟨?_, ?_⟩
  · rintro result rfl
    have href : Wait.Reference window.toNat times (steps.map Prod.snd) result := hfollows
    exact ⟨href, href.taken?_eq, href.exists_polled, href.length_time?⟩
  · rintro wait rfl
    have hlength := line.length_of_run_going hrun
    have hmissed (n : Nat) (found : Polled) (hmem : Call.polled found ∈ Wait.misses times n) :
        found = .ok none := by
      have hfound : found ∈ (Wait.misses times n).filterMap Call.found? :=
        List.mem_filterMap.2 ⟨_, hmem, rfl⟩
      rw [Wait.found?_misses] at hfound
      exact List.eq_of_mem_replicate hfound
    cases wait with
    | arming w =>
      obtain ⟨-, hnil⟩ := hfollows
      rw [hnil] at hlength ⊢
      exact ⟨nofun, fun n hpos hlt => by simp at hlength; omega⟩
    | listening d =>
      obtain ⟨-, n, hcalls, hearly⟩ := hfollows
      rw [hcalls] at hlength ⊢
      rw [Wait.length_misses, List.length_nil] at hlength
      exact ⟨hmissed n, fun i hpos hlt => hearly i hpos (by omega)⟩
    | checking d =>
      obtain ⟨-, n, hcalls, hearly⟩ := hfollows
      rw [hcalls] at hlength ⊢
      rw [List.length_append, Wait.length_misses, List.length_nil, List.length_singleton] at hlength
      refine ⟨fun found hmem => ?_, fun i hpos hlt => hearly i hpos (by omega)⟩
      rcases List.mem_append.1 hmem with hmem | hmem
      · exact hmissed n found hmem
      · simpa using hmem

end

/-- A clock that wraps during the wait, which is over at the third reading behind a poll. -/
theorem Line.readWithin_reference_wrap : ∃ (env env' : Bench.ScriptedLine) (calls : List Call)
    (times : Nat → Nat), Clock.Paced times ∧ times 0 = 4294817145 ∧ Call.Shows times calls ∧
    ((Bench.ScriptedLine.line.recorded.readWithin 250000 7).run []).run env =
      ((.ended (.ok none), calls), env') ∧
    Wait.Reference 250000 times calls (.ok none) ∧ calls.filterMap Call.taken? = [] ∧
    (calls.filterMap Call.time?).length = 1 + (calls.filterMap Call.found?).count (.ok none) := by
  let env : Bench.ScriptedLine := { now := 4294817145 }
  let times (i : Nat) : Nat := 4294817145 + 100000 * i
  have htimes : Clock.Paced times := fun i =>
    ⟨Nat.add_le_add_left (Nat.mul_le_mul_left _ (Nat.le_succ i)) _, by dsimp only [times]; omega⟩
  obtain ⟨⟨⟨p, calls⟩, env'⟩, hrun⟩ : ∃ r,
      ((Bench.ScriptedLine.line.recorded.readWithin 250000 7).run []).run env = r := ⟨_, rfl⟩
  have hresult : (((Bench.ScriptedLine.line.recorded.readWithin 250000 7).run []).run env).1.1.result? =
      some (.ok none) := by
    decide +kernel
  have hmisses : (((Bench.ScriptedLine.line.recorded.readWithin 250000 7).run []).run env).1.2 =
      Wait.misses times 3 := by
    decide +kernel
  rw [hrun] at hresult hmisses
  obtain rfl := Progress.eq_ended hresult
  obtain rfl : calls = Wait.misses times 3 := hmisses
  obtain ⟨href, htaken, -, hreadings⟩ :=
    (readWithin_reference (by decide) htimes hrun (Wait.shows_misses times 3)).1 _ rfl
  exact ⟨env, env', _, times, htimes, rfl, Wait.shows_misses times 3, hrun, href, htaken, hreadings⟩

end Xmodem
