import Xmodem.Proofs.Representation

/-!
# What an acknowledgement stands for

An attempt is opened with an acknowledgement after a block was committed, or after the number
before the expected one was read. Either way the number that was read last is that of the last
stored block, if there is one. Before the first block there is none, and the number before the
expected one is 0: a header with that number is acknowledged although nothing has been stored.
-/

namespace Xmodem

namespace Receiver

/-- What the receiver is about to open an attempt with. -/
def opening? : Receiver → Option Reply
  | ⟨s, .sending .reply⟩ => some s.reply
  | _ => none

theorem opening?_eq_some {r : Receiver} {reply : Reply} (h : r.opening? = some reply) :
    ∃ s, r = ⟨s, .sending .reply⟩ ∧ s.reply = reply := by
  unfold opening? at h
  split at h
  · exact ⟨_, rfl, Option.some.inj h⟩
  · cases h

/-- The byte that a step takes for the number of a block. -/
def numberTaken? : Receiver × Call → Option UInt8
  | (⟨_, .reading .number _⟩, call) => call.taken?
  | _ => none

/-- A step commits a block with the byte that the payload adds up to. -/
def commits : Receiver × Call → Bool
  | (⟨_, .reading (.checksum sum) _⟩, call) => call.taken? == some sum
  | _ => false

def lastNumber (steps : List (Receiver × Call)) : Option UInt8 :=
  (steps.filterMap numberTaken?).getLast?

def committed (steps : List (Receiver × Call)) : Nat :=
  steps.countP commits

section
variable {steps : List (Receiver × Call)} {step : Receiver × Call}

theorem lastNumber_of_none (h : numberTaken? step = none) :
    lastNumber (steps ++ [step]) = lastNumber steps := by
  simp [lastNumber, h]

theorem lastNumber_of_some {number : UInt8} (h : numberTaken? step = some number) :
    lastNumber (steps ++ [step]) = some number := by
  simp [lastNumber, h]

theorem committed_of_not (h : ¬ commits step) : committed (steps ++ [step]) = committed steps := by
  simp [committed, h]

theorem committed_of_commits (h : commits step) : committed (steps ++ [step]) = committed steps + 1 := by
  simp [committed, h]

end

end Receiver

/-- How many bytes of the block in hand have been stored. -/
def Activity.held : Activity → Nat
  | reading field _ => field.held
  | _ => 0

namespace Session

/-- `count` blocks have been committed, unless the transfer has failed. -/
def Counts (s : Session) (count : Nat) : Activity → Prop
  | .sending (.cancel ..) => True
  | activity => s.filled = blockSize * count + activity.held

/-- How the number that was read `last` is related to the expected one. -/
def Recalls (s : Session) (last : Option UInt8) : Activity → Prop
  | .reading .start _ => s.reply = .nak
  | .reading .number _ => s.reply = .nak
  | .reading _ _ => s.reply = .nak ∧ last = some s.expected
  | .flushing .repeated _ => last = some (s.expected - 1)
  | .flushing _ _ => s.reply = .nak
  | .sending .reply => s.reply = .ack → last = some (s.expected - 1)
  | .sending _ => True

end Session

namespace Receiver

/-- What a receiver knows of the steps so far. -/
structure Ledger (steps : List (Receiver × Call)) (r : Receiver) : Prop where
  counts : r.session.Counts (committed steps) r.activity
  recalls : r.session.Recalls (lastNumber steps) r.activity

theorem numberTaken?_of_none {r : Receiver} {call : Call} (h : call.taken? = none) :
    numberTaken? (r, call) = none := by
  unfold numberTaken?
  split
  · rename_i hstep
    cases hstep
    exact h
  · rfl

theorem not_commits_of_none {r : Receiver} {call : Call} (h : call.taken? = none) :
    ¬ commits (r, call) := by
  unfold commits
  split
  · rename_i hstep
    cases hstep
    simp [h]
  · exact Bool.false_ne_true

theorem Ledger.of_quiet {steps : List (Receiver × Call)} {step : Receiver × Call} {r : Receiver}
    (hn : numberTaken? step = none) (hc : ¬ commits step) (h : Ledger steps r) :
    Ledger (steps ++ [step]) r := by
  obtain ⟨hcounts, hrecalls⟩ := h
  exact ⟨by rw [committed_of_not hc]; exact hcounts, by rw [lastNumber_of_none hn]; exact hrecalls⟩

theorem Ledger.of_number {steps : List (Receiver × Call)} {s : Session} {wait : Wait} {call : Call}
    {r : Receiver} {number : UInt8} (hn : call.taken? = some number)
    (hcounts : r.session.Counts (committed steps) r.activity)
    (hrecalls : r.session.Recalls (some number) r.activity) :
    Ledger (steps ++ [(⟨s, .reading .number wait⟩, call)]) r := by
  have hcommitted : committed (steps ++ [(⟨s, .reading .number wait⟩, call)]) = committed steps :=
    committed_of_not Bool.false_ne_true
  have hlast : lastNumber (steps ++ [(⟨s, .reading .number wait⟩, call)]) = some number :=
    lastNumber_of_some hn
  exact ⟨by rw [hcommitted]; exact hcounts, by rw [hlast]; exact hrecalls⟩

theorem Ledger.start (config : Config) (capacity : Nat) (buffer : Array UInt8) :
    Ledger [] (.start config capacity buffer) :=
  ⟨rfl, rfl⟩

end Receiver

namespace Session
variable {s : Session} {steps : List (Receiver × Call)} {p : Progress Receiver Outcome}

open Receiver

theorem Opens.ledger (h : s.Opens p) (hcounts : s.filled = blockSize * committed steps)
    (hrecalls : s.reply = .ack → lastNumber steps = some (s.expected - 1)) :
    p.Holds (Ledger steps) fun _ => True := by
  cases h with
  | opened _ => exact ⟨hcounts, hrecalls⟩
  | abandoned _ => exact ⟨trivial, trivial⟩
  | exhausted _ => trivial

theorem Rejects.numberTaken? {field : Field} {byte : Option UInt8} {wait : Wait} {call : Call}
    (h : s.Rejects field byte) (htaken : call.taken? = byte) :
    Receiver.numberTaken? (⟨s, .reading field wait⟩, call) = none := by
  cases h with
  | silence field => cases field <;> first | rfl | exact htaken
  | start _ _ => rfl
  | complement _ => rfl
  | checksum _ => rfl

theorem Rejects.not_commits {field : Field} {byte : Option UInt8} {wait : Wait} {call : Call}
    (h : s.Rejects field byte) (htaken : call.taken? = byte) :
    ¬ Receiver.commits (⟨s, .reading field wait⟩, call) := by
  cases h with
  | silence field => cases field <;> simp [commits, htaken]
  | start _ _ => exact Bool.false_ne_true
  | complement _ => exact Bool.false_ne_true
  | checksum hne => simpa [commits, htaken] using hne

theorem Recalls.reply {last : Option UInt8} {field : Field} {wait : Wait}
    (h : s.Recalls last (.reading field wait)) : s.reply = .nak := by
  cases field with
  | start => exact h
  | number => exact h
  | complement => exact h.1
  | payload taken sum => exact h.1
  | checksum sum => exact h.1

theorem Hears.ledger {field : Field} {wait : Wait} {byte : Option UInt8} {call : Call}
    (h : s.Hears field byte p) (htaken : call.taken? = byte) (hf : s.Fits (.reading field wait))
    (hl : Ledger steps ⟨s, .reading field wait⟩) :
    p.Holds (Ledger (steps ++ [(⟨s, .reading field wait⟩, call)])) fun _ => True := by
  obtain ⟨hcounts, hrecalls⟩ := hl
  have hnak := hrecalls.reply
  cases h with
  | header => exact .of_quiet rfl Bool.false_ne_true ⟨hcounts, hrecalls⟩
  | farewell => exact .of_quiet rfl Bool.false_ne_true ⟨hcounts, trivial⟩
  | repeated => exact .of_number htaken hcounts rfl
  | unexpected _ _ => exact .of_number htaken hcounts hrecalls
  | noRoom _ => exact .of_number htaken trivial trivial
  | number _ => exact .of_number htaken hcounts ⟨hnak, rfl⟩
  | complement => exact .of_quiet rfl Bool.false_ne_true ⟨hcounts, hrecalls⟩
  | payload _ => exact .of_quiet rfl Bool.false_ne_true ⟨congrArg (· + 1) hcounts, hrecalls⟩
  | @lastPayload taken sum byte hge =>
    have hlast : taken + 1 = blockSize := Nat.le_antisymm hf.1 hge
    refine .of_quiet rfl Bool.false_ne_true ⟨?_, hrecalls⟩
    show s.filled + 1 = blockSize * committed steps + blockSize
    rw [show s.filled = _ from hcounts, ← hlast]
    rfl
  | @checksum sum =>
    -- The number that was read is the expected one, and the commit makes it the one before that.
    have hcommits : commits (⟨s, .reading (.checksum sum) wait⟩, call) := by simp [commits, htaken]
    refine (opens_openAttempt _).ledger ?_ fun _ => ?_
    · show s.filled = _
      rw [committed_of_commits hcommits]
      exact hcounts
    · rw [lastNumber_of_none rfl, show lastNumber steps = _ from hrecalls.2]
      show some s.expected = some (s.expected + 1 - 1)
      rw [UInt8.add_sub_cancel]
  | rejected hr =>
    refine .of_quiet (hr.numberTaken? htaken) (hr.not_commits htaken) ⟨?_, hnak⟩
    show s.filled - field.held = blockSize * committed steps
    rw [show s.filled = _ from hcounts]
    exact Nat.add_sub_cancel ..

end Session

namespace Receiver
variable {config : Config} {capacity size : Nat} {r : Receiver} {steps : List (Receiver × Call)}

theorem Ledger.step {call : Call} {turn : Receiver.Turn} (hl : Ledger steps r)
    (hi : r.Inv config capacity size) (hs : r.Step call turn) :
    turn.next.Holds (Ledger (steps ++ [(r, call)])) fun _ => True := by
  obtain ⟨hcounts, hrecalls⟩ := hl
  cases hs with
  | waiting h =>
    have hnone := h.taken?_of_going
    refine .of_quiet (numberTaken?_of_none hnone) (not_commits_of_none hnone) ⟨hcounts, ?_⟩
    cases ‹Field› <;> exact hrecalls
  | heard h => exact (Session.hears_heard _ _ _).ledger h.taken?_of_ended hi.fits ⟨hcounts, hrecalls⟩
  | unheard h =>
    have hnone := h.taken?_of_error
    exact .of_quiet (numberTaken?_of_none hnone) (not_commits_of_none hnone) ⟨trivial, trivial⟩
  | draining _ =>
    refine .of_quiet rfl Bool.false_ne_true ⟨hcounts, ?_⟩
    cases ‹FlushCause› <;> exact hrecalls
  | @drained s cause drain call said count _ =>
    have hcommitted : committed (steps ++ [(⟨s, .flushing cause drain⟩, call)]) = committed steps :=
      committed_of_not Bool.false_ne_true
    have hlast : lastNumber (steps ++ [(⟨s, .flushing cause drain⟩, call)]) = lastNumber steps :=
      lastNumber_of_none rfl
    cases cause with
    | retry =>
      have hnak : s.reply = .nak := hrecalls
      exact (s.opens_openAttempt).ledger (hcommitted ▸ hcounts) fun hack => by simp [hnak] at hack
    | repeated => exact (Session.opens_openAttempt _).ledger (hcommitted ▸ hcounts) fun _ => hlast ▸ hrecalls
    | unexpected received => exact .of_quiet rfl Bool.false_ne_true ⟨trivial, trivial⟩
  | undrained _ => exact .of_quiet rfl Bool.false_ne_true ⟨trivial, trivial⟩
  | @wrote s what result =>
    have hwrites := s.writes_wrote what result
    generalize (s.wrote what result).next = p at hwrites ⊢
    cases hwrites with
    | opened => exact .of_quiet rfl Bool.false_ne_true ⟨hcounts, rfl⟩
    | finished => trivial
    | broken _ e => exact .of_quiet rfl Bool.false_ne_true ⟨trivial, trivial⟩
    | cancelling cause left => exact .of_quiet rfl Bool.false_ne_true ⟨trivial, trivial⟩
    | cancelled cause left => trivial

theorem Run.ledger {buffer : Array UInt8} (h : Run config capacity buffer steps (.going r)) :
    Ledger steps r :=
  h.history (P := Ledger) (Q := fun _ _ => True) (.start ..) fun _ _ _ _ hi hl hs => hl.step hi hs

/-- Each acknowledgement stands for the last stored block exactly if one has been committed. If none
has, it answers a header with number 0. -/
theorem Run.acknowledged {buffer : Array UInt8} (h : Run config capacity buffer steps (.going r))
    (hopen : r.opening? = some .ack) :
    (blockSize ≤ r.session.filled ∧
        lastNumber steps = some (UInt8.ofNat (r.session.filled / blockSize)) ↔ committed steps ≠ 0) ∧
      (committed steps = 0 → r.session.filled = 0 ∧ lastNumber steps = some 0) := by
  obtain ⟨s, hact, hack⟩ := opening?_eq_some hopen
  have hi := h.inv
  obtain ⟨hcounts, hrecalls⟩ := h.ledger
  subst hact
  have hfilled : s.filled = blockSize * committed steps := hcounts
  have hnumber : s.expected = UInt8.ofNat (s.filled / blockSize + 1) := hi.fits.number
  -- This holds with nothing stored too: then the number before the expected one is 0.
  have hlast : lastNumber steps = some (UInt8.ofNat (s.filled / blockSize)) := by
    rw [hrecalls hack, hnumber, UInt8.ofNat_add]
    exact congrArg some (UInt8.add_sub_cancel ..)
  have hpos : 0 < blockSize := by decide
  refine ⟨⟨fun ⟨hle, _⟩ hzero => ?_, fun hne => ⟨?_, hlast⟩⟩, fun hzero => ?_⟩
  · rw [hfilled, hzero] at hle
    exact absurd hle (by decide)
  · show blockSize ≤ s.filled
    rw [hfilled]
    exact Nat.le_mul_of_pos_right _ (Nat.pos_of_ne_zero hne)
  · have hempty : s.filled = 0 := by rw [hfilled, hzero, Nat.mul_zero]
    refine ⟨hempty, ?_⟩
    rw [hlast, hempty]
    rfl

/-- A header with number 0 is acknowledged before anything has been stored. -/
theorem Run.acknowledged_nothing : ∃ steps r, Run {} 128 (Array.replicate 128 0) steps (.going r) ∧
    r.opening? = some .ack ∧ r.session.filled = 0 ∧ lastNumber steps = some 0 := by
  let line : Bench.ScriptedLine := { script := [.await 1, .bytes ⟨#[1, 0], 1, 0⟩] }
  obtain ⟨steps, hrun⟩ := Bench.ScriptedLine.line.exists_run_standing {} 128 (Array.replicate 128 0) 19 line
    (by decide) (by simp)
  have hstands : ((Bench.ScriptedLine.line.standing {} 128 (Array.replicate 128 0) 19 line).state?.map
      fun r => (r.opening?, r.session.filled)) = some (some .ack, 0) := by
    decide +kernel
  obtain ⟨r, hr, hopen⟩ := Option.map_eq_some_iff.1 hstands
  rw [Progress.eq_going hr] at hrun
  obtain ⟨hack, hempty⟩ := Prod.mk.inj hopen
  obtain ⟨hstored, hzero⟩ := hrun.acknowledged hack
  have hnone : committed steps = 0 := by
    by_contra hne
    have hle := (hstored.2 hne).1
    rw [hempty] at hle
    exact absurd hle (by decide)
  exact ⟨steps, r, hrun, hack, hzero hnone⟩

end Receiver

end Xmodem
