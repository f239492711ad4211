import Xmodem.Proofs.Reception

/-!
# What a transfer leaves as it was

A receiver writes to its buffer only where it stores a byte of a payload, and then behind the blocks that
have been committed, where the block in hand has its place (`Receiver.Run.changes`). So a block that has been
committed stays as it is, and so does all that is behind the block in hand, however the transfer ends. In an
attempt nothing is written before the header of the expected block has come (`Receiver.Hearing`).
-/

namespace Xmodem

/-- The buffer of a receiver, or of what it came to. -/
def Progress.buffer : Progress Receiver Outcome → Array UInt8
  | going r => r.session.buffer
  | ended o => o.buffer

/-! ### Where a step writes -/

namespace Session
variable {s : Session} {p : Progress Receiver Outcome}

theorem getElem?_buffer_store (byte : UInt8) (h : s.filled < s.buffer.size) {i : Nat} (hi : i ≠ s.filled) :
    (s.store byte).buffer[i]? = s.buffer[i]? := by
  simp [store, h, hi.symm]

theorem Opens.buffer_eq (h : s.Opens p) : p.buffer = s.buffer := by
  cases h <;> rfl

theorem Writes.buffer_eq {what : Sending} (h : s.Writes what p) : p.buffer = s.buffer := by
  cases h <;> rfl

theorem Hears.buffer_eq_or {field : Field} {byte : Option UInt8} (h : s.Hears field byte p) :
    p.buffer = s.buffer ∨ ∃ taken sum b, field = .payload taken sum ∧ p.buffer = (s.store b).buffer := by
  cases h with
  | payload _ => exact .inr ⟨_, _, _, rfl, rfl⟩
  | lastPayload _ => exact .inr ⟨_, _, _, rfl, rfl⟩
  | checksum => exact .inl (opens_openAttempt _).buffer_eq
  | _ => exact .inl rfl

end Session

namespace Receiver
variable {config : Config} {capacity : Nat} {buffer : Array UInt8}
variable {steps past latest : List (Receiver × Call)}
variable {p : Progress Receiver Outcome} {r : Receiver} {call : Call} {turn : Receiver.Turn}

/-- Only bytes of a payload are stored. -/
theorem Step.buffer_eq_or (hs : r.Step call turn) : turn.next.buffer = r.session.buffer ∨
    ∃ s taken sum wait byte, r = ⟨s, .reading (.payload taken sum) wait⟩ ∧
      turn.next.buffer = (s.store byte).buffer := by
  cases hs with
  | @heard s field wait call byte _ =>
    obtain heq | ⟨taken, sum, b, rfl, heq⟩ := (s.hears_heard field byte).buffer_eq_or
    · exact .inl heq
    · exact .inr ⟨s, taken, sum, wait, b, rfl, heq⟩
  | @drained s cause drain call said count _ =>
    cases cause with
    | retry => exact .inl (Session.opens_openAttempt _).buffer_eq
    | repeated => exact .inl (Session.opens_openAttempt _).buffer_eq
    | unexpected received => exact .inl rfl
  | wrote result => exact .inl (Session.writes_wrote _ _ _).buffer_eq
  | _ => exact .inl rfl

/-- A step that changes the buffer does so at the place of the block in hand, for which there is room. -/
theorem Run.changes (h : Run config capacity buffer steps (.going r)) (hs : r.Step call turn) {i : Nat}
    (hne : turn.next.buffer[i]? ≠ r.session.buffer[i]?) :
    ∃ s taken sum wait, r = ⟨s, .reading (.payload taken sum) wait⟩ ∧
      s.expected = UInt8.ofNat (committed steps + 1) ∧ blockSize * committed steps ≤ i ∧
      i < blockSize * (committed steps + 1) ∧ blockSize * (committed steps + 1) ≤ capacity := by
  obtain heq | ⟨s, taken, sum, wait, byte, rfl, heq⟩ := hs.buffer_eq_or
  · rw [heq] at hne
    exact absurd rfl hne
  · have hi := h.inv
    obtain ⟨hlt, hfilling⟩ : taken < blockSize ∧ s.Filling taken sum := hi.fits
    have hcounts : s.filled = blockSize * committed steps + taken := h.ledger.counts
    have hback : s.filled - taken = blockSize * committed steps := by omega
    have hsize := hfilling.lt_size hi.within h.le hlt
    -- The byte goes where the fill ends, which is within the block in hand.
    obtain rfl : i = s.filled := by
      by_contra hother
      rw [heq] at hne
      exact hne (Session.getElem?_buffer_store byte hsize hother)
    have hnumber : s.expected = UInt8.ofNat ((s.filled - taken) / blockSize + 1) := hfilling.base.number
    have hroom : s.filled - taken + blockSize ≤ s.capacity := hfilling.room
    have hcapacity : s.capacity = capacity := hi.within.capacity_eq
    rw [hback] at hnumber hroom
    rw [Nat.mul_div_cancel_left _ (by decide)] at hnumber
    rw [Nat.mul_succ]
    exact ⟨s, taken, sum, wait, rfl, hnumber, by omega, by omega, by omega⟩

theorem Run.kept_by_step (h : Run config capacity buffer steps (.going r)) (hs : r.Step call turn) {i : Nat}
    (hi : i < blockSize * committed steps) : turn.next.buffer[i]? = r.session.buffer[i]? := by
  by_contra hne
  obtain ⟨-, -, -, -, -, -, hge, -⟩ := h.changes hs hne
  exact absurd hi (Nat.not_lt_of_le hge)

/-! ### Along a run -/

theorem committed_append (steps more : List (Receiver × Call)) :
    committed (steps ++ more) = committed steps + committed more :=
  List.countP_append ..

theorem committed_cons_of_not {step : Receiver × Call} (h : ¬ commits step) (steps : List (Receiver × Call)) :
    committed (step :: steps) = committed steps :=
  List.countP_cons_of_neg h

/-- A block that has been committed is not written to. -/
theorem Run.committed_kept {r₁ : Receiver} {call₁ : Call}
    (h : Run config capacity buffer (past ++ (r₁, call₁) :: latest) p) {i : Nat}
    (hi : i < blockSize * committed past) : p.buffer[i]? = r₁.session.buffer[i]? := by
  refine h.since (P := fun _ p => p.buffer[i]? = r₁.session.buffer[i]?) ?_ ?_
  · exact fun turn hrun hs => hrun.kept_by_step hs hi
  · intro latest r call turn hrun hkept hs
    refine (hrun.kept_by_step hs ?_).trans hkept
    rw [committed_append, Nat.mul_add]
    exact Nat.lt_add_right _ hi

/-- What is written is a part of the blocks that have been committed or of the one behind them, and of the
blocks for which there is room. -/
theorem Run.lt_of_written (h : Run config capacity buffer steps p) {i : Nat}
    (hne : p.buffer[i]? ≠ buffer[i]?) :
    i < blockSize * (committed steps + 1) ∧ i < blockSize * (capacity / blockSize) := by
  refine h.induct (P := fun steps p => p.buffer[i]? ≠ buffer[i]? →
    i < blockSize * (committed steps + 1) ∧ i < blockSize * (capacity / blockSize)) (absurd rfl) ?_ hne
  intro steps r call turn hrun ih hs hne
  have hmono : blockSize * (committed steps + 1) ≤ blockSize * (committed (steps ++ [(r, call)]) + 1) := by
    rw [committed_append]
    exact Nat.mul_le_mul_left _ (by omega)
  -- Either this step is the first to write there, or the bounds held before it, and they only grow.
  by_cases hbefore : r.session.buffer[i]? = buffer[i]?
  · obtain ⟨-, -, -, -, -, -, -, hlt, hroom⟩ := hrun.changes hs (hbefore ▸ hne)
    have hcount : committed steps + 1 ≤ capacity / blockSize := by
      rw [Nat.le_div_iff_mul_le (by decide), Nat.mul_comm]
      exact hroom
    exact ⟨Nat.lt_of_lt_of_le hlt hmono, Nat.lt_of_lt_of_le hlt (Nat.mul_le_mul_left _ hcount)⟩
  · obtain ⟨hlt, hroom⟩ := ih hbefore
    exact ⟨Nat.lt_of_lt_of_le hlt hmono, hroom⟩

/-! ### Within an attempt -/

end Receiver

namespace Session
variable {s s' : Session} {p : Progress Receiver Outcome}

theorem Opens.not_reads (h : s.Opens p) : p.Holds (fun r => ¬ r.Reads) fun _ => True := by
  cases h <;> first | exact id | trivial

/-- If a receiver reads on, the frame in hand has come one byte further. -/
theorem Hears.heardBefore_eq {field field' : Field} {wait wait' : Wait} {byte : Option UInt8}
    (h : s.Hears field byte p) (hf : s.Fits (.reading field wait)) (hsize : s.filled ≤ s.buffer.size)
    (hp : p = .going ⟨s', .reading field' wait'⟩) :
    ∃ b, byte = some b ∧ s'.heardBefore field' = s.heardBefore field ++ [b] ∧ ∀ sum, field ≠ .checksum sum := by
  cases h with
  | header =>
    cases hp
    exact ⟨_, rfl, rfl, nofun⟩
  | number _ =>
    cases hp
    exact ⟨_, rfl, rfl, nofun⟩
  | complement =>
    cases hp
    refine ⟨_, rfl, ?_, nofun⟩
    show [Control.soh, s.expected, ~~~s.expected] ++ s.contents.drop s.filled = _
    rw [s.drop_contents]
    rfl
  | @payload taken sum byte _ =>
    cases hp
    exact ⟨_, rfl, heardBefore_store taken sum byte hsize, nofun⟩
  | @lastPayload taken sum byte hge =>
    cases hp
    have hlast : taken + 1 = blockSize := Nat.le_antisymm hf.1 hge
    refine ⟨_, rfl, ?_, nofun⟩
    rw [← heardBefore_store taken sum byte hsize, hlast]
    rfl
  | checksum =>
    have hnot := (opens_openAttempt { s.commit with attempts := 0, reply := .ack }).not_reads
    rw [show Session.openAttempt _ = s.commit.acknowledge from rfl, hp] at hnot
    exact absurd trivial hnot
  | _ => cases hp

end Session

namespace Receiver
variable {config : Config} {capacity : Nat} {buffer : Array UInt8}
variable {steps past latest : List (Receiver × Call)}
variable {p : Progress Receiver Outcome} {r : Receiver} {call : Call} {turn : Receiver.Turn}

/-- Since an attempt was opened, only the bytes of the frame in hand have been taken, and none of them has
committed a block. Once the receiver does not read a frame any more, the attempt is over. -/
def Hearing (latest : List (Receiver × Call)) : Receiver → Prop
  | ⟨s, .reading field _⟩ => committed latest = 0 ∧ taken latest = s.heardBefore field
  | _ => True

theorem Hearing.of_not_reads (h : ¬ r.Reads) : r.Hearing latest := by
  obtain ⟨s, activity⟩ := r
  cases activity with
  | reading field wait => exact absurd trivial h
  | flushing cause drain => trivial
  | sending what => trivial

/-- A receiver that does not read a frame reads none before it has opened an attempt. -/
theorem Step.not_reads (hs : r.Step call turn) (hr : ¬ r.Reads) (hopen : r.opening? = none) :
    turn.next.Holds (fun r => ¬ r.Reads) fun _ => True := by
  cases hs with
  | waiting _ => exact absurd trivial hr
  | heard _ => exact absurd trivial hr
  | @drained s cause drain call said count _ =>
    cases cause with
    | retry => exact (Session.opens_openAttempt _).not_reads
    | repeated => exact (Session.opens_openAttempt _).not_reads
    | unexpected received => exact id
  | @wrote s what result =>
    have hwrites := s.writes_wrote what result
    generalize (s.wrote what result).next = p at hwrites ⊢
    cases hwrites with
    | opened => cases hopen
    | finished => trivial
    | broken _ _ => exact id
    | cancelling _ _ => exact id
    | cancelled _ _ => trivial
  | _ => exact id

theorem not_commits_of_field {s : Session} {field : Field} {wait : Wait} (h : ∀ sum, field ≠ .checksum sum) :
    ¬ commits (⟨s, .reading field wait⟩, call) := by
  cases field with
  | checksum sum => exact absurd rfl (h sum)
  | _ => exact Bool.false_ne_true

theorem Hearing.step (h : r.Hearing latest) (hi : r.Inv config capacity buffer.size)
    (hcap : capacity ≤ buffer.size) (hopen : r.opening? = none) (hs : r.Step call turn) :
    turn.next.Holds (Hearing (latest ++ [(r, call)])) fun _ => True := by
  by_cases hr : r.Reads
  · cases hs with
    | waiting hwait =>
      obtain ⟨hcommitted, htaken⟩ := h
      have hnone := hwait.taken?_of_going
      refine ⟨(committed_of_not (not_commits_of_none hnone)).trans hcommitted, ?_⟩
      simpa [taken, hnone] using htaken
    | @heard s field wait call byte hheard =>
      obtain ⟨hcommitted, htaken⟩ := h
      cases hn : (s.heard field byte).next with
      | ended o => trivial
      | going r' =>
        obtain ⟨s', activity'⟩ := r'
        cases activity' with
        | reading field' wait' =>
          obtain ⟨b, rfl, hbefore, hfield⟩ := (s.hears_heard field byte).heardBefore_eq hi.fits
            (hi.fits.filled_le hi.within hcap) hn
          refine ⟨(committed_of_not (not_commits_of_field hfield)).trans hcommitted, ?_⟩
          rw [taken_append, htaken, hbefore]
          simp [taken, hheard.taken?_of_ended]
        | flushing cause drain => trivial
        | sending what => trivial
    | unheard _ => trivial
    | _ => exact hr.elim
  · exact (hs.not_reads hr hopen).mono (fun _ => .of_not_reads) fun _ h => h

/-- The position is in the block behind `count` blocks, and in the steps the header of that block has come
first. -/
structure InHand (count : Nat) (latest : List (Receiver × Call)) (i : Nat) : Prop where
  ge : blockSize * count ≤ i
  lt : i < blockSize * (count + 1)
  header : [Control.soh, UInt8.ofNat (count + 1), ~~~UInt8.ofNat (count + 1)] <+: taken latest

/-- In an attempt only the place of the block in hand is written to, and not before the header of the block
has come. -/
theorem Run.attempt {s : Session}
    (h : Run config capacity buffer (past ++ (⟨s, .sending .reply⟩, call) :: latest) p)
    (hopen : ∀ step ∈ latest, step.1.opening? = none) {i : Nat} (hne : p.buffer[i]? ≠ s.buffer[i]?) :
    InHand (committed past) latest i := by
  refine (h.since (P := fun latest p => (∀ step ∈ latest, step.1.opening? = none) →
    p.Holds (Hearing latest) (fun _ => True) ∧
      (p.buffer[i]? ≠ s.buffer[i]? → InHand (committed past) latest i)) ?_ ?_ hopen).2 hne
  · intro turn _ hs _
    cases hs with
    | wrote result =>
      cases result with
      | ok _ => exact ⟨⟨rfl, rfl⟩, absurd rfl⟩
      | error e => exact ⟨trivial, absurd rfl⟩
  · intro latest r call' turn hrun ih hs hopen
    obtain ⟨hopen, hlast⟩ := List.forall_mem_append.1 hopen
    obtain ⟨hhearing, hwritten⟩ := ih hopen
    refine ⟨Hearing.step hhearing hrun.inv hrun.le (hlast _ (List.mem_singleton_self _)) hs, fun hne => ?_⟩
    by_cases hbefore : r.session.buffer[i]? = s.buffer[i]?
    · obtain ⟨s', held, sum, wait, rfl, hnumber, hge, hlt, -⟩ := hrun.changes hs (hbefore ▸ hne)
      obtain ⟨hcommitted, htaken⟩ := hhearing
      have hopening : ¬ commits (⟨s, .sending .reply⟩, call) := Bool.false_ne_true
      rw [committed_append, committed_cons_of_not hopening, hcommitted, Nat.add_zero] at hnumber hge hlt
      refine ⟨hge, hlt, ?_⟩
      -- What is taken before a payload begins with the header.
      rw [taken_append, htaken, ← hnumber]
      exact ⟨_, (List.append_assoc ..).symm⟩
    · obtain ⟨hge, hlt, hheader⟩ := hwritten hbefore
      exact ⟨hge, hlt, hheader.trans (taken_append .. ▸ List.prefix_append ..)⟩

/-- Before the first attempt nothing is written. -/
theorem Run.before_attempt (h : Run config capacity buffer steps p)
    (hopen : ∀ step ∈ steps, step.1.opening? = none) : p.buffer = buffer := by
  refine (h.induct (P := fun steps p => (∀ step ∈ steps, step.1.opening? = none) →
    p.Holds (fun r : Receiver => ¬ r.Reads) (fun _ => True) ∧ p.buffer = buffer) (fun _ => ⟨id, rfl⟩) ?_ hopen).2
  intro steps r call turn hrun ih hs hopen
  obtain ⟨hopen, hlast⟩ := List.forall_mem_append.1 hopen
  obtain ⟨hreads, hbuffer⟩ := ih hopen
  refine ⟨hs.not_reads hreads (hlast _ (List.mem_singleton_self _)), ?_⟩
  obtain heq | ⟨s, held, sum, wait, byte, rfl, -⟩ := hs.buffer_eq_or
  · exact heq.trans hbuffer
  · exact absurd trivial hreads

/-! ### What is committed -/

/-- The blocks that have been committed in the steps are those of some frames that were accepted in them, and
they stand at the front of the buffer. -/
structure Stores (steps : List (Receiver × Call)) (buffer : Array UInt8) (frames : List Frame) : Prop where
  accepted : Scattered Frame.Accepted frames steps
  numbered : Frame.Numbered frames
  length_eq : frames.length = committed steps
  contents : (buffer.extract 0 (blockSize * committed steps)).toList = Frame.payloads frames

theorem extract_congr {buffer buffer' : Array UInt8} {n : Nat} (h : ∀ i < n, buffer'[i]? = buffer[i]?) :
    (buffer'.extract 0 n).toList = (buffer.extract 0 n).toList := by
  refine List.ext_getElem? fun i => ?_
  have hi := h i
  simp only [Array.toList_extract, List.extract_eq_take_drop, List.drop_zero, Nat.sub_zero, List.getElem?_take,
    Array.getElem?_toList]
  split
  · exact hi ‹_›
  · rfl

theorem Stores.gap {frames : List Frame} {more : List (Receiver × Call)} {buffer' : Array UInt8}
    (h : Stores steps buffer frames) (hmore : committed more = 0)
    (hsame : ∀ i < blockSize * committed steps, buffer'[i]? = buffer[i]?) :
    Stores (steps ++ more) buffer' frames := by
  have hcount : committed (steps ++ more) = committed steps := by rw [committed_append, hmore, Nat.add_zero]
  refine ⟨h.accepted.gap more, h.numbered, h.length_eq.trans hcount.symm, ?_⟩
  rw [hcount, ← h.contents]
  exact extract_congr hsame

theorem eq_of_commits (h : commits (r, call)) :
    ∃ s sum wait, r = ⟨s, .reading (.checksum sum) wait⟩ ∧ call.taken? = some sum := by
  unfold commits at h
  split at h
  · rename_i hstep
    obtain ⟨rfl, rfl⟩ := Prod.mk.inj hstep
    exact ⟨_, _, _, rfl, by simpa using h⟩
  · cases h

/-- The frame in hand joins those that are stored. -/
theorem Run.stores_of_commits (h : Run config capacity buffer steps (.going r)) (hc : Chronicle steps r)
    (hcommits : commits (r, call)) : ∃ frames, Stores (steps ++ [(r, call)]) r.session.buffer frames := by
  obtain ⟨s, sum, wait, rfl, htaken⟩ := eq_of_commits hcommits
  have hi := h.inv
  have hsize : s.filled ≤ s.buffer.size := hi.fits.filled_le hi.within h.le
  have hcounts : s.filled = blockSize * committed steps + blockSize := h.ledger.counts
  obtain ⟨frames, past, latest, rfl, hkeeps, hreads, hlatest⟩ := hc
  have hreads' : ∀ step ∈ latest ++ [((⟨s, .reading (.checksum sum) wait⟩ : Receiver), call)], step.1.Reads :=
    List.forall_mem_append.2 ⟨hreads, List.forall_mem_singleton.2 trivial⟩
  have htaken' : taken (latest ++ [(⟨s, .reading (.checksum sum) wait⟩, call)]) =
      s.heardBefore (.checksum sum) ++ [sum] := by
    rw [taken_append, hlatest]
    simp [taken, htaken]
  obtain ⟨f, hkeeps'⟩ := hkeeps.commit hi.fits hsize hreads' ⟨_, List.getLast?_concat, hcommits⟩ htaken'
  rw [← List.append_assoc] at hkeeps'
  have hfilled : blockSize * committed (past ++ latest ++ [(⟨s, .reading (.checksum sum) wait⟩, call)]) =
      s.filled := by
    rw [committed_of_commits hcommits, Nat.mul_succ, hcounts]
  have hlength : s.filled = blockSize * (frames ++ [f]).length := hkeeps'.filled_sub hsize
  refine ⟨frames ++ [f], hkeeps'.scattered, hkeeps'.numbered, ?_, ?_⟩
  · exact Nat.eq_of_mul_eq_mul_left (by decide) (hlength.symm.trans hfilled.symm)
  · rw [hfilled, Array.toList_extract, List.extract_eq_take_drop, ← hkeeps'.contents]
    rfl

theorem Stores.step {frames : List Frame} (h : Stores steps r.session.buffer frames)
    (hrun : Run config capacity buffer steps (.going r)) (hc : Chronicle steps r) (hs : r.Step call turn) :
    ∃ frames, Stores (steps ++ [(r, call)]) turn.next.buffer frames := by
  by_cases hcommits : commits (r, call)
  · obtain ⟨s, sum, wait, rfl, -⟩ := eq_of_commits hcommits
    obtain heq | ⟨_, _, _, _, _, hr, -⟩ := hs.buffer_eq_or
    · rw [heq]
      exact hrun.stores_of_commits hc hcommits
    · cases hr
  · exact ⟨frames, h.gap (committed_cons_of_not hcommits []) fun i hi => hrun.kept_by_step hs hi⟩

theorem Run.stores (h : Run config capacity buffer steps p) : ∃ frames, Stores steps p.buffer frames := by
  refine (h.induct (P := fun steps p => p.Holds (Chronicle steps) (fun _ => True) ∧
    ∃ frames, Stores steps p.buffer frames) ?_ ?_).2
  · refine ⟨.start config capacity buffer, [], .nil, fun k hk => absurd hk (Nat.not_lt_zero k), rfl, ?_⟩
    simp [committed, Frame.payloads]
  · rintro steps r call turn hrun ⟨hc, frames, hstores⟩ hs
    exact ⟨(hc.step hrun.inv hrun.le hs).mono (fun _ h => h) fun _ _ => trivial, hstores.step hrun hc hs⟩

theorem Run.size_buffer (h : Run config capacity buffer steps p) : p.buffer.size = buffer.size := by
  refine h.induct (P := fun _ p => p.buffer.size = buffer.size) rfl fun steps r call turn hrun hsize hs => ?_
  obtain heq | ⟨s, held, sum, wait, byte, rfl, heq⟩ := hs.buffer_eq_or
  · rw [heq]
    exact hsize
  · have hi := hrun.inv
    obtain ⟨hlt, hfilling⟩ : held < blockSize ∧ s.Filling held sum := hi.fits
    rw [heq, s.size_buffer_store byte (hfilling.lt_size hi.within hrun.le hlt)]
    exact hsize

/-- However a transfer goes, and however it ends: behind the last whole block of the capacity nothing is
written; what has been committed is not written to again; before the first attempt nothing is written, and in
each attempt nothing but the block behind those that had been committed before it, and that only once its
header has come. So the buffer has what was committed, and behind the block in hand what it had before. -/
theorem Run.untouched (h : Run config capacity buffer steps p) :
    p.buffer.size = buffer.size ∧
      (∀ i, blockSize * (capacity / blockSize) ≤ i → p.buffer[i]? = buffer[i]?) ∧
      (∀ past r call latest, steps = past ++ (r, call) :: latest →
        ∀ i < blockSize * committed past, p.buffer[i]? = r.session.buffer[i]?) ∧
      ((∀ step ∈ steps, step.1.opening? = none) → p.buffer = buffer) ∧
      (∀ past s call latest, steps = past ++ (⟨s, .sending .reply⟩, call) :: latest →
        (∀ step ∈ latest, step.1.opening? = none) → ∀ i, p.buffer[i]? ≠ s.buffer[i]? →
          InHand (committed past) latest i) ∧
      ∃ frames, Scattered Frame.Accepted frames steps ∧ Frame.Numbered frames ∧
        frames.length = committed steps ∧
        (p.buffer.extract 0 (blockSize * committed steps)).toList = Frame.payloads frames ∧
        ∀ i, blockSize * (committed steps + 1) ≤ i → p.buffer[i]? = buffer[i]? := by
  obtain ⟨frames, hstores⟩ := h.stores
  refine ⟨h.size_buffer, fun i hi => ?_, ?_, h.before_attempt, ?_, frames, hstores.accepted, hstores.numbered,
    hstores.length_eq, hstores.contents, fun i hi => ?_⟩
  · by_contra hne
    exact absurd (h.lt_of_written hne).2 (Nat.not_lt_of_le hi)
  · rintro past r call latest rfl i hi
    exact h.committed_kept hi
  · rintro past s call latest rfl hopen i hne
    exact h.attempt hopen hne
  · by_contra hne
    exact absurd (h.lt_of_written hne).1 (Nat.not_lt_of_le hi)

/-- One block is committed, and three bytes of the next one have come. -/
theorem Run.untouched_in_block : ∃ steps r frames,
    Run {} 300 (Array.replicate 310 0) steps (.going r) ∧ r.session.filled = 131 ∧ frames.length = 1 ∧
      Scattered Frame.Accepted frames steps ∧
      (r.session.buffer.extract 0 128).toList = Frame.payloads frames ∧
      ∀ i, 256 ≤ i → r.session.buffer[i]? = (Array.replicate 310 0)[i]? := by
  let line : Bench.ScriptedLine :=
    { script := [.silence, .bytes ⟨#[1, 1, 254], 1, 0⟩, .bytes ⟨#[7], 128, 0⟩,
        .bytes ⟨#[128, 1, 2, 253, 5, 6, 7], 1, 0⟩] }
  obtain ⟨steps, hrun⟩ := Bench.ScriptedLine.line.exists_run_standing {} 300 (Array.replicate 310 0) 281 line
    (by decide) (by simp)
  have hstands : ((Bench.ScriptedLine.line.standing {} 300 (Array.replicate 310 0) 281 line).state?.map
      fun r => (r.session.filled, r.activity.held)) = some (131, 3) := by
    decide +kernel
  obtain ⟨⟨s, activity⟩, hr, hfields⟩ := Option.map_eq_some_iff.1 hstands
  rw [Progress.eq_going hr] at hrun
  obtain ⟨hfilled, hheld⟩ := Prod.mk.inj hfields
  have hone : committed steps = 1 := by
    have hcounts := hrun.ledger.counts
    cases activity with
    | reading field wait =>
      have hcounts : s.filled = 128 * committed steps + field.held := hcounts
      have hthree : field.held = 3 := hheld
      have hfilled : s.filled = 131 := hfilled
      omega
    | flushing cause drain => cases hheld
    | sending what => cases hheld
  obtain ⟨-, -, -, -, -, frames, haccepted, -, hlength, hstored, hrest⟩ := hrun.untouched
  rw [hone] at hlength hstored hrest
  exact ⟨steps, _, frames, hrun, hfilled, hlength, haccepted, hstored, hrest⟩

end Receiver

end Xmodem
