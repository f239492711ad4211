import Mathlib.Algebra.Group.Nat.Defs
import Xmodem.Bench.ScriptedLine
import Xmodem.Proofs.Run

/-!
# What a session represents

Between two blocks a session has whole blocks in its buffer, and expects the number of the next one
(`Session.Aligned`). While the payload of a block is read the fill runs ahead of that by the bytes
that have come, for which there is room (`Session.Filling`). `Receiver.Inv` says which of the two
holds in each activity; every step keeps it, so it holds along every run.
-/

namespace Xmodem

namespace Session

/-- Whole blocks fill the buffer, and the number of the next block is expected. -/
structure Aligned (s : Session) : Prop where
  whole : blockSize ∣ s.filled
  fits : s.filled ≤ s.capacity
  number : s.expected = UInt8.ofNat (s.filled / blockSize + 1)

/-- Behind whole blocks stand `taken` bytes of a block that has room, and they add up to `sum`. -/
structure Filling (s : Session) (taken : Nat) (sum : UInt8) : Prop where
  le : taken ≤ s.filled
  base : (s.takeBack taken).Aligned
  room : s.filled - taken + blockSize ≤ s.capacity
  sum_eq : sum = Xmodem.checksum (s.contents.drop (s.filled - taken))

/-- A session with its parameters, which never change, and a count of attempts in their bounds. -/
structure Within (config : Config) (capacity size : Nat) (s : Session) : Prop where
  config_eq : s.config = config
  capacity_eq : s.capacity = capacity
  size_eq : s.buffer.size = size
  attempts_le : s.attempts.toNat ≤ config.maxRetries.toNat

/-- How far the buffer is filled in an activity. -/
def Fits (s : Session) : Activity → Prop
  | .reading .complement _ => s.Aligned ∧ s.filled + blockSize ≤ s.capacity
  | .reading (.payload taken sum) _ => taken < blockSize ∧ s.Filling taken sum
  | .reading (.checksum sum) _ => s.Filling blockSize sum
  | .sending (.cancel ..) => True
  | _ => s.Aligned

end Session

structure Receiver.Inv (config : Config) (capacity size : Nat) (r : Receiver) : Prop where
  within : r.session.Within config capacity size
  fits : r.session.Fits r.activity

/-- A session ends with its count exhausted only if there is no limit below the largest count. -/
def Outcome.Proper (config : Config) (o : Outcome) : Prop :=
  config.maxRetries.toNat + 1 < UInt32.size → o.ending ≠ .exhausted

namespace Session
variable {config : Config} {capacity size : Nat} {s : Session} {p : Progress Receiver Outcome}

namespace Aligned

theorem start (config : Config) (capacity : Nat) (buffer : Array UInt8) :
    Aligned { config, capacity, buffer } :=
  ⟨Nat.dvd_zero _, Nat.zero_le _, by show (1 : UInt8) = UInt8.ofNat (0 / blockSize + 1); decide⟩

theorem congr {s' : Session} (h : s.Aligned) (hfilled : s'.filled = s.filled)
    (hcapacity : s'.capacity = s.capacity) (hexpected : s'.expected = s.expected) : s'.Aligned :=
  ⟨hfilled ▸ h.whole, hfilled ▸ hcapacity ▸ h.fits, hfilled ▸ hexpected ▸ h.number⟩

theorem filling (h : s.Aligned) (hroom : s.filled + blockSize ≤ s.capacity) : s.Filling 0 0 := by
  refine ⟨Nat.zero_le _, h.congr rfl rfl rfl, by omega, ?_⟩
  show 0 = Xmodem.checksum (s.contents.drop s.filled)
  rw [s.drop_contents]
  rfl

end Aligned

namespace Filling
variable {taken : Nat} {sum : UInt8}

theorem store (h : s.Filling taken sum) (byte : UInt8) (hsize : s.filled < s.buffer.size) :
    (s.store byte).Filling (taken + 1) (sum + byte) := by
  have hle : s.filled ≤ s.buffer.size := Nat.le_of_lt hsize
  have hback : (s.store byte).filled - (taken + 1) = s.filled - taken := Nat.add_sub_add_right ..
  refine ⟨Nat.add_le_add_right h.le 1, h.base.congr hback rfl rfl, ?_, ?_⟩
  · rw [hback]
    exact h.room
  · rw [hback, s.contents_store byte hle, List.drop_append_of_le_length, checksum_concat, ← h.sum_eq]
    rw [s.length_contents hle]
    exact Nat.sub_le ..

theorem filled_add_le (h : s.Filling taken sum) (hw : s.Within config capacity size) (hcap : capacity ≤ size) :
    s.filled + blockSize ≤ s.buffer.size + taken := by
  have hle := h.le
  have hroom := h.room
  rw [hw.capacity_eq] at hroom
  rw [hw.size_eq]
  omega

theorem lt_size (h : s.Filling taken sum) (hw : s.Within config capacity size) (hcap : capacity ≤ size)
    (hlt : taken < blockSize) : s.filled < s.buffer.size := by
  have hroom := h.filled_add_le hw hcap
  omega

theorem commit (h : s.Filling blockSize sum) : s.commit.Aligned := by
  -- The block in hand is counted among the whole ones from now on, and so is its number.
  have hcount : (s.filled - blockSize) / blockSize + 1 = s.filled / blockSize := by
    rw [← Nat.add_div_right _ (by decide : 0 < blockSize), Nat.sub_add_cancel h.le]
  have hnumber : s.expected = UInt8.ofNat ((s.filled - blockSize) / blockSize + 1) := by
    simpa using h.base.number
  refine ⟨?_, ?_, ?_⟩
  · exact (Nat.dvd_sub_iff_left h.le (Nat.dvd_refl _)).1 (by simpa using h.base.whole)
  · have := h.room
    have := h.le
    show s.filled ≤ s.capacity
    omega
  · show s.expected + 1 = UInt8.ofNat (s.filled / blockSize + 1)
    rw [hnumber, hcount, UInt8.ofNat_add]
    rfl

end Filling

namespace Within

theorem store (h : s.Within config capacity size) (byte : UInt8) (hlt : s.filled < s.buffer.size) :
    (s.store byte).Within config capacity size :=
  ⟨h.config_eq, h.capacity_eq, (s.size_buffer_store byte hlt).trans h.size_eq, h.attempts_le⟩

theorem takeBack (h : s.Within config capacity size) (count : Nat) :
    (s.takeBack count).Within config capacity size :=
  ⟨h.config_eq, h.capacity_eq, h.size_eq, h.attempts_le⟩

theorem reply (h : s.Within config capacity size) (reply : Reply) :
    Within config capacity size { s with reply } :=
  ⟨h.config_eq, h.capacity_eq, h.size_eq, h.attempts_le⟩

end Within

theorem Opens.inv (h : s.Opens p) (hw : s.Within config capacity size) (ha : s.Aligned) :
    p.Holds (Receiver.Inv config capacity size) (Outcome.Proper config) := by
  cases h with
  | opened hle =>
    refine ⟨⟨hw.config_eq, hw.capacity_eq, hw.size_eq, ?_⟩, ha.congr rfl rfl rfl⟩
    rw [hw.config_eq] at hle
    show (s.attempts + 1).toNat ≤ _
    rw [UInt32.toNat_add]
    exact Nat.le_trans (Nat.mod_le _ _) hle
  | abandoned _ => exact ⟨hw, trivial⟩
  | exhausted hge =>
    intro hmax
    have := hw.attempts_le
    omega

theorem inv_acknowledge (hw : s.Within config capacity size) (ha : s.Aligned) :
    s.acknowledge.next.Holds (Receiver.Inv config capacity size) (Outcome.Proper config) :=
  (opens_openAttempt _).inv ⟨hw.config_eq, hw.capacity_eq, hw.size_eq, Nat.zero_le _⟩ (ha.congr rfl rfl rfl)

theorem Rejects.aligned {field : Field} {wait : Wait} {byte : Option UInt8} (h : s.Rejects field byte)
    (hf : s.Fits (.reading field wait)) : (s.takeBack field.held).Aligned := by
  cases field with
  | start => exact hf
  | number => exact hf
  | complement => exact hf.1
  | payload taken sum => exact hf.2.base
  | checksum sum => exact hf.base

theorem Fits.filled_le {field : Field} {wait : Wait} (hf : s.Fits (.reading field wait))
    (hw : s.Within config capacity size) (hcap : capacity ≤ size) : s.filled ≤ s.buffer.size := by
  have haligned (h : s.Aligned) : s.filled ≤ s.buffer.size := by
    rw [hw.size_eq]
    exact Nat.le_trans h.fits (hw.capacity_eq ▸ hcap)
  cases field with
  | start => exact haligned hf
  | number => exact haligned hf
  | complement => exact haligned hf.1
  | payload taken sum => exact Nat.le_of_lt (hf.2.lt_size hw hcap hf.1)
  | checksum sum => exact Nat.le_of_add_le_add_right (Filling.filled_add_le hf hw hcap)

theorem Hears.inv {field : Field} {wait : Wait} {byte : Option UInt8} (hcap : capacity ≤ size)
    (h : s.Hears field byte p) (hw : s.Within config capacity size)
    (hf : s.Fits (.reading field wait)) :
    p.Holds (Receiver.Inv config capacity size) (Outcome.Proper config) := by
  cases h with
  | header => exact ⟨hw, hf⟩
  | farewell => exact ⟨hw, hf⟩
  | repeated => exact ⟨hw, hf⟩
  | unexpected _ _ => exact ⟨hw, hf⟩
  | noRoom _ => exact ⟨hw, trivial⟩
  | number hroom => exact ⟨hw, hf, hroom⟩
  | complement => exact ⟨hw, by decide, hf.1.filling hf.2⟩
  | payload hlt =>
    have hsize := hf.2.lt_size hw hcap hf.1
    exact ⟨hw.store _ hsize, hlt, hf.2.store _ hsize⟩
  | @lastPayload taken sum byte hge =>
    have hsize := hf.2.lt_size hw hcap hf.1
    have htaken : taken + 1 = blockSize := Nat.le_antisymm hf.1 hge
    refine ⟨hw.store _ hsize, ?_⟩
    show (s.store byte).Filling blockSize _
    rw [← htaken]
    exact hf.2.store _ hsize
  | checksum => exact inv_acknowledge ⟨hw.config_eq, hw.capacity_eq, hw.size_eq, hw.attempts_le⟩ hf.commit
  | rejected hr => exact ⟨hw.takeBack _, hr.aligned hf⟩

end Session

namespace Receiver
variable {config : Config} {capacity size : Nat}

theorem Inv.start (config : Config) (capacity : Nat) (buffer : Array UInt8) :
    Inv config capacity buffer.size (.start config capacity buffer) :=
  ⟨⟨rfl, rfl, rfl, Nat.zero_le _⟩, .start ..⟩

theorem Inv.step {r : Receiver} {call : Call} {turn : Receiver.Turn} (hcap : capacity ≤ size)
    (h : r.Inv config capacity size) (hs : r.Step call turn) :
    turn.next.Holds (Inv config capacity size) (Outcome.Proper config) := by
  obtain ⟨hw, hf⟩ := h
  cases hs with
  | waiting _ => exact ⟨hw, by cases ‹Field› <;> exact hf⟩
  | heard _ => exact (Session.hears_heard _ _ _).inv hcap hw hf
  | unheard _ => exact ⟨hw, trivial⟩
  | draining _ => exact ⟨hw, hf⟩
  | @drained s cause drain call said count _ =>
    cases cause with
    | retry => exact (s.opens_openAttempt).inv hw hf
    | repeated => exact Session.inv_acknowledge hw hf
    | unexpected received => exact ⟨hw, trivial⟩
  | undrained _ => exact ⟨hw, trivial⟩
  | @wrote s what result =>
    have hwrites := s.writes_wrote what result
    generalize (s.wrote what result).next = p at hwrites ⊢
    cases hwrites with
    | opened => exact ⟨hw.reply _, hf.congr rfl rfl rfl⟩
    | finished => exact fun _ => nofun
    | broken _ e => exact ⟨hw, trivial⟩
    | cancelling cause left => exact ⟨hw, trivial⟩
    | cancelled cause left => exact fun _ => nofun

section
variable {buffer : Array UInt8} {steps : List (Receiver × Call)} {p : Progress Receiver Outcome}

theorem Run.inv (h : Run config capacity buffer steps p) :
    p.Holds (Inv config capacity buffer.size) (Outcome.Proper config) :=
  h.trace.invariant (P := fun _ => Inv config capacity buffer.size) (Q := fun _ => Outcome.Proper config)
    (.start ..) fun _ _ _ _ hi ha => hi.step h.le (step_of_answer ha)

/-- What a step keeps where the invariant holds is kept along every run. It may speak of the steps so
far. -/
theorem Run.history {P : List (Receiver × Call) → Receiver → Prop}
    {Q : List (Receiver × Call) → Outcome → Prop} (h : Run config capacity buffer steps p)
    (h₀ : P [] (.start config capacity buffer))
    (hstep : ∀ steps r call turn, r.Inv config capacity buffer.size → P steps r → r.Step call turn →
      turn.next.Holds (P (steps ++ [(r, call)])) (Q (steps ++ [(r, call)]))) :
    p.Holds (P steps) (Q steps) :=
  h.induct (P := fun steps p => p.Holds (P steps) (Q steps)) h₀ fun steps r call turn hrun hP hs =>
    hstep steps r call turn hrun.inv hP hs

end

end Receiver

/-! ### What is reported of a retry -/

theorem Drain.retrying_notMem {drain : Drain} {call : Call} {turn : Turn Drain (Except IoError Nat)}
    {retry limit : UInt32} {block : UInt8} (h : drain.ask.Answer call turn) :
    .retrying retry limit block ∉ turn.said := by
  obtain ⟨p, -, rfl⟩ := h.of_map
  match p with
  | .going wait => exact List.not_mem_nil
  | .ended (.ok (some byte)) => exact List.not_mem_nil
  | .ended (.ok none) =>
    show _ ∉ drain.summary
    unfold summary
    split <;> simp
  | .ended (.error e) => exact List.not_mem_nil

namespace Session
variable {s : Session} {retry limit : UInt32} {block : UInt8}

theorem retrying_mem_openAttempt (h : .retrying retry limit block ∈ s.openAttempt.said) :
    retry = s.attempts ∧ limit.toNat + 1 = s.config.maxRetries.toNat ∧ 0 < retry.toNat ∧
      retry.toNat ≤ limit.toNat := by
  unfold openAttempt at h
  split at h
  · rename_i hlt
    have hn : (s.attempts + 1).toNat = s.attempts.toNat + 1 := by
      rw [UInt32.toNat_add]
      exact Nat.mod_eq_of_lt hlt
    dsimp only at h
    split at h
    · simp at h
    · rename_i hle
      split at h
      · rename_i hone
        obtain ⟨rfl, rfl, rfl⟩ : retry = s.attempts ∧ limit = s.config.maxRetries - 1 ∧
            block = s.expected := by simpa using h
        have hone : 1 < (s.attempts + 1).toNat := hone
        have hle : (s.attempts + 1).toNat ≤ s.config.maxRetries.toNat := Nat.le_of_not_lt hle
        have hlimit : (s.config.maxRetries - 1).toNat = s.config.maxRetries.toNat - 1 :=
          UInt32.toNat_sub_of_le _ _ (Nat.le_trans (Nat.le_of_lt hone) hle)
        rw [hlimit]
        refine ⟨rfl, ?_, ?_, ?_⟩ <;> omega
      · simp at h
  · simp at h

theorem retrying_notMem_acknowledge : .retrying retry limit block ∉ s.acknowledge.said := by
  intro h
  obtain ⟨rfl, -, hpos, -⟩ := retrying_mem_openAttempt h
  exact Nat.lt_irrefl 0 hpos

theorem retrying_notMem_wrote (what : Sending) (result : Except IoError Unit) :
    .retrying retry limit block ∉ (s.wrote what result).said := by
  unfold wrote
  repeat' split
  all_goals simp

theorem retrying_notMem_heard (field : Field) (byte : Option UInt8) :
    .retrying retry limit block ∉ (s.heard field byte).said := by
  unfold heard
  repeat' split
  all_goals simp [retrying_notMem_acknowledge]

end Session

/-- Only the opening of an attempt after a flush reports a retry. -/
theorem Receiver.Step.retrying {r : Receiver} {call : Call} {turn : Receiver.Turn} {retry limit : UInt32}
    {block : UInt8} (hs : r.Step call turn) (hm : .retrying retry limit block ∈ turn.said) :
    limit.toNat + 1 = r.session.config.maxRetries.toNat ∧ 0 < retry.toNat ∧
      retry.toNat ≤ limit.toNat := by
  cases hs with
  | waiting _ => simp at hm
  | heard _ => exact absurd hm (Session.retrying_notMem_heard _ _)
  | unheard _ => simp at hm
  | draining h => exact absurd hm (Drain.retrying_notMem h)
  | @drained s cause drain call said count h =>
    rcases List.mem_append.1 hm with hm | hm
    · exact absurd hm (Drain.retrying_notMem h)
    · cases cause with
      | retry => exact (Session.retrying_mem_openAttempt hm).2
      | repeated => exact absurd hm Session.retrying_notMem_acknowledge
      | unexpected received => simp [Session.flushed] at hm
  | undrained h => exact absurd (by simpa using hm) (Drain.retrying_notMem h)
  | wrote result => exact absurd hm (Session.retrying_notMem_wrote _ _)

/-! ### The representation in each state -/

/-- No byte of a block is in hand, and the transfer has not failed. -/
def Activity.BetweenBlocks : Activity → Prop
  | .reading (.payload ..) _ => False
  | .reading (.checksum _) _ => False
  | .sending (.cancel ..) => False
  | _ => True

namespace Receiver

/-- How a receiver that may use `capacity` bytes represents the blocks that it has. -/
structure Represents (capacity : Nat) (r : Receiver) : Prop where
  between : r.activity.BetweenBlocks →
    blockSize ∣ r.session.filled ∧ r.session.filled ≤ capacity ∧
      r.session.expected.toNat = (1 + r.session.filled / blockSize) % 256
  room : ∀ field wait, r.activity = .reading field wait → field = .complement ∨ field = .payload 0 0 →
    r.session.filled + blockSize ≤ capacity
  checksum : ∀ sum wait, r.activity = .reading (.checksum sum) wait →
    blockSize ≤ r.session.filled ∧ r.session.filled ≤ capacity ∧
      sum = Xmodem.checksum
        (r.session.buffer.extract (r.session.filled - blockSize) r.session.filled).toList
  reply : r.session.reply.byte = Control.ack ∨ r.session.reply.byte = Control.nak

/-- What a receiver computes next stays in range: a store hits the buffer of `size` bytes, what is
taken back has been stored, the end of a block is a 64-bit length, the two counts of a warning are
at least 1 before they are lowered, and the count of attempts has room for another one. -/
structure InRange (config : Config) (size : Nat) (r : Receiver) : Prop where
  size_eq : r.session.buffer.size = size
  store : ∀ taken sum wait, r.activity = .reading (.payload taken sum) wait → r.session.filled < size
  takeBack : ∀ field wait, r.activity = .reading field wait → field.held ≤ r.session.filled
  blockEnd : ∀ wait, r.activity = .reading .number wait → r.session.filled + blockSize < 2 ^ 64
  warning : ∀ call turn retry limit block, r.ask.Answer call turn →
    .retrying retry limit block ∈ turn.said →
      limit.toNat + 1 = config.maxRetries.toNat ∧ 0 < retry.toNat ∧ retry.toNat ≤ limit.toNat
  counted : ∀ call turn outcome, r.ask.Answer call turn → turn.next = .ended outcome →
    outcome.ending ≠ .exhausted

variable {config : Config} {capacity size : Nat} {r : Receiver}

theorem aligned_of_betweenBlocks {s : Session} {activity : Activity} (hf : s.Fits activity)
    (h : activity.BetweenBlocks) : s.Aligned := by
  cases activity with
  | reading field wait =>
    cases field with
    | start => exact hf
    | number => exact hf
    | complement => exact hf.1
    | payload taken sum => exact h.elim
    | checksum sum => exact h.elim
  | flushing cause drain => exact hf
  | sending what =>
    cases what with
    | reply => exact hf
    | farewell => exact hf
    | cancel cause left => exact h.elim

theorem Inv.represents (h : r.Inv config capacity size) : r.Represents capacity := by
  obtain ⟨hw, hf⟩ := h
  obtain ⟨s, activity⟩ := r
  dsimp only at hw hf
  refine ⟨fun hb => ?_, ?_, ?_, ?_⟩
  · have ha := aligned_of_betweenBlocks hf hb
    refine ⟨ha.whole, by rw [← hw.capacity_eq]; exact ha.fits, ?_⟩
    dsimp only
    rw [ha.number, UInt8.toNat_ofNat', Nat.add_comm]
  · rintro field wait rfl (rfl | rfl)
    · rw [← hw.capacity_eq]; exact hf.2
    · rw [← hw.capacity_eq]; exact hf.2.room
  · rintro sum wait rfl
    have hle : s.filled ≤ capacity := by rw [← hw.capacity_eq]; exact hf.commit.fits
    refine ⟨hf.le, hle, ?_⟩
    rw [hf.sum_eq, Session.contents, List.drop_take, Array.toList_extract, List.extract_eq_take_drop]
  · cases s.reply
    · exact .inl rfl
    · exact .inr rfl

theorem Inv.inRange (h : r.Inv config capacity size) (hcap : capacity ≤ size) (hsize : size < 2 ^ 63)
    (hmax : config.maxRetries.toNat + 1 < UInt32.size) : r.InRange config size := by
  have hi := h
  obtain ⟨hw, hf⟩ := h
  obtain ⟨s, activity⟩ := r
  dsimp only at hw hf
  refine ⟨hw.size_eq, ?_, ?_, ?_, ?_, ?_⟩
  · rintro taken sum wait rfl
    rw [← hw.size_eq]
    exact hf.2.lt_size hw hcap hf.1
  · rintro field wait rfl
    cases field with
    | start => exact Nat.zero_le _
    | number => exact Nat.zero_le _
    | complement => exact Nat.zero_le _
    | payload taken sum => exact hf.2.le
    | checksum sum => exact hf.le
  · rintro wait rfl
    have hle : s.filled ≤ s.capacity := hf.fits
    have hc := hw.capacity_eq
    show s.filled + 128 < _
    omega
  · intro call turn retry limit block ha hm
    rw [← hw.config_eq]
    exact (step_of_answer ha).retrying hm
  · intro call turn outcome ha hn
    have hs := hi.step hcap (step_of_answer ha)
    rw [hn] at hs
    exact hs hmax

/-- Along every run the session represents whole blocks, or a block that is being filled, and what
it computes next stays in range. -/
theorem Run.representation {buffer : Array UInt8} {steps : List (Receiver × Call)}
    (h : Run config capacity buffer steps (.going r)) (hmax : config.maxRetries.toNat < UInt32.size - 1)
    (hsize : buffer.size < 2 ^ 63) : r.Represents capacity ∧ r.InRange config buffer.size :=
  ⟨Inv.represents h.inv, Inv.inRange h.inv h.le hsize (Nat.add_lt_of_lt_sub hmax)⟩

/-- A receiver with two bytes of its first block, after a header that was cut short. -/
theorem Run.representation_in_block : ∃ steps r,
    Run {} 128 (Array.replicate 130 0) steps (.going r) ∧ r.session.filled = 2 ∧
      r.Represents 128 ∧ r.InRange {} (Array.replicate 130 (0 : UInt8)).size := by
  let line : Bench.ScriptedLine :=
    { script := [.bytes ⟨#[9, 9], 1, 0⟩, .silence, .bytes ⟨#[1, 1], 1, 0⟩, .silence, .silence,
        .bytes ⟨#[1, 1, 254, 7, 7], 1, 0⟩] }
  obtain ⟨steps, hrun⟩ := Bench.ScriptedLine.line.exists_run_standing {} 128 (Array.replicate 130 0) 30 line
    (by decide) (by simp)
  have hfilled : ((Bench.ScriptedLine.line.standing {} 128 (Array.replicate 130 0) 30 line).state?.map
      fun r => r.session.filled) = some 2 := by
    decide +kernel
  obtain ⟨r, hr, hf⟩ := Option.map_eq_some_iff.1 hfilled
  rw [Progress.eq_going hr] at hrun
  exact ⟨steps, r, hrun, hf, hrun.representation (by decide) (by simp)⟩

end Receiver

end Xmodem
