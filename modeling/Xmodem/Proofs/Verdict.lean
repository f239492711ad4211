import Xmodem.Proofs.Attempts
import Xmodem.Proofs.Delivery

/-!
# What an attempt comes to

An attempt makes one timed read for each byte of a frame, and what these have come to decides it. There
are few ways in which it does not fail (`Session.Admits`); it fails with the first read that rules all of
them out (`Session.Decides`). So every sequence of outcomes has one beginning that decides an attempt, of
at most as many reads as a frame has bytes, and the attempt ends there as its verdict says.
-/

namespace Xmodem

inductive Verdict where
  /-- The transmission is over. -/
  | finished
  /-- The block was seen before. -/
  | repeated
  | unexpected (received : UInt8)
  /-- There is no room for the block. -/
  | full
  | stored (payload : Vector UInt8 blockSize)
  | failed

/-- How often an attempt flushes the line before it is over. -/
def Verdict.flushes : Verdict → Nat
  | repeated => 1
  | unexpected _ => 1
  | _ => 0

namespace Session

/-- The bytes of an attempt that does not fail. -/
inductive Admits (s : Session) : Verdict → List UInt8 → Prop
  | finished : Admits s .finished [Control.eot]
  | repeated : Admits s .repeated [Control.soh, s.expected - 1]
  | unexpected {received : UInt8} (h₁ : received ≠ s.expected) (h₂ : received ≠ s.expected - 1) :
    Admits s (.unexpected received) [Control.soh, received]
  | full (h : s.capacity < s.filled + blockSize) : Admits s .full [Control.soh, s.expected]
  | stored (payload : Vector UInt8 blockSize) (h : s.filled + blockSize ≤ s.capacity) :
    Admits s (.stored payload) (Frame.bytes ⟨s.expected, payload⟩)

/-- What has been heard is a beginning of such bytes. -/
def Open (s : Session) (heard : List (Option UInt8)) : Prop :=
  ∃ v bytes, s.Admits v bytes ∧ heard <+: bytes.map some

/-- What has been heard decides the attempt. A failure takes a last read in whose place some byte would
have left the attempt open, and that rules out every other verdict. -/
inductive Decides (s : Session) : Verdict → List (Option UInt8) → Prop
  | admitted {v : Verdict} {bytes : List UInt8} (h : s.Admits v bytes) : Decides s v (bytes.map some)
  | failed {heard : List (Option UInt8)} {byte : UInt8} {last : Option UInt8}
    (hopen : s.Open (heard ++ [some byte])) (hshut : ¬ s.Open (heard ++ [last])) :
    Decides s .failed (heard ++ [last])

/-- A receiver that opens the next attempt with an acknowledgement. -/
def acknowledging (s : Session) : Receiver :=
  ⟨{ s with attempts := 1, reply := .ack }, .sending .reply⟩

/-- How a receiver stands when an attempt has come to a verdict. -/
def Concludes (s : Session) (p : Progress Receiver Outcome) : Verdict → Prop
  | .finished => p = .ended ⟨.received s.filled, s.buffer⟩
  | .repeated => p = .going s.acknowledging
  | .unexpected received => p = (s.fail (.unexpectedBlock s.expected received)).next
  | .full => p = (s.fail .bufferFull).next
  | .stored payload => ∃ s' : Session, p = .going s'.acknowledging ∧ s'.filled = s.filled + blockSize ∧
      s'.expected = s.expected + 1 ∧ s'.contents = s.contents ++ payload.toList
  | .failed => ∃ s' : Session, p = s'.retry.next ∧ s'.filled = s.filled ∧ s'.expected = s.expected ∧
      s'.contents = s.contents

end Session

namespace Receiver

/-- The receiver is at an attempt: it reads a frame, or does what that comes to before the attempt is
over. -/
def Attempting : Receiver → Prop
  | ⟨_, .reading ..⟩ => True
  | ⟨_, .flushing .retry _⟩ => False
  | ⟨_, .flushing ..⟩ => True
  | ⟨_, .sending .farewell⟩ => True
  | ⟨_, .sending _⟩ => False

theorem attempting_flushing {s : Session} {cause : FlushCause} {drain : Drain} (h : cause ≠ .retry) :
    Attempting ⟨s, .flushing cause drain⟩ := by
  cases cause with
  | retry => exact absurd rfl h
  | repeated => trivial
  | unexpected received => trivial

/-- What a timed read of a frame has come to with a step. -/
def outcome? : Receiver × Call → Option (Option UInt8)
  | (⟨_, .reading _ wait⟩, call) => wait.comes? call
  | _ => none

/-- What the timed reads of frames have come to, one after the other. -/
def outcomes (steps : List (Receiver × Call)) : List (Option UInt8) :=
  steps.filterMap outcome?

/-- A flush is over with a step. -/
def endsFlush : Receiver × Call → Bool
  | (⟨_, .flushing _ drain⟩, call) => drain.wait.comes? call = some none
  | _ => false

def flushes (steps : List (Receiver × Call)) : Nat :=
  steps.countP endsFlush

end Receiver

/-- The steps of an attempt in which nothing goes wrong with the line. -/
structure Session.Attempt (s : Session) (steps : List (Receiver × Call)) (p : Progress Receiver Outcome) :
    Prop where
  trace : Trace Receiver.ask (s.awaiting .start) steps p
  attempting : ∀ step ∈ steps, step.1.Attempting
  unbroken : ∀ step ∈ steps, step.2.error? = none

/-- An attempt is over. -/
def Progress.Left (p : Progress Receiver Outcome) : Prop :=
  p.Holds (fun r => ¬ r.Attempting) fun _ => True

/-! ### Verdicts -/

theorem Frame.eq_of_bytes {number sum : UInt8} {bytes : List UInt8} {payload : Vector UInt8 blockSize}
    (hlength : bytes.length = blockSize)
    (h : [Control.soh, number, ~~~number] ++ bytes ++ [sum] = Frame.bytes ⟨number, payload⟩) :
    bytes = payload.toList ∧ sum = checksum payload.toList := by
  obtain ⟨hfront, hsum⟩ := List.append_inj h (by simp [hlength])
  exact ⟨List.append_cancel_left hfront, List.singleton_injective hsum⟩

namespace Session
variable {s : Session} {v v' : Verdict} {bytes bytes' : List UInt8} {heard heard' : List (Option UInt8)}

theorem Admits.length_le (h : s.Admits v bytes) : bytes.length ≤ blockSize + 4 := by
  cases h with
  | stored payload _ => rw [Frame.length_bytes]
  | _ => simp [blockSize]

/-- None of the ways not to fail goes on where another one is over. -/
theorem Admits.eq_of_prefix (h : s.Admits v bytes) (h' : s.Admits v' bytes') (hbegins : bytes <+: bytes') :
    v = v' ∧ bytes = bytes' := by
  have hother : s.expected ≠ s.expected - 1 := by grind
  have hcontrol : Control.eot ≠ Control.soh := by decide
  cases h with
  | finished =>
    cases h' <;> simp_all [Frame.bytes]
  | repeated =>
    cases h' <;> simp_all [Frame.bytes]
  | unexpected h₁ h₂ =>
    cases h' <;> simp_all [Frame.bytes]
  | full hfull =>
    cases h' with
    | stored payload hroom => omega
    | _ => simp_all
  | stored payload hroom =>
    cases h' with
    | stored payload' _ =>
      have heq := hbegins.eq_of_length (by simp)
      have hpayload := (Frame.eq_of_bytes payload.length_toList heq).1
      rw [Vector.toList_inj.1 hpayload]
      exact ⟨rfl, rfl⟩
    | _ => simpa [blockSize] using hbegins.length_le

theorem Admits.open (h : s.Admits v bytes) : s.Open (bytes.map some) :=
  ⟨v, bytes, h, List.prefix_rfl⟩

theorem Open.of_prefix (h : s.Open heard') (hbegins : heard <+: heard') : s.Open heard :=
  let ⟨v, bytes, hadmits, hle⟩ := h
  ⟨v, bytes, hadmits, hbegins.trans hle⟩

theorem Open.length_le (h : s.Open heard) : heard.length ≤ blockSize + 4 := by
  obtain ⟨v, bytes, hadmits, hbegins⟩ := h
  have hle := hbegins.length_le
  rw [List.length_map] at hle
  exact Nat.le_trans hle hadmits.length_le

/-- An attempt that is open has not heard all that it takes not to fail, unless that is what it has
heard. -/
theorem Admits.eq_of_open (h : s.Admits v bytes) (hopen : s.Open heard) (hbegins : bytes.map some <+: heard) :
    heard = bytes.map some := by
  obtain ⟨v', bytes', hadmits, hle⟩ := hopen
  have hbytes : bytes <+: bytes' :=
    (List.prefix_map_iff_of_injective fun _ _ => Option.some.inj).1 (hbegins.trans hle)
  obtain ⟨-, rfl⟩ := h.eq_of_prefix hadmits hbytes
  exact hle.eq_of_length_le hbegins.length_le

theorem Decides.length_le (h : s.Decides v heard) : heard.length ≤ blockSize + 4 := by
  cases h with
  | admitted h => exact h.open.length_le
  | failed hopen _ => simpa using hopen.length_le

theorem Decides.eq_failed (h : s.Decides v heard) (hshut : ¬ s.Open heard) : v = .failed := by
  cases h with
  | admitted h => exact absurd h.open hshut
  | failed _ _ => rfl

theorem Decides.not_open (h : s.Decides .failed heard) : ¬ s.Open heard := by
  cases h with
  | admitted hadmits => cases hadmits
  | failed _ hshut => exact hshut

/-- Only one beginning of what is heard decides an attempt. -/
theorem Decides.eq_of_prefix (h : s.Decides v heard) (h' : s.Decides v' heard') (hbegins : heard <+: heard') :
    v = v' ∧ heard = heard' := by
  cases h' with
  | @admitted _ bytes' hadmits' =>
    cases h with
    | admitted hadmits =>
      have hbytes := (List.prefix_map_iff_of_injective fun _ _ => Option.some.inj).1 hbegins
      obtain ⟨rfl, rfl⟩ := hadmits.eq_of_prefix hadmits' hbytes
      exact ⟨rfl, rfl⟩
    | failed _ hshut => exact absurd (hadmits'.open.of_prefix hbegins) hshut
  | @failed before byte last hopen hshut' =>
    rcases List.prefix_concat_iff.1 hbegins with rfl | hbefore
    · exact ⟨h.eq_failed hshut', rfl⟩
    · -- What was heard before the last read is decided already, but leaves the attempt open.
      have hle := hbefore.trans (List.prefix_append before [some byte])
      cases h with
      | admitted hadmits =>
        have hlength := congrArg List.length (hadmits.eq_of_open hopen hle)
        have hshort := hbefore.length_le
        rw [List.length_append, List.length_singleton] at hlength
        omega
      | failed _ hshut => exact absurd (hopen.of_prefix hle) hshut

/-! ### What is stored of a block -/

theorem stores_eq (s : Session) (bytes : List UInt8) :
    bytes.foldl store s =
      { s with buffer := (bytes.foldl store s).buffer, filled := s.filled + bytes.length } := by
  induction bytes generalizing s with
  | nil => rfl
  | cons byte bytes ih =>
    rw [List.foldl_cons, ih]
    simp [store, Nat.add_assoc, Nat.add_comm 1]

theorem filled_stores (s : Session) (bytes : List UInt8) :
    (bytes.foldl store s).filled = s.filled + bytes.length := by
  rw [stores_eq]

theorem expected_stores (s : Session) (bytes : List UInt8) : (bytes.foldl store s).expected = s.expected := by
  rw [stores_eq]

theorem config_stores (s : Session) (bytes : List UInt8) : (bytes.foldl store s).config = s.config := by
  rw [stores_eq]

theorem filled_store_le (s : Session) (byte : UInt8) (h : s.filled ≤ s.buffer.size) :
    (s.store byte).filled ≤ (s.store byte).buffer.size := by
  by_cases hlt : s.filled < s.buffer.size
  · rw [s.size_buffer_store byte hlt]
    exact hlt
  · simp only [store, hlt, ↓reduceDIte, Array.size_push]
    exact Nat.succ_le_succ h

theorem contents_stores (s : Session) (bytes : List UInt8) (h : s.filled ≤ s.buffer.size) :
    (bytes.foldl store s).contents = s.contents ++ bytes := by
  induction bytes generalizing s with
  | nil => exact (List.append_nil _).symm
  | cons byte bytes ih =>
    rw [List.foldl_cons, ih _ (s.filled_store_le byte h), s.contents_store byte h, List.append_assoc]
    rfl

/-- What is taken back of a block leaves what was there before. -/
theorem contents_takeBack_stores (s : Session) (bytes : List UInt8) (h : s.filled ≤ s.buffer.size) :
    ((bytes.foldl store s).takeBack bytes.length).contents = s.contents := by
  rw [contents_takeBack, filled_stores, Nat.add_sub_cancel, s.contents_stores bytes h,
    ← s.length_contents h, List.take_left]

/-! ### Along an attempt -/

/-- What an attempt has heard when it awaits a field, and what it has stored. -/
inductive Advanced (s : Session) : List UInt8 → Session → Field → Prop
  | start : Advanced s [] s .start
  | number : Advanced s [Control.soh] s .number
  | complement (h : s.filled + blockSize ≤ s.capacity) :
    Advanced s [Control.soh, s.expected] s .complement
  | payload {bytes : List UInt8} (h : s.filled + blockSize ≤ s.capacity) (hlt : bytes.length < blockSize) :
    Advanced s ([Control.soh, s.expected, ~~~s.expected] ++ bytes) (bytes.foldl store s)
      (.payload bytes.length (Xmodem.checksum bytes))
  | checksum {bytes : List UInt8} (h : s.filled + blockSize ≤ s.capacity) (hlength : bytes.length = blockSize) :
    Advanced s ([Control.soh, s.expected, ~~~s.expected] ++ bytes) (bytes.foldl store s)
      (.checksum (Xmodem.checksum bytes))

/-- Nothing has changed but what the buffer holds behind its fill. -/
structure Restores (s s' : Session) : Prop where
  same : s' = { s with buffer := s'.buffer }
  contents_eq : s'.contents = s.contents

/-- How an attempt stands after what it has heard and the flushes that it has made. -/
inductive Midway (s : Session) : List (Option UInt8) → Nat → Progress Receiver Outcome → Prop
  | reading {bytes : List UInt8} {s' : Session} {field : Field} {wait : Wait} (h : s.Advanced bytes s' field) :
    Midway s (bytes.map some) 0 (.going ⟨s', .reading field wait⟩)
  | flushing {v : Verdict} {heard : List (Option UInt8)} {cause : FlushCause} {drain : Drain}
    (hd : s.Decides v heard) (hc : s.Concludes (s.flushed cause).next v) (hone : v.flushes = 1)
    (hcause : cause ≠ .retry) :
    Midway s heard 0 (.going ⟨s, .flushing cause drain⟩)
  | farewell {heard : List (Option UInt8)} (hd : s.Decides .finished heard) :
    Midway s heard 0 (.going ⟨s, .sending .farewell⟩)
  | decided {v : Verdict} {heard : List (Option UInt8)} {p : Progress Receiver Outcome} (hd : s.Decides v heard)
    (hc : s.Concludes p v) : Midway s heard v.flushes p

variable {s' : Session} {field : Field} {byte : Option UInt8} {p : Progress Receiver Outcome}

theorem Advanced.length_lt (h : s.Advanced bytes s' field) : bytes.length < blockSize + 4 := by
  cases h <;> simp [blockSize] at * <;> omega

theorem open_of_bytes (bytes : List UInt8) (hroom : s.filled + blockSize ≤ s.capacity)
    (hlength : bytes.length ≤ blockSize) :
    s.Open (([Control.soh, s.expected, ~~~s.expected] ++ bytes).map some) := by
  let payload : Vector UInt8 blockSize :=
    ⟨(bytes ++ List.replicate (blockSize - bytes.length) 0).toArray, by simp; omega⟩
  have hpayload : bytes <+: payload.toList := by simp [payload, Vector.toList]
  refine (Admits.stored payload hroom).open.of_prefix (List.IsPrefix.map _ ?_)
  exact (List.prefix_append_right_inj _).2 hpayload |>.trans (List.prefix_append ..)

theorem Advanced.open (h : s.Advanced bytes s' field) :
    ∃ byte : UInt8, s.Open (bytes.map some ++ [some byte]) := by
  cases h with
  | start => exact ⟨_, Admits.finished.open⟩
  | number => exact ⟨_, Admits.repeated.open⟩
  | complement hroom => exact ⟨~~~s.expected, open_of_bytes [] hroom (Nat.zero_le _)⟩
  | @payload bytes hroom hlt =>
    have hopen := open_of_bytes (bytes ++ [0]) hroom (by simpa using Nat.succ_le_of_lt hlt)
    exact ⟨0, by simpa using hopen⟩
  | @checksum bytes hroom hlength =>
    refine ⟨Xmodem.checksum bytes, ?_⟩
    have hopen := (Admits.stored ⟨bytes.toArray, by simpa using hlength⟩ hroom).open
    simpa [Frame.bytes, Vector.toList] using hopen

/-- A byte that an attempt rejects, or that does not come, rules out all but a failure. -/
theorem Advanced.not_open (h : s.Advanced bytes s' field) (hr : s'.Rejects field byte) :
    ¬ s.Open (bytes.map some ++ [byte]) := by
  rintro ⟨v, whole, hadmits, hbegins⟩
  cases byte with
  | none =>
    have hmem : none ∈ whole.map some := hbegins.subset List.mem_concat_self
    simp at hmem
  | some b =>
    have hbytes : bytes ++ [b] <+: whole := by
      refine (List.prefix_map_iff_of_injective fun _ _ => Option.some.inj).1 ?_
      rwa [List.map_append]
    cases h with
    | start =>
      cases hr with
      | start h₁ h₂ => cases hadmits <;> simp_all [Frame.bytes]
    | number => cases hr
    | complement _ =>
      cases hr with
      | complement hne => cases hadmits <;> simp_all [Frame.bytes]
    | payload _ _ => cases hr
    | @checksum bytes _ hlength =>
      cases hr with
      | checksum hne =>
        cases hadmits with
        | stored payload _ =>
          have heq := hbytes.eq_of_length (by simp [hlength])
          obtain ⟨rfl, hsum⟩ := Frame.eq_of_bytes hlength heq
          exact hne hsum
        | _ => simpa [hlength, blockSize] using hbytes.length_le

theorem Advanced.decides_failed (h : s.Advanced bytes s' field) (hr : s'.Rejects field byte) :
    s.Decides .failed (bytes.map some ++ [byte]) :=
  let ⟨_, hopen⟩ := h.open
  .failed hopen (h.not_open hr)

theorem Advanced.restores (h : s.Advanced bytes s' field) (hle : s.filled ≤ s.buffer.size) :
    s.Restores (s'.takeBack field.held) := by
  have hstored (bytes : List UInt8) : s.Restores ((bytes.foldl store s).takeBack bytes.length) := by
    refine ⟨?_, s.contents_takeBack_stores bytes hle⟩
    rw [stores_eq, takeBack, Nat.add_sub_cancel]
  cases h with
  | start => exact hstored []
  | number => exact hstored []
  | complement _ => exact hstored []
  | payload _ _ => exact hstored _
  | checksum _ hlength =>
    rw [Field.held, ← hlength]
    exact hstored _

/-- What the awaited byte, or its absence, means for the attempt. -/
theorem Advanced.hears (h : s.Advanced bytes s' field) (hle : s.filled ≤ s.buffer.size)
    (hpos : 1 ≤ s.config.maxRetries.toNat) (hh : s'.Hears field byte p) :
    s.Midway (bytes.map some ++ [byte]) 0 p := by
  have hreads (b : UInt8) {s'' : Session} {field' : Field} (wait : Wait)
      (hnext : s.Advanced (bytes ++ [b]) s'' field') :
      s.Midway (bytes.map some ++ [some b]) 0 (.going ⟨s'', .reading field' wait⟩) := by
    have hreading : s.Midway ((bytes ++ [b]).map some) 0 (.going ⟨s'', .reading field' wait⟩) := .reading hnext
    rwa [List.map_append] at hreading
  cases hh with
  | header =>
    cases h
    exact hreads _ _ .number
  | farewell =>
    cases h
    exact .farewell (.admitted .finished)
  | repeated =>
    cases h
    exact .flushing (.admitted .repeated) (next_acknowledge hpos) rfl (fun h => by cases h)
  | unexpected h₁ h₂ =>
    cases h
    exact .flushing (.admitted (.unexpected h₂ h₁)) rfl rfl (fun h => by cases h)
  | noRoom hfull =>
    cases h
    exact .decided (.admitted (.full hfull)) rfl
  | number hroom =>
    cases h
    exact hreads _ _ (.complement hroom)
  | complement =>
    cases h with
    | complement hroom => exact hreads _ _ (@Advanced.payload s [] hroom (by decide))
  | @payload _ _ byte hlt =>
    cases h with
    | @payload stored hroom _ =>
      refine hreads byte _ ?_
      have hnext := @Advanced.payload s (stored ++ [byte]) hroom (by simpa using hlt)
      rwa [List.foldl_concat, checksum_concat, List.length_append, ← List.append_assoc] at hnext
  | @lastPayload _ _ byte hge =>
    cases h with
    | @payload stored hroom hlt =>
      refine hreads byte _ ?_
      have hlength : (stored ++ [byte]).length = blockSize := by
        rw [List.length_append, List.length_singleton]
        exact Nat.le_antisymm hlt hge
      have hnext := Advanced.checksum (s := s) hroom hlength
      rwa [List.foldl_concat, checksum_concat, ← List.append_assoc] at hnext
  | checksum =>
    cases h with
    | @checksum stored hroom hlength =>
      have hadmits := Admits.stored (s := s) ⟨stored.toArray, by simpa using hlength⟩ hroom
      have hdecides := Decides.admitted hadmits
      rw [Frame.bytes, List.map_append] at hdecides
      have hconfig : (stored.foldl store s).commit.config = s.config := s.config_stores stored
      rw [next_acknowledge (hconfig.symm ▸ hpos)]
      refine .decided hdecides ⟨_, rfl, ?_, ?_, ?_⟩
      · exact (filled_stores s stored).trans (by rw [hlength])
      · exact congrArg (· + 1) (expected_stores s stored)
      · exact contents_stores s stored hle
  | rejected hr =>
    have hrestores := h.restores hle
    exact .decided (h.decides_failed hr)
      ⟨_, rfl, by rw [hrestores.same], by rw [hrestores.same], hrestores.contents_eq⟩

theorem Concludes.left (h : s.Concludes p v) : p.Left := by
  cases v with
  | finished =>
    obtain rfl := h
    trivial
  | stored payload =>
    obtain ⟨s', rfl, -⟩ := h
    exact id
  | failed =>
    obtain ⟨s', rfl, -⟩ := h
    exact id
  | _ =>
    obtain rfl := h
    exact id

/-- Each verdict leads to somewhere else. -/
theorem Concludes.unique (h : s.Concludes p v) (h' : s.Concludes p v') : v = v' := by
  have hother (s' : Session) (hfilled : s'.filled = s.filled + blockSize) :
      s'.acknowledging ≠ s.acknowledging := fun heq => by
    have hsame : s'.filled = s.filled := congrArg (fun r => r.session.filled) heq
    exact absurd (hfilled.symm.trans hsame) (by simp [blockSize])
  cases v with
  | finished =>
    obtain rfl := h
    cases v' <;> simp_all [Concludes]
  | repeated =>
    obtain rfl := h
    cases v' with
    | repeated => rfl
    | stored payload =>
      obtain ⟨s', heq, hfilled, -⟩ := h'
      exact absurd (Progress.going.inj heq).symm (hother s' hfilled)
    | _ => simp [Concludes, acknowledging] at h'
  | unexpected received =>
    obtain rfl := h
    cases v' <;> simp_all [Concludes, acknowledging]
  | full =>
    obtain rfl := h
    cases v' <;> simp_all [Concludes, acknowledging]
  | stored payload =>
    obtain ⟨s', rfl, hfilled, -, hcontents⟩ := h
    cases v' with
    | repeated => exact absurd (Progress.going.inj h') (hother s' hfilled)
    | stored payload' =>
      obtain ⟨s'', heq, -, -, hcontents'⟩ := h'
      have hsame : s'.contents = s''.contents :=
        congrArg (fun r => r.session.contents) (Progress.going.inj heq)
      have hpayload := List.append_cancel_left (hcontents.symm.trans (hsame.trans hcontents'))
      rw [Vector.toList_inj.1 hpayload]
    | _ => simp [Concludes, acknowledging] at h'
  | failed =>
    obtain ⟨s', rfl, -⟩ := h
    cases v' <;> simp_all [Concludes, acknowledging]

theorem Midway.length_le {n : Nat} (h : s.Midway heard n p) : heard.length ≤ blockSize + 4 := by
  cases h with
  | reading ha =>
    rw [List.length_map]
    exact Nat.le_of_lt ha.length_lt
  | flushing hd _ _ _ => exact hd.length_le
  | farewell hd => exact hd.length_le
  | decided hd _ => exact hd.length_le

theorem Midway.length_lt {n : Nat} {wait : Wait} (h : s.Midway heard n (.going ⟨s', .reading field wait⟩)) :
    heard.length < blockSize + 4 := by
  cases h with
  | reading ha =>
    rw [List.length_map]
    exact ha.length_lt
  | decided _ hc => exact absurd trivial hc.left

theorem Midway.verdict {n : Nat} (h : s.Midway heard n p) (hleft : p.Left) :
    ∃ v, s.Decides v heard ∧ s.Concludes p v ∧ n = v.flushes := by
  cases h with
  | reading _ => exact absurd trivial hleft
  | flushing _ _ _ hcause => exact absurd (Receiver.attempting_flushing hcause) hleft
  | farewell _ => exact absurd trivial hleft
  | decided hd hc => exact ⟨_, hd, hc, rfl⟩

end Session

namespace Receiver

theorem outcomes_append (steps more : List (Receiver × Call)) :
    outcomes (steps ++ more) = outcomes steps ++ outcomes more :=
  List.filterMap_append

theorem flushes_append (steps more : List (Receiver × Call)) :
    flushes (steps ++ more) = flushes steps + flushes more :=
  List.countP_append

end Receiver

namespace Session
open Receiver
variable {s : Session} {steps : List (Receiver × Call)} {p : Progress Receiver Outcome}

theorem Midway.step {r : Receiver} {call : Call} {turn : Receiver.Turn} {reads : List (Option UInt8)} {n : Nat}
    (h : s.Midway reads n (.going r)) (hr : r.Attempting) (hle : s.filled ≤ s.buffer.size)
    (hpos : 1 ≤ s.config.maxRetries.toNat)
    (hs : r.Step call turn) (hcall : call.error? = none) :
    s.Midway (reads ++ outcomes [(r, call)]) (n + flushes [(r, call)]) turn.next := by
  have hquiet {p : Progress Receiver Outcome} (hheard : outcome? (r, call) = none)
      (hflushed : endsFlush (r, call) = false) (hnext : s.Midway reads n p) :
      s.Midway (reads ++ outcomes [(r, call)]) (n + flushes [(r, call)]) p := by
    simpa [outcomes, flushes, hheard, hflushed] using hnext
  cases h with
  | @reading _ s' field wait ha =>
    cases hs with
    | waiting hw => exact hquiet hw.comes?_of_going rfl (.reading ha)
    | @heard _ _ _ _ byte hw =>
      have hheard : outcomes [(⟨s', .reading field wait⟩, call)] = [byte] :=
        List.filterMap_cons_some hw.comes?_of_ended
      rw [hheard]
      exact ha.hears hle hpos (s'.hears_heard field byte)
    | unheard hw =>
      obtain rfl := hw.eq_polled_of_error
      cases hcall
  | @flushing v _ cause drain hd hc hone hcause =>
    cases hs with
    | draining hw =>
      have hgoing := (Drain.Step.of_answer hw).comes?_of_going
      exact hquiet rfl (by simp [endsFlush, hgoing]) (.flushing hd hc hone hcause)
    | drained hw =>
      have hended := (Drain.Step.of_answer hw).comes?_of_ended
      have hflushes : flushes [(⟨s, .flushing cause drain⟩, call)] = v.flushes := by
        simp [flushes, endsFlush, hended, hone]
      have hheard : outcomes [(⟨s, .flushing cause drain⟩, call)] = [] := rfl
      rw [hflushes, hheard, Nat.zero_add, List.append_nil]
      exact .decided hd hc
    | undrained hw =>
      obtain rfl := (Drain.Step.of_answer hw).eq_polled_of_error
      cases hcall
  | farewell hd =>
    cases hs with
    | wrote result =>
      cases result with
      | ok _ => exact hquiet rfl rfl (.decided hd rfl)
      | error e => cases hcall
  | decided _ hc => exact absurd hr hc.left

theorem Attempt.midway (h : s.Attempt steps p) (hle : s.filled ≤ s.buffer.size)
    (hpos : 1 ≤ s.config.maxRetries.toNat) :
    s.Midway (outcomes steps) (flushes steps) p := by
  obtain ⟨htrace, hattempting, hunbroken⟩ := h
  induction htrace with
  | start => exact .reading .start
  | @step steps r call turn _ ha ih =>
    have hbefore := ih (fun step hstep => hattempting step (List.mem_append_left _ hstep))
      fun step hstep => hunbroken step (List.mem_append_left _ hstep)
    rw [outcomes_append, flushes_append]
    exact hbefore.step (hattempting (r, call) List.mem_concat_self) hle hpos (step_of_answer ha)
      (hunbroken (r, call) List.mem_concat_self)

end Session

/-! ### Every attempt is over some time -/

/-- The calls that let a wait come to an outcome at once. -/
def Wait.hearing (window : UInt32) : Option UInt8 → List (Wait × Call)
  | some byte => [(.arming window, .timed 0), (.listening (.after 0 window), .polled (.ok (some byte)))]
  | none => [(.arming window, .timed 0), (.listening (.after 0 window), .polled (.ok none)),
      (.checking (.after 0 window), .timed window)]

theorem Deadline.reached_after_zero (window : UInt32) : (after 0 window).reached window = true := by
  simp [reached, after]

theorem Wait.error?_of_hearing {window : UInt32} {byte : Option UInt8} :
    ∀ step ∈ hearing window byte, step.2.error? = none := by
  cases byte <;> simp [hearing, Call.error?]

theorem Wait.comes?_of_hearing (window : UInt32) (byte : Option UInt8) :
    (hearing window byte).filterMap (fun step => step.1.comes? step.2) = [byte] := by
  cases byte with
  | some byte => rfl
  | none => simp [hearing, comes?, Deadline.reached_after_zero]

/-- A procedure that waits for a byte goes on with every outcome. -/
theorem Line.Awaits.hearing {σ ρ : Type} {ask : σ → Ask (Turn σ ρ)} {e : Wait → σ} {k : Polled → Turn σ ρ}
    (he : Line.Awaits ask e k) {s₀ : σ} {steps : List (σ × Call)} {window : UInt32} (byte : Option UInt8)
    (ht : Trace ask s₀ steps (.going (e (.arming window)))) :
    Trace ask s₀ (steps ++ (Wait.hearing window byte).map (Prod.map e id)) (k (.ok byte)).next := by
  have hanswer {wait : Wait} {call : Call} {p : Progress Wait Polled} (h : wait.Step call p) :
      (ask (e wait)).Answer call (Line.waiting e k p) := by
    rw [he wait]
    exact h.answer.map _
  have hlistening := ht.step (hanswer (@Wait.Step.armed window 0))
  cases byte with
  | some byte => simpa [Wait.hearing, Line.waiting] using hlistening.step (hanswer .found)
  | none =>
    have hchecking := hlistening.step (hanswer .missed)
    have hlate := hchecking.step (hanswer (.late (Deadline.reached_after_zero window)))
    simpa [Wait.hearing, Line.waiting] using hlate

namespace Session
open Receiver
variable {s s' : Session} {steps : List (Receiver × Call)} {field : Field} {cause : FlushCause}

/-- An awaited byte may come, or may not. -/
theorem Attempt.hear (h : s.Attempt steps (.going (s'.awaiting field))) (byte : Option UInt8) :
    ∃ steps', s.Attempt steps' (s'.heard field byte).next ∧ outcomes steps' = outcomes steps ++ [byte] := by
  have htrace := (Line.Carries.awaits_reading s' field).hearing byte h.trace
  refine ⟨_, ⟨htrace, ?_, ?_⟩, ?_⟩
  · refine List.forall_mem_append.2 ⟨h.attempting, fun step hstep => ?_⟩
    obtain ⟨⟨wait, call⟩, -, rfl⟩ := List.mem_map.1 hstep
    trivial
  · refine List.forall_mem_append.2 ⟨h.unbroken, fun step hstep => ?_⟩
    obtain ⟨before, hbefore, rfl⟩ := List.mem_map.1 hstep
    exact Wait.error?_of_hearing before hbefore
  · rw [outcomes_append, outcomes, outcomes, List.filterMap_map]
    exact congrArg _ (Wait.comes?_of_hearing _ byte)

/-- A flush may be over. -/
theorem Attempt.drain (h : s.Attempt steps (.going (s'.draining cause 0))) (hcause : cause ≠ .retry) :
    ∃ steps', s.Attempt steps' (s'.flushed cause).next ∧ outcomes steps' = outcomes steps := by
  have htrace := (Line.Carries.awaits_flushing s' cause _ 0).hearing none h.trace
  refine ⟨_, ⟨htrace, ?_, ?_⟩, ?_⟩
  · refine List.forall_mem_append.2 ⟨h.attempting, fun step hstep => ?_⟩
    obtain ⟨⟨wait, call⟩, -, rfl⟩ := List.mem_map.1 hstep
    exact attempting_flushing hcause
  · refine List.forall_mem_append.2 ⟨h.unbroken, fun step hstep => ?_⟩
    obtain ⟨before, hbefore, rfl⟩ := List.mem_map.1 hstep
    exact Wait.error?_of_hearing before hbefore
  · rw [outcomes_append]
    simp [Wait.hearing, outcomes, outcome?]

/-- A farewell may be sent. -/
theorem Attempt.leave (h : s.Attempt steps (.going ⟨s', .sending .farewell⟩)) :
    ∃ steps', s.Attempt steps' (s'.wrote .farewell (.ok ())).next ∧ outcomes steps' = outcomes steps := by
  have htrace := h.trace.step (Ask.Answer.write (s'.byteFor .farewell) (s'.wrote .farewell) (.ok ()))
  refine ⟨_, ⟨htrace, ?_, ?_⟩, ?_⟩
  · exact List.forall_mem_append.2 ⟨h.attempting, List.forall_mem_singleton.2 trivial⟩
  · exact List.forall_mem_append.2 ⟨h.unbroken, List.forall_mem_singleton.2 rfl⟩
  · rw [outcomes_append]
    exact List.append_nil _

theorem acknowledge_left (s : Session) : s.acknowledge.next.Left := by
  have hopens := opens_openAttempt { s with attempts := 0, reply := .ack }
  rw [acknowledge]
  generalize (openAttempt { s with attempts := 0, reply := .ack }).next = p at hopens ⊢
  cases hopens with
  | opened _ => exact id
  | abandoned _ => exact id
  | exhausted _ => trivial

/-- An attempt that has a byte to wait for is over some time. -/
theorem Attempt.exists_left (hle : s.filled ≤ s.buffer.size) (hpos : 1 ≤ s.config.maxRetries.toNat)
    (answers : Nat → Option UInt8) (k : Nat) {n : Nat} (hrest : n + k = blockSize + 4)
    (h : s.Attempt steps (.going (s'.awaiting field))) (hn : outcomes steps = (List.range n).map answers) :
    ∃ steps' p n', s.Attempt steps' p ∧ p.Left ∧ outcomes steps' = (List.range n').map answers := by
  induction k generalizing steps s' field n with
  | zero =>
    have hlt := (h.midway hle hpos).length_lt
    rw [hn, List.length_map, List.length_range] at hlt
    omega
  | succ k ih =>
    obtain ⟨steps', h', hsteps'⟩ := h.hear (answers n)
    have hn' : outcomes steps' = (List.range (n + 1)).map answers := by
      rw [hsteps', hn, List.range_succ, List.map_append]
      rfl
    have hhears := s'.hears_heard field (answers n)
    generalize (s'.heard field (answers n)).next = p at h' hhears
    generalize answers n = byte at hhears
    have hread {s'' : Session} {field' : Field} (hnext : s.Attempt steps' (s''.read field').next) :
        ∃ steps' p n', s.Attempt steps' p ∧ p.Left ∧ outcomes steps' = (List.range n').map answers :=
      ih (by omega) hnext hn'
    cases hhears with
    | header => exact hread h'
    | farewell =>
      obtain ⟨steps'', h'', hsteps''⟩ := h'.leave
      exact ⟨steps'', _, n + 1, h'', trivial, hsteps''.trans hn'⟩
    | repeated =>
      obtain ⟨steps'', h'', hsteps''⟩ := h'.drain nofun
      exact ⟨steps'', _, n + 1, h'', acknowledge_left _, hsteps''.trans hn'⟩
    | unexpected _ _ =>
      obtain ⟨steps'', h'', hsteps''⟩ := h'.drain nofun
      exact ⟨steps'', _, n + 1, h'', id, hsteps''.trans hn'⟩
    | noRoom _ => exact ⟨steps', _, n + 1, h', id, hn'⟩
    | number _ => exact hread h'
    | complement => exact hread h'
    | payload _ => exact hread h'
    | lastPayload _ => exact hread h'
    | checksum => exact ⟨steps', _, n + 1, h', acknowledge_left _, hn'⟩
    | rejected _ => exact ⟨steps', _, n + 1, h', id, hn'⟩

end Session

namespace Receiver
variable {config : Config} {capacity : Nat} {buffer : Array UInt8} {past : List (Receiver × Call)} {s : Session}

/-- Where an attempt begins, the buffer has all that it is filled with, an attempt is allowed, and the next
one would ask for the block again. -/
theorem Run.awaits_start (h : Run config capacity buffer past (.going (s.awaiting .start))) :
    s.filled ≤ s.buffer.size ∧ 1 ≤ s.config.maxRetries.toNat ∧ s.reply = .nak := by
  have hinv : Inv config capacity buffer.size (s.awaiting .start) := h.inv
  have hcourse : Course config.maxRetries.toNat (events past) (s.awaiting .start) := h.tally
  have hconfig : s.config = config := hinv.within.config_eq
  have hbound := hcourse.orderly.bound
  obtain ⟨-, hasks, hfails, hnak⟩ := hcourse.counted
  refine ⟨hinv.fits.filled_le hinv.within h.le, ?_, hnak⟩
  rw [hconfig]
  omega

/-- A receiver comes to its first attempt. -/
theorem Run.exists_first (config : Config) (capacity : Nat) (buffer : Array UInt8) (hpos : 0 < capacity)
    (hle : capacity ≤ buffer.size) (hmax : 1 ≤ config.maxRetries.toNat) :
    ∃ past, Run config capacity buffer past
      (.going (({ config, capacity, buffer, attempts := 1 } : Session).awaiting .start)) := by
  obtain ⟨past, hasked⟩ : ∃ past, Trace Receiver.ask (.start config capacity buffer) past
      (.going ⟨{ config, capacity, buffer, attempts := 1 }, .sending .reply⟩) := by
    have hopened : ({ config, capacity, buffer } : Session).openAttempt.next =
        .going ⟨{ config, capacity, buffer, attempts := 1 }, .sending .reply⟩ :=
      Session.next_openAttempt hmax
    rw [← hopened]
    exact ⟨_, (Line.Carries.awaits_flushing { config, capacity, buffer } .retry _ 0).hearing none .start⟩
  exact ⟨_, hpos, hle, hasked.step (.write _ _ (.ok ()))⟩

/-- Whatever its timed reads come to, an attempt is over after at most as many of them as a frame has bytes.
It ends as the one beginning of the outcomes says that decides it, and has heard no more than that; it
flushes the line before it is over if the block was seen before or is unexpected, and only then. -/
theorem Run.classifies (h : Run config capacity buffer past (.going (s.awaiting .start)))
    (answers : Nat → Option UInt8) :
    (∃ steps p n, s.Attempt steps p ∧ p.Left ∧ outcomes steps = (List.range n).map answers) ∧
    ∀ steps p n, s.Attempt steps p → outcomes steps = (List.range n).map answers →
      n ≤ blockSize + 4 ∧ (∀ s' field wait, p = .going ⟨s', .reading field wait⟩ → n < blockSize + 4) ∧
      (p.Left → ∀ v,
        (s.Concludes p v ↔ ∃ m, s.Decides v ((List.range m).map answers)) ∧
        (s.Concludes p v → s.Decides v (outcomes steps) ∧ flushes steps = v.flushes)) := by
  obtain ⟨hle, hpos, -⟩ := h.awaits_start
  refine ⟨Session.Attempt.exists_left hle hpos answers (blockSize + 4) (Nat.zero_add _)
    ⟨.start, by simp, by simp⟩ rfl, fun steps p n ha hn => ?_⟩
  have hmidway := ha.midway hle hpos
  have hlength : (outcomes steps).length = n := by rw [hn, List.length_map, List.length_range]
  refine ⟨hlength ▸ hmidway.length_le, ?_, fun hleft v => ?_⟩
  · rintro s' field wait rfl
    exact hlength ▸ hmidway.length_lt
  · obtain ⟨v₀, hdecides, hconcludes, hflushes⟩ := hmidway.verdict hleft
    refine ⟨⟨fun hv => ?_, fun ⟨m, hm⟩ => ?_⟩, fun hv => ?_⟩
    · rw [hv.unique hconcludes]
      exact ⟨n, hn ▸ hdecides⟩
    · -- Two beginnings of the same outcomes, one of which begins with the other.
      have hbegins (i j : Nat) (hij : i ≤ j) : (List.range i).map answers <+: (List.range j).map answers := by
        obtain ⟨k, rfl⟩ := Nat.exists_eq_add_of_le hij
        rw [List.range_add, List.map_append]
        exact List.prefix_append ..
      rw [hn] at hdecides
      rcases Nat.le_total m n with hmn | hnm
      · rw [(hm.eq_of_prefix hdecides (hbegins m n hmn)).1]
        exact hconcludes
      · rw [← (hdecides.eq_of_prefix hm (hbegins n m hnm)).1]
        exact hconcludes
    · rw [hv.unique hconcludes]
      exact ⟨hdecides, hflushes⟩

/-- The first attempt hears the number of the block before the first one. -/
theorem Run.classifies_repeated : ∃ (past : List (Receiver × Call)) (s : Session)
    (steps : List (Receiver × Call)),
    Run {} 128 (Array.replicate 128 0) past (.going (s.awaiting .start)) ∧
      s.Attempt steps (.going s.acknowledging) ∧ outcomes steps = [some Control.soh, some 0] ∧
      flushes steps = 1 := by
  let opened : Session := { config := {}, capacity := 128, buffer := Array.replicate 128 0, attempts := 1 }
  let answers (i : Nat) : Option UInt8 := if i = 0 then some Control.soh else some 0
  obtain ⟨past, hrun⟩ := Run.exists_first {} 128 (Array.replicate 128 0) (by decide) (by simp) (by decide)
  obtain ⟨⟨steps, p, n, hattempt, hleft, hn⟩, hall⟩ := hrun.classifies answers
  obtain ⟨-, -, hverdict⟩ := hall steps p n hattempt hn
  obtain ⟨hiff, hended⟩ := hverdict hleft .repeated
  have hprevious : opened.expected - 1 = 0 := by decide
  have hrepeated : opened.Decides .repeated [some Control.soh, some 0] := hprevious ▸ .admitted .repeated
  obtain rfl : p = .going opened.acknowledging := hiff.2 ⟨2, hrepeated⟩
  obtain ⟨hdecides, hflushes⟩ := hended rfl
  refine ⟨past, opened, steps, hrun, hattempt, ?_, hflushes⟩
  generalize outcomes steps = reads at hdecides
  cases hdecides with
  | admitted hadmits =>
    cases hadmits
    rw [hprevious]
    rfl

end Receiver

end Xmodem
