import Mathlib.Algebra.GroupWithZero.Nat
import Xmodem.Proofs.Verdict

/-!
# A byte that noise has changed

A sum modulo 256 changes with each of its bytes, so it tells a payload from one that differs in a single
place. The complement is told from any other byte, and so is the sum itself. Hence a frame in which one
byte behind the block number has changed is rejected (`Receiver.Run.rejects`): the session stands where it
stood before, and the next attempt flushes the line and asks for the block again.
-/

namespace Xmodem

/-! ### Sums -/

section
variable {block : List UInt8} {i : Nat} {byte : UInt8}

theorem checksum_set (hi : i < block.length) :
    checksum (block.set i byte) = checksum block ↔ block[i] = byte := by
  induction block generalizing i with
  | nil => exact absurd hi (Nat.not_lt_zero i)
  | cons b block ih =>
    cases i with
    | zero =>
      rw [List.set_cons_zero, checksum_cons, checksum_cons, UInt8.add_left_inj]
      exact eq_comm
    | succ i =>
      rw [List.set_cons_succ, checksum_cons, checksum_cons, UInt8.add_right_inj]
      exact ih (Nat.lt_of_succ_lt_succ hi)

theorem toNat_checksum (block : List UInt8) :
    (checksum block).toNat = (block.map UInt8.toNat).sum % 256 := by
  induction block with
  | nil => rfl
  | cons b block ih =>
    rw [checksum_cons, UInt8.toNat_add, ih, List.map_cons, List.sum_cons, Nat.add_mod_mod]

/-- Bytes with their sum behind them are told from what they are after a change in one place. -/
theorem exists_bad_checksum (hi : i ≤ block.length) (hne : (block ++ [checksum block])[i]? ≠ some byte) :
    ∃ bytes sum, (block ++ [checksum block]).set i byte = bytes ++ [sum] ∧ bytes.length = block.length ∧
      sum ≠ checksum bytes := by
  rcases hi.eq_or_lt with rfl | hlt
  · rw [List.getElem?_concat_length] at hne
    refine ⟨block, byte, ?_, rfl, fun heq => hne (congrArg some heq.symm)⟩
    rw [List.set_append_right _ _ (Nat.le_refl _), Nat.sub_self, List.set_cons_zero]
  · rw [List.getElem?_append_left hlt, List.getElem?_eq_getElem hlt] at hne
    refine ⟨_, _, List.set_append_left _ _ hlt, List.length_set, fun heq => hne ?_⟩
    exact congrArg some ((checksum_set hlt).1 heq.symm)

end

namespace Session
variable {s : Session} {heard : List (Option UInt8)}

/-! ### Frames that are not taken -/

theorem decides_bad_checksum {bytes : List UInt8} {sum : UInt8} (hroom : s.filled + blockSize ≤ s.capacity)
    (hlength : bytes.length = blockSize) (hsum : sum ≠ Xmodem.checksum bytes) :
    s.Decides .failed (([Control.soh, s.expected, ~~~s.expected] ++ bytes ++ [sum]).map some) := by
  rw [List.map_append]
  exact (Advanced.checksum hroom hlength).decides_failed (.checksum hsum)

/-- A changed byte is found out at once if it is the complement, and with the sum otherwise. -/
theorem decides_changed (hroom : s.filled + blockSize ≤ s.capacity) (payload : Vector UInt8 blockSize)
    {i : Nat} {byte : UInt8} (hnumber : 2 ≤ i) (hi : i < blockSize + 4)
    (hne : (Frame.bytes ⟨s.expected, payload⟩)[i]? ≠ some byte) :
    ∃ heard, heard <+: ((Frame.bytes ⟨s.expected, payload⟩).set i byte).map some ∧
      heard.length = (if i = 2 then 3 else blockSize + 4) ∧ s.Decides .failed heard := by
  rcases hnumber.eq_or_lt with rfl | hbehind
  · have hcomplement : byte ≠ ~~~s.expected := fun heq => hne (by simp [Frame.bytes, heq])
    refine ⟨_, ?_, rfl, (Advanced.complement hroom).decides_failed (.complement hcomplement)⟩
    simp [Frame.bytes]
  · obtain ⟨j, rfl⟩ : ∃ j, i = j + 3 := Nat.exists_eq_add_of_le' hbehind
    have hbytes : Frame.bytes ⟨s.expected, payload⟩ = [Control.soh, s.expected, ~~~s.expected] ++
        (payload.toList ++ [Xmodem.checksum payload.toList]) := by
      rw [Frame.bytes, List.append_assoc]
    have hlength : payload.toList.length = blockSize := payload.length_toList
    rw [hbytes] at hne ⊢
    obtain ⟨bytes, sum, hset, hbytes, hsum⟩ := exists_bad_checksum (by omega) hne
    refine ⟨_, List.prefix_rfl, ?_, ?_⟩
    · rw [if_neg (by omega)]
      simp
    · have hframe : ([Control.soh, s.expected, ~~~s.expected] ++
          (payload.toList ++ [Xmodem.checksum payload.toList])).set (j + 3) byte =
          [Control.soh, s.expected, ~~~s.expected] ++ bytes ++ [sum] := by
        rw [List.append_assoc, ← hset]
        rfl
      rw [hframe]
      exact decides_bad_checksum hroom (hbytes.trans hlength) hsum

/-! ### What an attempt leaves when it fails -/

variable {s' : Session} {steps : List (Receiver × Call)}

theorem acknowledge_ne_draining (s s' : Session) (discarded : Nat) :
    s.acknowledge.next ≠ .going (s'.draining .retry discarded) := by
  have hopens := opens_openAttempt { s with attempts := 0, reply := .ack }
  rw [acknowledge]
  intro hsame
  rw [hsame] at hopens
  cases hopens

/-- Only what is rejected makes a receiver turn to the next attempt at once. -/
theorem Hears.eq_takeBack {field : Field} {byte : Option UInt8} {discarded : Nat}
    (h : s.Hears field byte (.going (s'.draining .retry discarded))) : s' = s.takeBack field.held := by
  generalize hp : Progress.going (s'.draining .retry discarded) = p at h
  cases h with
  | checksum => exact absurd hp.symm (acknowledge_ne_draining _ _ _)
  | rejected _ => exact congrArg Receiver.session (Progress.going.inj hp)
  | _ => cases hp

/-- An attempt that turns to the next one at once has been rejected by one of its reads. -/
theorem Attempt.restores (h : s.Attempt steps (.going (s'.draining .retry 0)))
    (hle : s.filled ≤ s.buffer.size) (hpos : 1 ≤ s.config.maxRetries.toNat) : s.Restores s' := by
  obtain ⟨htrace, hattempting, hunbroken⟩ := h
  generalize hp : Progress.going (s'.draining .retry 0) = p at htrace
  cases htrace with
  | start => cases hp
  | @step steps r call turn htrace ha =>
    have hbefore : s.Attempt steps (.going r) := ⟨htrace,
      fun step hstep => hattempting step (List.mem_append_left _ hstep),
      fun step hstep => hunbroken step (List.mem_append_left _ hstep)⟩
    have hmidway := hbefore.midway hle hpos
    have hs := Receiver.step_of_answer ha
    have hr := hattempting (r, call) List.mem_concat_self
    generalize Receiver.outcomes steps = reads, Receiver.flushes steps = n at hmidway
    -- Before its last step the attempt stood midway, and only a read turns to the next one from there.
    cases hmidway with
    | @reading _ s₁ field _ hadvanced =>
      cases hs with
      | waiting _ => cases hp
      | @heard _ _ _ _ byte _ =>
        have hhears := s₁.hears_heard field byte
        rw [← hp] at hhears
        rw [hhears.eq_takeBack]
        exact hadvanced.restores hle
      | unheard _ => cases hp
    | @flushing _ _ cause _ _ _ _ hcause =>
      cases hs with
      | draining _ =>
        cases hp
        exact absurd rfl hcause
      | drained _ =>
        cases cause with
        | retry => exact absurd rfl hcause
        | repeated => exact absurd hp.symm (acknowledge_ne_draining _ _ _)
        | unexpected received => cases hp
      | undrained _ => cases hp
    | farewell _ =>
      cases hs with
      | wrote result => cases result <;> cases hp
    | decided _ hc => exact absurd hr hc.left

end Session

/-! ### What the next attempt begins with -/

/-- The first of the steps sends a byte; it may be still to come. -/
inductive Receiver.Sends (r : Receiver) (byte : UInt8) :
    List (Receiver × Call) → Progress Receiver Outcome → Prop
  | next : Sends r byte [] (.going r)
  | sent (result : Except IoError Unit) (rest : List (Receiver × Call)) (p : Progress Receiver Outcome) :
    Sends r byte ((r, .wrote byte result) :: rest) p

namespace Session
open Receiver

/-- What comes after a flush for another attempt, or after what there has been of it. -/
inductive Reopens (s : Session) (flushed : List (Receiver × Call)) :
    List (Receiver × Call) → Progress Receiver Outcome → Prop
  | flushing (drain : Drain) (h : flushes flushed = 0) :
    Reopens s flushed [] (.going ⟨s, .flushing .retry drain⟩)
  /-- The block is asked for again. -/
  | asks {rest : List (Receiver × Call)} {p : Progress Receiver Outcome} (h : flushes flushed = 1)
    (hle : s.attempts.toNat + 1 ≤ s.config.maxRetries.toNat)
    (hsends : Sends ⟨{ s with attempts := s.attempts + 1 }, .sending .reply⟩ Control.nak rest p) :
    Reopens s flushed rest p
  /-- The transfer is given up, since the limit does not allow for one more attempt. -/
  | givesUp {rest : List (Receiver × Call)} {p : Progress Receiver Outcome} (h : flushes flushed = 1)
    (hlt : s.config.maxRetries.toNat < s.attempts.toNat + 1)
    (hsends : Sends ⟨s, .sending (.cancel .timeout cancelCount)⟩ Control.can rest p) :
    Reopens s flushed rest p
  /-- The count of attempts has no room for one more. -/
  | exhausted (h : flushes flushed = 1) (hge : UInt32.size ≤ s.attempts.toNat + 1) :
    Reopens s flushed [] (.ended ⟨.exhausted, s.buffer⟩)
  /-- The line fails while it is flushed. -/
  | breaks {rest : List (Receiver × Call)} {p : Progress Receiver Outcome} {e : IoError}
    (h : ∃ step ∈ flushed, step.2.error? = some e)
    (hsends : Sends ⟨s, .sending (.cancel (.io e) cancelCount)⟩ Control.can rest p) :
    Reopens s flushed rest p

/-- The steps of a receiver that flushes the line for another attempt, and goes on with that. -/
def Resumes (s : Session) (steps : List (Receiver × Call)) (p : Progress Receiver Outcome) : Prop :=
  ∃ flushed rest, steps = flushed ++ rest ∧
    (∀ step ∈ flushed, ∃ drain, step.1 = ⟨s, .flushing .retry drain⟩) ∧ s.Reopens flushed rest p

variable {s : Session} {steps flushed rest : List (Receiver × Call)} {p : Progress Receiver Outcome}

theorem sends_step {what : Sending} {r : Receiver} {call : Call} {turn : Receiver.Turn}
    (h : Sends ⟨s, .sending what⟩ (s.byteFor what) steps (.going r)) (hs : r.Step call turn) :
    Sends ⟨s, .sending what⟩ (s.byteFor what) (steps ++ [(r, call)]) turn.next := by
  cases h with
  | next =>
    cases hs with
    | wrote result => exact .sent result [] _
  | sent result rest => exact .sent result _ _

/-- While the line is flushed for another attempt nothing is sent, and what is sent then asks for the block
again or cancels the transfer. -/
theorem resumes_of_trace (hreply : s.reply = .nak) (h : Trace Receiver.ask (s.draining .retry 0) steps p) :
    s.Resumes steps p := by
  induction h with
  | start => exact ⟨[], [], rfl, by simp, .flushing _ rfl⟩
  | @step steps r call turn _ ha ih =>
    obtain ⟨flushed, rest, rfl, hflushing, hreopens⟩ := ih
    have hs := step_of_answer ha
    -- A step belongs to the flush as long as there is one, and else to what comes after it.
    cases hreopens with
    | flushing drain hnone =>
      have hconcat : ∀ step ∈ flushed ++ [(⟨s, .flushing .retry drain⟩, call)],
          ∃ drain, step.1 = ⟨s, .flushing .retry drain⟩ :=
        List.forall_mem_append.2 ⟨hflushing, List.forall_mem_singleton.2 ⟨drain, rfl⟩⟩
      refine ⟨_, [], by simp, hconcat, ?_⟩
      cases hs with
      | draining hw =>
        have hgoing := (Drain.Step.of_answer hw).comes?_of_going
        refine .flushing _ ?_
        rw [flushes_append, hnone]
        simp [flushes, endsFlush, hgoing]
      | drained hw =>
        have hended := (Drain.Step.of_answer hw).comes?_of_ended
        have hone : flushes (flushed ++ [(⟨s, .flushing .retry drain⟩, call)]) = 1 := by
          rw [flushes_append, hnone]
          simp [flushes, endsFlush, hended]
        have hopens := s.opens_openAttempt
        rw [Turn.next_after, Session.flushed]
        generalize s.openAttempt.next = p at hopens ⊢
        cases hopens with
        | opened hle => exact .asks hone hle .next
        | abandoned hlt => exact .givesUp hone hlt .next
        | exhausted hge => exact .exhausted hone hge
      | undrained hw =>
        obtain rfl := (Drain.Step.of_answer hw).eq_polled_of_error
        exact .breaks ⟨_, List.mem_concat_self, rfl⟩ .next
    | asks hone hle hsends =>
      have hbyte : byteFor { s with attempts := s.attempts + 1 } .reply = Control.nak :=
        congrArg Reply.byte hreply
      rw [← hbyte] at hsends
      exact ⟨flushed, _, List.append_assoc .., hflushing, .asks hone hle (hbyte ▸ sends_step hsends hs)⟩
    | givesUp hone hlt hsends =>
      exact ⟨flushed, _, List.append_assoc .., hflushing, .givesUp hone hlt (sends_step hsends hs)⟩
    | breaks herror hsends =>
      exact ⟨flushed, _, List.append_assoc .., hflushing, .breaks herror (sends_step hsends hs)⟩

/-! ### Attempts that hear given bytes -/

/-- The timed reads of an attempt come to the bytes of a list, one after the other. -/
structure Fed (s : Session) (bytes : List UInt8) (steps : List (Receiver × Call))
    (p : Progress Receiver Outcome) : Prop extends s.Attempt steps p where
  heard : outcomes steps <+: bytes.map some

variable {v : Verdict} {bytes : List UInt8} {heard : List (Option UInt8)}

/-- An attempt that is over has heard what decides it. -/
theorem Fed.verdict (h : s.Fed bytes steps p) (hle : s.filled ≤ s.buffer.size)
    (hpos : 1 ≤ s.config.maxRetries.toNat) (hd : s.Decides v heard) (hheard : heard <+: bytes.map some)
    (hleft : p.Left) : outcomes steps = heard ∧ s.Concludes p v := by
  obtain ⟨v', hd', hc, -⟩ := (h.midway hle hpos).verdict hleft
  rcases List.prefix_or_prefix_of_prefix h.heard hheard with hbegins | hbegins
  · obtain ⟨rfl, hsame⟩ := hd'.eq_of_prefix hd hbegins
    exact ⟨hsame, hc⟩
  · obtain ⟨rfl, hsame⟩ := hd.eq_of_prefix hd' hbegins
    exact ⟨hsame.symm, hc⟩

/-- With the read that makes it fail an attempt is over. -/
theorem Attempt.left_of_decides (h : s.Attempt steps p) (hle : s.filled ≤ s.buffer.size)
    (hpos : 1 ≤ s.config.maxRetries.toNat) (hd : s.Decides .failed (outcomes steps)) : p.Left := by
  have hmidway := h.midway hle hpos
  generalize outcomes steps = reads, flushes steps = n at hd hmidway
  cases hmidway with
  | reading hadvanced =>
    obtain ⟨byte, hopen⟩ := hadvanced.open
    exact absurd (hopen.of_prefix (List.prefix_append ..)) hd.not_open
  | flushing hd' _ hone _ =>
    obtain rfl := (hd.eq_of_prefix hd' List.prefix_rfl).1
    cases hone
  | farewell hd' => cases (hd.eq_of_prefix hd' List.prefix_rfl).1
  | decided _ hc => exact hc.left

end Session

namespace Receiver
open Session
variable {config : Config} {capacity : Nat} {buffer : Array UInt8} {past : List (Receiver × Call)} {s : Session}

/-- There is an attempt that hears the bytes of a frame, and it is over some time. -/
theorem Run.exists_fed (h : Run config capacity buffer past (.going (s.awaiting .start))) {bytes : List UInt8}
    (hlength : bytes.length = blockSize + 4) : ∃ steps p, s.Fed bytes steps p ∧ p.Left := by
  obtain ⟨hle, hpos, -⟩ := h.awaits_start
  obtain ⟨steps, p, n, hattempt, hleft, hn⟩ := Attempt.exists_left hle hpos (bytes[·]?) (blockSize + 4)
    (Nat.zero_add _) ⟨.start, by simp, by simp⟩ rfl
  have hshort := (hattempt.midway hle hpos).length_le
  rw [hn, List.length_map, List.length_range, ← hlength] at hshort
  refine ⟨steps, p, ⟨hattempt, List.prefix_iff_getElem?.2 fun i hi => ?_⟩, hleft⟩
  simp only [hn, List.length_map, List.length_range] at hi
  simp [hn, hi.trans_le hshort]

/-- A frame in which one byte behind the block number has changed is rejected, with the complement if that
is the byte, and else with the sum. It leaves the session as it was, and the next attempt flushes the line
and asks for the block again, or the transfer is cancelled; it acknowledges nothing. Of the frames that
begin as the expected one does, those are stored that end with the sum of their payload. -/
theorem Run.rejects (h : Run config capacity buffer past (.going (s.awaiting .start)))
    (hroom : s.filled + blockSize ≤ s.capacity) (payload : Vector UInt8 blockSize) :
    (∀ i byte, 2 ≤ i → i < blockSize + 4 → (Frame.bytes ⟨s.expected, payload⟩)[i]? ≠ some byte →
      (∃ steps p, s.Fed ((Frame.bytes ⟨s.expected, payload⟩).set i byte) steps p ∧ p.Left) ∧
      ∀ steps p, s.Fed ((Frame.bytes ⟨s.expected, payload⟩).set i byte) steps p →
        (p.Left ↔ (outcomes steps).length = if i = 2 then 3 else blockSize + 4) ∧
        (p.Left → ∃ s', p = .going (s'.draining .retry 0) ∧ s.Restores s' ∧
          ∀ more q, Trace Receiver.ask (s'.draining .retry 0) more q → s'.Resumes more q)) ∧
    ∀ sum : UInt8,
      (∃ steps p, s.Fed ([Control.soh, s.expected, ~~~s.expected] ++ payload.toList ++ [sum]) steps p ∧ p.Left) ∧
      ∀ steps p, s.Fed ([Control.soh, s.expected, ~~~s.expected] ++ payload.toList ++ [sum]) steps p → p.Left →
        (s.Concludes p (.stored payload) ↔ sum.toNat = (payload.toList.map UInt8.toNat).sum % 256) := by
  obtain ⟨hle, hpos, hnak⟩ := h.awaits_start
  have hlength : payload.toList.length = blockSize := payload.length_toList
  refine ⟨fun i byte hnumber hi hne => ⟨h.exists_fed (by simp), fun steps p hfed => ?_⟩,
    fun sum => ⟨h.exists_fed (by simp), fun steps p hfed hleft => ?_⟩⟩
  · obtain ⟨heard, hheard, hreads, hdecides⟩ := decides_changed hroom payload hnumber hi hne
    refine ⟨⟨fun hleft => ?_, fun hsame => ?_⟩, fun hleft => ?_⟩
    · rw [(hfed.verdict hle hpos hdecides hheard hleft).1, hreads]
    · have hlengths := hsame.trans hreads.symm
      have hbegins := List.prefix_of_prefix_length_le hfed.heard hheard (Nat.le_of_eq hlengths)
      have hall : outcomes steps = heard := hbegins.eq_of_length hlengths
      exact hfed.left_of_decides hle hpos (hall ▸ hdecides)
    · obtain ⟨s', rfl, -⟩ := (hfed.verdict hle hpos hdecides hheard hleft).2
      have hrestores : s.Restores s' := hfed.restores hle hpos
      refine ⟨s', rfl, hrestores, fun more q hmore => resumes_of_trace ?_ hmore⟩
      rw [hrestores.same, hnak]
  · rw [← toNat_checksum, UInt8.toNat_inj]
    refine ⟨fun hstored => ?_, fun hsum => ?_⟩
    · by_contra hsum
      have hfailed := (hfed.verdict hle hpos (decides_bad_checksum hroom hlength hsum) List.prefix_rfl hleft).2
      cases hstored.unique hfailed
    · subst hsum
      exact (hfed.verdict hle hpos (.admitted (.stored payload hroom)) List.prefix_rfl hleft).2

/-- A block of sevens in which one has become an eight, and the block as it was. -/
theorem Run.rejects_eight : ∃ (past : List (Receiver × Call)) (s s' : Session)
    (steps steps' : List (Receiver × Call)) (p : Progress Receiver Outcome),
    Run {} 128 (Array.replicate 128 0) past (.going (s.awaiting .start)) ∧
    s.Fed ((Frame.bytes ⟨s.expected, .replicate blockSize 7⟩).set 5 8) steps (.going (s'.draining .retry 0)) ∧
    (outcomes steps).length = blockSize + 4 ∧ s.Restores s' ∧
    s.Fed ([Control.soh, s.expected, ~~~s.expected] ++ (Vector.replicate blockSize 7).toList ++ [128]) steps' p ∧
    s.Concludes p (.stored (.replicate blockSize 7)) := by
  let first : Session := { config := {}, capacity := 128, buffer := Array.replicate 128 0, attempts := 1 }
  let sevens : Vector UInt8 blockSize := .replicate blockSize 7
  obtain ⟨past, hrun⟩ := Run.exists_first {} 128 (Array.replicate 128 0) (by decide) (by simp) (by decide)
  obtain ⟨hchanged, htaken⟩ := hrun.rejects (s := first) (by decide) sevens
  obtain ⟨⟨steps, p, hfed, hleft⟩, hrejects⟩ := hchanged 5 8 (by decide) (by decide) (by decide +kernel)
  obtain ⟨hreads, hends⟩ := hrejects steps p hfed
  obtain ⟨s', rfl, hrestores, -⟩ := hends hleft
  obtain ⟨⟨steps', p', hfed', hleft'⟩, hstores⟩ := htaken 128
  have hsum : (128 : UInt8).toNat = (sevens.toList.map UInt8.toNat).sum % 256 := by decide +kernel
  exact ⟨past, first, s', steps, steps', p', hrun, hfed, hreads.1 hleft, hrestores, hfed',
    (hstores steps' p' hfed' hleft').2 hsum⟩

end Receiver

end Xmodem
