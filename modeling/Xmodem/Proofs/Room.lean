import Xmodem.Proofs.Stream

/-!
# Blocks for which there is no room

The capacity has room for so many whole blocks. If the sender has more of them, a transfer ends at the number
of the first one that does not fit: all the others are in the buffer, nothing is written behind them, and the
transfer is cancelled (`Line.receive_full`). The number is compared with that of the last block before the
room is looked at, so a full buffer does no harm to a sender that sends its last block again, as often as it
likes, and then comes to its end.
-/

namespace Xmodem

namespace Frame

theorem sequence_append (sent : Nat) (payloads more : List (Vector UInt8 blockSize)) :
    sequence sent (payloads ++ more) = sequence sent payloads ++ sequence (sent + payloads.length) more := by
  induction payloads generalizing sent with
  | nil => rfl
  | cons payload payloads ih =>
    rw [List.cons_append, sequence, sequence, ih, List.length_cons, Nat.add_assoc, Nat.add_comm 1,
      List.cons_append]

/-- The frames up to a block, and the beginning of its own one. -/
theorem take_sequence (payloads : List (Vector UInt8 blockSize)) (payload : Vector UInt8 blockSize)
    (more : List (Vector UInt8 blockSize)) :
    ((sequence 0 (payloads ++ payload :: more)).flatMap bytes).take ((blockSize + 4) * payloads.length + 2) =
      (sequence 0 payloads).flatMap bytes ++ [Control.soh, UInt8.ofNat (payloads.length + 1)] := by
  have hlength : ((sequence 0 payloads).flatMap bytes).length = (blockSize + 4) * payloads.length := by
    rw [length_flatMap_bytes, length_sequence]
  rw [sequence_append, List.flatMap_append, ← hlength, List.take_length_add_append, Nat.zero_add]
  rfl

end Frame

theorem Sender.ofFrames_sequence (payloads : List (Vector UInt8 blockSize)) (payload : Vector UInt8 blockSize)
    (more : List (Vector UInt8 blockSize)) :
    ∃ turns, ofFrames (Frame.sequence 0 (payloads ++ payload :: more)) =
      ⟨[], (Frame.sequence 0 payloads).map (Attempt.bytes ∘ .ofFrame) ++
        (Attempt.ofFrame ⟨UInt8.ofNat (payloads.length + 1), payload⟩).bytes :: turns⟩ := by
  refine ⟨((Frame.sequence (payloads.length + 1) more).map Attempt.ofFrame ++ [Attempt.finish]).map
    Attempt.bytes, ?_⟩
  rw [ofFrames, Frame.sequence_append, Nat.zero_add, Frame.sequence]
  simp

theorem Session.next_heard_full (s : Session) (h : s.capacity < s.filled + blockSize) :
    (s.heard .number (some s.expected)).next = (s.fail .bufferFull).next := by
  have hne : s.expected ≠ s.expected - 1 := by grind
  simp [heard, hne, h]

/-- A transfer over the line can be cancelled at any time. What the sender makes of that is left open. -/
def Line.Cancellable {τ : Type} (line : Line (StateM τ)) (stage : Sender → τ → Prop) : Prop :=
  ∀ sender env, stage sender env →
    ∃ sender' env', (line.write Control.can).run env = (.ok (), env') ∧ stage sender' env'

section
variable {τ : Type} {line : Line (StateM τ)} {config : Config} {stage : Sender → τ → Prop}
variable {s : Session} {capacity attempt : Nat} {blocks : List (Vector UInt8 blockSize)}
variable {buffer : Array UInt8}

namespace Line

/-! ### One block too many -/

/-- The header of a block for which there is no room ends the transfer. -/
theorem Feeds.passes_full (hf : line.Feeds config stage) (payload : Vector UInt8 blockSize)
    (h : s.Clean config capacity attempt blocks [] buffer) (hfull : capacity < blockSize * (blocks.length + 1))
    (turns : List (List (Pause × UInt8))) :
    ∃ pending, line.Passes stage (.going (s.awaiting .start))
      ⟨(Attempt.ofFrame ⟨s.expected, payload⟩).bytes, turns⟩ [Control.soh, s.expected] []
      (s.fail .bufferFull).next ⟨pending, turns⟩ := by
  have hroom : s.capacity < s.filled + blockSize := by
    rw [h.filled_eq, h.capacity_eq]
    exact hfull
  rw [Attempt.ofFrame, Frame.bytes, Attempt.bytes_frame]
  have hnumber := hf.passes_byte .number h.config_eq s.expected
  rw [s.next_heard_full hroom] at hnumber
  exact ⟨_, (hf.passes_header h.config_eq).trans (hnumber _ _)⟩

theorem Cancellable.exchanges_fail (hcan : line.Cancellable stage) (hf : line.Feeds config stage)
    {sender : Sender} {env : τ} (s : Session) (cause : TransferError) (h : stage sender env) :
    ∃ env', line.Exchanges Receiver.ask (s.fail cause).next env [] (List.replicate cancelCount Control.can)
      (.ended ⟨.failed cause, s.buffer⟩) env' := by
  obtain ⟨env', hexchanges, -⟩ := exchanges_cancel (P := fun env => ∃ sender, stage sender env)
    (fun env ⟨sender, hs⟩ =>
      let ⟨sender', env', hwrite, hs'⟩ := hcan sender env hs
      ⟨env', hwrite, sender', hs'⟩)
    (fun message env ⟨sender, hs⟩ => ⟨sender, hf.reported message sender env hs⟩) s cause 2 ⟨sender, h⟩
  exact ⟨env', hexchanges⟩

/-- Blocks for which there is room come, and one for which there is none. -/
theorem Feeds.exchanges_overflow {env env₁ : τ} (hf : line.Feeds config stage) (hcan : line.Cancellable stage)
    (hmax : 1 ≤ config.maxRetries.toNat) (hsize : capacity ≤ buffer.size)
    {payloads rest : List (Vector UInt8 blockSize)} {payload : Vector UInt8 blockSize}
    (hfits : blockSize * payloads.length ≤ capacity) (hfull : capacity < blockSize * (payloads.length + 1))
    (hidle : line.Brings config.flushIdle env none env₁)
    (hstage : stage (.ofFrames (Frame.sequence 0 (payloads ++ payload :: rest))) env₁) :
    ∃ stored env', line.Exchanges Receiver.ask (.going (.start config capacity buffer)) env
        ((Frame.sequence 0 payloads).flatMap Frame.bytes ++ [Control.soh, UInt8.ofNat (payloads.length + 1)])
        (Control.nak :: List.replicate payloads.length Control.ack ++ List.replicate cancelCount Control.can)
        (.ended ⟨.failed .bufferFull, stored⟩) env' ∧
      stored.toList = payloads.flatMap Vector.toList ++ buffer.toList.drop (blockSize * payloads.length) := by
  obtain ⟨turns, hturns⟩ := Sender.ofFrames_sequence payloads payload rest
  rw [hturns] at hstage
  obtain ⟨messages, hopening⟩ := exchanges_opening capacity buffer hmax hidle
  obtain ⟨attempt, s, hs, hsequence⟩ := hf.passes_sequence hmax payloads
    (((Session.Clean.start config buffer hsize).attempts 1).reply .nak) (by simpa using hfits)
    ((Attempt.ofFrame ⟨UInt8.ofNat (payloads.length + 1), payload⟩).bytes :: turns)
  obtain ⟨pending, hheader⟩ := hf.passes_full payload hs hfull turns
  rw [hs.expected_eq] at hheader
  obtain ⟨env₂, hexchanges, hs₂⟩ :=
    ((hf.passes_reply _).trans (hsequence.trans hheader)) _ (hf.told messages hstage)
  obtain ⟨env', hcancelled⟩ := hcan.exchanges_fail hf s .bufferFull hs₂
  have hbuffer := hs.buffer_eq
  have hall := hopening.trans (hexchanges.trans hcancelled)
  refine ⟨s.buffer, env', ?_, by simpa using hbuffer⟩
  simpa [Reply.byte] using hall

/-! ### The last block once more -/

namespace Carries

/-- What comes in a flush is thrown away. -/
theorem passes_flushed (hc : line.Carries config stage) (cause : FlushCause) (hconfig : s.config = config)
    (bytes : List UInt8) (discarded : Nat) (turns : List (List (Pause × UInt8))) :
    line.Passes stage (.going (s.draining cause discarded)) ⟨bytes.map (.idle, ·), turns⟩ bytes []
      (s.flushed cause).next ⟨[], turns⟩ := by
  induction bytes generalizing discarded with
  | nil =>
    intro env hs
    obtain ⟨env', hbrings, hs'⟩ := hc.quiet .idle turns env hs
    rw [← hconfig] at hbrings
    exact ⟨_, (awaits_flushing s cause s.config.flushIdle discarded).exchanges_brings hbrings, hc.told _ hs'⟩
  | cons byte bytes ih =>
    intro env hs
    obtain ⟨env₁, hbrings, hs₁⟩ := hc.found .idle byte _ turns env hs
    rw [← hconfig] at hbrings
    have hbyte := (awaits_flushing s cause s.config.flushIdle discarded).exchanges_brings hbrings
    obtain ⟨env', hrest, hs'⟩ := ih (discarded + 1) _ (hc.told [] hs₁)
    exact ⟨env', hbyte.trans hrest, hs'⟩

/-- The last block comes again, and is acknowledged again. -/
theorem passes_repeated (hc : line.Carries config stage) (hmax : 1 ≤ config.maxRetries.toNat)
    (hconfig : s.config = config) {a : Attempt} (ha : a.Repeats (s.expected - 1))
    (turns : List (List (Pause × UInt8))) :
    line.Passes stage (.going (s.awaiting .start)) ⟨a.bytes, turns⟩ (a.fields ++ a.rest) [Control.ack]
      (.going ({ s with attempts := 1, reply := .nak }.awaiting .start)) (Sender.answer ⟨[], turns⟩) := by
  obtain ⟨rest, rfl⟩ := ha
  have hnumber := hc.feeds.passes_byte .number hconfig (s.expected - 1) (rest.map (.idle, ·)) turns
  rw [s.next_heard_repeated] at hnumber
  have hflush := hc.passes_flushed .repeated hconfig rest 0 turns
  rw [Session.flushed, Session.next_acknowledge (hconfig.symm ▸ hmax)] at hflush
  have hall := (hc.feeds.passes_header hconfig).trans <| hnumber.trans <| hflush.trans <|
    hc.feeds.passes_reply { s with attempts := 1, reply := .ack }
  rwa [List.append_nil] at hall

/-- However often the last block comes, each time it is acknowledged, and nothing else changes. -/
theorem passes_repeats (hc : line.Carries config stage) (hmax : 1 ≤ config.maxRetries.toNat)
    (copies : List Attempt) (hconfig : s.config = config) (hcopies : ∀ a ∈ copies, a.Repeats (s.expected - 1))
    (turns : List (List (Pause × UInt8))) :
    ∃ attempts reply, line.Passes stage (.going (s.awaiting .start))
      (Sender.answer ⟨[], copies.map Attempt.bytes ++ turns⟩) (copies.flatMap fun a => a.fields ++ a.rest)
      (List.replicate copies.length Control.ack) (.going ({ s with attempts, reply }.awaiting .start))
      (Sender.answer ⟨[], turns⟩) := by
  induction copies generalizing s with
  | nil => exact ⟨s.attempts, s.reply, .refl _ _⟩
  | cons a copies ih =>
    obtain ⟨ha, hrest⟩ := List.forall_mem_cons.1 hcopies
    obtain ⟨attempts, reply, hcopies⟩ := ih (s := { s with attempts := 1, reply := .nak }) hconfig hrest
    exact ⟨attempts, reply, (hc.passes_repeated hmax hconfig ha _).trans hcopies⟩

theorem exchanges_repeats (hc : line.Carries config stage) (hmax : 1 ≤ config.maxRetries.toNat)
    (copies : List Attempt) (hconfig : s.config = config) (hcopies : ∀ a ∈ copies, a.Repeats (s.expected - 1))
    {env : τ} (hstage : stage (Sender.answer ⟨[], (copies ++ [Attempt.finish]).map Attempt.bytes⟩) env) :
    ∃ env', line.Exchanges Receiver.ask (.going (s.awaiting .start)) env
      ((copies.flatMap fun a => a.fields ++ a.rest) ++ [Control.eot])
      (List.replicate copies.length Control.ack ++ [Control.ack]) (.ended ⟨.received s.filled, s.buffer⟩) env' := by
  rw [List.map_append] at hstage
  obtain ⟨attempts, reply, hrepeats⟩ := hc.passes_repeats hmax copies hconfig hcopies [Attempt.finish.bytes]
  have hf := hc.feeds
  obtain ⟨env', hexchanges, -⟩ := (hrepeats.trans
    ((hf.passes_finish (s := { s with attempts, reply }) hconfig).trans (hf.passes_farewell _))) env hstage
  exact ⟨env', by simpa using hexchanges⟩

end Carries

end Line

end

/-- The capacity has room for `room` blocks. If more of them come in time, the transfer ends at the number of
the first one that does not fit, with all the others in the buffer and nothing behind them; no byte behind the
number is taken. Once the buffer is full, however that came about, the last block may come again as often as
it will: each time it is acknowledged, and at the end of the transmission the transfer ends well. -/
theorem Line.receive_full {τ : Type} {line : Line (StateM τ)} {config : Config} {stage : Sender → τ → Prop}
    {capacity room : Nat} {buffer : Array UInt8} {env env₁ : τ} (hmax : 1 ≤ config.maxRetries.toNat)
    (hpos : 0 < capacity) (hsize : capacity ≤ buffer.size) (hroom : room = capacity / blockSize) :
    (∀ payloads : List (Vector UInt8 blockSize), line.Feeds config stage → line.Cancellable stage →
      room < payloads.length → line.Brings config.flushIdle env none env₁ →
      stage (.ofFrames (Frame.sequence 0 payloads)) env₁ →
      ∃ fuel stored calls env',
        (∀ more, ((line.recorded.receive config capacity buffer (fuel + more)).run []).run env =
          ((.ok (.ended ⟨.failed .bufferFull, stored⟩), calls), env')) ∧
        stored.toList =
          (payloads.take room).flatMap Vector.toList ++ buffer.toList.drop (blockSize * room) ∧
        (∀ call ∈ calls, call.error? = none) ∧
        calls.filterMap Call.sent? = Control.nak :: List.replicate room Control.ack ++
          List.replicate cancelCount Control.can ∧
        calls.filterMap Call.taken? =
          ((Frame.sequence 0 payloads).flatMap Frame.bytes).take ((blockSize + 4) * room + 2) ∧
        (calls.filterMap Call.taken?).length = (blockSize + 4) * room + 2 ∧
        (calls.filterMap Call.taken?).getLast? = some (UInt8.ofNat (room + 1))) ∧
    ∀ (copies : List Attempt) (s : Session) (before : List Call) (asked : Nat), line.Carries config stage →
      ((line.recorded.receive config capacity buffer asked).run []).run env =
        ((.ok (.going (s.awaiting .start)), before), env₁) →
      1 ≤ room → s.filled = blockSize * room → (∀ a ∈ copies, a.Repeats (UInt8.ofNat room)) →
      stage (Sender.answer ⟨[], (copies ++ [Attempt.finish]).map Attempt.bytes⟩) env₁ →
      ∃ fuel calls env',
        (∀ more, ((line.recorded.receive config capacity buffer (asked + (fuel + more))).run []).run env =
          ((.ok (.ended ⟨.received (blockSize * room), s.buffer⟩), before ++ calls), env')) ∧
        (∀ call ∈ calls, call.error? = none) ∧
        calls.filterMap Call.sent? = List.replicate copies.length Control.ack ++ [Control.ack] ∧
        calls.filterMap Call.taken? = (copies.flatMap fun a => a.fields ++ a.rest) ++ [Control.eot] := by
  refine ⟨fun payloads hf hcan hmore hidle hstage => ?_, fun copies s before asked hc hrun hone hfilled hcopies
    hstage => ?_⟩
  · -- The blocks for which there is room, the first one for which there is none, and the others.
    obtain ⟨front, payload, rest, rfl, hfront⟩ : ∃ front payload rest,
        payloads = front ++ payload :: rest ∧ front.length = room := by
      refine ⟨payloads.take room, payloads[room], payloads.drop (room + 1), ?_, ?_⟩
      · rw [List.getElem_cons_drop, List.take_append_drop]
      · exact List.length_take_of_le (Nat.le_of_lt hmore)
    have hfits : blockSize * front.length ≤ capacity := by
      rw [hfront, hroom]
      exact Nat.mul_div_le ..
    have hfull : capacity < blockSize * (front.length + 1) := by
      rw [hfront, hroom]
      exact Nat.lt_mul_div_succ _ (by decide)
    obtain ⟨stored, env', hexchanges, hstored⟩ := hf.exchanges_overflow hcan hmax hsize hfits hfull hidle hstage
    have hstart : ((line.recorded.receive config capacity buffer 0).run []).run env =
        ((.ok (.going (.start config capacity buffer)), []), env) := (run_receive_eq_ok hpos hsize).2 rfl
    obtain ⟨fuel, calls, hruns, herror, hsent, htaken⟩ := hexchanges.receives hpos hsize hstart
    refine ⟨fuel, stored, calls, env', fun more => ?_, ?_, herror, ?_, ?_, ?_, ?_⟩
    · simpa using hruns more
    · rw [← hfront, List.take_left]
      exact hstored
    · rw [hsent, hfront]
    · rw [htaken, ← hfront, Frame.take_sequence]
    · rw [htaken, List.length_append, Frame.length_flatMap_bytes, Frame.length_sequence, hfront]
      rfl
    · rw [htaken, hfront]
      simp
  · obtain ⟨steps, hsteps, -⟩ := run_of_receive hrun
    have hinv : Receiver.Inv config capacity buffer.size (s.awaiting .start) := hsteps.inv
    have haligned : s.Aligned := hinv.fits
    have hconfig : s.config = config := hinv.within.config_eq
    have hprevious : s.expected - 1 = UInt8.ofNat room := by
      rw [haligned.number, hfilled, Nat.mul_div_cancel_left _ (by decide), UInt8.ofNat_add]
      exact UInt8.add_sub_cancel ..
    rw [← hprevious] at hcopies
    obtain ⟨env', hexchanges⟩ := hc.exchanges_repeats hmax copies hconfig hcopies hstage
    obtain ⟨fuel, calls, hruns, hcalls⟩ := hexchanges.receives hpos hsize hrun
    rw [hfilled] at hruns
    exact ⟨fuel, calls, env', hruns, hcalls⟩

/-- Room for more blocks than there are numbers: one block too many comes, or the last one comes once more,
and then again without its end. -/
theorem Line.receive_full_wrap :
    (∃ fuel stored calls env',
      (∀ more, (((playing 3000000).recorded.receive {} 38500 (Array.replicate 38600 0) (fuel + more)).run []).run
        (.ofFrames (Frame.sequence 0 (List.replicate 301 (Vector.replicate blockSize 7))), 0) =
          ((.ok (.ended ⟨.failed .bufferFull, stored⟩), calls), env')) ∧
      stored.toList = ((List.replicate 301 (Vector.replicate blockSize 7)).take 300).flatMap Vector.toList ++
        (Array.replicate 38600 0).toList.drop 38400 ∧
      calls.filterMap Call.sent? =
        Control.nak :: List.replicate 300 Control.ack ++ List.replicate 3 Control.can ∧
      (calls.filterMap Call.taken?).length = 39602 ∧ (calls.filterMap Call.taken?).getLast? = some 45) ∧
    ∃ frames fuel stored calls env', frames = Frame.sequence 0 (List.replicate 300 (Vector.replicate blockSize 7)) ∧
      ∀ more, (((playing 3000000).recorded.receive {} 38500 (Array.replicate 38600 0) (fuel + more)).run []).run
        (⟨[], frames.map (Attempt.bytes ∘ .ofFrame) ++
          [⟨[1, 44], 211 :: List.replicate 128 7 ++ [128]⟩, ⟨[1, 44], [211, 7]⟩, .finish].map Attempt.bytes⟩, 0) =
          ((.ok (.ended ⟨.received 38400, stored⟩), calls), env') := by
  let payload : Vector UInt8 blockSize := .replicate blockSize 7
  let buffer : Array UInt8 := .replicate 38600 0
  let copies : List Attempt := [⟨[1, 44], 211 :: List.replicate 128 7 ++ [128]⟩, ⟨[1, 44], [211, 7]⟩]
  have hc : (playing 3000000).Carries {} fun sender env => env.1 = sender :=
    playing_carries (by decide) fun pause => by cases pause <;> decide
  have hsize : 38500 ≤ buffer.size := by simp [buffer]
  have hreached : (Deadline.after 0 250000).reached (0 + 3000000) = true := by decide
  have hidle (turns : List (List (Pause × UInt8))) :
      (playing 3000000).Brings 250000 (⟨[], turns⟩, 0) none (⟨[], turns⟩, 0 + 3000000) :=
    .lapsed rfl rfl hreached
  have hfull {env env₁ : Sender × UInt32} := @receive_full _ (playing 3000000) {} (fun sender env => env.1 = sender)
    38500 300 buffer env env₁ (by decide) (by decide) hsize (by decide)
  refine ⟨?_, ?_⟩
  · have hcan : (playing 3000000).Cancellable fun sender env => env.1 = sender :=
      fun sender env _ => ⟨_, _, rfl, rfl⟩
    have hmore : 300 < (List.replicate 301 payload).length := by
      rw [List.length_replicate]
      decide
    obtain ⟨fuel, stored, calls, env', hruns, hstored, -, hsent, -, hlength, hlast⟩ :=
      hfull.1 (List.replicate 301 payload) hc.feeds hcan hmore (hidle _) rfl
    exact ⟨fuel, stored, calls, env', hruns, hstored, hsent, hlength, hlast⟩
  · -- The transfer of the frames stands at the start of an attempt with a full buffer.
    let turns := (copies ++ [Attempt.finish]).map Attempt.bytes
    have hmax : 1 ≤ ({} : Config).maxRetries.toNat := by decide
    let frames := Frame.sequence 0 (List.replicate 300 payload)
    let env₁ : Sender × UInt32 := (⟨[], frames.map (Attempt.bytes ∘ .ofFrame) ++ turns⟩, 0 + 3000000)
    obtain ⟨messages, hopening⟩ := exchanges_opening 38500 buffer hmax (hidle env₁.1.turns)
    have htold : ((playing 3000000).told messages env₁).1 = env₁.1 := hc.told messages rfl
    obtain ⟨attempt, s, hs, hsequence⟩ := hc.feeds.passes_sequence (by decide) (List.replicate 300 payload)
      (((Session.Clean.start {} buffer hsize).attempts 1).reply .nak) (by rw [List.length_replicate]; decide) turns
    obtain ⟨env₂, hexchanges, hs₂⟩ := ((hc.feeds.passes_reply _).trans hsequence) _ htold
    obtain ⟨before, hleads, -⟩ := hopening.trans hexchanges
    have hstands := (run_receive_eq_ok (by decide) hsize).2 (hleads.run_recorded [])
    have hfilled : s.filled = blockSize * 300 := by
      rw [hs.filled_eq, List.nil_append, List.length_replicate]
      rfl
    have hcopies : ∀ a ∈ copies, a.Repeats (UInt8.ofNat 300) := by
      simp [copies, Attempt.Repeats, Control.soh]
    obtain ⟨fuel, calls, env', hruns, -⟩ :=
      hfull.2 copies s before before.length hc hstands (by decide) hfilled hcopies hs₂
    refine ⟨_, before.length + fuel, s.buffer, before ++ calls, env', rfl, fun more => ?_⟩
    rw [Nat.add_assoc]
    exact hruns more

end Xmodem
