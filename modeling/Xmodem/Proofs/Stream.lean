import Xmodem.Proofs.Passage

/-!
# Frames that come in time

If the frames of some blocks come one after the other, each byte within the wait for it, and then the end of
the transmission, a transfer ends with the blocks in the buffer. It takes from the line what was sent, and
nothing behind it, asks for the first block and acknowledges each one, and leaves the rest of the buffer as
it was. It does not matter whether the sender waits for the control bytes (`Line.Feeds`).
-/

namespace Xmodem

/-- The frames of some blocks, behind `sent` blocks that have been sent. -/
def Frame.sequence : Nat → List (Vector UInt8 blockSize) → List Frame
  | _, [] => []
  | sent, payload :: payloads => ⟨UInt8.ofNat (sent + 1), payload⟩ :: sequence (sent + 1) payloads

@[simp] theorem Frame.length_sequence (sent : Nat) (payloads : List (Vector UInt8 blockSize)) :
    (sequence sent payloads).length = payloads.length := by
  induction payloads generalizing sent with
  | nil => rfl
  | cons payload payloads ih => simp [sequence, ih]

theorem Frame.length_flatMap_bytes (frames : List Frame) :
    (frames.flatMap bytes).length = (blockSize + 4) * frames.length := by
  induction frames with
  | nil => rfl
  | cons f frames ih =>
    rw [List.flatMap_cons, List.length_append, f.length_bytes, ih, List.length_cons, Nat.mul_succ, Nat.add_comm]

/-! ### Lines -/

/-- The line brings in time what comes from a sender. `stage` relates what is still to come to the state of
the line; an attempt of the sender may come as soon as the control byte has been sent that is due before it,
but the sender need not have waited for that. -/
structure Line.Feeds {τ : Type} (line : Line (StateM τ)) (config : Config) (stage : Sender → τ → Prop) :
    Prop where
  found : ∀ (pause : Pause) (byte : UInt8) (pending : List (Pause × UInt8))
    (turns : List (List (Pause × UInt8))) (env : τ), stage ⟨(pause, byte) :: pending, turns⟩ env →
      ∃ env', line.Brings (pause.window config) env (some byte) env' ∧ stage ⟨pending, turns⟩ env'
  written : ∀ (reply : Reply) (turns : List (List (Pause × UInt8))) (env : τ), stage ⟨[], turns⟩ env →
    ∃ env', (line.write reply.byte).run env = (.ok (), env') ∧ stage (Sender.answer ⟨[], turns⟩) env'
  reported : ∀ (message : Message) (sender : Sender) (env : τ), stage sender env →
    stage sender ((line.report message).run env).2

theorem Line.Carries.feeds {τ : Type} {line : Line (StateM τ)} {config : Config} {stage : Sender → τ → Prop}
    (hc : line.Carries config stage) : line.Feeds config stage :=
  ⟨hc.found, fun reply => hc.written reply.byte, hc.reported⟩

/-- Whatever its state, a line with this to come from the sender brings the receiver from here to there, with
these bytes taken and sent. -/
def Line.Passes {τ : Type} (line : Line (StateM τ)) (stage : Sender → τ → Prop)
    (p : Progress Receiver Outcome) (sender : Sender) (taken sent : List UInt8)
    (p' : Progress Receiver Outcome) (sender' : Sender) : Prop :=
  ∀ env, stage sender env → ∃ env', line.Exchanges Receiver.ask p env taken sent p' env' ∧ stage sender' env'

section
variable {τ : Type} {line : Line (StateM τ)} {config : Config} {stage : Sender → τ → Prop}
variable {p p' p'' : Progress Receiver Outcome} {sender sender' sender'' : Sender}
variable {taken taken' sent sent' : List UInt8} {s : Session}
variable {pending : List (Pause × UInt8)} {turns : List (List (Pause × UInt8))}

theorem Line.Passes.refl (p : Progress Receiver Outcome) (sender : Sender) :
    line.Passes stage p sender [] [] p sender :=
  fun env hs => ⟨env, .refl p env, hs⟩

theorem Line.Passes.trans (h₁ : line.Passes stage p sender taken sent p' sender')
    (h₂ : line.Passes stage p' sender' taken' sent' p'' sender'') :
    line.Passes stage p sender (taken ++ taken') (sent ++ sent') p'' sender'' := by
  intro env hs
  obtain ⟨env', hexchanges, hs'⟩ := h₁ env hs
  obtain ⟨env'', hexchanges', hs''⟩ := h₂ env' hs'
  exact ⟨env'', hexchanges.trans hexchanges', hs''⟩

namespace Line.Feeds

theorem told (hf : line.Feeds config stage) {env : τ} (messages : List Message) (h : stage sender env) :
    stage sender (line.told messages env) :=
  told_induct (fun message env => hf.reported message sender env) messages h

theorem passes_byte (hf : line.Feeds config stage) (field : Field) (hconfig : s.config = config)
    (byte : UInt8) (pending : List (Pause × UInt8)) (turns : List (List (Pause × UInt8))) :
    line.Passes stage (.going (s.awaiting field)) ⟨(field.pause, byte) :: pending, turns⟩ [byte] []
      (s.heard field (some byte)).next ⟨pending, turns⟩ := by
  intro env hs
  obtain ⟨env', hbrings, hs'⟩ := hf.found field.pause byte pending turns env hs
  rw [← hconfig, ← field.window_eq] at hbrings
  exact ⟨_, (Carries.awaits_reading s field).exchanges_brings hbrings, hf.told _ hs'⟩

theorem passes_written (hf : line.Feeds config stage) (what : Sending) (reply : Reply)
    (hbyte : s.byteFor what = reply.byte) (turns : List (List (Pause × UInt8))) :
    line.Passes stage (.going ⟨s, .sending what⟩) ⟨[], turns⟩ [] [reply.byte] (s.wrote what (.ok ())).next
      (Sender.answer ⟨[], turns⟩) := by
  intro env hs
  obtain ⟨env', hwrite, hs'⟩ := hf.written reply turns env hs
  have ha : Ask.Answer (Receiver.ask ⟨s, .sending what⟩) (.wrote reply.byte (.ok ())) (s.wrote what (.ok ())) := by
    rw [← hbyte]
    exact .write ..
  exact ⟨_, .step ha hwrite rfl, hf.told _ hs'⟩

theorem passes_reply (hf : line.Feeds config stage) (s : Session) :
    line.Passes stage (.going ⟨s, .sending .reply⟩) ⟨[], turns⟩ [] [s.reply.byte]
      (.going ({ s with reply := .nak }.awaiting .start)) (Sender.answer ⟨[], turns⟩) :=
  hf.passes_written .reply s.reply rfl turns

theorem passes_farewell (hf : line.Feeds config stage) (s : Session) :
    line.Passes stage (.going ⟨s, .sending .farewell⟩) ⟨[], turns⟩ [] [Control.ack]
      (.ended ⟨.received s.filled, s.buffer⟩) (Sender.answer ⟨[], turns⟩) :=
  hf.passes_written .farewell .ack rfl turns

theorem passes_header (hf : line.Feeds config stage) (hconfig : s.config = config) :
    line.Passes stage (.going (s.awaiting .start)) ⟨(.start, Control.soh) :: pending, turns⟩ [Control.soh] []
      (.going (s.awaiting .number)) ⟨pending, turns⟩ :=
  hf.passes_byte .start hconfig Control.soh pending turns

theorem passes_finish (hf : line.Feeds config stage) (hconfig : s.config = config) :
    line.Passes stage (.going (s.awaiting .start)) ⟨(.start, Control.eot) :: pending, turns⟩ [Control.eot] []
      (.going ⟨s, .sending .farewell⟩) ⟨pending, turns⟩ :=
  hf.passes_byte .start hconfig Control.eot pending turns

theorem passes_number (hf : line.Feeds config stage) (hconfig : s.config = config)
    (hroom : s.filled + blockSize ≤ s.capacity) :
    line.Passes stage (.going (s.awaiting .number)) ⟨(.byte, s.expected) :: pending, turns⟩ [s.expected] []
      (.going (s.awaiting .complement)) ⟨pending, turns⟩ := by
  have hbyte := hf.passes_byte .number hconfig s.expected pending turns
  rw [s.next_heard_expected hroom] at hbyte
  exact hbyte

theorem passes_complement (hf : line.Feeds config stage) (hconfig : s.config = config) :
    line.Passes stage (.going (s.awaiting .complement)) ⟨(.byte, ~~~s.expected) :: pending, turns⟩
      [~~~s.expected] [] (.going (s.awaiting (.filling 0 0))) ⟨pending, turns⟩ := by
  have hbyte := hf.passes_byte .complement hconfig (~~~s.expected) pending turns
  rw [Session.heard, if_pos rfl] at hbyte
  exact hbyte

theorem passes_checksum (hf : line.Feeds config stage) (hconfig : s.config = config) (sum : UInt8) :
    line.Passes stage (.going (s.awaiting (.filling blockSize sum))) ⟨(.byte, sum) :: pending, turns⟩ [sum] []
      s.commit.acknowledge.next ⟨pending, turns⟩ := by
  have hbyte := hf.passes_byte (.checksum sum) hconfig sum pending turns
  rw [Session.heard, if_pos rfl] at hbyte
  rw [Field.filling_blockSize]
  exact hbyte

/-- Bytes of a payload are stored. -/
theorem passes_payload (hf : line.Feeds config stage) (bytes : List UInt8) (count : Nat) (sum : UInt8)
    (hconfig : s.config = config) (hlength : count + bytes.length ≤ blockSize)
    (pending : List (Pause × UInt8)) (turns : List (List (Pause × UInt8))) :
    line.Passes stage (.going (s.awaiting (.filling count sum))) ⟨bytes.map (.byte, ·) ++ pending, turns⟩
      bytes [] (.going ((bytes.foldl Session.store s).awaiting
        (.filling (count + bytes.length) (sum + checksum bytes)))) ⟨pending, turns⟩ := by
  induction bytes generalizing s count sum with
  | nil =>
    rw [show sum + checksum [] = sum from UInt8.add_zero sum]
    exact .refl _ _
  | cons byte bytes ih =>
    rw [List.length_cons] at hlength
    have hlt : count < blockSize := by omega
    have hbyte := hf.passes_byte (.filling count sum) hconfig byte (bytes.map (.byte, ·) ++ pending) turns
    rw [s.next_heard_filling hlt, Field.pause_filling] at hbyte
    have hrest := hbyte.trans (ih (s := s.store byte) (count + 1) (sum + byte) hconfig (by omega))
    rw [UInt8.add_assoc, ← checksum_cons, Nat.add_assoc, Nat.add_comm 1] at hrest
    exact hrest

end Line.Feeds

end

/-! ### Sessions without a failure -/

namespace Session

/-- The session holds blocks and bytes of the next one, and behind them nothing has been written. -/
structure Clean (config : Config) (capacity attempt : Nat) (blocks : List (Vector UInt8 blockSize))
    (bytes : List UInt8) (buffer : Array UInt8) (s : Session) : Prop
    extends s.Holding config capacity attempt blocks bytes where
  rest_eq : s.buffer.toList.drop s.filled = buffer.toList.drop s.filled

namespace Clean
variable {config : Config} {capacity attempt : Nat} {blocks : List (Vector UInt8 blockSize)}
variable {bytes : List UInt8} {buffer : Array UInt8} {s : Session}

theorem start (config : Config) (buffer : Array UInt8) (h : capacity ≤ buffer.size) :
    Clean config capacity 0 [] [] buffer { config, capacity, buffer } :=
  ⟨.start config buffer h, rfl⟩

theorem reply (h : s.Clean config capacity attempt blocks bytes buffer) (reply : Reply) :
    Clean config capacity attempt blocks bytes buffer { s with reply } :=
  ⟨h.toHolding.reply reply, h.rest_eq⟩

theorem attempts (h : s.Clean config capacity attempt blocks bytes buffer) (attempts : UInt32) :
    Clean config capacity attempts.toNat blocks bytes buffer { s with attempts } :=
  ⟨h.toHolding.attempts attempts, h.rest_eq⟩

theorem store (h : s.Clean config capacity attempt blocks bytes buffer) (byte : UInt8)
    (hlt : s.filled < s.buffer.size) :
    (s.store byte).Clean config capacity attempt blocks (bytes ++ [byte]) buffer := by
  refine ⟨h.toHolding.store byte hlt, ?_⟩
  have hbuffer : (s.store byte).buffer.toList = s.buffer.toList.set s.filled byte := by
    simp [Session.store, hlt]
  have hrest := congrArg (List.drop 1) h.rest_eq
  rw [List.drop_drop, List.drop_drop] at hrest
  rw [hbuffer, s.filled_store, List.drop_set_of_lt (Nat.lt_succ_self _)]
  exact hrest

theorem stores (more : List UInt8) (h : s.Clean config capacity attempt blocks bytes buffer)
    (hroom : blockSize * blocks.length + bytes.length + more.length ≤ capacity) :
    (more.foldl Session.store s).Clean config capacity attempt blocks (bytes ++ more) buffer := by
  induction more generalizing s bytes with
  | nil => rwa [List.append_nil]
  | cons byte more ih =>
    rw [List.length_cons] at hroom
    have hlt : s.filled < s.buffer.size := by
      have hsize := h.size_le
      rw [h.filled_eq]
      omega
    have hrest := ih (h.store byte hlt) (by rw [List.length_append, List.length_singleton]; omega)
    rwa [List.append_assoc] at hrest

theorem commit {payload : Vector UInt8 blockSize}
    (h : s.Clean config capacity attempt blocks payload.toList buffer) :
    s.commit.Clean config capacity attempt (blocks ++ [payload]) [] buffer :=
  ⟨h.toHolding.commit, h.rest_eq⟩

/-- The buffer has the blocks in front of what it had. -/
theorem buffer_eq (h : s.Clean config capacity attempt blocks bytes buffer) :
    s.buffer.toList = blocks.flatMap Vector.toList ++ bytes ++
      buffer.toList.drop (blockSize * blocks.length + bytes.length) := by
  have hsplit := List.take_append_drop s.filled s.buffer.toList
  rw [h.rest_eq] at hsplit
  rw [← h.filled_eq, ← h.contents_eq]
  exact hsplit.symm

end Clean

end Session

section
variable {τ : Type} {line : Line (StateM τ)} {config : Config} {stage : Sender → τ → Prop}
variable {s : Session} {capacity attempt : Nat} {blocks : List (Vector UInt8 blockSize)}
variable {buffer : Array UInt8}

namespace Line.Feeds

/-- The bytes of a frame lead to its payload in the buffer, and to an acknowledgement. -/
theorem passes_frame (hf : line.Feeds config stage) (payload : Vector UInt8 blockSize)
    (h : s.Clean config capacity attempt blocks [] buffer)
    (hroom : blockSize * (blocks.length + 1) ≤ capacity) (turns : List (List (Pause × UInt8))) :
    line.Passes stage (.going (s.awaiting .start)) ⟨(Attempt.ofFrame ⟨s.expected, payload⟩).bytes, turns⟩
      (Frame.bytes ⟨s.expected, payload⟩) [] (payload.toList.foldl Session.store s).commit.acknowledge.next
      ⟨[], turns⟩ := by
  have hlength : payload.toList.length = blockSize := payload.length_toList
  have hle : s.filled + blockSize ≤ s.capacity := by
    rw [h.filled_eq, h.capacity_eq]
    exact hroom
  have hconfig : (payload.toList.foldl Session.store s).config = config :=
    (h.stores payload.toList (by rw [hlength]; exact hroom)).config_eq
  have hpayload := hf.passes_payload payload.toList 0 0 h.config_eq (by rw [hlength]; exact Nat.le_refl _)
    [(.byte, checksum payload.toList)] turns
  rw [hlength, Nat.zero_add, UInt8.zero_add] at hpayload
  rw [Attempt.ofFrame, Frame.bytes, Attempt.bytes_frame]
  exact (hf.passes_header h.config_eq).trans <| (hf.passes_number h.config_eq hle).trans <|
    (hf.passes_complement h.config_eq).trans <| hpayload.trans (hf.passes_checksum hconfig _)

theorem passes_block (hf : line.Feeds config stage) (hmax : 1 ≤ config.maxRetries.toNat)
    (payload : Vector UInt8 blockSize) (h : s.Clean config capacity attempt blocks [] buffer)
    (hroom : blockSize * (blocks.length + 1) ≤ capacity) (turns : List (List (Pause × UInt8))) :
    ∃ s' : Session, s'.Clean config capacity 1 (blocks ++ [payload]) [] buffer ∧ s'.reply = .nak ∧
      line.Passes stage (.going (s.awaiting .start)) ⟨(Attempt.ofFrame ⟨s.expected, payload⟩).bytes, turns⟩
        (Frame.bytes ⟨s.expected, payload⟩) [Control.ack] (.going (s'.awaiting .start))
        (Sender.answer ⟨[], turns⟩) := by
  have hlength : payload.toList.length = blockSize := payload.length_toList
  have hstored := (h.stores payload.toList (by rw [hlength]; exact hroom)).commit
  have hframe := hf.passes_frame payload h hroom turns
  rw [Session.next_acknowledge (by rw [hstored.config_eq]; exact hmax)] at hframe
  have hblock := hframe.trans (hf.passes_reply _)
  rw [List.append_nil] at hblock
  exact ⟨_, ((hstored.attempts 1).reply .ack).reply .nak, rfl, hblock⟩

/-- The frames of some blocks lead to their payloads in the buffer, in a first attempt for the next one. -/
theorem passes_blocks (hf : line.Feeds config stage) (hmax : 1 ≤ config.maxRetries.toNat)
    (payloads : List (Vector UInt8 blockSize)) (h : s.Clean config capacity attempt blocks [] buffer)
    (hroom : blockSize * (blocks.length + payloads.length) ≤ capacity)
    (turns : List (List (Pause × UInt8))) :
    ∃ (attempt' : Nat) (s' : Session), s'.Clean config capacity attempt' (blocks ++ payloads) [] buffer ∧
      (attempt = 1 → s.reply = .nak → attempt' = 1 ∧ s'.reply = .nak) ∧
      line.Passes stage (.going (s.awaiting .start))
        (Sender.answer ⟨[], (Frame.sequence blocks.length payloads).map (Attempt.bytes ∘ .ofFrame) ++ turns⟩)
        ((Frame.sequence blocks.length payloads).flatMap Frame.bytes)
        (List.replicate payloads.length Control.ack) (.going (s'.awaiting .start))
        (Sender.answer ⟨[], turns⟩) := by
  -- On the blocks to come: each of them moves behind those that are stored.
  induction payloads generalizing s attempt blocks with
  | nil => exact ⟨attempt, s, by rwa [List.append_nil], fun hone hnak => ⟨hone, hnak⟩, .refl _ _⟩
  | cons payload payloads ih =>
    rw [List.length_cons] at hroom
    have hfits : blockSize * (blocks.length + 1) ≤ capacity :=
      Nat.le_trans (Nat.mul_le_mul_left _ (by omega)) hroom
    obtain ⟨s₁, h₁, hnak₁, hblock⟩ := hf.passes_block hmax payload h hfits
      ((Frame.sequence (blocks.length + 1) payloads).map (Attempt.bytes ∘ .ofFrame) ++ turns)
    rw [h.expected_eq] at hblock
    obtain ⟨attempt', s', h', hfirst, hrest⟩ := ih h₁ (by
      rw [List.length_append, List.length_singleton, Nat.add_assoc, Nat.add_comm 1]
      exact hroom)
    rw [List.length_append, List.length_singleton] at hrest
    rw [List.append_assoc, List.singleton_append] at h'
    exact ⟨attempt', s', h', fun _ _ => hfirst rfl hnak₁, hblock.trans hrest⟩

theorem passes_sequence (hf : line.Feeds config stage) (hmax : 1 ≤ config.maxRetries.toNat)
    (payloads : List (Vector UInt8 blockSize)) (h : s.Clean config capacity attempt blocks [] buffer)
    (hroom : blockSize * (blocks.length + payloads.length) ≤ capacity)
    (turns : List (List (Pause × UInt8))) :
    ∃ (attempt' : Nat) (s' : Session), s'.Clean config capacity attempt' (blocks ++ payloads) [] buffer ∧
      line.Passes stage (.going (s.awaiting .start))
        (Sender.answer ⟨[], (Frame.sequence blocks.length payloads).map (Attempt.bytes ∘ .ofFrame) ++ turns⟩)
        ((Frame.sequence blocks.length payloads).flatMap Frame.bytes)
        (List.replicate payloads.length Control.ack) (.going (s'.awaiting .start))
        (Sender.answer ⟨[], turns⟩) := by
  obtain ⟨attempt', s', h', -, hpasses⟩ := hf.passes_blocks hmax payloads h hroom turns
  exact ⟨attempt', s', h', hpasses⟩

end Line.Feeds

/-- The first attempt is opened after an idle time. -/
theorem Line.exchanges_opening {env env₁ : τ} (capacity : Nat) (buffer : Array UInt8)
    (hmax : 1 ≤ config.maxRetries.toNat) (hidle : line.Brings config.flushIdle env none env₁) :
    ∃ messages, line.Exchanges Receiver.ask (.going (.start config capacity buffer)) env [] []
      (.going ⟨{ config, capacity, buffer, attempts := 1 }, .sending .reply⟩) (line.told messages env₁) := by
  have hflush := (Carries.awaits_flushing { config, capacity, buffer } .retry config.flushIdle 0).exchanges_brings
    hidle
  have hopen : (Session.flushed { config, capacity, buffer } .retry).next =
      .going ⟨{ config, capacity, buffer, attempts := 1 }, .sending .reply⟩ := Session.next_openAttempt hmax
  rw [Turn.next_after, hopen] at hflush
  exact ⟨_, hflush⟩

end

/-- A clean transfer: the line is idle for the first flush, and then the frames of some blocks come in time,
and the end of the transmission. -/
theorem Line.receive_sequence {τ : Type} {line : Line (StateM τ)} {config : Config}
    {stage : Sender → τ → Prop} {capacity : Nat} {buffer : Array UInt8}
    {payloads : List (Vector UInt8 blockSize)} {env env₁ : τ} (hf : line.Feeds config stage)
    (hmax : 1 ≤ config.maxRetries.toNat) (hpos : 0 < capacity) (hsize : capacity ≤ buffer.size)
    (hroom : blockSize * payloads.length ≤ capacity)
    (hidle : line.Brings config.flushIdle env none env₁)
    (hstage : stage (.ofFrames (Frame.sequence 0 payloads)) env₁) :
    ∃ fuel stored calls env',
      (∀ more, ((line.recorded.receive config capacity buffer (fuel + more)).run []).run env =
        ((.ok (.ended ⟨.received (blockSize * payloads.length), stored⟩), calls), env')) ∧
      stored.toList =
        payloads.flatMap Vector.toList ++ buffer.toList.drop (blockSize * payloads.length) ∧
      (∀ call ∈ calls, call.error? = none) ∧
      calls.filterMap Call.sent? = Control.nak :: List.replicate (payloads.length + 1) Control.ack ∧
      calls.filterMap Call.taken? = (Frame.sequence 0 payloads).flatMap Frame.bytes ++ [Control.eot] ∧
      (calls.filterMap Call.taken?).length = (blockSize + 4) * payloads.length + 1 := by
  have hstart := Session.Clean.start config buffer hsize
  have hflush := (Carries.awaits_flushing { config, capacity, buffer } .retry config.flushIdle 0).exchanges_brings
    hidle
  have hopen : (Session.flushed { config, capacity, buffer } .retry).next =
      .going ⟨{ config, capacity, buffer, attempts := 1 }, .sending .reply⟩ := Session.next_openAttempt hmax
  rw [Turn.next_after, hopen] at hflush
  obtain ⟨attempt, s, hs, hsequence⟩ := hf.passes_sequence hmax payloads
    ((hstart.attempts 1).reply .nak) (by simpa using hroom) [Attempt.finish.bytes]
  have htransfer := (hf.passes_reply _).trans <| hsequence.trans <|
    (hf.passes_finish hs.config_eq).trans (hf.passes_farewell s)
  rw [Sender.ofFrames, List.map_append, List.map_map] at hstage
  obtain ⟨env', hexchanges, -⟩ := htransfer _ (hf.told _ hstage)
  obtain ⟨calls, hleads, herror, htaken, hsent⟩ := hflush.trans hexchanges
  have hended := hleads.run_recorded []
  have hfilled : s.filled = blockSize * payloads.length := hs.filled_eq
  have hlast : calls.filterMap Call.taken? =
      (Frame.sequence 0 payloads).flatMap Frame.bytes ++ [Control.eot] := by
    simpa using htaken
  refine ⟨calls.length, s.buffer, calls, env', fun more => ?_, ?_, herror, ?_, hlast, ?_⟩
  · rw [run_receive_eq_ok hpos hsize, ← hfilled]
    exact line.run_add_of_ended more hended
  · have hbuffer := hs.buffer_eq
    rwa [List.append_nil] at hbuffer
  · rw [hsent, List.replicate_succ']
    rfl
  · rw [hlast, List.length_append, Frame.length_flatMap_bytes, Frame.length_sequence]
    rfl

/-! ### A sender that does not wait -/

def Sender.bytes (sender : Sender) : List UInt8 :=
  (sender.pending ++ sender.turns.flatten).map Prod.snd

/-- A line on which, once a byte has been sent over it, the bytes that have been held back come without a
pause. The clock moves in each poll that finds nothing. -/
def Line.pouring (lapse : UInt32) : Line (StateM ((List UInt8 × List UInt8) × UInt32)) where
  poll
    | ((byte :: ready, held), now) => (.ok (some byte), ((ready, held), now))
    | (bytes, now) => (.ok none, (bytes, now + lapse))
  write _
    | ((ready, held), now) => (.ok (), ((ready ++ held, []), now))
  clock
    | (bytes, now) => (now, (bytes, now))
  report _ := pure ()

theorem Line.pouring_feeds (config : Config) (lapse : UInt32) :
    (pouring lapse).Feeds config fun sender env =>
      env.1.1 ++ env.1.2 = sender.bytes ∧ (env.1.2 = [] ∨ sender.pending = []) := by
  refine ⟨?_, ?_, ?_⟩
  · rintro pause byte pending turns ⟨⟨ready, held⟩, now⟩ ⟨hbytes, hheld⟩
    obtain rfl : held = [] := hheld.resolve_right (List.cons_ne_nil _ _)
    obtain rfl : ready = byte :: Sender.bytes ⟨pending, turns⟩ := (List.append_nil ready).symm.trans hbytes
    exact ⟨_, .found rfl, List.append_nil _, .inl rfl⟩
  · rintro reply turns ⟨⟨ready, held⟩, now⟩ ⟨hbytes, -⟩
    refine ⟨_, rfl, ?_, .inl rfl⟩
    show ready ++ held ++ [] = _
    rw [List.append_nil, hbytes]
    cases turns <;> rfl
  · rintro message sender ⟨bytes, now⟩ h
    exact h

/-- More blocks than there are numbers, from a sender that does not wait, on a clock that wraps at once. -/
theorem Line.receive_sequence_wrap : ∃ fuel stored calls env',
    (∀ more, (((pouring 3000000).recorded.receive {} 38500 (Array.replicate 38600 0) (fuel + more)).run []).run
      (([], (Sender.ofFrames (Frame.sequence 0 (List.replicate 300 (Vector.replicate blockSize 7)))).bytes),
        4294967295) = ((.ok (.ended ⟨.received 38400, stored⟩), calls), env')) ∧
    stored.toList = (List.replicate 300 (Vector.replicate blockSize 7)).flatMap Vector.toList ++
      (Array.replicate 38600 0).toList.drop 38400 ∧
    (∀ call ∈ calls, call.error? = none) ∧
    calls.filterMap Call.sent? = Control.nak :: List.replicate 301 Control.ack ∧
    (calls.filterMap Call.taken?).length = 39601 := by
  have hlength : blockSize * (List.replicate 300 (Vector.replicate blockSize (7 : UInt8))).length = 38400 := by
    rw [List.length_replicate]
    rfl
  have hsize : 38500 ≤ (Array.replicate 38600 (0 : UInt8)).size := by simp
  have hreached : (Deadline.after 4294967295 250000).reached (4294967295 + 3000000) = true := by decide
  have hidle (bytes : List UInt8) : (pouring 3000000).Brings 250000 (([], bytes), 4294967295) none
    (([], bytes), 4294967295 + 3000000) := .lapsed rfl rfl hreached
  obtain ⟨fuel, stored, calls, env', hruns, hstored, herror, hsent, -, htaken⟩ :=
    receive_sequence (pouring_feeds {} 3000000) (by decide) (by decide) hsize (by rw [hlength]; decide) (hidle _)
      ⟨rfl, .inr rfl⟩
  rw [hlength] at hruns hstored
  rw [List.length_replicate] at hsent htaken
  exact ⟨fuel, stored, calls, env', hruns, hstored, herror, hsent, htaken⟩

end Xmodem
