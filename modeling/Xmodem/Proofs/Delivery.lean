import Xmodem.Proofs.Representation
import Xmodem.Proofs.Sender

/-!
# What is sent is received

Over a line that carries what its sender sends, a transmission ends with all its blocks in the buffer,
however many attempts fail, as long as not too many fail in a row. The proof goes backwards through a
transmission: `Line.Receives` says that a receiver will end well with what is still to come, and there
is one rule for each thing that a receiver does (a wait that a byte ends, a wait in silence, a flush, a
byte that is sent). What the session has at each point is `Session.Holding`.
-/

namespace Xmodem

/-! ### Runs that end well -/

namespace Line
variable {τ σ ρ : Type} {line : Line (StateM τ)} {ask : σ → Ask (Turn σ ρ)} {Q : ρ → Prop}
variable {env env₁ env' : τ}

/-- With enough fuel the procedure ends from here, and with a result as wanted. -/
def Ends (line : Line (StateM τ)) (ask : σ → Ask (Turn σ ρ)) (Q : ρ → Prop) (s : σ) (env : τ) : Prop :=
  ∃ fuel r env', (line.run ask fuel s).run env = (.ended r, env') ∧ Q r

/-- The state of the line after some reports. -/
def told (line : Line (StateM τ)) (messages : List Message) (env : τ) : τ :=
  ((messages.forM line.report).run env).2

theorem told_induct {P : τ → Prop} (hreport : ∀ message env, P env → P ((line.report message).run env).2)
    (messages : List Message) (h : P env) : P (line.told messages env) := by
  induction messages generalizing env with
  | nil => exact h
  | cons message messages ih => exact ih (hreport message env h)

theorem run_succ {s : σ} {turn : Turn σ ρ} (fuel : Nat)
    (h : (line.answer (ask s)).run env = (turn, env₁)) :
    (line.run ask (fuel + 1) s).run env = match turn.next with
      | .going s => (line.run ask fuel s).run (line.told turn.said env₁)
      | .ended r => (.ended r, line.told turn.said env₁) := by
  rw [run, StateT.run_bind, h]
  obtain ⟨said, next⟩ := turn
  cases next <;> rfl

theorem ends_step {s : σ} {turn : Turn σ ρ} (h : (line.answer (ask s)).run env = (turn, env₁))
    (hnext : turn.next.Holds (fun s => line.Ends ask Q s (line.told turn.said env₁)) Q) :
    line.Ends ask Q s env := by
  cases hn : turn.next with
  | going s' =>
    rw [hn] at hnext
    obtain ⟨fuel, r, env', hrun, hr⟩ := hnext
    refine ⟨fuel + 1, r, env', ?_, hr⟩
    rw [run_succ fuel h, hn]
    exact hrun
  | ended r =>
    rw [hn] at hnext
    refine ⟨1, r, line.told turn.said env₁, ?_, hnext⟩
    rw [run_succ 0 h, hn]

section
variable {α : Type}

theorem answer_poll {found : Polled} (next : Polled → α) (h : line.poll.run env = (found, env₁)) :
    (line.answer (.poll next)).run env = (next found, env₁) := by
  rw [answer, StateT.run_bind, h]
  rfl

theorem answer_clock {now : UInt32} (next : UInt32 → α) (h : line.clock.run env = (now, env₁)) :
    (line.answer (.clock next)).run env = (next now, env₁) := by
  rw [answer, StateT.run_bind, h]
  rfl

theorem answer_write {byte : UInt8} {result : Except IoError Unit} (next : Except IoError Unit → α)
    (h : (line.write byte).run env = (result, env₁)) :
    (line.answer (.write byte next)).run env = (next result, env₁) := by
  rw [answer, StateT.run_bind, h]
  rfl

end

theorem answer_run_map {α β : Type} {q : Ask α} {a : α} (f : α → β)
    (h : (line.answer q).run env = (a, env₁)) : (line.answer (q.map f)).run env = (f a, env₁) := by
  rw [answer_map, StateT.run_map, h]
  rfl

/-! ### Waits -/

/-- A procedure that waits for a byte waits on, or goes on with what the wait came to. -/
def waiting (e : Wait → σ) (k : Polled → Turn σ ρ) : Progress Wait Polled → Turn σ ρ
  | .going wait => .going (e wait)
  | .ended result => k result

section
variable {e : Wait → σ} {k : Polled → Turn σ ρ}

/-- The procedure waits in its states `e`, and goes on as `k` says. -/
def Awaits (ask : σ → Ask (Turn σ ρ)) (e : Wait → σ) (k : Polled → Turn σ ρ) : Prop :=
  ∀ wait, ask (e wait) = wait.ask.map (waiting e k)

theorem Awaits.ends_going (he : Awaits ask e k) {wait wait' : Wait}
    (h : (line.answer wait.ask).run env = (.going wait', env₁)) (hnext : line.Ends ask Q (e wait') env₁) :
    line.Ends ask Q (e wait) env := by
  have hanswer : (line.answer (ask (e wait))).run env = (.going (e wait'), env₁) := by
    rw [he wait]
    exact answer_run_map _ h
  exact ends_step hanswer hnext

theorem Awaits.ends_ended (he : Awaits ask e k) {wait : Wait} {result : Polled}
    (h : (line.answer wait.ask).run env = (.ended result, env₁))
    (hnext : (k result).next.Holds (fun s => line.Ends ask Q s (line.told (k result).said env₁)) Q) :
    line.Ends ask Q (e wait) env := by
  refine ends_step ?_ hnext
  rw [he wait]
  exact answer_run_map _ h

theorem Awaits.ends_waits (he : Awaits ask e k) {deadline : Deadline} {byte : Option UInt8}
    (h : line.Waits deadline env byte env')
    (hnext : (k (.ok byte)).next.Holds (fun s => line.Ends ask Q s (line.told (k (.ok byte)).said env')) Q) :
    line.Ends ask Q (e (.listening deadline)) env := by
  -- On the polls of the wait: each that finds nothing is followed by a look at the clock.
  induction h with
  | found h => exact he.ends_ended (answer_poll _ h) hnext
  | lapsed h₁ h₂ h₃ =>
    refine he.ends_going (answer_poll _ h₁) (he.ends_ended ?_ hnext)
    exact (answer_clock _ h₂).trans (by rw [if_pos h₃])
  | early h₁ h₂ h₃ _ ih =>
    refine he.ends_going (answer_poll _ h₁) (he.ends_going ?_ (ih hnext))
    exact (answer_clock _ h₂).trans (by rw [if_neg (by simp [h₃])])

theorem Awaits.ends_brings (he : Awaits ask e k) {window : UInt32} {byte : Option UInt8}
    (h : line.Brings window env byte env')
    (hnext : (k (.ok byte)).next.Holds (fun s => line.Ends ask Q s (line.told (k (.ok byte)).said env')) Q) :
    line.Ends ask Q (e (.arming window)) env :=
  he.ends_going (answer_clock _ rfl) (he.ends_waits h hnext)

end

/-! ### Receivers and senders -/

/-- Whatever its state, a line with this to come from the sender lets the receiver end well. -/
def Receives (line : Line (StateM τ)) (stage : Sender → τ → Prop) (Q : Outcome → Prop) (r : Receiver)
    (sender : Sender) : Prop :=
  ∀ env, stage sender env → line.Ends Receiver.ask Q r env

/-- The same of a receiver that may be over already. -/
def Proceeds (line : Line (StateM τ)) (stage : Sender → τ → Prop) (Q : Outcome → Prop)
    (p : Progress Receiver Outcome) (sender : Sender) : Prop :=
  p.Holds (fun r => line.Receives stage Q r sender) Q

end Line

/-- The wait in which a byte of a field comes. -/
def Field.pause : Field → Pause
  | start => .start
  | _ => .byte

theorem Field.window_eq (field : Field) (config : Config) :
    field.window config = field.pause.window config := by
  cases field <;> rfl

/-- A receiver that is about to wait for a field. -/
def Session.awaiting (s : Session) (field : Field) : Receiver :=
  ⟨s, .reading field (.arming (field.window s.config))⟩

/-- A receiver that is about to wait in a flush. -/
def Session.draining (s : Session) (cause : FlushCause) (discarded : Nat) : Receiver :=
  ⟨s, .flushing cause ⟨s.config.flushIdle, discarded, .arming s.config.flushIdle⟩⟩

namespace Line.Carries
variable {τ : Type} {line : Line (StateM τ)} {config : Config} {stage : Sender → τ → Prop}
variable {Q : Outcome → Prop} {s : Session}
variable {pending : List (Pause × UInt8)} {turns : List (List (Pause × UInt8))}

theorem told (hc : line.Carries config stage) {sender : Sender} {env : τ} (messages : List Message)
    (h : stage sender env) : stage sender (line.told messages env) :=
  told_induct (fun message env => hc.reported message sender env) messages h

theorem ends_told (hc : line.Carries config stage) {sender : Sender} {env : τ} (turn : Receiver.Turn)
    (h : line.Proceeds stage Q turn.next sender) (hs : stage sender env) :
    turn.next.Holds (fun r => line.Ends Receiver.ask Q r (line.told turn.said env)) Q :=
  h.mono (fun _ hr => hr _ (hc.told turn.said hs)) fun _ hQ => hQ

theorem awaits_reading (s : Session) (field : Field) :
    Awaits Receiver.ask (fun wait => ⟨s, .reading field wait⟩) fun
      | .ok byte => s.heard field byte
      | .error e => s.fail (.io e) := by
  intro wait
  unfold Receiver.ask
  dsimp only
  congr 1
  funext p
  match p with
  | .going wait => rfl
  | .ended (.ok byte) => rfl
  | .ended (.error e) => rfl

theorem awaits_flushing (s : Session) (cause : FlushCause) (window : UInt32) (discarded : Nat) :
    Awaits Receiver.ask (fun wait => ⟨s, .flushing cause ⟨window, discarded, wait⟩⟩) fun
      | .ok (some _) => .going ⟨s, .flushing cause ⟨window, discarded + 1, .arming window⟩⟩
      | .ok none => (s.flushed cause).after (Drain.summary ⟨window, discarded, .arming window⟩)
      | .error e => s.fail (.io e) := by
  intro wait
  unfold Receiver.ask Drain.ask
  dsimp only
  rw [Ask.map_map]
  congr 1
  funext p
  match p with
  | .going wait => rfl
  | .ended (.ok (some byte)) => rfl
  | .ended (.ok none) => rfl
  | .ended (.error e) => rfl

theorem receives_byte (hc : line.Carries config stage) (field : Field) (hconfig : s.config = config) {byte : UInt8}
    (hnext : line.Proceeds stage Q (s.heard field (some byte)).next ⟨pending, turns⟩) :
    line.Receives stage Q (s.awaiting field) ⟨(field.pause, byte) :: pending, turns⟩ := by
  intro env hs
  obtain ⟨env', hbrings, hs'⟩ := hc.found field.pause byte pending turns env hs
  rw [← hconfig, ← field.window_eq] at hbrings
  exact (awaits_reading s field).ends_brings hbrings (hc.ends_told _ hnext hs')

theorem receives_silence (hc : line.Carries config stage) (field : Field) (hconfig : s.config = config)
    (hnext : line.Proceeds stage Q (s.heard field none).next ⟨[], turns⟩) :
    line.Receives stage Q (s.awaiting field) ⟨[], turns⟩ := by
  intro env hs
  obtain ⟨env', hbrings, hs'⟩ := hc.quiet field.pause turns env hs
  rw [← hconfig, ← field.window_eq] at hbrings
  exact (awaits_reading s field).ends_brings hbrings (hc.ends_told _ hnext hs')

theorem receives_flushed (hc : line.Carries config stage) (cause : FlushCause) (hconfig : s.config = config)
    (hnext : line.Proceeds stage Q (s.flushed cause).next ⟨[], turns⟩) (bytes : List UInt8)
    (discarded : Nat) :
    line.Receives stage Q (s.draining cause discarded) ⟨bytes.map (.idle, ·), turns⟩ := by
  induction bytes generalizing discarded with
  | nil =>
    intro env hs
    obtain ⟨env', hbrings, hs'⟩ := hc.quiet .idle turns env hs
    rw [← hconfig] at hbrings
    exact (awaits_flushing s cause _ discarded).ends_brings hbrings (hc.ends_told (Turn.after _ _) hnext hs')
  | cons byte bytes ih =>
    intro env hs
    obtain ⟨env', hbrings, hs'⟩ := hc.found .idle byte _ turns env hs
    rw [← hconfig] at hbrings
    exact (awaits_flushing s cause _ discarded).ends_brings hbrings (ih (discarded + 1) env' hs')

theorem receives_written (hc : line.Carries config stage) {what : Sending}
    (hnext : line.Proceeds stage Q (s.wrote what (.ok ())).next (Sender.answer ⟨[], turns⟩)) :
    line.Receives stage Q ⟨s, .sending what⟩ ⟨[], turns⟩ := by
  intro env hs
  obtain ⟨env', hwrite, hs'⟩ := hc.written (s.byteFor what) turns env hs
  exact ends_step (answer_write _ hwrite) (hc.ends_told _ hnext hs')

end Line.Carries

/-! ### What a session holds -/

/-- The field that follows `taken` bytes of a payload. -/
def Field.filling (taken : Nat) (sum : UInt8) : Field :=
  if taken < blockSize then payload taken sum else checksum sum

theorem Field.held_filling {taken : Nat} (h : taken ≤ blockSize) (sum : UInt8) :
    (filling taken sum).held = taken := by
  unfold filling
  split
  · rfl
  · exact Nat.le_antisymm (Nat.le_of_not_lt ‹_›) h

theorem Field.filling_blockSize (sum : UInt8) : filling blockSize sum = checksum sum :=
  if_neg (Nat.lt_irrefl _)

theorem Field.pause_filling (taken : Nat) (sum : UInt8) : (filling taken sum).pause = .byte := by
  unfold filling
  split <;> rfl

namespace Session

/-- The session has stored blocks, and bytes of the next one, and it is at an attempt since the last
acknowledgement. -/
structure Holding (config : Config) (capacity attempt : Nat) (blocks : List (Vector UInt8 blockSize))
    (bytes : List UInt8) (s : Session) : Prop where
  config_eq : s.config = config
  capacity_eq : s.capacity = capacity
  size_le : capacity ≤ s.buffer.size
  attempts_eq : s.attempts.toNat = attempt
  filled_le : s.filled ≤ s.buffer.size
  filled_eq : s.filled = blockSize * blocks.length + bytes.length
  contents_eq : s.contents = blocks.flatMap Vector.toList ++ bytes
  expected_eq : s.expected = UInt8.ofNat (blocks.length + 1)

namespace Holding
variable {config : Config} {capacity attempt : Nat} {blocks : List (Vector UInt8 blockSize)}
variable {bytes : List UInt8} {s : Session}

theorem start (config : Config) (buffer : Array UInt8) (h : capacity ≤ buffer.size) :
    Holding config capacity 0 [] [] { config, capacity, buffer } :=
  ⟨rfl, rfl, h, rfl, Nat.zero_le _, rfl, rfl, rfl⟩

theorem reply (h : s.Holding config capacity attempt blocks bytes) (reply : Reply) :
    Holding config capacity attempt blocks bytes { s with reply } :=
  ⟨h.config_eq, h.capacity_eq, h.size_le, h.attempts_eq, h.filled_le, h.filled_eq, h.contents_eq, h.expected_eq⟩

theorem attempts (h : s.Holding config capacity attempt blocks bytes) (attempts : UInt32) :
    Holding config capacity attempts.toNat blocks bytes { s with attempts } :=
  ⟨h.config_eq, h.capacity_eq, h.size_le, rfl, h.filled_le, h.filled_eq, h.contents_eq, h.expected_eq⟩

theorem store (h : s.Holding config capacity attempt blocks bytes) (byte : UInt8)
    (hlt : s.filled < s.buffer.size) :
    (s.store byte).Holding config capacity attempt blocks (bytes ++ [byte]) := by
  refine ⟨h.config_eq, h.capacity_eq, ?_, h.attempts_eq, ?_, ?_, ?_, h.expected_eq⟩
  · rw [s.size_buffer_store byte hlt]
    exact h.size_le
  · rw [s.size_buffer_store byte hlt]
    exact hlt
  · rw [s.filled_store, h.filled_eq, List.length_append]
    rfl
  · rw [s.contents_store byte (Nat.le_of_lt hlt), h.contents_eq, List.append_assoc]

theorem filled_sub_length (h : s.Holding config capacity attempt blocks bytes) :
    s.filled - bytes.length = (blocks.flatMap Vector.toList).length := by
  rw [← s.length_contents h.filled_le, h.contents_eq, List.length_append, Nat.add_sub_cancel]

theorem drop_contents_eq (h : s.Holding config capacity attempt blocks bytes) :
    s.contents.drop (s.filled - bytes.length) = bytes := by
  rw [h.filled_sub_length, h.contents_eq, List.drop_left]

theorem takeBack (h : s.Holding config capacity attempt blocks bytes) :
    (s.takeBack bytes.length).Holding config capacity attempt blocks [] := by
  refine ⟨h.config_eq, h.capacity_eq, h.size_le, h.attempts_eq, ?_, ?_, ?_, h.expected_eq⟩
  · exact Nat.le_trans (Nat.sub_le ..) h.filled_le
  · rw [s.filled_takeBack, h.filled_eq, Nat.add_sub_cancel]
    rfl
  · rw [s.contents_takeBack, h.filled_sub_length, h.contents_eq, List.take_left, List.append_nil]

theorem commit {payload : Vector UInt8 blockSize}
    (h : s.Holding config capacity attempt blocks payload.toList) :
    s.commit.Holding config capacity attempt (blocks ++ [payload]) [] := by
  refine ⟨h.config_eq, h.capacity_eq, h.size_le, h.attempts_eq, h.filled_le, ?_, ?_, ?_⟩
  · rw [List.length_append, List.length_singleton, Nat.mul_succ]
    exact h.filled_eq.trans (by rw [Vector.length_toList]; rfl)
  · rw [List.flatMap_append, List.flatMap_singleton, List.append_nil]
    exact h.contents_eq
  · rw [List.length_append, List.length_singleton, UInt8.ofNat_add, ← h.expected_eq]
    rfl

end Holding

theorem next_openAttempt {s : Session} (h : s.attempts.toNat + 1 ≤ s.config.maxRetries.toNat) :
    s.openAttempt.next = .going ⟨{ s with attempts := s.attempts + 1 }, .sending .reply⟩ := by
  have hlt : s.config.maxRetries.toNat < UInt32.size := s.config.maxRetries.toNat_lt
  have hopens := s.opens_openAttempt
  generalize s.openAttempt.next = p at hopens ⊢
  cases hopens with
  | opened _ => rfl
  | abandoned habandoned => exact absurd h (Nat.not_le_of_lt habandoned)
  | exhausted hexhausted => exact absurd (Nat.le_trans hexhausted h) (Nat.not_le_of_lt hlt)

theorem next_acknowledge {s : Session} (h : 1 ≤ s.config.maxRetries.toNat) :
    s.acknowledge.next = .going ⟨{ s with attempts := 1, reply := .ack }, .sending .reply⟩ :=
  next_openAttempt (s := { s with attempts := 0, reply := .ack }) h

theorem next_heard_none (s : Session) (field : Field) :
    (s.heard field none).next = (s.takeBack field.held).retry.next := by
  cases field <;> rfl

theorem next_heard_stray (s : Session) {byte : UInt8} (h₁ : byte ≠ Control.soh) (h₂ : byte ≠ Control.eot) :
    (s.heard .start (some byte)).next = s.retry.next := by
  simp [heard, h₁, h₂]

theorem next_heard_complement (s : Session) {byte : UInt8} (h : byte ≠ ~~~s.expected) :
    (s.heard .complement (some byte)).next = s.retry.next := by
  simp [heard, h]

theorem next_heard_checksum (s : Session) {sum byte : UInt8} (h : byte ≠ sum) :
    (s.heard (.checksum sum) (some byte)).next = (s.takeBack blockSize).retry.next := by
  simp [heard, h]

theorem next_heard_repeated (s : Session) :
    (s.heard .number (some (s.expected - 1))).next = (s.flush .repeated).next := by
  simp [heard]

theorem next_heard_expected (s : Session) (h : s.filled + blockSize ≤ s.capacity) :
    (s.heard .number (some s.expected)).next = (s.read .complement).next := by
  have hne : s.expected ≠ s.expected - 1 := by grind
  simp [heard, hne, Nat.not_lt.2 h]

theorem next_heard_filling (s : Session) {taken : Nat} (h : taken < blockSize) (sum byte : UInt8) :
    (s.heard (.filling taken sum) (some byte)).next =
      ((s.store byte).read (.filling (taken + 1) (sum + byte))).next := by
  rw [Field.filling, if_pos h, heard, Field.filling]
  split <;> rfl

end Session

/-! ### Attempts -/

section
variable {τ : Type} {line : Line (StateM τ)} {config : Config} {stage : Sender → τ → Prop}
variable {Q : Outcome → Prop} {s : Session} {capacity attempt : Nat}
variable {blocks : List (Vector UInt8 blockSize)} {pending : List (Pause × UInt8)} {a : Attempt}
variable {turns : List (List (Pause × UInt8))} {sender : Sender}

namespace Line.Carries

theorem proceeds_retry (hc : line.Carries config stage) (hconfig : s.config = config)
    (hnext : line.Proceeds stage Q s.openAttempt.next ⟨[], turns⟩) (rest : List UInt8) :
    line.Proceeds stage Q s.retry.next ⟨rest.map (.idle, ·), turns⟩ :=
  hc.receives_flushed .retry hconfig hnext rest 0

theorem proceeds_openAttempt (h : s.Holding config capacity attempt blocks [])
    (hle : attempt + 1 ≤ config.maxRetries.toNat)
    (hnext : ∀ s' : Session, s'.Holding config capacity (attempt + 1) blocks [] →
      line.Receives stage Q ⟨s', .sending .reply⟩ sender) :
    line.Proceeds stage Q s.openAttempt.next sender := by
  -- The limit fits into the count, so a count below it has room for one more.
  have hlt : config.maxRetries.toNat < UInt32.size := config.maxRetries.toNat_lt
  have hmax : s.attempts.toNat + 1 ≤ s.config.maxRetries.toNat := by
    rw [h.attempts_eq, h.config_eq]
    exact hle
  have hcount : (s.attempts + 1).toNat = attempt + 1 := by
    rw [UInt32.toNat_add, h.attempts_eq]
    exact Nat.mod_eq_of_lt (Nat.lt_of_le_of_lt hle hlt)
  rw [Session.next_openAttempt hmax]
  exact hnext _ (hcount ▸ h.attempts _)

theorem proceeds_acknowledge (h : s.Holding config capacity attempt blocks [])
    (hle : 1 ≤ config.maxRetries.toNat)
    (hnext : ∀ s' : Session, s'.Holding config capacity 1 blocks [] →
      line.Receives stage Q ⟨s', .sending .reply⟩ sender) :
    line.Proceeds stage Q s.acknowledge.next sender :=
  proceeds_openAttempt ((h.attempts 0).reply .ack) hle hnext

theorem receives_attempt (hc : line.Carries config stage) (h : s.Holding config capacity attempt blocks [])
    (hnext : ∀ s' : Session, s'.Holding config capacity attempt blocks [] →
      line.Receives stage Q (s'.awaiting .start) ⟨a.bytes, turns⟩) :
    line.Receives stage Q ⟨s, .sending .reply⟩ ⟨[], a.bytes :: turns⟩ :=
  hc.receives_written (hnext _ (h.reply .nak))

/-- A payload is stored behind what the session holds. -/
theorem receives_payload (hc : line.Carries config stage) (bytes : List UInt8) {done : List UInt8}
    {sum : UInt8} (h : s.Holding config capacity attempt blocks done)
    (hlength : done.length + bytes.length ≤ blockSize)
    (hroom : blockSize * (blocks.length + 1) ≤ capacity)
    (hnext : ∀ s' : Session, s'.Holding config capacity attempt blocks (done ++ bytes) →
      line.Receives stage Q (s'.awaiting (.filling (done ++ bytes).length (sum + checksum bytes)))
        ⟨pending, turns⟩) :
    line.Receives stage Q (s.awaiting (.filling done.length sum))
      ⟨bytes.map (.byte, ·) ++ pending, turns⟩ := by
  -- On the bytes to come: each of them moves behind those that are done.
  induction bytes generalizing s done sum with
  | nil =>
    have hlast := hnext s (by rwa [List.append_nil])
    rwa [List.append_nil, show sum + checksum [] = sum from UInt8.add_zero sum] at hlast
  | cons byte bytes ih =>
    rw [List.length_cons] at hlength
    have hlt : done.length < blockSize := by omega
    have hsize : s.filled < s.buffer.size := by
      have := h.size_le
      rw [h.filled_eq]
      rw [Nat.mul_succ] at hroom
      omega
    have hstored : line.Receives stage Q
        ((s.store byte).awaiting (.filling (done ++ [byte]).length (sum + byte)))
        ⟨bytes.map (.byte, ·) ++ pending, turns⟩ := by
      refine ih (h.store byte hsize) (by simp; omega) fun s' hs' => ?_
      rw [List.append_assoc, List.singleton_append] at hs' ⊢
      rw [UInt8.add_assoc, ← checksum_cons]
      exact hnext s' hs'
    have hread : line.Proceeds stage Q (s.heard (.filling done.length sum) (some byte)).next
        ⟨bytes.map (.byte, ·) ++ pending, turns⟩ := by
      rw [s.next_heard_filling hlt]
      rwa [List.length_append] at hstored
    have hreceives := hc.receives_byte _ h.config_eq hread
    rwa [Field.pause_filling] at hreceives

theorem receives_start (hc : line.Carries config stage) (h : s.Holding config capacity attempt blocks [])
    (hnext : line.Receives stage Q (s.awaiting .number) ⟨pending, turns⟩) :
    line.Receives stage Q (s.awaiting .start) ⟨(.start, Control.soh) :: pending, turns⟩ :=
  hc.receives_byte .start h.config_eq hnext

theorem receives_number (hc : line.Carries config stage) (h : s.Holding config capacity attempt blocks [])
    (hroom : blockSize * (blocks.length + 1) ≤ capacity)
    (hnext : line.Receives stage Q (s.awaiting .complement) ⟨pending, turns⟩) :
    line.Receives stage Q (s.awaiting .start)
      ⟨(.start, Control.soh) :: (.byte, s.expected) :: pending, turns⟩ := by
  have hle : s.filled + blockSize ≤ s.capacity := by
    rw [h.filled_eq, h.capacity_eq]
    exact hroom
  refine hc.receives_start h (hc.receives_byte .number h.config_eq ?_)
  rw [s.next_heard_expected hle]
  exact hnext

theorem receives_frame (hc : line.Carries config stage) (h : s.Holding config capacity attempt blocks [])
    (hroom : blockSize * (blocks.length + 1) ≤ capacity) {bytes : List UInt8}
    (hlength : bytes.length ≤ blockSize)
    (hnext : ∀ s' : Session, s'.Holding config capacity attempt blocks bytes →
      line.Receives stage Q (s'.awaiting (.filling bytes.length (checksum bytes))) ⟨pending, turns⟩) :
    line.Receives stage Q (s.awaiting .start)
      ⟨(.start, Control.soh) :: (.byte, s.expected) :: (.byte, ~~~s.expected) ::
        (bytes.map (.byte, ·) ++ pending), turns⟩ := by
  have hpayload : line.Receives stage Q (s.awaiting (.filling 0 0)) ⟨bytes.map (.byte, ·) ++ pending, turns⟩ := by
    refine hc.receives_payload bytes h (by rwa [List.length_nil, Nat.zero_add]) hroom fun s' hs' => ?_
    rw [UInt8.zero_add]
    exact hnext s' hs'
  refine hc.receives_number h hroom (hc.receives_byte .complement h.config_eq ?_)
  rw [Session.heard, if_pos rfl]
  exact hpayload

theorem receives_failed (hc : line.Carries config stage) (field : Field) {bytes : List UInt8}
    (h : s.Holding config capacity attempt blocks bytes) (hheld : field.held = bytes.length)
    (hnext : ∀ s' : Session, s'.Holding config capacity attempt blocks [] →
      line.Proceeds stage Q s'.openAttempt.next ⟨[], turns⟩) :
    line.Receives stage Q (s.awaiting field) ⟨[], turns⟩ := by
  refine hc.receives_silence field h.config_eq ?_
  rw [s.next_heard_none, hheld]
  exact hc.proceeds_retry h.takeBack.config_eq (hnext _ h.takeBack) []

end Line.Carries

theorem Attempt.Empty.receives (ha : a.Empty) (hc : line.Carries config stage)
    (h : s.Holding config capacity attempt blocks [])
    (hnext : ∀ s' : Session, s'.Holding config capacity attempt blocks [] →
      line.Proceeds stage Q s'.openAttempt.next ⟨[], turns⟩) :
    line.Receives stage Q (s.awaiting .start) ⟨a.bytes, turns⟩ := by
  cases ha with
  | nothing => exact hc.receives_failed .start h rfl hnext
  | @stray byte h₁ h₂ rest =>
    have hflush := hc.proceeds_retry h.config_eq (hnext s h) rest
    rw [← s.next_heard_stray h₁ h₂] at hflush
    exact hc.receives_byte .start h.config_eq hflush
  | header => exact hc.receives_start h (hc.receives_failed .number h rfl hnext)

theorem Attempt.Faulty.receives (ha : a.Faulty s.expected) (hc : line.Carries config stage)
    (h : s.Holding config capacity attempt blocks []) (hroom : blockSize * (blocks.length + 1) ≤ capacity)
    (hnext : ∀ s' : Session, s'.Holding config capacity attempt blocks [] →
      line.Proceeds stage Q s'.openAttempt.next ⟨[], turns⟩) :
    line.Receives stage Q (s.awaiting .start) ⟨a.bytes, turns⟩ := by
  cases ha with
  | empty ha => exact ha.receives hc h hnext
  | number => exact hc.receives_number h hroom (hc.receives_failed .complement h rfl hnext)
  | complement hne rest =>
    have hflush := hc.proceeds_retry h.config_eq (hnext s h) rest
    rw [← s.next_heard_complement hne] at hflush
    exact hc.receives_number h hroom (hc.receives_byte .complement h.config_eq hflush)
  | @cut payload hle =>
    have hbytes := Attempt.bytes_frame s.expected (~~~s.expected) payload [] []
    rw [List.append_nil] at hbytes
    rw [hbytes]
    exact hc.receives_frame h hroom hle fun s' hs' =>
      hc.receives_failed _ hs' (Field.held_filling hle _) hnext
  | @checksum payload sum hne rest =>
    have hlength : payload.toList.length = blockSize := payload.length_toList
    have hle : payload.toList.length ≤ blockSize := Nat.le_of_eq hlength
    rw [Attempt.bytes_frame]
    refine hc.receives_frame h hroom hle fun s' hs' => ?_
    have hback := hs'.takeBack
    rw [hlength] at hback
    have hflush := hc.proceeds_retry hback.config_eq (hnext _ hback) rest
    rw [← s'.next_heard_checksum hne] at hflush
    rw [hlength, Field.filling_blockSize]
    exact hc.receives_byte (.checksum _) hs'.config_eq hflush

theorem Attempt.Repeats.receives (ha : a.Repeats (s.expected - 1)) (hc : line.Carries config stage)
    (h : s.Holding config capacity attempt blocks [])
    (hnext : line.Proceeds stage Q s.acknowledge.next ⟨[], turns⟩) :
    line.Receives stage Q (s.awaiting .start) ⟨a.bytes, turns⟩ := by
  obtain ⟨rest, rfl⟩ := ha
  have hflush := hc.receives_flushed .repeated h.config_eq hnext rest 0
  refine hc.receives_start h (hc.receives_byte .number h.config_eq ?_)
  rw [s.next_heard_repeated]
  exact hflush

theorem Line.Carries.receives_block (hc : line.Carries config stage) (payload : Vector UInt8 blockSize)
    (h : s.Holding config capacity attempt blocks []) (hroom : blockSize * (blocks.length + 1) ≤ capacity)
    (hnext : ∀ s' : Session, s'.Holding config capacity attempt (blocks ++ [payload]) [] →
      line.Proceeds stage Q s'.acknowledge.next ⟨[], turns⟩) :
    line.Receives stage Q (s.awaiting .start) ⟨(Attempt.ofFrame ⟨s.expected, payload⟩).bytes, turns⟩ := by
  have hlength : payload.toList.length = blockSize := payload.length_toList
  have hle : payload.toList.length ≤ blockSize := Nat.le_of_eq hlength
  rw [Attempt.ofFrame, Frame.bytes, Attempt.bytes_frame]
  refine hc.receives_frame h hroom hle fun s' hs' => ?_
  rw [hlength, Field.filling_blockSize]
  refine hc.receives_byte (.checksum _) hs'.config_eq ?_
  rw [Session.heard, if_pos rfl]
  exact hnext _ hs'.commit

theorem Line.Carries.receives_finish (hc : line.Carries config stage)
    (h : s.Holding config capacity attempt blocks []) (hQ : Q ⟨.received s.filled, s.buffer⟩) :
    line.Receives stage Q (s.awaiting .start) ⟨Attempt.finish.bytes, turns⟩ := by
  have hfarewell : line.Receives stage Q ⟨s, .sending .farewell⟩ ⟨[], turns⟩ := hc.receives_written hQ
  exact hc.receives_byte .start h.config_eq hfarewell

/-- Each attempt of a mix leads to the next one, and the last to what comes after the mix. -/
theorem Mix.receives {limit left : Nat} {mix : List Attempt} {fails repeats : Attempt → Prop}
    (hmix : Mix limit fails repeats left mix) (hc : line.Carries config stage)
    (h : s.Holding config capacity attempt blocks [])
    (hleft : attempt + left ≤ config.maxRetries.toNat) (hlimit : 1 + limit ≤ config.maxRetries.toNat)
    (hfails : ∀ (a : Attempt) (turns : List (List (Pause × UInt8))) (n : Nat) (s : Session), fails a →
      s.Holding config capacity n blocks [] →
      (∀ s' : Session, s'.Holding config capacity n blocks [] →
        line.Proceeds stage Q s'.openAttempt.next ⟨[], turns⟩) →
      line.Receives stage Q (s.awaiting .start) ⟨a.bytes, turns⟩)
    (hrepeats : ∀ (a : Attempt) (turns : List (List (Pause × UInt8))) (n : Nat) (s : Session), repeats a →
      s.Holding config capacity n blocks [] → line.Proceeds stage Q s.acknowledge.next ⟨[], turns⟩ →
      line.Receives stage Q (s.awaiting .start) ⟨a.bytes, turns⟩)
    (hnext : ∀ (n : Nat) (s : Session), s.Holding config capacity n blocks [] →
      line.Receives stage Q ⟨s, .sending .reply⟩ ⟨[], turns⟩) :
    line.Receives stage Q ⟨s, .sending .reply⟩ ⟨[], mix.map Attempt.bytes ++ turns⟩ := by
  -- A failed attempt takes one of those that are left; a repeated block starts the count anew.
  induction hmix generalizing s attempt with
  | nil => exact hnext attempt s h
  | @failed left a rest ha _ ih =>
    refine hc.receives_attempt h fun s' hs' => hfails a _ attempt s' ha hs' fun s'' hs'' => ?_
    exact Line.Carries.proceeds_openAttempt hs'' (by omega) fun s₃ hs₃ => ih hs₃ (by omega)
  | @repeated left a rest ha _ ih =>
    refine hc.receives_attempt h fun s' hs' => hrepeats a _ attempt s' ha hs' ?_
    exact Line.Carries.proceeds_acknowledge hs' (by omega) fun s₃ hs₃ => ih hs₃ hlimit

end

/-- The transfer ended with the blocks in the buffer. -/
def Outcome.Delivers (blocks : List (Vector UInt8 blockSize)) (o : Outcome) : Prop :=
  o.ending = .received (blockSize * blocks.length) ∧
    (o.buffer.extract 0 (blockSize * blocks.length)).toList = blocks.flatMap Vector.toList

section
variable {τ : Type} {line : Line (StateM τ)} {config : Config} {stage : Sender → τ → Prop}
variable {s : Session} {capacity attempt limit : Nat} {attempts : List Attempt}
variable {blocks payloads : List (Vector UInt8 blockSize)}

theorem Session.Holding.delivers (h : s.Holding config capacity attempt blocks []) :
    Outcome.Delivers blocks ⟨.received s.filled, s.buffer⟩ := by
  have hfilled : s.filled = blockSize * blocks.length := h.filled_eq
  refine ⟨congrArg Ending.received hfilled, ?_⟩
  rw [← hfilled, Array.toList_extract, List.extract_eq_take_drop]
  exact h.contents_eq.trans (List.append_nil _)

theorem Session.Holding.previous_eq (h : s.Holding config capacity attempt blocks []) :
    s.expected - 1 = UInt8.ofNat blocks.length := by
  rw [h.expected_eq, UInt8.ofNat_add]
  exact UInt8.add_sub_cancel ..

/-- A transmission ends with its blocks behind those that the session holds. -/
theorem Transmission.receives (ht : Transmission limit blocks.length payloads attempts)
    (hc : line.Carries config stage) (h : s.Holding config capacity attempt blocks [])
    (hattempt : attempt + limit ≤ config.maxRetries.toNat) (hlimit : 1 + limit ≤ config.maxRetries.toNat)
    (hroom : blockSize * (blocks.length + payloads.length) ≤ capacity) :
    line.Receives stage (Outcome.Delivers (blocks ++ payloads)) ⟨s, .sending .reply⟩
      ⟨[], attempts.map Attempt.bytes⟩ := by
  -- On the transmission: with each block the session holds one more, and its count starts anew.
  generalize hsent : blocks.length = sent at ht
  induction ht generalizing s attempt blocks with
  | @finish sent mix hmix =>
    subst hsent
    rw [List.map_append, List.append_nil]
    refine hmix.receives hc h hattempt hlimit ?_ ?_ ?_
    · exact fun a turns n s' ha hs' hnext => ha.receives hc hs' hnext
    · intro a turns n s' ha hs' hnext
      exact Attempt.Repeats.receives (by rw [hs'.previous_eq]; exact ha.2) hc hs' hnext
    · exact fun n s' hs' => hc.receives_attempt hs' fun s'' hs'' => hc.receives_finish hs'' hs''.delivers
  | @block sent mix turns payload payloads hmix _ ih =>
    subst hsent
    have hroom' : blockSize * (blocks.length + 1) ≤ capacity := by
      rw [List.length_cons] at hroom
      exact Nat.le_trans (Nat.mul_le_mul_left _ (by omega)) hroom
    rw [List.map_append, List.map_cons]
    refine hmix.receives hc h hattempt hlimit ?_ ?_ ?_
    · intro a turns n s' ha hs' hnext
      exact Attempt.Faulty.receives (by rw [hs'.expected_eq]; exact ha) hc hs' hroom' hnext
    · intro a turns n s' ha hs' hnext
      exact Attempt.Repeats.receives (by rw [hs'.previous_eq]; exact ha.2) hc hs' hnext
    · intro n s' hs'
      refine hc.receives_attempt hs' fun s₁ hs₁ => ?_
      rw [← hs₁.expected_eq]
      refine hc.receives_block payload hs₁ hroom' fun s₂ hs₂ => ?_
      refine Line.Carries.proceeds_acknowledge hs₂ (by omega) fun s₃ hs₃ => ?_
      have hrest := ih hs₃ hlimit (by simpa [Nat.add_assoc, Nat.add_comm 1] using hroom) (by simp)
      rwa [List.append_assoc, List.singleton_append] at hrest

end

/-- Over a line that carries what its sender sends, a transmission is received as it was sent: from some
fuel on the transfer ends with all its blocks, and the buffer holds them in order. Before the first
control byte there may be anything on the line. -/
theorem Line.receive_transmission {τ : Type} {line : Line (StateM τ)} {config : Config}
    {stage : Sender → τ → Prop} {capacity : Nat} {buffer : Array UInt8}
    {payloads : List (Vector UInt8 blockSize)} {attempts : List Attempt} {noise : List UInt8} {env : τ}
    (hc : line.Carries config stage) (hmax : 1 ≤ config.maxRetries.toNat)
    (hpos : 0 < capacity) (hsize : capacity ≤ buffer.size)
    (hroom : blockSize * payloads.length ≤ capacity)
    (ht : Transmission (config.maxRetries.toNat - 1) 0 payloads attempts)
    (hstage : stage ⟨noise.map (.idle, ·), attempts.map Attempt.bytes⟩ env) :
    ∃ fuel stored env',
      (∀ more, (line.receive config capacity buffer (fuel + more)).run env =
        (.ok (.ended ⟨.received (blockSize * payloads.length), stored⟩), env')) ∧
      (stored.extract 0 (blockSize * payloads.length)).toList = payloads.flatMap Vector.toList := by
  have hlimit : 1 + (config.maxRetries.toNat - 1) ≤ config.maxRetries.toNat := by omega
  have hstart := Session.Holding.start config buffer hsize
  have hreceives : line.Receives stage (Outcome.Delivers payloads) (.start config capacity buffer)
      ⟨noise.map (.idle, ·), attempts.map Attempt.bytes⟩ := by
    refine hc.receives_flushed .retry rfl ?_ noise 0
    refine Line.Carries.proceeds_openAttempt hstart hmax fun s hs => ?_
    exact ht.receives hc hs hlimit hlimit (by simpa using hroom)
  obtain ⟨fuel, ⟨ending, stored⟩, env', hrun, rfl, hstored⟩ := hreceives env hstage
  refine ⟨fuel, stored, env', fun more => ?_, hstored⟩
  have hended : (line.run Receiver.ask (fuel + more) (.start config capacity buffer)).run env =
      (.ended ⟨.received (blockSize * payloads.length), stored⟩, env') := by
    rw [line.run_add, StateT.run_bind, hrun]
    rfl
  rw [Line.receive, Receiver.start?_eq_ok.2 ⟨hpos, hsize, rfl⟩]
  show ((do return Except.ok (← line.run Receiver.ask (fuel + more) (.start config capacity buffer)) :
    StateM τ _).run env) = _
  rw [StateT.run_bind, hended]
  rfl

/-- A block is received after a stray byte, a payload that is cut short and a wrong sum, and although it
comes once more before the end of the transmission. -/
theorem Line.receive_transmission_faults : ∃ fuel stored env',
    (∀ more, ((Line.playing 3000000).receive {} 128 (Array.replicate 130 0) (fuel + more)).run
      (⟨[1].map (.idle, ·),
        [⟨[9], [1, 4]⟩, ⟨[1, 1, 254] ++ [7, 7], []⟩,
          ⟨[1, 1, 254] ++ (Vector.replicate blockSize 7).toList ++ [0], [4]⟩,
          .ofFrame ⟨1, Vector.replicate blockSize 7⟩, ⟨[1, 1], [254, 4]⟩, .finish].map Attempt.bytes⟩, 0) =
      (.ok (.ended ⟨.received 128, stored⟩), env')) ∧
    (stored.extract 0 128).toList = [Vector.replicate blockSize 7].flatMap Vector.toList := by
  have hc : (playing 3000000).Carries {} fun sender env => env.1 = sender :=
    playing_carries (by decide) fun pause => by cases pause <;> decide
  have hfinish : Transmission 9 1 [] ([⟨[1, 1], [254, 4]⟩] ++ [.finish]) :=
    .finish (.repeated ⟨by decide, [254, 4], rfl⟩ .nil)
  have hfaults : Mix 9 (Attempt.Faulty 1) (fun a => 0 < 0 ∧ a.Repeats 0) 9
      [⟨[9], [1, 4]⟩, ⟨[1, 1, 254] ++ [7, 7], []⟩,
        ⟨[1, 1, 254] ++ (Vector.replicate blockSize 7).toList ++ [0], [4]⟩] := by
    refine .failed (.empty (.stray (by decide) (by decide) _)) (.failed (.cut (by decide)) ?_)
    exact .failed (.checksum _ (by decide +kernel) _) .nil
  exact receive_transmission hc (by decide) (by decide) (by simp) (by decide)
    (.block hfaults hfinish) rfl

end Xmodem
