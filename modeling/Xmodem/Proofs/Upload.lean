import Xmodem.Proofs.Delivery

/-!
# Senders that wait to be answered

An upload sends its blocks as frames, and then the end of the transmission. Behind each of them it waits for
an answer: an acknowledgement lets it go on with the next one, and if it is asked again, it sends the same
once more. In one of its sendings the number in the header may have been altered on the way.

`Line.Serves` says what it takes for a line to be served by an upload. Bytes may come as late as they like,
or not at all, but what has begun to come is not interrupted for as long as a flush waits: so a receiver
answers a frame, and not a part of it.
-/

namespace Xmodem

/-! ### Runs on a line -/

namespace Line
variable {τ σ ρ : Type} {line : Line (StateM τ)} {ask : σ → Ask (Turn σ ρ)} {env env' : τ}

/-- The line answers a question with this call, which leads it from one state to the other. -/
def Makes (line : Line (StateM τ)) (env : τ) : Call → τ → Prop
  | .polled found, env' => line.poll.run env = (found, env')
  | .timed now, env' => line.clock.run env = (now, env')
  | .wrote byte result, env' => (line.write byte).run env = (result, env')

theorem exists_makes {α : Type} {q : Ask α} {a : α} (h : (line.answer q).run env = (a, env')) :
    ∃ call, q.Answer call a ∧ line.Makes env call env' := by
  cases q with
  | poll next =>
    cases (line.answer_poll next rfl).symm.trans h
    exact ⟨_, .poll .., rfl⟩
  | clock next =>
    cases (line.answer_clock next rfl).symm.trans h
    exact ⟨_, .clock .., rfl⟩
  | write byte next =>
    cases (line.answer_write next rfl).symm.trans h
    exact ⟨_, .write .., rfl⟩

/-- What the line and the procedure keep in every step holds after a run. -/
theorem run_holds {P : σ → τ → Prop} {Q : ρ → τ → Prop} {fuel : Nat} {s : σ} {p : Progress σ ρ}
    (hstep : ∀ s env call turn env', P s env → (ask s).Answer call turn → line.Makes env call env' →
      turn.next.Holds (P · (line.told turn.said env')) (Q · (line.told turn.said env')))
    (h₀ : P s env) (h : (line.run ask fuel s).run env = (p, env')) : p.Holds (P · env') (Q · env') := by
  induction fuel generalizing s env with
  | zero =>
    cases h
    exact h₀
  | succ fuel ih =>
    obtain ⟨⟨turn, env₁⟩, hanswer⟩ : ∃ r, (line.answer (ask s)).run env = r := ⟨_, rfl⟩
    obtain ⟨call, ha, hm⟩ := exists_makes hanswer
    have hnext := hstep s env call turn env₁ h₀ ha hm
    rw [run_succ fuel hanswer] at h
    obtain ⟨said, next⟩ := turn
    cases next with
    | going s' => exact ih hnext h
    | ended r =>
      cases h
      exact hnext

/-- From here the wait comes to nothing. -/
def Lapses (line : Line (StateM τ)) (env : τ) : Wait → Prop
  | .arming window => ∃ env', line.Brings window env none env'
  | .listening deadline => ∃ env', line.Waits deadline env none env'
  | .checking deadline => deadline.reached (line.clock.run env).1 = true ∨
      deadline.reached (line.clock.run env).1 = false ∧
        ∃ env', line.Waits deadline (line.clock.run env).2 none env'

section
variable {wait wait' : Wait} {call : Call}

theorem lapses_of_going (hm : line.Makes env call env') (hs : wait.Step call (.going wait'))
    (h : line.Lapses env' wait') : line.Lapses env wait := by
  cases hs with
  | @armed window now =>
    have hclock : line.clock.run env = (now, env') := hm
    obtain ⟨env'', hwaits⟩ := h
    refine ⟨env'', ?_⟩
    rw [Brings, hclock]
    exact hwaits
  | missed =>
    obtain hreached | ⟨hearly, env'', hwaits⟩ := h
    · exact ⟨_, .lapsed hm rfl hreached⟩
    · exact ⟨env'', .early hm rfl hearly hwaits⟩
  | @early deadline now hearly =>
    have hclock : line.clock.run env = (now, env') := hm
    refine .inr ?_
    rw [hclock]
    exact ⟨hearly, h⟩

theorem lapses_of_ended (hm : line.Makes env call env') (hs : wait.Step call (.ended (.ok none))) :
    line.Lapses env wait := by
  cases hs with
  | @late deadline now hlate =>
    have hclock : line.clock.run env = (now, env') := hm
    refine .inl ?_
    rw [hclock]
    exact hlate

end

end Line

/-! ### Uploads -/

structure Upload where
  blocks : List (Vector UInt8 blockSize)
  /-- The sending in which the number is altered, and what it becomes. -/
  altered : Option (Nat × UInt8)

namespace Upload

structure State where
  /-- What was sent in each sending so far: the index of a block, or, for the end of the transmission, their
  number. -/
  sent : List Nat := []
  /-- What is still to come of the last sending. -/
  pending : List UInt8 := []
  /-- Some of the last sending has come. -/
  begun : Bool := false

/-- The receiver has got a part of what was sent. -/
def State.Amid (st : State) : Prop :=
  st.begun = true ∧ st.pending ≠ []

/-- The number with which a block arrives. -/
def number (u : Upload) (sending block : Nat) : UInt8 :=
  match u.altered with
  | none => UInt8.ofNat (block + 1)
  | some (altered, number) => if altered = sending then number else UInt8.ofNat (block + 1)

/-- The bytes that arrive in a sending. -/
def item (u : Upload) (sending block : Nat) : List UInt8 :=
  match u.blocks[block]? with
  | some payload => (Frame.bytes ⟨UInt8.ofNat (block + 1), payload⟩).set 1 (u.number sending block)
  | none => if block = u.blocks.length then [Control.eot] else []

def send (u : Upload) (st : State) (block : Nat) : State :=
  ⟨st.sent ++ [block], u.item st.sent.length block, false⟩

/-- What a control byte leads to. As long as there is something to come it is not heard. -/
def hear (u : Upload) (byte : UInt8) (st : State) : State :=
  if st.pending ≠ [] then st
  else match st.sent.getLast? with
    | none => if byte = Control.nak then u.send st 0 else st
    | some block =>
      if byte = Control.ack then u.send st (block + 1)
      else if byte = Control.nak then u.send st block
      else st

/-- What a call has to do with the upload. A call that fails leaves open what has become of it. -/
inductive Step (u : Upload) : State → Call → State → Prop
  | taken (sent : List Nat) (byte : UInt8) (pending : List UInt8) (begun : Bool) :
    Step u ⟨sent, byte :: pending, begun⟩ (.polled (.ok (some byte))) ⟨sent, pending, true⟩
  | missed (st : State) : Step u st (.polled (.ok none)) st
  | timed (st : State) (now : UInt32) : Step u st (.timed now) st
  | heard (st : State) (byte : UInt8) : Step u st (.wrote byte (.ok ())) (u.hear byte st)
  | failed {st st' : State} {call : Call} {e : IoError} (h : call.error? = some e) : Step u st call st'

/-- A block is lost: its number became that of the block before it, and the sending was acknowledged. -/
def Lost (u : Upload) (sent : List Nat) (block : Nat) : Prop :=
  block < u.blocks.length ∧ ∃ sending, u.altered = some (sending, UInt8.ofNat block) ∧
    sent[sending]? = some block ∧ sent[sending + 1]? = some (block + 1)

variable {u : Upload} {st : State} {sent : List Nat} {sending block held : Nat}

theorem ofNat_succ_ne (n : Nat) : UInt8.ofNat (n + 1) ≠ UInt8.ofNat n := by
  have hone : UInt8.ofNat 1 = 1 := rfl
  rw [UInt8.ofNat_add]
  grind

theorem ofNat_add_two_ne (n : Nat) : UInt8.ofNat (n + 2) ≠ UInt8.ofNat n := by
  have htwo : UInt8.ofNat 2 = 2 := rfl
  rw [UInt8.ofNat_add]
  grind

/-! ### What arrives -/

theorem item_of_lt (h : block < u.blocks.length) :
    u.item sending block = [Control.soh, u.number sending block, ~~~UInt8.ofNat (block + 1)] ++
      u.blocks[block].toList ++ [checksum u.blocks[block].toList] := by
  rw [item, List.getElem?_eq_getElem h]
  rfl

theorem item_of_le (h : u.blocks.length ≤ block) :
    u.item sending block = if block = u.blocks.length then [Control.eot] else [] := by
  rw [item, List.getElem?_eq_none h]

theorem lt_of_item_soh {rest : List UInt8} (h : u.item sending block = Control.soh :: rest) :
    block < u.blocks.length := by
  by_contra hge
  rw [item_of_le (Nat.le_of_not_lt hge)] at h
  split at h
  · exact absurd (List.cons.inj h).1 (by decide)
  · cases h

theorem eq_of_item_eot {rest : List UInt8} (h : u.item sending block = Control.eot :: rest) :
    block = u.blocks.length := by
  rcases Nat.lt_or_ge block u.blocks.length with hlt | hge
  · rw [item_of_lt hlt] at h
    exact absurd (List.cons.inj h).1 (by decide)
  · rw [item_of_le hge] at h
    split at h
    · assumption
    · cases h

theorem altered_of_number (h : u.number sending block ≠ UInt8.ofNat (block + 1)) :
    u.altered = some (sending, u.number sending block) := by
  unfold number at h ⊢
  split at h
  · exact absurd rfl h
  · split at h
    · rename_i haltered heq
      subst heq
      simpa using haltered
    · exact absurd rfl h

theorem number_of_altered {number : UInt8} (h : u.altered = some (sending, number)) :
    u.number sending block = number := by
  simp [Upload.number, h]

/-- What the last sending brings. -/
def current (u : Upload) (st : State) : List UInt8 :=
  match st.sent.getLast? with
  | none => []
  | some block => u.item (st.sent.length - 1) block

theorem current_of_last (h : st.sent.getLast? = some block) :
    u.current st = u.item (st.sent.length - 1) block := by
  rw [current, h]

/-! ### Lost blocks -/

theorem Lost.concat (h : u.Lost sent held) : u.Lost (sent ++ [block]) held := by
  obtain ⟨hlt, sending, haltered, hsent, hnext⟩ := h
  have hlength := (List.getElem?_eq_some_iff.1 hnext).1
  refine ⟨hlt, sending, haltered, ?_, ?_⟩
  · rw [List.getElem?_append_left (by omega)]
    exact hsent
  · rw [List.getElem?_append_left hlength]
    exact hnext

theorem Lost.of_concat (h : u.Lost (sent ++ [block]) held) :
    u.Lost sent held ∨ sent.getLast? = some held ∧ block = held + 1 ∧
      u.altered = some (sent.length - 1, UInt8.ofNat held) := by
  obtain ⟨hlt, sending, haltered, hsent, hnext⟩ := h
  rcases Nat.lt_or_ge (sending + 1) sent.length with hin | hout
  · rw [List.getElem?_append_left (by omega)] at hsent
    rw [List.getElem?_append_left hin] at hnext
    exact .inl ⟨hlt, sending, haltered, hsent, hnext⟩
  · have hlength := (List.getElem?_eq_some_iff.1 hnext).1
    rw [List.length_append, List.length_singleton] at hlength
    have hlast : sending + 1 = sent.length := by omega
    have hsending : sending = sent.length - 1 := by omega
    rw [hlast, List.getElem?_append_right (Nat.le_refl _), Nat.sub_self] at hnext
    rw [List.getElem?_append_left (by omega)] at hsent
    refine .inr ⟨?_, Option.some.inj hnext, hsending ▸ haltered⟩
    rw [List.getLast?_eq_getElem?, ← hsending]
    exact hsent

/-- How an upload stands to a receiver that holds so many of its blocks. -/
inductive Abreast (u : Upload) (sent : List Nat) (held : Nat) : Prop
  | level (hlast : sent.getLast? = some held) (hlost : ∀ block, ¬ u.Lost sent block)
  | ahead (hlast : sent.getLast? = some (held + 1)) (hlost : u.Lost sent held)

/-- What is behind a lost block arrives with its own number. -/
theorem number_behind (hlast : sent.getLast? = some (held + 1)) (hlost : u.Lost sent held) :
    u.number (sent.length - 1) (held + 1) = UInt8.ofNat (held + 2) := by
  by_contra hne
  obtain ⟨-, sending, haltered, hsent, -⟩ := hlost
  have hsame := (altered_of_number hne).symm.trans haltered
  obtain rfl : sent.length - 1 = sending := (Prod.mk.inj (Option.some.inj hsame)).1
  rw [← List.getLast?_eq_getElem?, hlast] at hsent
  simp at hsent

theorem Abreast.level_of_number {byte : UInt8} {rest : List UInt8} (h : u.Abreast st.sent held)
    (hcurrent : u.current st = Control.soh :: byte :: rest) (hbyte : byte ≠ UInt8.ofNat (held + 2)) :
    st.sent.getLast? = some held ∧ (∀ block, ¬ u.Lost st.sent block) ∧ held < u.blocks.length ∧
      byte = u.number (st.sent.length - 1) held := by
  cases h with
  | level hlast hlost =>
    rw [current_of_last hlast] at hcurrent
    have hlt := lt_of_item_soh hcurrent
    rw [item_of_lt hlt] at hcurrent
    have hnumber := (List.cons.inj (List.cons.inj hcurrent).2).1
    exact ⟨hlast, hlost, hlt, hnumber.symm⟩
  | ahead hlast hlost =>
    rw [current_of_last hlast] at hcurrent
    rw [item_of_lt (lt_of_item_soh hcurrent), number_behind hlast hlost] at hcurrent
    have hnumber := (List.cons.inj (List.cons.inj hcurrent).2).1
    exact absurd hnumber.symm hbyte

theorem Abreast.altered_of_previous {rest : List UInt8} (h : u.Abreast st.sent held)
    (hcurrent : u.current st = Control.soh :: UInt8.ofNat held :: rest) :
    st.sent.getLast? = some held ∧ held < u.blocks.length ∧
      u.altered = some (st.sent.length - 1, UInt8.ofNat held) := by
  obtain ⟨hlast, -, hlt, hnumber⟩ := h.level_of_number hcurrent (ofNat_add_two_ne held).symm
  refine ⟨hlast, hlt, ?_⟩
  rw [hnumber]
  refine altered_of_number ?_
  rw [← hnumber]
  exact (ofNat_succ_ne held).symm

theorem getLast?_of_current_eot {rest : List UInt8} (h : u.current st = Control.eot :: rest) :
    st.sent.getLast? = some u.blocks.length := by
  unfold current at h
  split at h
  · cases h
  · rename_i block hlast
    rw [hlast, eq_of_item_eot h]

/-! ### What a control byte leads to -/

theorem hear_of_pending (byte : UInt8) (h : st.pending ≠ []) : u.hear byte st = st :=
  if_pos h

theorem hear_ack (h : st.pending = []) (hlast : st.sent.getLast? = some block) :
    u.hear Control.ack st = u.send st (block + 1) := by
  simp [hear, h, hlast]

theorem hear_nak (h : st.pending = []) (hlast : st.sent.getLast? = some block) :
    u.hear Control.nak st = u.send st block := by
  have hne : Control.nak ≠ Control.ack := by decide
  simp [hear, h, hlast, hne]

theorem hear_nak_first (h : st.pending = []) (hsent : st.sent = []) :
    u.hear Control.nak st = u.send st 0 := by
  simp [hear, h, hsent]

theorem Abreast.resend (h : u.Abreast sent held) (hlast : sent.getLast? = some block) :
    u.Abreast (sent ++ [block]) held := by
  cases h with
  | level hlevel hlost =>
    obtain rfl : block = held := Option.some.inj (hlast.symm.trans hlevel)
    refine .level List.getLast?_concat fun other h => ?_
    rcases h.of_concat with h | ⟨hother, hnext, -⟩
    · exact hlost other h
    · obtain rfl : block = other := Option.some.inj (hlast.symm.trans hother)
      omega
  | ahead hahead hlost =>
    obtain rfl : block = held + 1 := Option.some.inj (hlast.symm.trans hahead)
    exact .ahead List.getLast?_concat hlost.concat

/-- A block that arrived with its own number is not lost. -/
theorem Abreast.next (hlast : sent.getLast? = some held) (hlost : ∀ block, ¬ u.Lost sent block)
    (hnumber : u.number (sent.length - 1) held = UInt8.ofNat (held + 1)) :
    u.Abreast (sent ++ [held + 1]) (held + 1) := by
  refine .level List.getLast?_concat fun other h => ?_
  rcases h.of_concat with h | ⟨hother, -, haltered⟩
  · exact hlost other h
  · obtain rfl : held = other := Option.some.inj (hlast.symm.trans hother)
    rw [number_of_altered haltered] at hnumber
    exact ofNat_succ_ne held hnumber.symm

/-- A block that was taken for the one before it is lost. -/
theorem Abreast.skip (hlast : sent.getLast? = some held) (hlt : held < u.blocks.length)
    (haltered : u.altered = some (sent.length - 1, UInt8.ofNat held)) :
    u.Abreast (sent ++ [held + 1]) held := by
  have hpos : 0 < sent.length := by
    rw [List.length_pos_iff]
    rintro rfl
    cases hlast
  refine .ahead List.getLast?_concat ⟨hlt, sent.length - 1, haltered, ?_, ?_⟩
  · rw [List.getElem?_append_left (by omega), ← List.getLast?_eq_getElem?]
    exact hlast
  · rw [Nat.sub_add_cancel hpos, List.getElem?_append_right (Nat.le_refl _), Nat.sub_self]
    rfl

/-- What is sent behind the end of the transmission loses nothing. -/
theorem lost_hear_iff (byte : UInt8) (hlast : st.sent.getLast? = some u.blocks.length) :
    u.Lost (u.hear byte st).sent block ↔ u.Lost st.sent block := by
  have hsend (next : Nat) : u.Lost (u.send st next).sent block ↔ u.Lost st.sent block := by
    refine ⟨fun h => ?_, fun h => h.concat⟩
    rcases h.of_concat with hlost | ⟨hblock, -, -⟩
    · exact hlost
    · obtain rfl : u.blocks.length = block := Option.some.inj (hlast.symm.trans hblock)
      exact absurd h.1 (Nat.lt_irrefl _)
  unfold hear
  rw [hlast]
  dsimp only
  split
  · rfl
  · split
    · exact hsend _
    · split
      · exact hsend _
      · rfl

/-- What has not begun to come is still to come as a whole. -/
def State.Proper (u : Upload) (st : State) : Prop :=
  st.begun = false → st.pending = u.current st

theorem proper_send (u : Upload) (st : State) (block : Nat) : (u.send st block).Proper u := by
  intro _
  rw [current_of_last (List.getLast?_concat : (u.send st block).sent.getLast? = some block)]
  simp [send]

theorem State.Proper.hear (h : st.Proper u) (byte : UInt8) : (u.hear byte st).Proper u := by
  unfold Upload.hear
  repeat' split
  all_goals first
    | exact h
    | exact proper_send _ _ _

theorem State.Proper.sent_ne_nil (h : st.Proper u) (hbegun : st.begun = false) (hpending : st.pending ≠ []) :
    st.sent ≠ [] := by
  intro hsent
  rw [h hbegun, current, hsent] at hpending
  exact hpending rfl

/-- An upload that is asked again sends the same again, or has not begun to send it. -/
theorem Abreast.hear_nak (h : st.sent = [] ∧ held = 0 ∨ u.Abreast st.sent held) (hproper : st.Proper u)
    (hamid : ¬ st.Amid) :
    u.Abreast (u.hear Control.nak st).sent held ∧ (u.hear Control.nak st).begun = false := by
  by_cases hpending : st.pending = []
  · rcases h with ⟨hsent, rfl⟩ | h
    · rw [hear_nak_first hpending hsent]
      refine ⟨?_, rfl⟩
      show u.Abreast (st.sent ++ [0]) 0
      rw [hsent]
      exact .level rfl fun block ⟨_, _, _, _, hnext⟩ => by simp at hnext
    · obtain ⟨block, hlast⟩ : ∃ block, st.sent.getLast? = some block := by
        cases h with
        | level hlast _ => exact ⟨_, hlast⟩
        | ahead hlast _ => exact ⟨_, hlast⟩
      rw [Upload.hear_nak hpending hlast]
      exact ⟨h.resend hlast, rfl⟩
  · have hbegun : st.begun = false := by
      rw [← Bool.not_eq_true]
      exact fun hbegun => hamid ⟨hbegun, hpending⟩
    rw [hear_of_pending _ hpending]
    exact ⟨h.resolve_left fun hnone => hproper.sent_ne_nil hbegun hpending hnone.1, hbegun⟩

end Upload

/-! ### Lines -/

/-- An upload serves the line: `stage` relates its state to that of the line. -/
structure Line.Serves {τ : Type} (line : Line (StateM τ)) (config : Config) (u : Upload)
    (stage : Upload.State → τ → Prop) : Prop where
  answered : ∀ (st : Upload.State) (env : τ) (call : Call) (env' : τ), stage st env →
    line.Makes env call env' → ∃ st', u.Step st call st' ∧ stage st' env'
  reported : ∀ (message : Message) (st : Upload.State) (env : τ), stage st env →
    stage st ((line.report message).run env).2
  steady : ∀ (st : Upload.State) (env env' : τ), stage st env → st.Amid →
    ¬ line.Brings config.flushIdle env none env'

/-- A line on which bytes do not wait, and so many microseconds pass in each poll that finds none. -/
def Line.uploading (u : Upload) (lapse : UInt32) : Line (StateM (Upload.State × UInt32)) where
  poll
    | (⟨sent, byte :: pending, _⟩, now) => (.ok (some byte), (⟨sent, pending, true⟩, now))
    | (st, now) => (.ok none, (st, now + lapse))
  write byte
    | (st, now) => (.ok (), (u.hear byte st, now))
  clock
    | (st, now) => (now, (st, now))
  report _ := pure ()

theorem Line.uploading_serves (config : Config) (u : Upload) (lapse : UInt32) :
    (uploading u lapse).Serves config u fun st env => env.1 = st := by
  refine ⟨?_, ?_, ?_⟩
  · rintro _ ⟨st, now⟩ call env' rfl hm
    cases call with
    | polled found =>
      match st, hm with
      | ⟨sent, byte :: pending, begun⟩, hm =>
        cases hm
        exact ⟨_, .taken .., rfl⟩
      | ⟨sent, [], begun⟩, hm =>
        cases hm
        exact ⟨_, .missed _, rfl⟩
    | timed now =>
      cases hm
      exact ⟨_, .timed .., rfl⟩
    | wrote byte result =>
      cases hm
      exact ⟨_, .heard .., rfl⟩
  · rintro message _ ⟨st, now⟩ rfl
    rfl
  · rintro _ ⟨st, now⟩ env' rfl ⟨-, hpending⟩ hbrings
    -- What is to come is found at once, so no wait lapses.
    match st, hbrings with
    | ⟨sent, byte :: pending, begun⟩, .lapsed h₁ _ _ => cases h₁
    | ⟨sent, byte :: pending, begun⟩, .early h₁ _ _ _ => cases h₁
    | ⟨sent, [], begun⟩, _ => exact hpending rfl

end Xmodem
