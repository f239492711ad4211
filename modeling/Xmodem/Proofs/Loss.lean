import Xmodem.Proofs.Reception
import Xmodem.Proofs.Upload

/-!
# What an altered number can lose

A receiver is level with an upload as long as it expects the block that is being sent. It gets behind
when the number of a block became that of the one before it: it takes the block for a repeated one and
acknowledges it, and the upload goes on (`Upload.Abreast`). From there on no block is accepted any more,
since the next number is neither expected nor repeated; only the end of the transmission is. So a transfer
that ends well has all the blocks, unless the last one was lost that way.
-/

namespace Xmodem

/-! ### The receiver -/

/-- What the session does, and what it has stored of the block in hand, as seen from the upload. -/
def Session.Follows (s : Session) (u : Upload) (st : Upload.State) (held : Nat) : Activity → Prop
  | .reading field _ => u.Abreast st.sent held ∧ u.current st = s.heardBefore field ++ st.pending ∧
      s.reply = .nak
  | .flushing .repeated _ => st.begun = true ∧ st.sent.getLast? = some held ∧
      held < u.blocks.length ∧ u.altered = some (st.sent.length - 1, UInt8.ofNat held)
  | .flushing _ _ => (st.sent = [] ∧ held = 0 ∨ u.Abreast st.sent held) ∧ s.reply = .nak
  | .sending .reply => u.Abreast (u.hear s.reply.byte st).sent held ∧ (u.hear s.reply.byte st).begun = false
  | .sending _ => u.Abreast st.sent held ∧ st.sent.getLast? = some u.blocks.length

namespace Receiver

/-- The transfer has failed, or is about to fail. -/
def Doomed : Receiver → Prop
  | ⟨_, .flushing (.unexpected _) _⟩ => True
  | ⟨_, .sending (.cancel ..)⟩ => True
  | _ => False

/-- The receiver holds the first blocks of the upload. -/
structure Mirrors (u : Upload) (config : Config) (capacity : Nat) (st : Upload.State) (r : Receiver) :
    Prop where
  proper : st.Proper u
  follows : ∃ held bytes, held ≤ u.blocks.length ∧ bytes.length = r.activity.held ∧
    r.session.Holding config capacity r.session.attempts.toNat (u.blocks.take held) bytes ∧
      r.session.Follows u st held r.activity

/-- The receiver holds the first blocks of the upload, unless its transfer fails. -/
def Tracks (u : Upload) (config : Config) (capacity : Nat) (st : Upload.State) (r : Receiver) : Prop :=
  r.Doomed ∨ r.Mirrors u config capacity st

end Receiver

/-- A transfer that ends well has all the blocks of an upload, but for one that is lost. -/
def Outcome.Brings (u : Upload) (st : Upload.State) (o : Outcome) : Prop :=
  ∀ n, o.ending = .received n →
    ((∀ block, ¬ u.Lost st.sent block) → n = blockSize * u.blocks.length ∧
      (o.buffer.extract 0 n).toList = u.blocks.flatMap Vector.toList) ∧
    ((∃ block, u.Lost st.sent block) → n + blockSize = blockSize * u.blocks.length ∧
      (o.buffer.extract 0 n).toList = u.blocks.dropLast.flatMap Vector.toList)

/-- What an answer of a wait has to do with the upload. -/
inductive Upload.Yields (st : State) : Option UInt8 → State → Prop
  | byte {byte : UInt8} {pending : List UInt8} (h : st.pending = byte :: pending) :
    Yields st (some byte) ⟨st.sent, pending, true⟩
  | silence : Yields st none st

namespace Wait.Step
variable {wait : Wait} {call : Call} {u : Upload} {st st' : Upload.State}

theorem upload_eq_of_going {wait' : Wait} (h : wait.Step call (.going wait')) (hu : u.Step st call st') :
    st' = st := by
  cases h with
  | armed => cases hu with
    | timed => rfl
    | failed he => cases he
  | missed => cases hu with
    | missed => rfl
    | failed he => cases he
  | early _ => cases hu with
    | timed => rfl
    | failed he => cases he

theorem yields {byte : Option UInt8} (h : wait.Step call (.ended (.ok byte))) (hu : u.Step st call st') :
    Upload.Yields st byte st' := by
  cases h with
  | found => cases hu with
    | taken sent byte pending begun => exact .byte rfl
    | failed he => cases he
  | late _ => cases hu with
    | timed => exact .silence
    | failed he => cases he

end Wait.Step

theorem Drain.Step.upload_of_going {d d' : Drain} {call : Call} {u : Upload} {st st' : Upload.State}
    (h : d.Step call (.going d')) (hu : u.Step st call st') (hproper : st.Proper u) :
    st'.Proper u ∧ st'.sent = st.sent ∧ (st.begun = true → st'.begun = true) := by
  cases h with
  | waiting h =>
    obtain rfl := h.upload_eq_of_going hu
    exact ⟨hproper, rfl, id⟩
  | discarded h =>
    cases h.yields hu with
    | byte hpending => exact ⟨nofun, rfl, fun _ => rfl⟩

namespace Session
variable {s : Session} {u : Upload} {st st' : Upload.State} {config : Config} {capacity size held : Nat}
variable {p : Progress Receiver Outcome}

open Receiver

theorem Holding.ofNat_expected {attempt : Nat} {bytes : List UInt8}
    (h : s.Holding config capacity attempt (u.blocks.take held) bytes) (hle : held ≤ u.blocks.length) :
    s.expected = UInt8.ofNat (held + 1) := by
  rw [h.expected_eq, List.length_take_of_le hle]

/-- A frame that was read as a whole was the expected one, and nothing is left of it. -/
theorem Holding.commit_current {attempt : Nat} {bytes pending : List UInt8} {sum : UInt8}
    (h : s.Holding config capacity attempt (u.blocks.take held) bytes) (hlength : bytes.length = blockSize)
    (hle : held ≤ u.blocks.length) (habreast : u.Abreast st.sent held)
    (hcurrent : u.current st = s.heardBefore (.checksum sum) ++ sum :: pending) :
    held < u.blocks.length ∧ pending = [] ∧ st.sent.getLast? = some held ∧
      u.Abreast (st.sent ++ [held + 1]) (held + 1) ∧
        s.commit.Holding config capacity attempt (u.blocks.take (held + 1)) [] := by
  have hexpected := h.ofNat_expected hle
  have hother : s.expected ≠ UInt8.ofNat (held + 2) := by
    rw [hexpected]
    exact (Upload.ofNat_succ_ne (held + 1)).symm
  have hframe : u.current st =
      [Control.soh, s.expected, ~~~s.expected] ++ (bytes ++ sum :: pending) := by
    have hdrop := h.drop_contents_eq
    rw [hlength] at hdrop
    rw [hcurrent, ← hdrop]
    simp [heardBefore, Field.held]
  obtain ⟨hlast, hlost, hlt, hnumber⟩ := habreast.level_of_number hframe hother
  rw [Upload.current_of_last hlast, Upload.item_of_lt hlt, List.append_assoc] at hframe
  have hbody := (List.append_inj hframe rfl).2
  obtain ⟨hpayload, hrest⟩ := List.append_inj hbody (by rw [hlength, Vector.length_toList])
  refine ⟨hlt, (List.cons.inj hrest).2.symm, hlast, .next hlast hlost (hnumber.symm.trans hexpected), ?_⟩
  rw [List.take_succ_eq_append_getElem hlt]
  exact Holding.commit (hpayload ▸ h)

theorem Opens.tracks (h : s.Opens p) (hproper : st.Proper u) (hle : held ≤ u.blocks.length)
    (hh : s.Holding config capacity s.attempts.toNat (u.blocks.take held) [])
    (habreast : u.Abreast (u.hear s.reply.byte st).sent held)
    (hbegun : (u.hear s.reply.byte st).begun = false) :
    p.Holds (Receiver.Tracks u config capacity st) (Outcome.Brings u st) := by
  cases h with
  | opened _ => exact .inr ⟨hproper, held, [], hle, rfl, hh.attempts _, habreast, hbegun⟩
  | abandoned _ => exact .inl trivial
  | exhausted _ => exact fun _ => nofun

theorem tracks_acknowledge {attempt block : Nat} (hproper : st.Proper u) (hle : held ≤ u.blocks.length)
    (hh : s.Holding config capacity attempt (u.blocks.take held) []) (hpending : st.pending = [])
    (hlast : st.sent.getLast? = some block) (hnext : u.Abreast (st.sent ++ [block + 1]) held) :
    s.acknowledge.next.Holds (Receiver.Tracks u config capacity st) (Outcome.Brings u st) := by
  have hack : u.hear Control.ack st = u.send st (block + 1) := Upload.hear_ack hpending hlast
  refine Opens.tracks (s := { s with attempts := 0, reply := .ack }) (opens_openAttempt _) hproper hle
    ((hh.attempts 0).reply .ack) ?_ ?_
  · show u.Abreast (u.hear Control.ack st).sent held
    rw [hack]
    exact hnext
  · show (u.hear Control.ack st).begun = false
    rw [hack]
    rfl

theorem Hears.tracks {field : Field} {wait : Wait} {byte : Option UInt8} (h : s.Hears field byte p)
    (hcap : capacity ≤ size) (hi : Inv config capacity size ⟨s, .reading field wait⟩)
    (ht : Mirrors u config capacity st ⟨s, .reading field wait⟩) (hy : Upload.Yields st byte st') :
    p.Holds (Receiver.Tracks u config capacity st') (Outcome.Brings u st') := by
  obtain ⟨hproper, held, bytes, hle, hlength, hh, habreast, hcurrent, hnak⟩ := ht
  have hsize : s.filled ≤ s.buffer.size := hi.fits.filled_le hi.within hcap
  have hexpected := hh.ofNat_expected hle
  have hbytes (hnone : field.held = 0) : bytes = [] :=
    List.eq_nil_of_length_eq_zero (hlength.trans hnone)
  have hretry (st' : Upload.State) (hproper' : st'.Proper u) (hsent : st'.sent = st.sent) :
      (s.takeBack field.held).retry.next.Holds (Receiver.Tracks u config capacity st')
        (Outcome.Brings u st') := by
    have hback := hh.takeBack
    rw [show bytes.length = field.held from hlength] at hback
    exact .inr ⟨hproper', held, [], hle, rfl, hback, .inr (hsent ▸ habreast), hnak⟩
  cases hy with
  | silence =>
    cases h with
    | rejected _ => exact hretry st hproper rfl
  | @byte byte pending hpending =>
    have hproper' : Upload.State.Proper u ⟨st.sent, pending, true⟩ := nofun
    have hread (s' : Session) (field' : Field) (bytes' : List UInt8) (hlength' : bytes'.length = field'.held)
        (hh' : s'.Holding config capacity s'.attempts.toNat (u.blocks.take held) bytes')
        (hheard : s'.heardBefore field' = s.heardBefore field ++ [byte]) (hnak' : s'.reply = .nak) :
        (s'.read field').next.Holds (Receiver.Tracks u config capacity ⟨st.sent, pending, true⟩)
          (Outcome.Brings u ⟨st.sent, pending, true⟩) := by
      refine .inr ⟨hproper', held, bytes', hle, hlength', hh', habreast, ?_, hnak'⟩
      rw [hheard, List.append_assoc]
      rw [hpending] at hcurrent
      exact hcurrent
    cases h with
    | header =>
      obtain rfl := hbytes rfl
      exact hread s .number [] rfl hh rfl hnak
    | farewell =>
      obtain rfl := hbytes rfl
      have heot : u.current st = Control.eot :: pending := hpending ▸ hcurrent
      exact .inr ⟨hproper', held, [], hle, rfl, hh, habreast, Upload.getLast?_of_current_eot heot⟩
    | repeated =>
      obtain rfl := hbytes rfl
      have hprevious : s.expected - 1 = UInt8.ofNat held := by
        rw [hh.previous_eq, List.length_take_of_le hle]
      rw [hpending, hprevious] at hcurrent
      exact .inr ⟨hproper', held, [], hle, rfl, hh, rfl, habreast.altered_of_previous hcurrent⟩
    | unexpected _ _ => exact .inl trivial
    | noRoom _ => exact .inl trivial
    | number _ =>
      obtain rfl := hbytes rfl
      exact hread s .complement [] rfl hh rfl hnak
    | complement =>
      obtain rfl := hbytes rfl
      refine hread s (.payload 0 0) [] rfl hh ?_ hnak
      show [Control.soh, s.expected, ~~~s.expected] ++ s.contents.drop s.filled = _
      rw [s.drop_contents]
      rfl
    | @payload taken sum byte _ =>
      have hstored := hh.store byte (hi.fits.2.lt_size hi.within hcap hi.fits.1)
      refine hread (s.store byte) (.payload (taken + 1) (sum + byte)) (bytes ++ [byte]) ?_ hstored ?_ hnak
      · rw [List.length_append, hlength]
        rfl
      · exact heardBefore_store taken sum byte hsize
    | @lastPayload taken sum byte hge =>
      have hfull : taken + 1 = blockSize := Nat.le_antisymm hi.fits.1 hge
      have hstored := hh.store byte (hi.fits.2.lt_size hi.within hcap hi.fits.1)
      refine hread (s.store byte) (.checksum (sum + byte)) (bytes ++ [byte]) ?_ hstored ?_ hnak
      · rw [List.length_append, hlength]
        exact hfull
      · rw [← heardBefore_store taken sum byte hsize, hfull]
        rfl
    | checksum =>
      rw [hpending] at hcurrent
      obtain ⟨hlt, rfl, hlast, hnext, hcommit⟩ := hh.commit_current hlength hle habreast hcurrent
      exact tracks_acknowledge hproper' hlt hcommit rfl hlast hnext
    | rejected _ => exact hretry _ hproper' rfl

/-- A receiver that has got the end of the transmission is level, or one block behind. -/
theorem Holding.brings {attempt : Nat} {byte : UInt8}
    (h : s.Holding config capacity attempt (u.blocks.take held) []) (habreast : u.Abreast st.sent held)
    (hfinish : st.sent.getLast? = some u.blocks.length) (hle : held ≤ u.blocks.length) :
    Outcome.Brings u (u.hear byte st) ⟨.received s.filled, s.buffer⟩ := by
  obtain ⟨hending, hstored⟩ := h.delivers
  rw [List.length_take_of_le hle] at hending hstored
  rintro n ⟨⟩
  have hfilled : s.filled = blockSize * held := Ending.received.inj hending
  simp only [Upload.lost_hear_iff byte hfinish]
  rw [hfilled]
  refine ⟨fun hnone => ?_, fun ⟨block, hsome⟩ => ?_⟩
  · cases habreast with
    | level hlast _ =>
      obtain rfl : u.blocks.length = held := Option.some.inj (hfinish.symm.trans hlast)
      rw [List.take_length] at hstored
      exact ⟨rfl, hstored⟩
    | ahead _ hlost => exact absurd hlost (hnone held)
  · cases habreast with
    | level _ hlost => exact absurd hsome (hlost block)
    | ahead hlast _ =>
      have hlength : u.blocks.length = held + 1 := Option.some.inj (hfinish.symm.trans hlast)
      rw [hlength, List.dropLast_eq_take, hlength]
      exact ⟨rfl, hstored⟩

end Session

namespace Receiver
variable {r : Receiver} {u : Upload} {st st' : Upload.State} {config : Config} {capacity size : Nat}
variable {call : Call} {turn : Receiver.Turn}

theorem Doomed.step (hd : r.Doomed) (hs : r.Step call turn) :
    turn.next.Holds Doomed fun o => ∀ n, o.ending ≠ .received n := by
  cases hs with
  | waiting _ => cases hd
  | heard _ => cases hd
  | unheard _ => exact trivial
  | draining _ =>
    cases ‹FlushCause› with
    | unexpected received => exact trivial
    | _ => cases hd
  | drained _ =>
    cases ‹FlushCause› with
    | unexpected received => exact trivial
    | _ => cases hd
  | undrained _ => exact trivial
  | @wrote s what result =>
    cases what with
    | cancel error left =>
      have hwrites := s.writes_wrote (.cancel error left) result
      generalize (s.wrote (.cancel error left) result).next = p at hwrites ⊢
      cases hwrites with
      | broken _ e => exact trivial
      | cancelling => exact trivial
      | cancelled => exact fun _ => nofun
    | _ => cases hd

theorem Mirrors.step (ht : r.Mirrors u config capacity st) (hcap : capacity ≤ size)
    (hi : r.Inv config capacity size) (hs : r.Step call turn) (hu : u.Step st call st')
    (hamid : ∀ s cause d, r = ⟨s, .flushing cause d⟩ → d.wait.Step call (.ended (.ok none)) →
      ¬ st.Amid) :
    turn.next.Holds (Receiver.Tracks u config capacity st') (Outcome.Brings u st') := by
  have hmirrors := ht
  obtain ⟨hproper, held, bytes, hle, hlength, hh, hfollows⟩ := ht
  cases hs with
  | waiting h =>
    obtain rfl := h.upload_eq_of_going hu
    exact .inr ⟨hproper, held, bytes, hle, hlength, hh, hfollows⟩
  | heard h => exact (Session.hears_heard _ _ _).tracks hcap hi hmirrors (h.yields hu)
  | unheard _ => exact .inl trivial
  | @draining s cause d d' call said h =>
    obtain ⟨hproper', hsent, hbegun⟩ := (Drain.Step.of_answer h).upload_of_going hu hproper
    cases cause with
    | retry =>
      refine .inr ⟨hproper', held, bytes, hle, hlength, hh, ?_⟩
      show (st'.sent = [] ∧ held = 0 ∨ u.Abreast st'.sent held) ∧ s.reply = .nak
      rw [hsent]
      exact hfollows
    | repeated =>
      obtain ⟨hb, hrest⟩ := hfollows
      refine .inr ⟨hproper', held, bytes, hle, hlength, hh, hbegun hb, ?_⟩
      rw [hsent]
      exact hrest
    | unexpected received => exact .inl trivial
  | @drained s cause d call said count h =>
    cases Drain.Step.of_answer h with
    | idle hidle =>
      have hidling := hamid s cause d rfl hidle
      have hnone : bytes = [] := List.eq_nil_of_length_eq_zero hlength
      cases hidle.yields hu with
      | silence =>
        subst hnone
        cases cause with
        | retry =>
          obtain ⟨habreast, hnak⟩ := hfollows
          have hhear := Upload.Abreast.hear_nak habreast hproper hidling
          refine s.opens_openAttempt.tracks hproper hle hh ?_ ?_
          · rw [hnak]
            exact hhear.1
          · rw [hnak]
            exact hhear.2
        | repeated =>
          obtain ⟨hbegun, hlast, hlt, haltered⟩ := hfollows
          have hpending : st.pending = [] := by
            by_contra hpending
            exact hidling ⟨hbegun, hpending⟩
          exact Session.tracks_acknowledge hproper hle hh hpending hlast (.skip hlast hlt haltered)
        | unexpected received => exact .inl trivial
  | undrained _ => exact .inl trivial
  | @wrote s what result =>
    cases result with
    | error e =>
      cases what with
      | cancel error left => exact fun _ => nofun
      | _ => exact .inl trivial
    | ok _ =>
      cases hu with
      | failed he => cases he
      | heard =>
        cases what with
        | reply =>
          obtain ⟨habreast, hbegun⟩ := hfollows
          have hproper' := hproper.hear s.reply.byte
          exact .inr ⟨hproper', held, bytes, hle, hlength, hh.reply .nak, habreast,
            (hproper' hbegun).symm, rfl⟩
        | farewell =>
          have hnone : bytes = [] := List.eq_nil_of_length_eq_zero hlength
          subst hnone
          exact hh.brings hfollows.1 hfollows.2 hle
        | cancel error left =>
          by_cases hleft : 1 < left
          · rw [Session.wrote, if_pos hleft]
            exact .inl trivial
          · rw [Session.wrote, if_neg hleft]
            exact fun _ => nofun

theorem Tracks.step (ht : r.Tracks u config capacity st) (hcap : capacity ≤ size)
    (hi : r.Inv config capacity size) (hs : r.Step call turn) (hu : u.Step st call st')
    (hamid : ∀ s cause d, r = ⟨s, .flushing cause d⟩ → d.wait.Step call (.ended (.ok none)) →
      ¬ st.Amid) :
    turn.next.Holds (Receiver.Tracks u config capacity st') (Outcome.Brings u st') := by
  rcases ht with hdoomed | hmirrors
  · exact (hdoomed.step hs).mono (fun _ => .inl) fun o ho n hn => absurd hn (ho n)
  · exact hmirrors.step hcap hi hs hu hamid

theorem not_flushing_openAttempt (s s' : Session) (cause : FlushCause) (d : Drain) :
    s.openAttempt.next ≠ .going ⟨s', .flushing cause d⟩ := by
  intro hnext
  have hopens := s.opens_openAttempt
  rw [hnext] at hopens
  generalize hp : Progress.going (⟨s', .flushing cause d⟩ : Receiver) = p at hopens
  cases hopens <;> cases hp

/-- A flush has just been started, or it was at work before. -/
theorem Step.flushing {s' : Session} {cause : FlushCause} {d' : Drain} (hs : r.Step call turn)
    (hnext : turn.next = .going ⟨s', .flushing cause d'⟩) :
    d' = .start s'.config.flushIdle ∨ ∃ s d, r = ⟨s, .flushing cause d⟩ ∧ d'.window = d.window ∧
      (d'.wait = .arming d.window ∨ turn.said = [] ∧ d.wait.Step call (.going d'.wait)) := by
  cases hs with
  | waiting _ => cases hnext
  | @heard s field wait call byte _ =>
    have hhears := s.hears_heard field byte
    rw [hnext] at hhears
    generalize hp : Progress.going (⟨s', .flushing cause d'⟩ : Receiver) = p at hhears
    cases hhears with
    | repeated => cases hp; exact .inl rfl
    | unexpected _ _ => cases hp; exact .inl rfl
    | rejected _ => cases hp; exact .inl rfl
    | checksum => exact absurd hp.symm (not_flushing_openAttempt _ _ _ _)
    | _ => cases hp
  | unheard _ => cases hnext
  | @draining s cause d d' call said h =>
    cases hnext
    obtain ⟨p, hp, hturn⟩ := h.of_map
    match p, Wait.Step.of_answer hp with
    | .going wait, hwait =>
      cases hturn
      exact .inr ⟨_, d, rfl, rfl, .inr ⟨rfl, hwait⟩⟩
    | .ended (.ok (some byte)), _ =>
      cases hturn
      exact .inr ⟨_, d, rfl, rfl, .inl rfl⟩
  | @drained s cause d call said count h =>
    cases cause with
    | retry => exact absurd hnext (not_flushing_openAttempt _ _ _ _)
    | repeated => exact absurd hnext (not_flushing_openAttempt _ _ _ _)
    | unexpected received => cases hnext
  | undrained _ => cases hnext
  | @wrote s what result =>
    have hwrites := s.writes_wrote what result
    rw [hnext] at hwrites
    generalize hp : Progress.going (⟨s', .flushing cause d'⟩ : Receiver) = p at hwrites
    cases hwrites <;> cases hp

end Receiver

/-! ### On a line -/

namespace Line
variable {τ : Type} {line : Line (StateM τ)} {config : Config} {u : Upload}
variable {stage : Upload.State → τ → Prop} {capacity size : Nat} {r : Receiver} {env env' : τ}

theorem Serves.told (hs : line.Serves config u stage) {st : Upload.State} (messages : List Message)
    (h : stage st env) : stage st (line.told messages env) :=
  told_induct (fun message env => hs.reported message st env) messages h

/-- The receiver follows the upload that serves the line, and its flush does not end amid a frame. -/
def Attends (line : Line (StateM τ)) (config : Config) (u : Upload) (stage : Upload.State → τ → Prop)
    (capacity size : Nat) (r : Receiver) (env : τ) : Prop :=
  ∃ st, stage st env ∧ r.Inv config capacity size ∧ r.Tracks u config capacity st ∧
    ∀ s cause d, r = ⟨s, .flushing cause d⟩ →
      d.window = config.flushIdle ∧ (st.Amid → ¬ line.Lapses env d.wait)

theorem Attends.step {call : Call} {turn : Receiver.Turn}
    (h : line.Attends config u stage capacity size r env) (hserves : line.Serves config u stage)
    (hcap : capacity ≤ size) (hs : r.Step call turn) (hm : line.Makes env call env') :
    turn.next.Holds (line.Attends config u stage capacity size · (line.told turn.said env'))
      fun o => ∃ st, stage st (line.told turn.said env') ∧ o.Brings u st := by
  obtain ⟨st, hstage, hi, htracks, hflush⟩ := h
  obtain ⟨st', hu, hstage'⟩ := hserves.answered st env call env' hstage hm
  have hstage'' := hserves.told turn.said hstage'
  have hi' := hi.step hcap hs
  have htracks' := htracks.step hcap hi hs hu fun s cause d hr hidle hamid =>
    (hflush s cause d hr).2 hamid (lapses_of_ended hm hidle)
  have hflush' : ∀ s' cause d', turn.next = .going ⟨s', .flushing cause d'⟩ →
      d'.window = config.flushIdle ∧ (st'.Amid → ¬ line.Lapses (line.told turn.said env') d'.wait) := by
    intro s' cause d' hnext
    have hsteady (hamid : st'.Amid) : ¬ line.Lapses (line.told turn.said env') (.arming config.flushIdle) :=
      fun ⟨env'', hbrings⟩ => hserves.steady st' _ env'' hstage'' hamid hbrings
    rcases hs.flushing hnext with rfl | ⟨s, d, hr, hwindow, hwait⟩
    · rw [hnext] at hi'
      have hconfig : s'.config = config := hi'.within.config_eq
      exact ⟨congrArg Config.flushIdle hconfig, hconfig ▸ hsteady⟩
    · obtain ⟨hidle, hrestless⟩ := hflush s cause d hr
      refine ⟨hwindow.trans hidle, ?_⟩
      rcases hwait with hwait | ⟨hsaid, hwait⟩
      · rw [hwait, hidle]
        exact hsteady
      · intro hamid hlapses
        obtain rfl := hwait.upload_eq_of_going hu
        rw [hsaid] at hlapses
        exact hrestless hamid (lapses_of_going hm hwait hlapses)
  cases hn : turn.next with
  | going r' =>
    rw [hn] at hi' htracks'
    exact ⟨st', hstage'', hi', htracks', fun s cause d hr => hflush' s cause d (by rw [hn, hr])⟩
  | ended o =>
    rw [hn] at htracks'
    exact ⟨st', hstage'', htracks'⟩

theorem Attends.start (buffer : Array UInt8) (hcap : capacity ≤ buffer.size) (hstage : stage {} env) :
    line.Attends config u stage capacity buffer.size (.start config capacity buffer) env := by
  have hholding := Session.Holding.start config buffer hcap
  refine ⟨{}, hstage, .start .., .inr ?_, ?_⟩
  · exact ⟨fun _ => rfl, 0, [], Nat.zero_le _, rfl, hholding, .inl ⟨rfl, rfl⟩, rfl⟩
  · rintro s cause d ⟨⟩
    exact ⟨rfl, fun hamid => absurd rfl hamid.2⟩

end Line

/-- If a transfer on a line that an upload serves ends well, the buffer holds all the blocks of the upload,
unless one is lost: then that is the last one, and the buffer holds all the others. -/
theorem Line.receive_upload {τ : Type} {line : Line (StateM τ)} {config : Config} {u : Upload}
    {stage : Upload.State → τ → Prop} {capacity fuel n : Nat} {buffer stored : Array UInt8} {env env' : τ}
    (hserves : line.Serves config u stage) (hstage : stage {} env)
    (h : (line.receive config capacity buffer fuel).run env = (.ok (.ended ⟨.received n, stored⟩), env')) :
    ∃ st, stage st env' ∧
      ((∀ block, ¬ u.Lost st.sent block) → n = blockSize * u.blocks.length ∧
        (stored.extract 0 n).toList = u.blocks.flatMap Vector.toList) ∧
      ((∃ block, u.Lost st.sent block) → n + blockSize = blockSize * u.blocks.length ∧
        (stored.extract 0 n).toList = u.blocks.dropLast.flatMap Vector.toList) := by
  obtain ⟨-, hcap, hrun⟩ := Line.receive_eq_ok.1 h
  have hholds := Line.run_holds (P := line.Attends config u stage capacity buffer.size)
    (Q := fun o env => ∃ st, stage st env ∧ o.Brings u st)
    (fun r env call turn env' hattends ha hm => hattends.step hserves hcap (Receiver.step_of_answer ha) hm)
    (.start buffer hcap hstage) hrun
  obtain ⟨st, hstage', hbrings⟩ := hholds
  exact ⟨st, hstage', hbrings n rfl⟩

theorem Outcome.exists_stored {result : Except Refusal (Progress Receiver Outcome)} {ending : Ending}
    (h : (result.toOption.bind Progress.result?).map Outcome.ending = some ending) :
    ∃ stored, result = .ok (.ended ⟨ending, stored⟩) := by
  obtain ⟨⟨_, stored⟩, ho, rfl⟩ := Option.map_eq_some_iff.1 h
  obtain ⟨p, hp, hresult⟩ := Option.bind_eq_some_iff.1 ho
  cases result with
  | error refusal => cases hp
  | ok p' =>
    cases hp
    exact ⟨stored, congrArg _ (Progress.eq_ended hresult)⟩

/-- The second of two blocks arrives with the number of the first one. -/
theorem Line.receive_upload_lost : ∃ (u : Upload) (stored : Array UInt8) (env' : Upload.State × UInt32),
    u.blocks = [Vector.replicate blockSize 17, Vector.replicate blockSize 34] ∧
      ((Line.uploading u 3000000).receive {} 256 (Array.replicate 256 0) 600).run ({}, 0) =
        (.ok (.ended ⟨.received 128, stored⟩), env') ∧
      u.Lost env'.1.sent 1 ∧ (stored.extract 0 128).toList = (Vector.replicate blockSize 17).toList := by
  let u : Upload := ⟨[Vector.replicate blockSize 17, Vector.replicate blockSize 34], some (1, 1)⟩
  have hends : ((((Line.uploading u 3000000).receive {} 256 (Array.replicate 256 0) 600).run
      ({}, 0)).1.toOption.bind Progress.result?).map Outcome.ending = some (.received 128) := by
    decide +kernel
  have hsent : (((Line.uploading u 3000000).receive {} 256 (Array.replicate 256 0) 600).run
      ({}, 0)).2.1.sent = [0, 1, 2, 3] := by
    decide +kernel
  obtain ⟨stored, hstored⟩ := Outcome.exists_stored hends
  generalize hrun : ((Line.uploading u 3000000).receive {} 256 (Array.replicate 256 0) 600).run ({}, 0) = run
    at hstored hsent
  obtain ⟨result, env'⟩ := run
  subst hstored
  have hlost : u.Lost env'.1.sent 1 := by
    rw [show env'.1.sent = [0, 1, 2, 3] from hsent]
    exact ⟨by decide, 1, rfl, rfl, rfl⟩
  obtain ⟨st, rfl, -, hbrings⟩ := Line.receive_upload (Line.uploading_serves {} u 3000000) rfl hrun
  obtain ⟨-, hcontents⟩ := hbrings ⟨1, hlost⟩
  exact ⟨u, stored, env', rfl, hrun, hlost, by simpa [u] using hcontents⟩

end Xmodem
