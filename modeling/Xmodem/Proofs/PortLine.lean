import Xmodem.Clock
import Xmodem.Proofs.Trace
import Xmodem.Serial.Journal

/-!
# What a port does for its line

A call on the line of a port is made of operations of the port: a byte is read if one is announced, and a
write is repeated while it is interrupted, and then followed by a flush (`Call.MadeOf`). An error is handed on
as it is, and one of the port itself as the I/O error that it becomes (`PortError.Becomes`). So what is carried
out over the line of a port is a trace, and the journal of the port has what its calls are made of, in order
(`Port.trace_of_run`).
-/

namespace Xmodem

open Serial

/-! ### Errors -/

namespace Serial.PortError

/-- What the class of an error of the port becomes; one that is of I/O already stays as it is. -/
inductive Kind.Becomes : Kind → IoError.Kind → Prop
  | noDevice : Becomes .noDevice .notFound
  | invalidInput : Becomes .invalidInput .invalidInput
  | unknown : Becomes .unknown .other
  | io (kind : IoError.Kind) : Becomes (.io kind) kind

/-- The I/O error that an error of the port becomes keeps its text. -/
structure Becomes (e : PortError) (e' : IoError) : Prop where
  message_eq : e'.message = e.message
  kind : e.kind.Becomes e'.kind

theorem becomes_toIoError (e : PortError) : e.Becomes e.toIoError := by
  obtain ⟨kind, message⟩ := e
  refine ⟨rfl, ?_⟩
  cases kind with
  | noDevice => exact .noDevice
  | invalidInput => exact .invalidInput
  | unknown => exact .unknown
  | io kind => exact .io kind

end Serial.PortError

/-! ### Calls -/

inductive Call.MadeOf : Call → List Use → Prop
  | unknown {e : PortError} {e' : IoError} (h : e.Becomes e') :
    MadeOf (.polled (.error e')) [.announced (.error e)]
  | nothing : MadeOf (.polled (.ok none)) [.announced (.ok 0)]
  | read (n : Nat) (byte : Option UInt8) :
    MadeOf (.polled (.ok byte)) [.announced (.ok (n + 1)), .read (.ok byte)]
  | late (n : Nat) {e : IoError} (h : e.kind = .timedOut) :
    MadeOf (.polled (.ok none)) [.announced (.ok (n + 1)), .read (.error e)]
  | unread (n : Nat) {e : IoError} (h : e.kind ≠ .timedOut) :
    MadeOf (.polled (.error e)) [.announced (.ok (n + 1)), .read (.error e)]
  | timed (elapsed : Nat) : MadeOf (.timed (Clock.reading elapsed)) [.timed elapsed]
  | sent (byte : UInt8) (result : Except IoError Unit) :
    MadeOf (.wrote byte result) [.wrote byte (.ok true), .flushed result]
  | untaken (byte : UInt8) :
    MadeOf (.wrote byte (.error ⟨.writeZero, "failed to write whole buffer"⟩)) [.wrote byte (.ok false)]
  | unsent (byte : UInt8) {e : IoError} (h : e.kind ≠ .interrupted) :
    MadeOf (.wrote byte (.error e)) [.wrote byte (.error e)]
  | interrupted {byte : UInt8} {e : IoError} {result : Except IoError Unit} {uses : List Use}
    (h : e.kind = .interrupted) (rest : MadeOf (.wrote byte result) uses) :
    MadeOf (.wrote byte result) (.wrote byte (.error e) :: uses)

/-- A call takes the byte that the port hands over for it, if there is one. -/
theorem Call.MadeOf.delivered {call : Call} {uses : List Use} (h : call.MadeOf uses) :
    uses.filterMap Use.delivered? = call.taken?.toList := by
  induction h with
  | read n byte => cases byte <;> rfl
  | interrupted _ _ ih => exact ih
  | _ => rfl

/-- A poll that fails is made of an operation that has failed. -/
theorem Call.MadeOf.failed {e : IoError} {uses : List Use} (h : (Call.polled (.error e)).MadeOf uses) :
    (∃ e' : PortError, e'.Becomes e ∧ uses = [.announced (.error e')]) ∨
      ∃ n, e.kind ≠ .timedOut ∧ uses = [.announced (.ok (n + 1)), .read (.error e)] := by
  cases h with
  | unknown h => exact .inl ⟨_, h, rfl⟩
  | unread n h => exact .inr ⟨n, h, rfl⟩

/-- The calls, one after the other, are made of the uses. -/
inductive Carried : List Use → List Call → Prop
  | nil : Carried [] []
  | concat {uses more : List Use} {calls : List Call} {call : Call} :
    Carried uses calls → call.MadeOf more → Carried (uses ++ more) (calls ++ [call])

theorem Carried.delivered {uses : List Use} {calls : List Call} (h : Carried uses calls) :
    uses.filterMap Use.delivered? = calls.filterMap Call.taken? := by
  induction h with
  | nil => rfl
  | @concat uses more calls call _ hmade ih =>
    rw [List.filterMap_append, List.filterMap_append, ih, hmade.delivered]
    cases h : call.taken? <;> simp [h]

/-! ### Operations -/

section
variable {σ α β : Type}

/-- From `s` the action gives `a`, and does not come to nothing; it leads to `s'`. -/
def Gives (x : OptionT (StateM σ) α) (s : σ) (a : α) (s' : σ) : Prop :=
  x.run.run s = (some a, s')

theorem Gives.of_pure {a b : α} {s s' : σ} (h : Gives (pure a) s b s') : a = b ∧ s = s' := by
  cases h
  exact ⟨rfl, rfl⟩

theorem Gives.of_bind {x : OptionT (StateM σ) α} {f : α → OptionT (StateM σ) β} {s s' : σ} {b : β}
    (h : Gives (x >>= f) s b s') : ∃ a s₁, Gives x s a s₁ ∧ Gives (f a) s₁ b s' := by
  obtain ⟨⟨a?, s₁⟩, hx⟩ : ∃ r, x.run.run s = r := ⟨_, rfl⟩
  rw [Gives, OptionT.run_bind, Option.elimM, StateT.run_bind, hx] at h
  cases a? with
  | none => cases h
  | some a => exact ⟨a, s₁, hx, h⟩

theorem Gives.bind {x : OptionT (StateM σ) α} {f : α → OptionT (StateM σ) β} {s s₁ s' : σ} {a : α} {b : β}
    (hx : Gives x s a s₁) (hf : Gives (f a) s₁ b s') : Gives (x >>= f) s b s' := by
  rw [Gives, OptionT.run_bind, Option.elimM, StateT.run_bind, hx]
  exact hf

theorem Gives.of_lift {x : StateM σ α} {s s' : σ} {a : α} (h : Gives (OptionT.lift x) s a s') :
    x.run s = (a, s') := by
  obtain ⟨b, s₁, hx, hb⟩ : ∃ b s₁, x.run s = (b, s₁) ∧ Gives (pure b) s₁ a s' := ⟨_, _, rfl, h⟩
  obtain ⟨rfl, rfl⟩ := hb.of_pure
  exact hx

end

theorem run_bind_of {σ α β : Type} {x : StateM σ α} {f : α → StateM σ β} {s s₁ : σ} {a : α}
    (h : x.run s = (a, s₁)) : (x >>= f).run s = (f a).run s₁ := by
  rw [StateT.run_bind, h]
  rfl

theorem run_noting {τ δ α : Type} {action : StateM τ α} {entries : α → List δ} {env env' : τ} {a : α}
    (h : action.run env = (a, env')) (journal : List δ) :
    (noting action entries).run (env, journal) = (a, (env', journal ++ entries a)) :=
  congrArg (fun r : α × τ => (r.1, (r.2, journal ++ entries r.1))) h

namespace Serial.Port
variable {τ δ : Type} {port : Port (StateM τ)} {entry : Use → δ} {env env' : τ} {journal journal' : List δ}

section
variable (entry) (journal)

theorem run_waiting {waiting : Except PortError Nat} (h : port.waiting.run env = (waiting, env')) :
    (port.journaled entry).waiting.run (env, journal) =
      (waiting, (env', journal ++ [entry (.announced waiting)])) := by
  dsimp only [journaled]
  rw [run_noting h]

theorem run_read {found : Polled} (h : port.read.run env = (found, env')) :
    (port.journaled entry).read.run (env, journal) = (found, (env', journal ++ [entry (.read found)])) := by
  dsimp only [journaled]
  rw [run_noting h]

theorem run_write {byte : UInt8} {taken : Except IoError Bool} (h : (port.write byte).run env = (taken, env')) :
    ((port.journaled entry).write byte).run (env, journal) =
      (taken, (env', journal ++ [entry (.wrote byte taken)])) := by
  dsimp only [journaled]
  rw [run_noting h]

theorem run_flush {result : Except IoError Unit} (h : port.flush.run env = (result, env')) :
    (port.journaled entry).flush.run (env, journal) = (result, (env', journal ++ [entry (.flushed result)])) := by
  dsimp only [journaled]
  rw [run_noting h]

end

theorem poll_journaled {found : Polled}
    (h : (port.journaled entry).poll.run (env, journal) = (found, (env', journal'))) :
    ∃ uses, (Call.polled found).MadeOf uses ∧ journal' = journal ++ uses.map entry := by
  obtain ⟨⟨waiting, env₁⟩, hwaiting⟩ : ∃ r, port.waiting.run env = r := ⟨_, rfl⟩
  rw [poll, run_bind_of (run_waiting entry journal hwaiting)] at h
  match waiting with
  | .error e =>
    cases h
    exact ⟨_, .unknown e.becomes_toIoError, rfl⟩
  | .ok 0 =>
    cases h
    exact ⟨_, .nothing, rfl⟩
  | .ok (n + 1) =>
    obtain ⟨⟨byte, env₂⟩, hread⟩ : ∃ r, port.read.run env₁ = r := ⟨_, rfl⟩
    change ((port.journaled entry).read >>= _).run _ = _ at h
    rw [run_bind_of (run_read entry _ hread), List.append_assoc] at h
    cases byte with
    | ok byte =>
      cases h
      exact ⟨_, .read n byte, rfl⟩
    | error e =>
      dsimp only at h
      by_cases he : e.kind = .timedOut
      · rw [if_pos he] at h
        cases h
        exact ⟨_, .late n he, rfl⟩
      · rw [if_neg he] at h
        cases h
        exact ⟨_, .unread n he, rfl⟩

/-- Once a write has been taken, a flush follows; everything else is over with the writes. -/
theorem send_journaled {byte : UInt8} {fuel : Nat} {result : Except IoError Unit}
    (h : ((port.journaled entry).send byte fuel).run (env, journal) = (some result, (env', journal'))) :
    ∃ uses, (Call.wrote byte result).MadeOf uses ∧ journal' = journal ++ uses.map entry := by
  induction fuel generalizing env journal with
  | zero => cases h
  | succ fuel ih =>
    obtain ⟨⟨taken, env₁⟩, hwrite⟩ : ∃ r, (port.write byte).run env = r := ⟨_, rfl⟩
    rw [send, put, bind_assoc, run_bind_of (run_write entry journal hwrite)] at h
    match taken with
    | .ok true =>
      obtain ⟨⟨flushed, env₂⟩, hflush⟩ : ∃ r, port.flush.run env₁ = r := ⟨_, rfl⟩
      dsimp only at h
      rw [pure_bind] at h
      dsimp only at h
      rw [run_bind_of (run_flush entry _ hflush), List.append_assoc] at h
      cases h
      exact ⟨_, .sent byte _, rfl⟩
    | .ok false =>
      cases h
      exact ⟨_, .untaken byte, rfl⟩
    | .error e =>
      dsimp only at h
      by_cases he : e.kind = .interrupted
      · rw [if_pos he] at h
        obtain ⟨uses, hmade, rfl⟩ := ih h
        exact ⟨_, hmade.interrupted he, List.append_assoc ..⟩
      · rw [if_neg he] at h
        cases h
        exact ⟨_, .unsent byte he, rfl⟩

end Serial.Port

/-! ### Runs -/

/-- The line of a port that is journaled, and whose clock is a stopwatch that is journaled too. -/
def Serial.Port.journaledLine {τ δ : Type} (port : Port (StateM τ)) (elapsed : StateM τ Nat) (entry : Use → δ)
    (report : Message → StateM (τ × List δ) Unit) (limit : Nat) : Line (OptionT (StateM (τ × List δ))) :=
  (port.journaled entry).line (Clock.reading <$> noting elapsed fun t => [entry (.timed t)]) report limit

section
variable {τ δ α σ ρ : Type} {port : Port (StateM τ)} {elapsed : StateM τ Nat} {entry : Use → δ}
variable {report : Message → StateM (τ × List δ) Unit} {limit : Nat} {s s' : τ × List δ}

theorem Serial.Port.makes_journaledLine {q : Ask α} {a : α}
    (h : Gives ((port.journaledLine elapsed entry report limit).answer q) s a s') :
    ∃ call uses, q.Answer call a ∧ call.MadeOf uses ∧ s'.2 = s.2 ++ uses.map entry := by
  cases q with
  | poll next =>
    obtain ⟨found, s₁, hpoll, hnext⟩ := h.of_bind
    obtain ⟨rfl, rfl⟩ := hnext.of_pure
    obtain ⟨uses, hmade, hjournal⟩ := poll_journaled hpoll.of_lift
    exact ⟨_, uses, .poll next found, hmade, hjournal⟩
  | clock next =>
    obtain ⟨now, s₁, hclock, hnext⟩ := h.of_bind
    obtain ⟨rfl, rfl⟩ := hnext.of_pure
    cases hclock.of_lift
    exact ⟨_, _, .clock next _, .timed _, rfl⟩
  | write byte next =>
    obtain ⟨result, s₁, hwrite, hnext⟩ := h.of_bind
    obtain ⟨rfl, rfl⟩ := hnext.of_pure
    obtain ⟨uses, hmade, hjournal⟩ := send_journaled hwrite
    exact ⟨_, uses, .write byte next result, hmade, hjournal⟩

end

end Xmodem
