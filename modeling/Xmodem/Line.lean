import Xmodem.IoError
import Xmodem.Message

/-!
# Lines, and the procedures that use them

A `Line` carries single bytes to and from a sender and has a clock. A procedure on a line is a
state and a function that gives, for each state, the one thing it asks of the line next
(`Ask`) and how it stands with the answer (`Turn`). Such a function has no effect and always
returns; only `Line.run`, which passes the questions to a line, takes fuel, one unit for each
question, and says so when it ran out.
-/

namespace Xmodem

abbrev Polled := Except IoError (Option UInt8)

/-- One question to a line, and what becomes of the asker with each answer. -/
inductive Ask (α : Type) where
  /-- Is a byte waiting? A byte that is handed over is gone from the line. -/
  | poll (next : Polled → α)
  | clock (next : UInt32 → α)
  | write (byte : UInt8) (next : Except IoError Unit → α)

def Ask.map {α β : Type} (f : α → β) : Ask α → Ask β
  | poll next => poll fun r => f (next r)
  | clock next => clock fun t => f (next t)
  | write byte next => write byte fun r => f (next r)

theorem Ask.map_map {α β γ : Type} (f : α → β) (g : β → γ) (ask : Ask α) :
    (ask.map f).map g = ask.map fun a => g (f a) := by
  cases ask <;> rfl

/-- A procedure goes on from a state, or is over with a result. -/
inductive Progress (σ ρ : Type) where
  | going (state : σ)
  | ended (result : ρ)

/-- How a procedure stands after an answer: what it reports, and whether it goes on. -/
structure Turn (σ ρ : Type) where
  said : List Message
  next : Progress σ ρ

namespace Turn

variable {σ ρ : Type}

def going (state : σ) : Turn σ ρ :=
  ⟨[], .going state⟩

def ended (result : ρ) : Turn σ ρ :=
  ⟨[], .ended result⟩

/-- The same turn with `messages` reported first. -/
def after (messages : List Message) (t : Turn σ ρ) : Turn σ ρ :=
  ⟨messages ++ t.said, t.next⟩

@[simp] theorem next_going (state : σ) : (going state : Turn σ ρ).next = .going state := rfl

@[simp] theorem said_going (state : σ) : (going state : Turn σ ρ).said = [] := rfl

@[simp] theorem next_after (messages : List Message) (t : Turn σ ρ) : (t.after messages).next = t.next := rfl

@[simp] theorem said_after (messages : List Message) (t : Turn σ ρ) :
    (t.after messages).said = messages ++ t.said := rfl

end Turn

/-- A byte-at-a-time link to a sender, in a monad of effects. -/
structure Line (m : Type → Type) where
  poll : m Polled
  /-- Sends a byte; returns once the byte has been handed over. -/
  write : UInt8 → m (Except IoError Unit)
  /-- A microsecond counter that wraps at 32 bits. -/
  clock : m UInt32
  report : Message → m Unit

namespace Line

variable {m : Type → Type} [Monad m] {α σ ρ : Type}

def answer (line : Line m) : Ask α → m α
  | .poll next => return next (← line.poll)
  | .clock next => return next (← line.clock)
  | .write byte next => return next (← line.write byte)

theorem answer_map [LawfulMonad m] {β : Type} (line : Line m) (f : α → β) (ask : Ask α) :
    line.answer (ask.map f) = f <$> line.answer ask := by
  cases ask <;> simp [answer, Ask.map]

/-- Carries out a procedure on the line for at most `fuel` questions. -/
def run (line : Line m) (ask : σ → Ask (Turn σ ρ)) : Nat → σ → m (Progress σ ρ)
  | 0, s => return .going s
  | fuel + 1, s => do
    let turn ← line.answer (ask s)
    turn.said.forM line.report
    match turn.next with
    | .going s => line.run ask fuel s
    | .ended r => return .ended r

end Line

end Xmodem
