import Xmodem.Line

/-!
# Records of what passed over a line

A call is a question that was put to a line, together with its answer. `Line.recorded` keeps the
calls that are made on a line, the first one first. That changes nothing for what is carried out
over the line (`Line.run_recorded`), so whatever holds of the records holds of the line itself.
-/

namespace Xmodem

/-- A question that was put to a line, with the answer it got. -/
inductive Call where
  | polled (found : Polled)
  | timed (now : UInt32)
  | wrote (byte : UInt8) (result : Except IoError Unit)

namespace Call

def taken? : Call → Option UInt8
  | polled (.ok found) => found
  | _ => none

def sent? : Call → Option UInt8
  | wrote byte (.ok _) => some byte
  | _ => none

def error? : Call → Option IoError
  | polled (.error e) => some e
  | wrote _ (.error e) => some e
  | _ => none

end Call

namespace Line

variable {m : Type → Type} [Monad m] {α σ ρ : Type}

/-- The line, with a record of the calls that are made on it, the first one first. -/
def recorded (line : Line m) : Line (StateT (List Call) m) where
  poll := do
    let found ← line.poll
    modify (· ++ [.polled found])
    return found
  write byte := do
    let result ← line.write byte
    modify (· ++ [.wrote byte result])
    return result
  clock := do
    let now ← line.clock
    modify (· ++ [.timed now])
    return now
  report message := line.report message

theorem answer_recorded [LawfulMonad m] (line : Line m) (ask : Ask α) (calls : List Call) :
    Prod.fst <$> (line.recorded.answer ask).run calls = line.answer ask := by
  cases ask <;> simp [answer, recorded]

theorem report_recorded [LawfulMonad m] (line : Line m) (message : Message) (calls : List Call) :
    (line.recorded.report message).run calls = (fun _ => ((), calls)) <$> line.report message := by
  simp [recorded]

theorem forM_report_recorded [LawfulMonad m] (line : Line m) (messages : List Message)
    (calls : List Call) :
    (messages.forM line.recorded.report).run calls =
      (fun _ => ((), calls)) <$> messages.forM line.report := by
  induction messages with
  | nil => simp
  | cons message messages ih =>
    change StateT.run (do line.recorded.report message; messages.forM line.recorded.report) calls =
      (fun _ => ((), calls)) <$> (do line.report message; messages.forM line.report)
    simp only [StateT.run_bind, report_recorded, bind_map_left, ih, map_bind]

/-- A record changes nothing for the procedure that is carried out. -/
theorem run_recorded [LawfulMonad m] (line : Line m) (ask : σ → Ask (Turn σ ρ)) (fuel : Nat)
    (s : σ) (calls : List Call) :
    Prod.fst <$> (line.recorded.run ask fuel s).run calls = line.run ask fuel s := by
  induction fuel generalizing s calls with
  | zero => simp [run]
  | succ fuel ih =>
    simp only [run]
    rw [← answer_recorded line (ask s) calls]
    simp only [StateT.run_bind, map_bind, bind_map_left, forM_report_recorded]
    refine bind_congr fun r => bind_congr fun _ => ?_
    cases r.1.next <;> simp [ih]

end Line

end Xmodem
