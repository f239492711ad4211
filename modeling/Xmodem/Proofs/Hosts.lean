import Xmodem.Program.Journal

/-!
# A program on two hosts

Two actions go in step if from states that are in relation they give the same, and lead to states that are
in relation again (`InStep`). A program knows its host only through the operations, so it goes in step on two
hosts whose operations do (`Program.run_together`). That a journal changes nothing for a program is one case
of this.
-/

namespace Xmodem

open CommandLine Serial

section
variable {σ σ' α α' β β' : Type} {stage : σ → σ' → Prop} {same : α → α' → Prop} {same' : β → β' → Prop}

def InStep (stage : σ → σ' → Prop) (same : α → α' → Prop) (x : StateM σ α) (x' : StateM σ' α') : Prop :=
  ∀ s s', stage s s' → same (x.run s).1 (x'.run s').1 ∧ stage (x.run s).2 (x'.run s').2

theorem InStep.pure {a : α} {a' : α'} (h : same a a') : InStep stage same (pure a) (pure a') :=
  fun _ _ hs => ⟨h, hs⟩

theorem InStep.bind {x : StateM σ α} {x' : StateM σ' α'} {f : α → StateM σ β} {f' : α' → StateM σ' β'}
    (hx : InStep stage same x x') (hf : ∀ a a', same a a' → InStep stage same' (f a) (f' a')) :
    InStep stage same' (x >>= f) (x' >>= f') := fun s s' hs =>
  let ⟨hsame, hs₁⟩ := hx s s' hs
  hf _ _ hsame _ _ hs₁

/-- The same for actions that may come to nothing. -/
def Together (stage : σ → σ' → Prop) (x : OptionT (StateM σ) α) (x' : OptionT (StateM σ') α) : Prop :=
  InStep stage Eq x.run x'.run

namespace Together

theorem pure (a : α) : Together stage (pure a) (pure a) :=
  InStep.pure rfl

theorem failure : Together stage (failure : OptionT (StateM σ) α) failure :=
  InStep.pure rfl

theorem bind {x : OptionT (StateM σ) α} {x' : OptionT (StateM σ') α} {f : α → OptionT (StateM σ) β}
    {f' : α → OptionT (StateM σ') β} (hx : Together stage x x') (hf : ∀ a, Together stage (f a) (f' a)) :
    Together stage (x >>= f) (x' >>= f') := by
  rw [Together, OptionT.run_bind, OptionT.run_bind]
  refine InStep.bind hx ?_
  rintro a _ rfl
  cases a with
  | none => exact .pure rfl
  | some a => exact hf a

theorem lift_bind {x : StateM σ α} {x' : StateM σ' α'} {f : α → OptionT (StateM σ) β}
    {f' : α' → OptionT (StateM σ') β} (hx : InStep stage same x x')
    (hf : ∀ a a', same a a' → Together stage (f a) (f' a')) :
    Together stage (OptionT.lift x >>= f) (OptionT.lift x' >>= f') :=
  fun s s' hs => hx.bind hf s s' hs

theorem lift {x : StateM σ α} {x' : StateM σ' α} (hx : InStep stage Eq x x') :
    Together stage (OptionT.lift x) (OptionT.lift x') := by
  refine hx.bind ?_
  rintro a _ rfl
  exact .pure rfl

theorem forM {f : α → OptionT (StateM σ) Unit} {f' : α → OptionT (StateM σ') Unit}
    (hf : ∀ a, Together stage (f a) (f' a)) (as : List α) : Together stage (as.forM f) (as.forM f') := by
  induction as with
  | nil => exact pure ()
  | cons a as ih => exact (hf a).bind fun _ => ih

end Together

end

section
variable {σ σ' α ρ ς : Type} {stage : σ → σ' → Prop}

/-! ### Ports and lines -/

structure Serial.Port.InStep (stage : σ → σ' → Prop) (port : Port (StateM σ)) (port' : Port (StateM σ')) :
    Prop where
  waiting : Xmodem.InStep stage Eq port.waiting port'.waiting
  read : Xmodem.InStep stage Eq port.read port'.read
  write : ∀ byte, Xmodem.InStep stage Eq (port.write byte) (port'.write byte)
  flush : Xmodem.InStep stage Eq port.flush port'.flush

structure Line.Together (stage : σ → σ' → Prop) (line : Line (OptionT (StateM σ)))
    (line' : Line (OptionT (StateM σ'))) : Prop where
  poll : Xmodem.Together stage line.poll line'.poll
  write : ∀ byte, Xmodem.Together stage (line.write byte) (line'.write byte)
  clock : Xmodem.Together stage line.clock line'.clock
  report : ∀ message, Xmodem.Together stage (line.report message) (line'.report message)

namespace Serial.Port.InStep
variable {port : Port (StateM σ)} {port' : Port (StateM σ')}

theorem poll (h : port.InStep stage port') : Xmodem.InStep stage Eq port.poll port'.poll := by
  refine h.waiting.bind ?_
  rintro found _ rfl
  match found with
  | .error e => exact .pure rfl
  | .ok 0 => exact .pure rfl
  | .ok (n + 1) =>
    refine h.read.bind ?_
    rintro byte _ rfl
    cases byte <;> exact .pure rfl

theorem put (h : port.InStep stage port') (byte : UInt8) (fuel : Nat) :
    Xmodem.InStep stage Eq (port.put byte fuel) (port'.put byte fuel) := by
  induction fuel with
  | zero => exact .pure rfl
  | succ fuel ih =>
    refine (h.write byte).bind ?_
    rintro taken _ rfl
    match taken with
    | .ok true => exact .pure rfl
    | .ok false => exact .pure rfl
    | .error e =>
      dsimp only
      split
      · exact ih
      · exact .pure rfl

theorem send (h : port.InStep stage port') (byte : UInt8) (fuel : Nat) :
    Xmodem.InStep stage Eq (port.send byte fuel) (port'.send byte fuel) := by
  refine (h.put byte fuel).bind ?_
  rintro result _ rfl
  match result with
  | some (.ok _) =>
    refine h.flush.bind ?_
    rintro _ _ rfl
    exact .pure rfl
  | some (.error e) => exact .pure rfl
  | none => exact .pure rfl

theorem line (h : port.InStep stage port') {clock : StateM σ UInt32} {clock' : StateM σ' UInt32}
    {report : Message → StateM σ Unit} {report' : Message → StateM σ' Unit} (fuel : Nat)
    (hclock : Xmodem.InStep stage Eq clock clock')
    (hreport : ∀ message, Xmodem.InStep stage Eq (report message) (report' message)) :
    (port.line clock report fuel).Together stage (port'.line clock' report' fuel) where
  poll := .lift h.poll
  write byte := h.send byte fuel
  clock := .lift hclock
  report message := .lift (hreport message)

end Serial.Port.InStep

namespace Line.Together
variable {line : Line (OptionT (StateM σ))} {line' : Line (OptionT (StateM σ'))}

theorem answer (h : line.Together stage line') (ask : Ask α) :
    Xmodem.Together stage (line.answer ask) (line'.answer ask) := by
  cases ask with
  | poll next => exact h.poll.bind fun _ => .pure _
  | clock next => exact h.clock.bind fun _ => .pure _
  | write byte next => exact (h.write byte).bind fun _ => .pure _

theorem run (h : line.Together stage line') (ask : ς → Ask (Turn ς ρ)) (fuel : Nat) (s : ς) :
    Xmodem.Together stage (line.run ask fuel s) (line'.run ask fuel s) := by
  induction fuel generalizing s with
  | zero => exact .pure _
  | succ fuel ih =>
    refine (h.answer (ask s)).bind fun turn => ?_
    refine (Xmodem.Together.forM h.report turn.said).bind fun _ => ?_
    cases turn.next with
    | going s' => exact ih s'
    | ended r => exact .pure _

end Line.Together

/-! ### Hosts -/

/-- Both ports were not opened, for the same reason, or they go in step. -/
inductive Serial.Port.SameOpened (stage : σ → σ' → Prop) :
    Except PortError (Port (StateM σ)) → Except PortError (Port (StateM σ')) → Prop
  | unopened (e : PortError) : SameOpened stage (.error e) (.error e)
  | opened {port : Port (StateM σ)} {port' : Port (StateM σ')} (h : port.InStep stage port') :
    SameOpened stage (.ok port) (.ok port')

structure Host.InStep (stage : σ → σ' → Prop) (host : Host (StateM σ)) (host' : Host (StateM σ')) : Prop where
  openPort : ∀ settings,
    Xmodem.InStep stage (Port.SameOpened stage) (host.openPort settings) (host'.openPort settings)
  stopwatch : Xmodem.InStep stage (Xmodem.InStep stage Eq) host.stopwatch host'.stopwatch
  save : ∀ path bytes, Xmodem.InStep stage Eq (host.save path bytes) (host'.save path bytes)
  print : ∀ text, Xmodem.InStep stage Eq (host.print text) (host'.print text)
  printError : ∀ text, Xmodem.InStep stage Eq (host.printError text) (host'.printError text)
  openLog : ∀ level, Xmodem.InStep stage Eq (host.openLog level) (host'.openLog level)
  log : ∀ entry, Xmodem.InStep stage Eq (host.log entry) (host'.log entry)

namespace Program
variable {host : Host (StateM σ)} {host' : Host (StateM σ')}

theorem receive_together (h : host.InStep stage host') (level : Level) (args : ReceiveArguments)
    {port : Port (StateM σ)} {port' : Port (StateM σ')} (hport : port.InStep stage port') (fuel : Nat) :
    Together stage (receive host level args port fuel) (receive host' level args port' fuel) := by
  refine Together.lift_bind h.stopwatch fun elapsed elapsed' helapsed => ?_
  have hclock : InStep stage Eq (Clock.reading <$> elapsed) (Clock.reading <$> elapsed') :=
    helapsed.bind fun _ _ he => .pure (congrArg Clock.reading he)
  refine ((hport.line fuel hclock fun message => ?_).run Receiver.ask fuel _).bind fun p => ?_
  · split
    · exact h.log message.entry
    · exact .pure rfl
  · match p with
    | .going _ => exact .failure
    | .ended ⟨.received n, buffer⟩ => exact .pure _
    | .ended ⟨.failed e, _⟩ => exact .pure _
    | .ended ⟨.exhausted, _⟩ => exact .pure _

theorem save_inStep (h : host.InStep stage host') (output : Option String) (data : Array UInt8) :
    InStep stage Eq (save host output data) (save host' output data) := by
  cases output with
  | none => exact .pure rfl
  | some path =>
    refine (h.save path data).bind ?_
    rintro result _ rfl
    cases result with
    | error e => exact .pure rfl
    | ok _ => exact (h.log _).bind fun _ _ _ => .pure rfl

theorem keep_inStep (h : host.InStep stage host') (args : ReceiveArguments) (data : Array UInt8) :
    InStep stage Eq (keep host args data) (keep host' args data) := by
  refine (save_inStep h args.output data).bind ?_
  rintro saved _ rfl
  cases saved with
  | error e => exact .pure rfl
  | ok _ =>
    dsimp only
    split
    · exact (h.print _).bind fun _ _ _ => .pure rfl
    · exact .pure rfl

theorem receiveFile_together (h : host.InStep stage host') (level : Level) (args : ReceiveArguments)
    {port : Port (StateM σ)} {port' : Port (StateM σ')} (hport : port.InStep stage port') (fuel : Nat) :
    Together stage (receiveFile host level args port fuel) (receiveFile host' level args port' fuel) := by
  refine (receive_together h level args hport fuel).bind fun result => ?_
  cases result with
  | error failure => exact .pure _
  | ok data => exact .lift (keep_inStep h args data)

theorem perform_together (h : host.InStep stage host') (args : Arguments) (fuel : Nat) :
    Together stage (perform host args fuel) (perform host' args fuel) := by
  unfold perform
  match portSettings args with
  | .error e => exact .pure _
  | .ok settings =>
    refine (Together.forM (fun entry => .lift (h.log entry)) _).bind fun _ => ?_
    refine Together.lift_bind (h.openPort settings) fun _ _ hopened => ?_
    cases hopened with
    | unopened e => exact .pure _
    | opened hport =>
      dsimp only
      split
      · exact .pure _
      refine (Together.lift (h.print _)).bind fun _ => ?_
      split
      · exact .pure _
      exact receiveFile_together h _ _ hport fuel

/-- On hosts that go in step, the program does. -/
theorem run_together (h : host.InStep stage host') (words : List String) (fuel : Nat) :
    Together stage (run host words fuel) (run host' words fuel) := by
  unfold run
  match Arguments.parse words with
  | .error error =>
    cases error with
    | help command => exact (Together.lift (h.print _)).bind fun _ => .pure _
    | _ => exact (Together.lift (h.printError _)).bind fun _ => .pure _
  | .ok args =>
    refine (Together.lift (h.openLog _)).bind fun _ => ?_
    refine (perform_together h args fuel).bind fun result => ?_
    match result with
    | .ok length => exact (Together.lift (h.print _)).bind fun _ => .pure _
    | .error failure => exact (Together.lift (h.printError _)).bind fun _ => .pure _

end Program

end

/-! ### Files -/

section
variable {τ α : Type} {file : String → Array UInt8 → τ → Prop}

/-- The action changes nothing that is found in a file. -/
def Keeps (file : String → Array UInt8 → τ → Prop) (action : StateM τ α) : Prop :=
  ∀ env path bytes, file path bytes (action.run env).2 ↔ file path bytes env

structure Serial.Port.Keeps (file : String → Array UInt8 → τ → Prop) (port : Port (StateM τ)) : Prop where
  waiting : Xmodem.Keeps file port.waiting
  read : Xmodem.Keeps file port.read
  write : ∀ byte, Xmodem.Keeps file (port.write byte)
  flush : Xmodem.Keeps file port.flush

/-- `file path bytes env` stands for the bytes being found at a path of the host. That is so once they have
been saved there, and none but the operation that saves changes what is found. -/
structure Host.Files (host : Host (StateM τ)) (file : String → Array UInt8 → τ → Prop) : Prop where
  saved : ∀ env path bytes, ((host.save path bytes).run env).1 = .ok () →
    file path bytes ((host.save path bytes).run env).2
  openPort : ∀ settings, Keeps file (host.openPort settings)
  port : ∀ env settings port, ((host.openPort settings).run env).1 = .ok port → port.Keeps file
  stopwatch : Keeps file host.stopwatch
  elapsed : ∀ env, Keeps file (host.stopwatch.run env).1
  print : ∀ text, Keeps file (host.print text)
  printError : ∀ text, Keeps file (host.printError text)
  openLog : ∀ level, Keeps file (host.openLog level)
  log : ∀ entry, Keeps file (host.log entry)

/-- The deeds since `env₀` account for what is found in files now. -/
structure Accounts (file : String → Array UInt8 → τ → Prop) (env₀ : τ) (deeds : List Deed) (env : τ) : Prop where
  kept : deeds.filterMap Deed.saved? = [] → ∀ path bytes, file path bytes env ↔ file path bytes env₀
  saved : ∀ path bytes, (deeds.filterMap Deed.saved?).getLast? = some (path, bytes, .ok ()) → file path bytes env

/-- The environment with a journal that accounts for its files. -/
def Journal (file : String → Array UInt8 → τ → Prop) (env₀ : τ) (env : τ) (s : τ × List Deed) : Prop :=
  s.1 = env ∧ Accounts file env₀ s.2 env

variable {env₀ : τ}

theorem Accounts.refl : Accounts file env₀ [] env₀ :=
  ⟨fun _ _ _ => .rfl, nofun⟩

theorem Accounts.append {deeds more : List Deed} {env env' : τ} (h : Accounts file env₀ deeds env)
    (hfile : ∀ path bytes, file path bytes env' ↔ file path bytes env) (hmore : more.filterMap Deed.saved? = []) :
    Accounts file env₀ (deeds ++ more) env' := by
  refine ⟨fun hnone path bytes => ?_, fun path bytes hlast => ?_⟩
  · rw [List.filterMap_append, hmore, List.append_nil] at hnone
    exact (hfile path bytes).trans (h.kept hnone path bytes)
  · rw [List.filterMap_append, hmore, List.append_nil] at hlast
    exact (hfile path bytes).2 (h.saved path bytes hlast)

theorem Keeps.inStep_noting {action : StateM τ α} {entries : α → List Deed} (h : Keeps file action)
    (hentries : ∀ a, (entries a).filterMap Deed.saved? = []) :
    InStep (Journal file env₀) Eq action (noting action entries) := by
  rintro _ ⟨env, deeds⟩ ⟨rfl, haccounts⟩
  exact ⟨rfl, rfl, haccounts.append (h _) (hentries _)⟩

theorem Serial.Port.Keeps.inStep_journaled {port : Port (StateM τ)} (h : port.Keeps file) :
    port.InStep (Journal file env₀) (port.journaled .used) where
  waiting := h.waiting.inStep_noting fun _ => rfl
  read := h.read.inStep_noting fun _ => rfl
  write byte := (h.write byte).inStep_noting fun _ => rfl
  flush := h.flush.inStep_noting fun _ => rfl

/-- A host and its journal go in step, and the journal accounts for the files. -/
theorem Host.Files.inStep_journaled {host : Host (StateM τ)} (h : host.Files file) :
    host.InStep (Journal file env₀) host.journaled where
  openPort settings := by
    rintro _ ⟨env, deeds⟩ ⟨rfl, haccounts⟩
    refine ⟨?_, rfl, haccounts.append (h.openPort settings _) rfl⟩
    have hport := h.port env settings
    show Port.SameOpened _ ((host.openPort settings).run env).1 (((host.openPort settings).run env).1.map _)
    generalize ((host.openPort settings).run env).1 = result at hport
    cases result with
    | error e => exact .unopened e
    | ok port => exact .opened (hport port rfl).inStep_journaled
  stopwatch := by
    rintro _ ⟨env, deeds⟩ ⟨rfl, haccounts⟩
    refine ⟨(h.elapsed env).inStep_noting fun _ => rfl, rfl, haccounts.append (h.stopwatch _) rfl⟩
  save path bytes := by
    rintro _ ⟨env, deeds⟩ ⟨rfl, haccounts⟩
    have hsaved : (deeds ++ [Deed.saved path bytes ((host.save path bytes).run env).1]).filterMap Deed.saved? =
        deeds.filterMap Deed.saved? ++ [(path, bytes, ((host.save path bytes).run env).1)] := List.filterMap_append
    refine ⟨rfl, rfl, fun hnone => ?_, fun path' bytes' hlast => ?_⟩
    · have hnone := hsaved.symm.trans hnone
      simp at hnone
    · have hlast := (congrArg List.getLast? hsaved).symm.trans hlast
      rw [List.getLast?_concat] at hlast
      obtain ⟨rfl, rfl, hok⟩ : path = path' ∧ bytes = bytes' ∧ ((host.save path bytes).run env).1 = .ok () := by
        simpa using hlast
      exact h.saved env path bytes hok
  print text := (h.print text).inStep_noting fun _ => rfl
  printError text := (h.printError text).inStep_noting fun _ => rfl
  openLog level := (h.openLog level).inStep_noting fun _ => rfl
  log entry := (h.log entry).inStep_noting fun _ => rfl

/-- A journal changes nothing for a program, and it accounts for the files. -/
theorem Program.run_journaled {host : Host (StateM τ)} (h : host.Files file) {words : List String} {fuel : Nat}
    {result : Option UInt32} {env env' : τ} (hrun : (run host words fuel).run.run env = (result, env')) :
    ∃ deeds, (run host.journaled words fuel).run.run (env, []) = (result, (env', deeds)) ∧
      Accounts file env deeds env' := by
  obtain ⟨hresult, henv, haccounts⟩ := run_together h.inStep_journaled words fuel env (env, []) ⟨rfl, .refl⟩
  rw [hrun] at hresult henv haccounts
  exact ⟨_, Prod.ext hresult.symm (Prod.ext henv rfl), haccounts⟩

end

end Xmodem
