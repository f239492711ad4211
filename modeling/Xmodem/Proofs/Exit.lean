import Xmodem.Bench.Workstation
import Xmodem.Proofs.Deeds
import Xmodem.Proofs.Hosts
import Xmodem.Proofs.PortSettings

/-!
# How the program ends

The program succeeds if and only if all that it sets out to do does: then the output file has what was
received, and otherwise at most a file that could not be written was touched. `Program.Account` says what
its deeds and its exit code come to, over all hosts, and `Program.Says` what it prints meanwhile.
-/

namespace Xmodem

open CommandLine Serial

namespace Program

/-! ### The deeds of each part -/

section
variable {α : Type} {f : Deed → Option α}

theorem filterMap_opens (hlogged : ∀ entry, f (.logged entry) = none) (settings : Settings)
    (result : Except PortError Unit) :
    (opens settings result).filterMap f = (f (.opened settings result)).toList := by
  rw [opens, List.filterMap_append, filterMap_map_eq_nil hlogged]
  cases h : f (.opened settings result) <;> simp [h]

theorem filterMap_begins (hlogged : ∀ entry, f (.logged entry) = none) (args : Arguments) (settings : Settings) :
    (begins args settings).filterMap f =
      (f (.opened settings (.ok ()))).toList ++ (f (.printed (waiting args.receive.capacity))).toList := by
  rw [begins, List.filterMap_append, filterMap_opens hlogged]
  cases h : f (.printed (waiting args.receive.capacity)) <;> simp [h]

theorem Saves.filterMap_eq_nil {bytes : Array UInt8} {output : Option String} {deeds : List Deed}
    {result : Except OutputError Unit} (h : Saves bytes output deeds result)
    (hlogged : ∀ entry, f (.logged entry) = none) (hsaved : ∀ path result, f (.saved path bytes result) = none) :
    deeds.filterMap f = [] := by
  cases h with
  | nowhere => rfl
  | saved path => simp [hlogged, hsaved]
  | unsaved path e => simp [hsaved]

theorem Saves.filterMap_saved {bytes : Array UInt8} {output : Option String} {deeds : List Deed}
    (h : Saves bytes output deeds (.ok ())) :
    deeds.filterMap Deed.saved? = (output.map fun path => (path, bytes, .ok ())).toList := by
  cases h <;> rfl

theorem filterMap_dumps (args : ReceiveArguments) (bytes : Array UInt8) :
    (dumps args bytes).filterMap f =
      if args.hexdump then (f (.printed (HexDump.render bytes))).toList else [] := by
  unfold dumps
  split
  · cases h : f (.printed (HexDump.render bytes)) <;> simp [h]
  · rfl

/-- Bytes are saved and dumped with nothing but the file, the log and standard output. -/
theorem Saves.filterMap_dumps_eq_nil {bytes : Array UInt8} {output : Option String} {deeds : List Deed}
    {result : Except OutputError Unit} (h : Saves bytes output deeds result) (args : ReceiveArguments)
    (hlogged : ∀ entry, f (.logged entry) = none) (hsaved : ∀ path result, f (.saved path bytes result) = none)
    (hprinted : ∀ text, f (.printed text) = none) : (deeds ++ dumps args bytes).filterMap f = [] := by
  rw [List.filterMap_append, h.filterMap_eq_nil hlogged hsaved, filterMap_dumps, hprinted]
  exact ite_self _

end

/-! ### Transfers -/

namespace Transfers
variable {args : ReceiveArguments} {deeds : List Deed} {o : Outcome} {n : Nat} {buffer : Array UInt8}

theorem ne_exhausted (h : Transfers args deeds o) (hretries : args.retries.toNat < UInt32.size - 1) :
    o.ending ≠ .exhausted := by
  obtain ⟨steps, hrun, -⟩ := h
  exact hrun.inv (Nat.add_lt_of_lt_sub hretries)

/-- What was received came in frames that the port delivered in order, each in one piece. -/
theorem delivered (h : Transfers args deeds ⟨.received n, buffer⟩) : ∃ frames : List Frame,
    n = blockSize * frames.length ∧ n ≤ args.capacity ∧ Frame.Numbered frames ∧
    Scattered (fun f seg => seg = f.bytes) frames ((deeds.filterMap Deed.used?).filterMap Use.delivered?) ∧
    (buffer.extract 0 n).toList = Frame.payloads frames := by
  obtain ⟨steps, hrun, hdeeds⟩ := h
  obtain ⟨frames, hbrings⟩ := hrun.brings
  have htaken : (deeds.filterMap Deed.used?).filterMap Use.delivered? = Receiver.taken steps :=
    hdeeds.carried.delivered.trans List.filterMap_map
  rw [htaken]
  exact ⟨frames, hbrings.length_eq, hbrings.le, hbrings.numbered,
    hbrings.accepted.filterMap _ fun _ _ haccepted => haccepted.taken, hbrings.contents⟩

theorem filterMap_eq_nil {α : Type} {f : Deed → Option α} (h : Transfers args deeds o)
    (hused : ∀ use, f (.used use) = none) (hlogged : ∀ entry, f (.logged entry) = none) :
    deeds.filterMap f = [] := by
  obtain ⟨steps, -, hdeeds⟩ := h
  exact hdeeds.filterMap_eq_nil hused hlogged

theorem size_data (h : Transfers args deeds ⟨.received n, buffer⟩) : (buffer.extract 0 n).size = n := by
  obtain ⟨frames, hlength, -, -, -, hcontents⟩ := h.delivered
  rw [← Array.length_toList, hcontents, Frame.length_payloads, hlength]

end Transfers

theorem data_eq_ok {o : Outcome} {bytes : Array UInt8} (h : data o = .ok bytes) :
    ∃ n buffer, o = ⟨.received n, buffer⟩ ∧ bytes = buffer.extract 0 n := by
  obtain ⟨ending, buffer⟩ := o
  cases ending with
  | received n => exact ⟨n, buffer, rfl, (Except.ok.inj h).symm⟩
  | failed e => cases h
  | exhausted => cases h

theorem data_eq_error {o : Outcome} {failure : Failure} (h : data o = .error failure)
    (ho : o.ending ≠ .exhausted) :
    ∃ e buffer, o = ⟨.failed e, buffer⟩ ∧ failure = .transfer e := by
  obtain ⟨ending, buffer⟩ := o
  cases ending with
  | received n => cases h
  | failed e => exact ⟨e, buffer, rfl, (Except.error.inj h).symm⟩
  | exhausted => exact absurd rfl ho

/-! ### The account -/

/-- The settings are valid, and the port was opened with them. -/
def Opened (args : Arguments) (deeds : List Deed) : Prop :=
  ∃ settings, Asks args settings ∧ (settings, .ok ()) ∈ deeds.filterMap Deed.opened?

/-- Why the program does not come to a transfer, and what it says of that. -/
inductive Declines (args : Arguments) (deeds : List Deed) : String → Prop
  | setting {text : String} (h : Blames args text) : Declines args deeds ("Error: " ++ text ++ "\n")
  | unopened {settings : Settings} {e : PortError} (h : (settings, .error e) ∈ deeds.filterMap Deed.opened?) :
    Declines args deeds ("Failed to open serial port: " ++ e.message ++ "\n")
  | noCapacity (h : Opened args deeds) (hzero : args.receive.capacity = 0) :
    Declines args deeds "Error: capacity must be at least 1 byte\n"

/-- The transfer among the deeds of the program, if it comes to one. -/
structure Undertakes (args : Arguments) (deeds : List Deed) (transfer : Option Outcome) : Prop where
  started : transfer.isSome ↔ Opened args deeds ∧ 1 ≤ args.receive.capacity
  /-- It is the run of a receiver, and the port was used for what the receiver asks of its line. -/
  runs : ∀ o, transfer = some o → ∃ steps,
    Receiver.Run (.ofMillis args.receive.retries args.receive.startTimeoutMs args.receive.byteTimeoutMs)
      args.receive.capacity (Array.replicate args.receive.capacity 0) steps (.ended o) ∧
    Carried (deeds.filterMap Deed.used?) (steps.map Prod.snd)
  /-- What was received came in frames that the port delivered in order, each in one piece. -/
  delivered : ∀ n buffer, transfer = some ⟨.received n, buffer⟩ → ∃ frames : List Frame,
    n = blockSize * frames.length ∧ n ≤ args.receive.capacity ∧ Frame.Numbered frames ∧
    Scattered (fun f seg => seg = f.bytes) frames ((deeds.filterMap Deed.used?).filterMap Use.delivered?) ∧
    (buffer.extract 0 n).toList = Frame.payloads frames
  /-- No port is opened with other settings than those that are asked for, and none without valid ones. -/
  asked : ∀ settings result, (settings, result) ∈ deeds.filterMap Deed.opened? → Asks args settings
  unused : transfer = none → deeds.filterMap Deed.used? = []

/-- What the program prints: on standard output if it succeeds, and of what is wrong on standard error. -/
structure Says (args : Arguments) (deeds : List Deed) (transfer : Option Outcome) (code : UInt32) : Prop where
  received : code = 0 → ∀ n buffer, transfer = some ⟨.received n, buffer⟩ →
    deeds.filterMap Deed.printed? =
      ("\nWaiting for sender (up to " ++ toString args.receive.capacity ++ " bytes)...\n") ::
        (if args.receive.hexdump then [HexDump.render (buffer.extract 0 n)] else []) ++
        ["\nReceived " ++ toString n ++ " bytes\n"] ∧
    deeds.filterMap Deed.printedError? = []
  /-- Nothing is dumped by a program that fails. -/
  undumped : code = 1 → deeds.filterMap Deed.printed? =
    (transfer.map fun _ =>
      "\nWaiting for sender (up to " ++ toString args.receive.capacity ++ " bytes)...\n").toList
  declined : transfer = none → ∃ text, deeds.filterMap Deed.printedError? = [text] ∧ Declines args deeds text
  failed : ∀ e buffer, transfer = some ⟨.failed e, buffer⟩ →
    deeds.filterMap Deed.printedError? = ["Receive failed: " ++ e.message ++ "\n"]

/-- What a run of the program from `env` to `env'` comes to, by its deeds, the transfer among them, and the exit
code. -/
structure Account {τ : Type} (file : String → Array UInt8 → τ → Prop) (args : Arguments) (env env' : τ)
    (deeds : List Deed) (transfer : Option Outcome) (code : UInt32) : Prop
    extends Undertakes args deeds transfer, Says args deeds transfer code where
  exits : code = 0 ∨ code = 1
  succeeds : code = 0 ↔ Opened args deeds ∧ 1 ≤ args.receive.capacity ∧
    (∃ n buffer, transfer = some ⟨.received n, buffer⟩) ∧
    ∀ path, args.receive.output = some path → ∃ bytes, (path, bytes, .ok ()) ∈ deeds.filterMap Deed.saved?
  kept : code = 0 → ∀ n buffer, transfer = some ⟨.received n, buffer⟩ →
    deeds.filterMap Deed.saved? =
      (args.receive.output.map fun path => (path, buffer.extract 0 n, .ok ())).toList ∧
    ∀ path, args.receive.output = some path → file path (buffer.extract 0 n) env'
  /-- If what was received cannot be saved, the message says how much it is. -/
  unsaved : code = 1 → ∀ n buffer, transfer = some ⟨.received n, buffer⟩ → ∃ path e,
    args.receive.output = some path ∧
    deeds.filterMap Deed.saved? = [(path, buffer.extract 0 n, .error e)] ∧
    deeds.filterMap Deed.printedError? =
      ["Error: received " ++ toString n ++ " bytes but could not write " ++ path ++ ": " ++ e.message ++ "\n"]
  /-- Without a transfer that ends well no file is touched. -/
  untouched : (∀ n buffer, transfer ≠ some ⟨.received n, buffer⟩) →
    deeds.filterMap Deed.saved? = [] ∧ ∀ path bytes, file path bytes env' ↔ file path bytes env

/-- The last deed of the program. -/
def last : Except Failure Nat → Deed
  | .ok n => .printed (received n)
  | .error failure => .printedError (failure.message ++ "\n")

def code : Except Failure Nat → UInt32
  | .ok _ => 0
  | .error failure => failure.exitCode

/-- All deeds of the program. -/
def deeds (args : Arguments) (performed : List Deed) (result : Except Failure Nat) : List Deed :=
  .logOpened (logLevel args) :: (performed ++ [last result])

theorem deeds_of_run {τ : Type} {host : Host (StateM τ)} {words : List String} {args : Arguments} {fuel : Nat}
    {exit : UInt32} {env : τ} {s' : τ × List Deed} (hargs : Arguments.parse words = .ok args)
    (h : Gives (run host.journaled words fuel) (env, []) exit s') :
    ∃ performed result, Performs args performed result ∧ s'.2 = deeds args performed result ∧
      exit = code result := by
  unfold run at h
  rw [hargs] at h
  obtain ⟨_, s₁, hopen, h⟩ := h.of_bind
  obtain ⟨result, s₂, hperform, h⟩ := h.of_bind
  obtain ⟨performed, hs₂, hperforms⟩ := performs_of_gives hperform
  rw [openLog_journaled hopen.of_lift] at hs₂
  refine ⟨performed, result, hperforms, ?_⟩
  cases result with
  | ok n =>
    obtain ⟨_, s₃, hprint, h⟩ := h.of_bind
    obtain ⟨rfl, rfl⟩ := h.of_pure
    rw [print_journaled hprint.of_lift, hs₂]
    exact ⟨rfl, rfl⟩
  | error failure =>
    obtain ⟨_, s₃, hprint, h⟩ := h.of_bind
    obtain ⟨rfl, rfl⟩ := h.of_pure
    rw [printError_journaled hprint.of_lift, hs₂]
    exact ⟨rfl, rfl⟩

section
variable {τ : Type} {file : String → Array UInt8 → τ → Prop} {args : Arguments} {env env' : τ}

/-- The account of a program that does not come to a transfer. -/
theorem Account.of_unstarted {deeds : List Deed} (hfiles : Accounts file env deeds env')
    (hstart : ¬ (Opened args deeds ∧ 1 ≤ args.receive.capacity))
    (hasked : ∀ settings result, (settings, result) ∈ deeds.filterMap Deed.opened? → Asks args settings)
    (hused : deeds.filterMap Deed.used? = []) (hsaved : deeds.filterMap Deed.saved? = [])
    (hprinted : deeds.filterMap Deed.printed? = []) {text : String}
    (herror : deeds.filterMap Deed.printedError? = [text]) (hdeclines : Declines args deeds text) :
    Account file args env env' deeds none 1 where
  started := iff_of_false nofun hstart
  runs := nofun
  delivered := nofun
  asked := hasked
  unused _ := hused
  received h := absurd h (by decide)
  undumped _ := hprinted
  declined _ := ⟨text, herror, hdeclines⟩
  failed := nofun
  exits := .inr rfl
  succeeds := iff_of_false (by decide) fun ⟨_, _, ⟨_, _, hnone⟩, _⟩ => nomatch hnone
  kept h := absurd h (by decide)
  unsaved _ := nofun
  untouched _ := ⟨hsaved, hfiles.kept hsaved⟩

variable {settings : Settings} {performed rest : List Deed} {o : Outcome}

theorem Account.of_failed {deeds : List Deed} {e : TransferError} {buffer : Array UInt8}
    (hundertakes : Undertakes args deeds (some ⟨.failed e, buffer⟩)) (hfiles : Accounts file env deeds env')
    (hsaved : deeds.filterMap Deed.saved? = [])
    (hprinted : deeds.filterMap Deed.printed? = [waiting args.receive.capacity])
    (herror : deeds.filterMap Deed.printedError? = [(Failure.transfer e).message ++ "\n"]) :
    Account file args env env' deeds (some ⟨.failed e, buffer⟩) 1 where
  toUndertakes := hundertakes
  received h := absurd h (by decide)
  undumped _ := hprinted
  declined := nofun
  failed := by
    rintro _ _ ⟨⟩
    exact herror
  exits := .inr rfl
  succeeds := iff_of_false (by decide) fun ⟨_, _, ⟨_, _, h⟩, _⟩ => nomatch h
  kept h := absurd h (by decide)
  unsaved _ := nofun
  untouched _ := ⟨hsaved, hfiles.kept hsaved⟩

theorem Account.of_unsaved {deeds : List Deed} {n : Nat} {buffer : Array UInt8} {path : String} {e : IoError}
    (hundertakes : Undertakes args deeds (some ⟨.received n, buffer⟩)) (hpath : args.receive.output = some path)
    (hsaved : deeds.filterMap Deed.saved? = [(path, buffer.extract 0 n, .error e)])
    (hprinted : deeds.filterMap Deed.printed? = [waiting args.receive.capacity])
    (herror : deeds.filterMap Deed.printedError? = [(Failure.output ⟨n, path, e⟩).message ++ "\n"]) :
    Account file args env env' deeds (some ⟨.received n, buffer⟩) 1 where
  toUndertakes := hundertakes
  received h := absurd h (by decide)
  undumped _ := hprinted
  declined := nofun
  failed := nofun
  exits := .inr rfl
  succeeds := by
    refine iff_of_false (by decide) fun ⟨_, _, _, hall⟩ => ?_
    obtain ⟨bytes, hmem⟩ := hall path hpath
    simp [hsaved] at hmem
  kept h := absurd h (by decide)
  unsaved := by
    rintro - _ _ ⟨⟩
    exact ⟨path, e, hpath, hsaved, herror⟩
  untouched h := absurd rfl (h n buffer)

theorem Account.of_received {deeds : List Deed} {n : Nat} {buffer : Array UInt8}
    (hundertakes : Undertakes args deeds (some ⟨.received n, buffer⟩)) (hfiles : Accounts file env deeds env')
    (hsaved : deeds.filterMap Deed.saved? =
      (args.receive.output.map fun path => (path, buffer.extract 0 n, .ok ())).toList)
    (hprinted : deeds.filterMap Deed.printed? = waiting args.receive.capacity ::
      (if args.receive.hexdump then [HexDump.render (buffer.extract 0 n)] else []) ++ [received n])
    (herror : deeds.filterMap Deed.printedError? = []) :
    Account file args env env' deeds (some ⟨.received n, buffer⟩) 0 where
  toUndertakes := hundertakes
  received := by
    rintro - _ _ ⟨⟩
    exact ⟨hprinted, herror⟩
  undumped h := absurd h (by decide)
  declined := nofun
  failed := nofun
  exits := .inl rfl
  succeeds := by
    obtain ⟨hopened, hpos⟩ := hundertakes.started.1 rfl
    refine iff_of_true rfl ⟨hopened, hpos, ⟨n, buffer, rfl⟩, fun path hpath => ⟨buffer.extract 0 n, ?_⟩⟩
    simp [hsaved, hpath]
  kept := by
    rintro - _ _ ⟨⟩
    refine ⟨hsaved, fun path hpath => hfiles.saved path _ ?_⟩
    simp [hsaved, hpath]
  unsaved h := absurd h (by decide)
  untouched h := absurd rfl (h n buffer)

theorem Transfers.filterMap_deeds {α : Type} {f : Deed → Option α} (h : Transfers args.receive performed o)
    (hlogged : ∀ entry, f (.logged entry) = none) (hlog : ∀ level, f (.logOpened level) = none)
    (hused : ∀ use, f (.used use) = none) (result : Except Failure Nat) :
    (deeds args (begins args settings ++ (performed ++ rest)) result).filterMap f =
      (f (.opened settings (.ok ()))).toList ++ (f (.printed (waiting args.receive.capacity))).toList ++
        rest.filterMap f ++ (f (last result)).toList := by
  rw [deeds, List.filterMap_cons_none (hlog _), List.filterMap_append, List.filterMap_append,
    List.filterMap_append, filterMap_begins hlogged, h.filterMap_eq_nil hused hlogged, List.nil_append]
  cases h : f (last result) <;> simp [h]

theorem Transfers.undertakes (h : Transfers args.receive performed o) (hasks : Asks args settings)
    (hpos : 0 < args.receive.capacity) (hused : rest.filterMap Deed.used? = [])
    (hopened : rest.filterMap Deed.opened? = []) (result : Except Failure Nat) :
    Undertakes args (deeds args (begins args settings ++ (performed ++ rest)) result) (some o) := by
  have hopened : (deeds args (begins args settings ++ (performed ++ rest)) result).filterMap Deed.opened? =
      [(settings, .ok ())] := by
    rw [h.filterMap_deeds (fun _ => rfl) (fun _ => rfl) (fun _ => rfl), hopened]
    cases result <;> rfl
  have hused : (deeds args (begins args settings ++ (performed ++ rest)) result).filterMap Deed.used? =
      performed.filterMap Deed.used? := by
    rw [deeds, List.filterMap_cons_none rfl, List.filterMap_append, List.filterMap_append, List.filterMap_append,
      filterMap_begins (fun _ => rfl), hused]
    cases result <;> simp [last, Deed.used?]
  refine ⟨iff_of_true rfl ⟨⟨settings, hasks, by simp [hopened]⟩, hpos⟩, ?_, ?_, ?_, nofun⟩
  · rintro _ ⟨⟩
    obtain ⟨steps, hrun, hdeeds⟩ := h
    exact ⟨steps, hrun, hused ▸ hdeeds.carried⟩
  · rintro n buffer ⟨⟩
    exact hused ▸ h.delivered
  · intro settings' result' hmem
    rw [hopened, List.mem_singleton] at hmem
    cases hmem
    exact hasks

theorem filterMap_deeds_opens {α : Type} {f : Deed → Option α} (hlogged : ∀ entry, f (.logged entry) = none)
    (hlog : ∀ level, f (.logOpened level) = none) (opened : Except PortError Unit) (result : Except Failure Nat) :
    (deeds args (opens settings opened) result).filterMap f =
      (f (.opened settings opened)).toList ++ (f (last result)).toList := by
  rw [deeds, List.filterMap_cons_none (hlog _), List.filterMap_append, filterMap_opens hlogged]
  cases h : f (last result) <;> simp [h]

theorem mem_opened_deeds (args : Arguments) (settings : Settings) (opened : Except PortError Unit)
    (result : Except Failure Nat) :
    (settings, opened) ∈ (deeds args (opens settings opened) result).filterMap Deed.opened? := by
  rw [filterMap_deeds_opens (fun _ => rfl) (fun _ => rfl)]
  exact List.mem_cons_self

/-- Behind an opening of the port only a failure to start a transfer follows. -/
theorem Account.of_opens {opened : Except PortError Unit} {failure : Failure} (hasks : Asks args settings)
    (hstart : opened = .ok () → args.receive.capacity = 0)
    (hfiles : Accounts file env (deeds args (opens settings opened) (.error failure)) env')
    (hdeclines : Declines args (deeds args (opens settings opened) (.error failure)) (failure.message ++ "\n")) :
    Account file args env env' (deeds args (opens settings opened) (.error failure)) none 1 := by
  have hopened : (deeds args (opens settings opened) (.error failure)).filterMap Deed.opened? =
      [(settings, opened)] :=
    filterMap_deeds_opens (fun _ => rfl) (fun _ => rfl) _ _
  refine .of_unstarted hfiles ?_ ?_ (filterMap_deeds_opens (fun _ => rfl) (fun _ => rfl) _ _)
    (filterMap_deeds_opens (fun _ => rfl) (fun _ => rfl) _ _)
    (filterMap_deeds_opens (fun _ => rfl) (fun _ => rfl) _ _)
    (filterMap_deeds_opens (fun _ => rfl) (fun _ => rfl) _ _) hdeclines
  · rintro ⟨⟨settings', -, hmem⟩, hpos⟩
    rw [hopened, List.mem_singleton] at hmem
    cases hmem
    rw [hstart rfl] at hpos
    exact absurd hpos (by decide)
  · intro settings' result hmem
    rw [hopened, List.mem_singleton] at hmem
    cases hmem
    exact hasks

/-- However a program ends that has come to a transfer, its deeds come to an account. -/
theorem Finishes.account {result : Except Failure Nat} (h : Finishes args.receive o rest result)
    (htransfer : Transfers args.receive performed o) (hasks : Asks args settings)
    (hpos : 0 < args.receive.capacity) (hretries : args.receive.retries.toNat < UInt32.size - 1)
    (hfiles : Accounts file env (deeds args (begins args settings ++ (performed ++ rest)) result) env') :
    Account file args env env' (deeds args (begins args settings ++ (performed ++ rest)) result) (some o)
      (code result) := by
  cases h with
  | failed hdata =>
    obtain ⟨e, buffer, rfl, rfl⟩ := data_eq_error hdata (htransfer.ne_exhausted hretries)
    exact .of_failed (htransfer.undertakes hasks hpos rfl rfl _) hfiles
      (htransfer.filterMap_deeds (fun _ => rfl) (fun _ => rfl) (fun _ => rfl) _)
      (htransfer.filterMap_deeds (fun _ => rfl) (fun _ => rfl) (fun _ => rfl) _)
      (htransfer.filterMap_deeds (fun _ => rfl) (fun _ => rfl) (fun _ => rfl) _)
  | unsaved hdata hsaves =>
    obtain ⟨n, buffer, rfl, rfl⟩ := data_eq_ok hdata
    generalize houtput : args.receive.output = output at hsaves
    cases hsaves with
    | unsaved path e =>
      refine .of_unsaved (htransfer.undertakes hasks hpos rfl rfl _) houtput
        (htransfer.filterMap_deeds (fun _ => rfl) (fun _ => rfl) (fun _ => rfl) _)
        (htransfer.filterMap_deeds (fun _ => rfl) (fun _ => rfl) (fun _ => rfl) _) ?_
      rw [htransfer.filterMap_deeds (fun _ => rfl) (fun _ => rfl) (fun _ => rfl), htransfer.size_data]
      rfl
  | @received saving _ hdata hsaves =>
    obtain ⟨n, buffer, rfl, rfl⟩ := data_eq_ok hdata
    rw [htransfer.size_data] at hfiles ⊢
    have hused := hsaves.filterMap_dumps_eq_nil (f := Deed.used?) args.receive (fun _ => rfl) (fun _ _ => rfl)
      fun _ => rfl
    have hopened := hsaves.filterMap_dumps_eq_nil (f := Deed.opened?) args.receive (fun _ => rfl)
      (fun _ _ => rfl) fun _ => rfl
    have herror := hsaves.filterMap_dumps_eq_nil (f := Deed.printedError?) args.receive (fun _ => rfl)
      (fun _ _ => rfl) fun _ => rfl
    refine .of_received (htransfer.undertakes hasks hpos hused hopened _) hfiles ?_ ?_ ?_
    · rw [htransfer.filterMap_deeds (fun _ => rfl) (fun _ => rfl) (fun _ => rfl), List.filterMap_append,
        hsaves.filterMap_saved, filterMap_dumps]
      simp [Deed.saved?, last]
    · rw [htransfer.filterMap_deeds (fun _ => rfl) (fun _ => rfl) (fun _ => rfl), List.filterMap_append,
        hsaves.filterMap_eq_nil (fun _ => rfl) fun _ _ => rfl, filterMap_dumps]
      rfl
    · rw [htransfer.filterMap_deeds (fun _ => rfl) (fun _ => rfl) (fun _ => rfl), herror]
      rfl

/-- Wherever the program ends, its deeds come to an account. -/
theorem Performs.account {result : Except Failure Nat} (h : Performs args performed result)
    (hfiles : Accounts file env (deeds args performed result) env')
    (hcapacity : args.receive.capacity ≤ maxCapacity) (hretries : args.receive.retries.toNat < UInt32.size - 1) :
    ∃ transfer, Account file args env env' (deeds args performed result) transfer (code result) := by
  cases h with
  | @setting e h =>
    have hblames := blames_of_portSettings h
    refine ⟨none, .of_unstarted hfiles (fun ⟨⟨settings, hasks, _⟩, _⟩ => ?_)
      (fun _ _ hmem => absurd hmem List.not_mem_nil) rfl rfl rfl rfl (.setting hblames)⟩
    rw [portSettings_eq_ok_iff.2 hasks] at h
    cases h
  | unopened h e =>
    exact ⟨none, .of_opens (portSettings_eq_ok_iff.1 h) nofun hfiles (.unopened (mem_opened_deeds ..))⟩
  | noCapacity h hzero =>
    have hasks := portSettings_eq_ok_iff.1 h
    exact ⟨none, .of_opens hasks (fun _ => hzero) hfiles (.noCapacity ⟨_, hasks, mem_opened_deeds ..⟩ hzero)⟩
  | tooLarge h hlt => exact absurd hlt (Nat.not_lt_of_le hcapacity)
  | receives h hpos htransfer hfinishes =>
    exact ⟨_, hfinishes.account htransfer (portSettings_eq_ok_iff.1 h) hpos hretries hfiles⟩

end

end Program

/-! ### A host without paths -/

namespace Bench.Workstation

/-- A host whose files are all in one place, under their paths. -/
def flat : Host (StateM Workstation) where
  openPort := host.openPort
  stopwatch := host.stopwatch
  save path bytes := fun w => (.ok (), { w with files := w.files.put [path] (.file bytes) })
  print := host.print
  printError := host.printError
  openLog := host.openLog
  log := host.log

def HasFile (path : String) (bytes : Array UInt8) (w : Workstation) : Prop :=
  w.files.entries.lookup [path] = some (.file bytes)

def fileSize? (path : String) (w : Workstation) : Option Nat :=
  match w.files.entries.lookup [path] with
  | some (.file bytes) => some bytes.size
  | _ => none

theorem HasFile.fileSize? {path : String} {bytes : Array UInt8} {w : Workstation} (h : HasFile path bytes w) :
    w.fileSize? path = some bytes.size := by
  rw [Workstation.fileSize?, h]

theorem keeps_onDevice {α : Type} (operation : StateM Device α) : Keeps HasFile (onDevice operation) :=
  fun _ _ _ => .rfl

theorem run_openPort (settings : Settings) (w : Workstation) : ∃ device,
    (∃ e, (flat.openPort settings).run w = (.error e, { w with device })) ∨
      (flat.openPort settings).run w = (.ok port, { w with device }) := by
  obtain ⟨⟨opened, device⟩, hopened⟩ : ∃ r, Device.openWith settings w.device = r := ⟨_, rfl⟩
  have hrun : (onDevice (Device.openWith settings)).run w = (opened, { w with device }) := by
    show (let (result, device) := Device.openWith settings w.device; (result, { w with device })) = _
    rw [hopened]
  refine ⟨device, ?_⟩
  rw [flat, host, run_bind_of hrun]
  cases opened with
  | error e => exact .inl ⟨e, rfl⟩
  | ok _ => exact .inr rfl

theorem flat_files : flat.Files HasFile where
  saved w path bytes _ := by
    show List.lookup [path] (([path], Entry.file bytes) :: _) = _
    simp
  openPort settings w path bytes := by
    obtain ⟨device, ⟨e, hrun⟩ | hrun⟩ := run_openPort settings w <;> rw [hrun] <;> rfl
  port w settings port' h := by
    obtain ⟨device, ⟨e, hrun⟩ | hrun⟩ := run_openPort settings w
    · rw [hrun] at h
      cases h
    · rw [hrun] at h
      cases h
      exact ⟨keeps_onDevice _, keeps_onDevice _, fun _ => keeps_onDevice _, keeps_onDevice _⟩
  stopwatch _ _ _ := .rfl
  elapsed _ _ _ _ := .rfl
  print _ _ _ _ := .rfl
  printError _ _ _ _ := .rfl
  openLog _ _ _ _ := .rfl
  log _ _ _ _ := .rfl

end Bench.Workstation

namespace Program

/-- What a run of the program comes to, over every host, once its arguments are understood. -/
theorem run_account {τ : Type} {host : Host (StateM τ)} {file : String → Array UInt8 → τ → Prop}
    {words : List String} {args : Arguments} {fuel : Nat} {exit : UInt32} {env env' : τ} (hfile : host.Files file)
    (hargs : Arguments.parse words = .ok args) (hcapacity : args.receive.capacity ≤ maxCapacity)
    (hretries : args.receive.retries.toNat < UInt32.size - 1)
    (h : (run host words fuel).run.run env = (some exit, env')) :
    ∃ deeds transfer, (run host.journaled words fuel).run.run (env, []) = (some exit, (env', deeds)) ∧
      Account file args env env' deeds transfer exit := by
  obtain ⟨_, hrun, hfiles⟩ := run_journaled hfile h
  obtain ⟨performed, result, hperforms, rfl, rfl⟩ := deeds_of_run hargs hrun
  obtain ⟨transfer, haccount⟩ := hperforms.account hfiles hcapacity hretries
  exact ⟨_, transfer, hrun, haccount⟩

/-- A workstation that receives one block, and saves and dumps it. -/
theorem run_account_one_block : ∃ (w w' : Bench.Workstation) (deeds : List Deed) (f : Frame),
    (run Bench.Workstation.flat ["-p", "@PORT", "receive", "-o", "out.bin", "-c", "128", "--hexdump"]
      1000).run.run w = (some 0, w') ∧
    Scattered (fun f seg => seg = f.bytes) [f] ((deeds.filterMap Deed.used?).filterMap Use.delivered?) ∧
    Bench.Workstation.HasFile "out.bin" f.payload.toArray w' ∧
    deeds.filterMap Deed.printed? = ["\nWaiting for sender (up to 128 bytes)...\n",
      HexDump.render f.payload.toArray, "\nReceived 128 bytes\n"] := by
  let w : Bench.Workstation :=
    { device :=
        { idleStep := 300000
          replies := [[.bytes ⟨#[1, 1, 254], 1, 0⟩, .bytes ⟨#[7], 128, 0⟩, .bytes ⟨#[128], 1, 0⟩],
            [.bytes ⟨#[4], 1, 0⟩]] } }
  let words := ["-p", "@PORT", "receive", "-o", "out.bin", "-c", "128", "--hexdump"]
  let args : Arguments :=
    { port := "@PORT", baud := 115200, dataBits := 8, parity := "none", stopBits := 1, debug := false
      receive := { output := some "out.bin", capacity := 128, hexdump := true } }
  let w' := ((run Bench.Workstation.flat words 1000).run.run w).2
  have hargs : Arguments.parse words = .ok args := rfl
  have hexit : ((run Bench.Workstation.flat words 1000).run.run w).1 = some 0 := by decide +kernel
  have hsize : w'.fileSize? "out.bin" = some 128 := by decide +kernel
  have hrun : (run Bench.Workstation.flat words 1000).run.run w = (some 0, w') := Prod.ext hexit rfl
  obtain ⟨deeds, transfer, -, haccount⟩ :=
    run_account Bench.Workstation.flat_files hargs (by decide) (by decide) hrun
  obtain ⟨-, -, ⟨n, buffer, rfl⟩, -⟩ := haccount.succeeds.1 rfl
  obtain ⟨frames, hlength, -, -, hbytes, hpayloads⟩ := haccount.delivered n buffer rfl
  obtain ⟨hprinted, -⟩ := haccount.received rfl n buffer rfl
  have hfile := (haccount.kept rfl n buffer rfl).2 "out.bin" rfl
  have hpayload : (buffer.extract 0 n).size = 128 := Option.some.inj (hfile.fileSize?.symm.trans hsize)
  have hn : n = 128 := by
    rw [← hpayload, ← Array.length_toList, hpayloads, Frame.length_payloads, hlength]
  have hone : frames.length = 1 := Nat.eq_of_mul_eq_mul_left (by decide) (hlength.symm.trans hn)
  obtain ⟨f, rfl⟩ := List.length_eq_one_iff.1 hone
  have hbuffer : buffer.extract 0 n = f.payload.toArray :=
    Array.toList_inj.1 (hpayloads.trans (List.append_nil _))
  have hwaiting : "\nWaiting for sender (up to " ++ toString args.receive.capacity ++ " bytes)...\n" =
      "\nWaiting for sender (up to 128 bytes)...\n" := by
    decide +kernel
  have hreceived : "\nReceived " ++ toString 128 ++ " bytes\n" = "\nReceived 128 bytes\n" := by
    decide +kernel
  rw [hbuffer] at hfile hprinted
  rw [hn, hwaiting, hreceived] at hprinted
  exact ⟨w, w', deeds, f, hrun, hbytes, hfile, hprinted⟩

end Program

end Xmodem
