import Xmodem.Proofs.Growth
import Xmodem.Proofs.PortLine
import Xmodem.Proofs.Reception
import Xmodem.Program.Journal

/-!
# What the program does

The deeds of a program are few and stand in a fixed order: it opens the port, says that it waits, receives,
saves and dumps. `Program.Performs` has a case for each place at which this may end, with all the deeds up to
there; in between, a transfer uses the port for the calls of a receiver's run (`Transferred`).
-/

namespace Xmodem

open CommandLine Serial

/-! ### Transfers -/

/-- The deeds of a transfer: the port is used for the calls, and entries are logged. -/
inductive Transferred : List Deed → List Call → Prop
  | nil : Transferred [] []
  | call {deeds : List Deed} {calls : List Call} {call : Call} {uses : List Use} :
    Transferred deeds calls → call.MadeOf uses → Transferred (deeds ++ uses.map .used) (calls ++ [call])
  | logged {deeds : List Deed} {calls : List Call} (entries : List LogEntry) :
    Transferred deeds calls → Transferred (deeds ++ entries.map .logged) calls

theorem filterMap_map_eq_nil {α β γ : Type} {f : β → Option γ} {g : α → β} (h : ∀ a, f (g a) = none)
    (as : List α) : (as.map g).filterMap f = [] :=
  List.filterMap_eq_nil_iff.2 (List.forall_mem_map.2 fun a _ => h a)

namespace Transferred
variable {deeds : List Deed} {calls : List Call}

theorem carried (h : Transferred deeds calls) : Carried (deeds.filterMap Deed.used?) calls := by
  induction h with
  | nil => exact .nil
  | @call deeds calls call uses _ hmade ih =>
    have huses : (uses.map Deed.used).filterMap Deed.used? = uses := by
      rw [List.filterMap_map]
      exact List.filterMap_some
    rw [List.filterMap_append, huses]
    exact ih.concat hmade
  | logged entries _ ih =>
    rw [List.filterMap_append, filterMap_map_eq_nil (fun _ => rfl), List.append_nil]
    exact ih

/-- There are no other deeds. -/
theorem filterMap_eq_nil {α : Type} (h : Transferred deeds calls) {f : Deed → Option α}
    (hused : ∀ use, f (.used use) = none) (hlogged : ∀ entry, f (.logged entry) = none) :
    deeds.filterMap f = [] := by
  induction h with
  | nil => rfl
  | call _ _ ih => rw [List.filterMap_append, ih, filterMap_map_eq_nil hused, List.append_nil]
  | logged entries _ ih => rw [List.filterMap_append, ih, filterMap_map_eq_nil hlogged, List.append_nil]

end Transferred

section
variable {τ σ ρ : Type} {host : Host (StateM τ)} {port : Port (StateM τ)} {elapsed : StateM τ Nat}
variable {report : Message → StateM (τ × List Deed) Unit} {limit fuel : Nat} {ask : σ → Ask (Turn σ ρ)}
variable {env env' : τ × List Deed} {p : Progress σ ρ}

/-- The reports make log entries and nothing else. -/
def OnlyLogs (report : Message → StateM (τ × List Deed) Unit) : Prop :=
  ∀ message env, ∃ entries : List LogEntry, ((report message).run env).2.2 = env.2 ++ entries.map Deed.logged

theorem OnlyLogs.forM (h : OnlyLogs report) {messages : List Message} {u : Unit}
    (hgives : Gives (messages.forM fun message => OptionT.lift (report message)) env u env') :
    ∃ entries : List LogEntry, env'.2 = env.2 ++ entries.map Deed.logged := by
  induction messages generalizing env with
  | nil =>
    obtain ⟨-, rfl⟩ := hgives.of_pure
    exact ⟨[], (List.append_nil _).symm⟩
  | cons message messages ih =>
    obtain ⟨_, env₁, hfirst, hrest⟩ := hgives.of_bind
    obtain ⟨entries, hentries⟩ := h message env
    obtain ⟨more, hmore⟩ := ih hrest
    rw [hfirst.of_lift] at hentries
    exact ⟨entries ++ more, by rw [hmore, hentries, List.map_append, List.append_assoc]⟩

theorem Serial.Port.extend_trace (hreport : OnlyLogs report) {s₀ s : σ} {before : List (σ × Call)}
    {past deeds : List Deed} (ht : Trace ask s₀ before (.going s)) (hpast : env.2 = past ++ deeds)
    (hdeeds : Transferred deeds (before.map Prod.snd))
    (h : Gives ((port.journaledLine elapsed .used report limit).run ask fuel s) env p env') :
    ∃ steps deeds', Trace ask s₀ steps p ∧ env'.2 = past ++ deeds' ∧
      Transferred deeds' (steps.map Prod.snd) := by
  induction fuel generalizing before deeds s env with
  | zero =>
    obtain ⟨rfl, rfl⟩ := h.of_pure
    exact ⟨before, deeds, ht, hpast, hdeeds⟩
  | succ fuel ih =>
    obtain ⟨turn, env₁, hanswer, h⟩ := h.of_bind
    obtain ⟨_, env₂, htold, h⟩ := h.of_bind
    obtain ⟨call, uses, ha, hmade, hcall⟩ := makes_journaledLine hanswer
    obtain ⟨entries, hentries⟩ := hreport.forM htold
    have hdeeds₂ : Transferred ((deeds ++ uses.map .used) ++ entries.map .logged)
        ((before ++ [(s, call)]).map Prod.snd) := by
      rw [List.map_append]
      exact (hdeeds.call hmade).logged entries
    have hpast₂ : env₂.2 = past ++ ((deeds ++ uses.map .used) ++ entries.map .logged) := by
      rw [hentries, hcall, hpast]
      simp only [List.append_assoc]
    have ht₂ := ht.step ha
    cases hn : turn.next with
    | going s' =>
      rw [hn] at ht₂ h
      exact ih ht₂ hpast₂ hdeeds₂ h
    | ended r =>
      rw [hn] at ht₂ h
      obtain ⟨rfl, rfl⟩ := h.of_pure
      exact ⟨_, _, ht₂, hpast₂, hdeeds₂⟩

/-- What is carried out over the line of a port is a trace, and the deeds are those of a transfer. -/
theorem Serial.Port.trace_of_run (hreport : OnlyLogs report) {s : σ}
    (h : Gives ((port.journaledLine elapsed .used report limit).run ask fuel s) env p env') :
    ∃ steps deeds, Trace ask s steps p ∧ env'.2 = env.2 ++ deeds ∧ Transferred deeds (steps.map Prod.snd) :=
  extend_trace hreport .start (List.append_nil _).symm .nil h

end

namespace Program
variable {τ : Type} {host : Host (StateM τ)}

/-- What a transfer leaves to be saved. -/
def data : Outcome → Except Failure (Array UInt8)
  | ⟨.received n, buffer⟩ => .ok (buffer.extract 0 n)
  | ⟨.failed e, _⟩ => .error (.transfer e)
  | ⟨.exhausted, _⟩ => .error .exhausted

theorem data_padded {size : Nat} {o : Outcome} (h : o.Grown) : data (o.padded size) = data o := by
  obtain ⟨ending, buffer⟩ := o
  cases ending with
  | received n => exact congrArg Except.ok (extract_padTo (h n rfl))
  | failed e => rfl
  | exhausted => rfl

/-- The transfer of a program is the run of a receiver, and its deeds are those of the run. -/
theorem receive_gives {level : Level} {args : ReceiveArguments} {port : Port (StateM τ)} {fuel : Nat}
    {result : Except Failure (Array UInt8)} {s s' : τ × List Deed} (hpos : 0 < args.capacity)
    (h : Gives (receive host.journaled level args (port.journaled .used) fuel) s result s') :
    ∃ steps o deeds, Receiver.Run (config args) args.capacity (Array.replicate args.capacity 0) steps (.ended o) ∧
      Transferred deeds (steps.map Prod.snd) ∧ s'.2 = s.2 ++ deeds ∧ result = data o := by
  obtain ⟨elapsed, s₁, hwatch, h⟩ := h.of_bind
  obtain ⟨p, s₂, hrun, h⟩ := h.of_bind
  obtain ⟨env, journal⟩ := s
  cases hwatch.of_lift
  have hreport : OnlyLogs fun message =>
      if level.admits message.level then host.journaled.log message.entry else pure () := by
    intro message env
    dsimp only
    split
    · exact ⟨[message.entry], rfl⟩
    · exact ⟨[], (List.append_nil _).symm⟩
  have hrun : Gives ((port.journaledLine (host.stopwatch.run env).1 .used _ fuel).run Receiver.ask fuel _) _ p s₂ :=
    hrun
  obtain ⟨steps, deeds, htrace, hs₂, hdeeds⟩ :=
    Port.trace_of_run hreport hrun
  rw [List.append_nil] at hs₂
  obtain ⟨hrun, hgrown⟩ := htrace.padded hpos
  have hcalls : (steps.map fun step => (step.1.padded args.capacity, step.2)).map Prod.snd = steps.map Prod.snd := by
    rw [List.map_map]
    rfl
  cases p with
  | going r => cases h
  | ended o =>
    refine ⟨_, o.padded args.capacity, deeds, hrun, hcalls ▸ hdeeds, ?_⟩
    rw [data_padded hgrown]
    match o with
    | ⟨.received n, buffer⟩ =>
      obtain ⟨rfl, rfl⟩ := h.of_pure
      exact ⟨hs₂, rfl⟩
    | ⟨.failed e, buffer⟩ =>
      obtain ⟨rfl, rfl⟩ := h.of_pure
      exact ⟨hs₂, rfl⟩
    | ⟨.exhausted, buffer⟩ =>
      obtain ⟨rfl, rfl⟩ := h.of_pure
      exact ⟨hs₂, rfl⟩

/-! ### The whole program -/

/-- The deeds are those of a transfer that comes to `o`. -/
def Transfers (args : ReceiveArguments) (deeds : List Deed) (o : Outcome) : Prop :=
  ∃ steps, Receiver.Run (config args) args.capacity (Array.replicate args.capacity 0) steps (.ended o) ∧
    Transferred deeds (steps.map Prod.snd)

/-- The deeds with which bytes are saved, and what that comes to. -/
inductive Saves (bytes : Array UInt8) : Option String → List Deed → Except OutputError Unit → Prop
  | nowhere : Saves bytes none [] (.ok ())
  | saved (path : String) :
    Saves bytes (some path) [.saved path bytes (.ok ()), .logged ⟨.info, "Wrote " ++ path⟩] (.ok ())
  | unsaved (path : String) (e : IoError) :
    Saves bytes (some path) [.saved path bytes (.error e)] (.error ⟨bytes.size, path, e⟩)

def dumps (args : ReceiveArguments) (bytes : Array UInt8) : List Deed :=
  if args.hexdump then [.printed (HexDump.render bytes)] else []

/-- The deeds that follow a transfer, by its outcome, and what they come to. -/
inductive Finishes (args : ReceiveArguments) (o : Outcome) : List Deed → Except Failure Nat → Prop
  | failed {failure : Failure} (hdata : data o = .error failure) : Finishes args o [] (.error failure)
  | unsaved {deeds : List Deed} {bytes : Array UInt8} {e : OutputError} (hdata : data o = .ok bytes)
    (hsaves : Saves bytes args.output deeds (.error e)) : Finishes args o deeds (.error (.output e))
  | received {deeds : List Deed} {bytes : Array UInt8} (hdata : data o = .ok bytes)
    (hsaves : Saves bytes args.output deeds (.ok ())) :
    Finishes args o (deeds ++ dumps args bytes) (.ok bytes.size)

/-- The deeds that open the port. -/
def opens (settings : Settings) (result : Except PortError Unit) : List Deed :=
  (opening settings).map .logged ++ [.opened settings result]

/-- The deeds up to a transfer. -/
def begins (args : Arguments) (settings : Settings) : List Deed :=
  opens settings (.ok ()) ++ [.printed (waiting args.receive.capacity)]

/-- The deeds of the program, and what they come to, once its arguments are understood. -/
inductive Performs (args : Arguments) : List Deed → Except Failure Nat → Prop
  | setting {e : SettingError} (h : portSettings args = .error e) : Performs args [] (.error (.setting e))
  | unopened {settings : Settings} (h : portSettings args = .ok settings) (e : PortError) :
    Performs args (opens settings (.error e)) (.error (.unopened e))
  | noCapacity {settings : Settings} (h : portSettings args = .ok settings) (hzero : args.receive.capacity = 0) :
    Performs args (opens settings (.ok ())) (.error .noCapacity)
  | tooLarge {settings : Settings} (h : portSettings args = .ok settings)
    (hlt : maxCapacity < args.receive.capacity) : Performs args (begins args settings) (.error .tooLarge)
  | receives {settings : Settings} {deeds more : List Deed} {o : Outcome} {result : Except Failure Nat}
    (h : portSettings args = .ok settings) (hpos : 0 < args.receive.capacity)
    (htransfer : Transfers args.receive deeds o) (hfinishes : Finishes args.receive o more result) :
    Performs args (begins args settings ++ (deeds ++ more)) result

section
variable {s s' : τ × List Deed} {fuel : Nat} {bytes : Array UInt8}

theorem log_journaled {entry : LogEntry} {u : Unit} (h : (host.journaled.log entry).run s = (u, s')) :
    s'.2 = s.2 ++ [.logged entry] := by
  cases h
  rfl

theorem print_journaled {text : String} {u : Unit} (h : (host.journaled.print text).run s = (u, s')) :
    s'.2 = s.2 ++ [.printed text] := by
  cases h
  rfl

theorem printError_journaled {text : String} {u : Unit} (h : (host.journaled.printError text).run s = (u, s')) :
    s'.2 = s.2 ++ [.printedError text] := by
  cases h
  rfl

theorem openLog_journaled {level : Level} {u : Unit} (h : (host.journaled.openLog level).run s = (u, s')) :
    s'.2 = s.2 ++ [.logOpened level] := by
  cases h
  rfl

theorem openPort_journaled {settings : Settings} {result : Except PortError (Port (StateM (τ × List Deed)))}
    (h : (host.journaled.openPort settings).run s = (result, s')) :
    ∃ opened : Except PortError (Port (StateM τ)), result = opened.map (Port.journaled · .used) ∧
      s'.2 = s.2 ++ [.opened settings (opened.map fun _ => ())] := by
  cases h
  exact ⟨_, rfl, rfl⟩

theorem save_journaled {path : String} {result : Except IoError Unit}
    (h : (host.journaled.save path bytes).run s = (result, s')) : s'.2 = s.2 ++ [.saved path bytes result] := by
  cases h
  rfl

theorem forM_log_gives {entries : List LogEntry} {u : Unit}
    (h : Gives (entries.forM fun entry => OptionT.lift (host.journaled.log entry)) s u s') :
    s'.2 = s.2 ++ entries.map .logged := by
  induction entries generalizing s with
  | nil =>
    obtain ⟨-, rfl⟩ := h.of_pure
    exact (List.append_nil _).symm
  | cons entry entries ih =>
    obtain ⟨_, s₁, hlog, h⟩ := h.of_bind
    rw [ih h, log_journaled hlog.of_lift, List.map_cons, List.append_assoc]
    rfl

theorem saves_of_run {output : Option String} {result : Except OutputError Unit}
    (h : (save host.journaled output bytes).run s = (result, s')) :
    ∃ deeds, s'.2 = s.2 ++ deeds ∧ Saves bytes output deeds result := by
  cases output with
  | none =>
    cases h
    exact ⟨[], (List.append_nil _).symm, .nowhere⟩
  | some path =>
    obtain ⟨⟨saved, s₁⟩, hsave⟩ : ∃ r, (host.journaled.save path bytes).run s = r := ⟨_, rfl⟩
    have hs₁ := save_journaled hsave
    rw [save, saveOutput, run_bind_of hsave] at h
    cases saved with
    | error e =>
      cases h
      exact ⟨_, hs₁, .unsaved path e⟩
    | ok _ =>
      obtain ⟨⟨u, s₂⟩, hlog⟩ : ∃ r, (host.journaled.log ⟨.info, "Wrote " ++ path⟩).run s₁ = r := ⟨_, rfl⟩
      have hs₂ := log_journaled hlog
      dsimp only at h
      rw [run_bind_of hlog] at h
      cases h
      rw [hs₁, List.append_assoc] at hs₂
      exact ⟨_, hs₂, .saved path⟩

/-- What was received is saved, and a dump follows unless that fails. -/
theorem keeps_of_run {args : ReceiveArguments} {result : Except Failure Nat}
    (h : (keep host.journaled args bytes).run s = (result, s')) :
    ∃ deeds saved, Saves bytes args.output deeds saved ∧
      ((∃ e, saved = .error e ∧ result = .error (.output e) ∧ s'.2 = s.2 ++ deeds) ∨
        saved = .ok () ∧ result = .ok bytes.size ∧ s'.2 = s.2 ++ (deeds ++ dumps args bytes)) := by
  obtain ⟨⟨saved, s₁⟩, hsave⟩ : ∃ r, (save host.journaled args.output bytes).run s = r := ⟨_, rfl⟩
  obtain ⟨deeds, hs₁, hsaves⟩ := saves_of_run hsave
  rw [keep, run_bind_of hsave] at h
  refine ⟨deeds, saved, hsaves, ?_⟩
  cases saved with
  | error e =>
    cases h
    exact .inl ⟨e, rfl, rfl, hs₁⟩
  | ok _ =>
    refine .inr ⟨rfl, ?_⟩
    dsimp only at h
    rw [← List.append_assoc, ← hs₁, dumps]
    split at h
    case isTrue hdump =>
      obtain ⟨⟨u, s₂⟩, hprint⟩ : ∃ r, (host.journaled.print (HexDump.render bytes)).run s₁ = r := ⟨_, rfl⟩
      rw [run_bind_of hprint] at h
      cases h
      rw [if_pos hdump]
      exact ⟨rfl, print_journaled hprint⟩
    case isFalse hdump =>
      cases h
      rw [if_neg hdump, List.append_nil]
      exact ⟨rfl, rfl⟩

theorem finishes_of_gives {level : Level} {args : ReceiveArguments} {port : Port (StateM τ)}
    {result : Except Failure Nat} (hpos : 0 < args.capacity)
    (h : Gives (receiveFile host.journaled level args (port.journaled .used) fuel) s result s') :
    ∃ deeds more o, s'.2 = s.2 ++ (deeds ++ more) ∧ Transfers args deeds o ∧ Finishes args o more result := by
  obtain ⟨_, s₁, hreceive, h⟩ := h.of_bind
  obtain ⟨steps, o, deeds, hrun, hdeeds, hs₁, rfl⟩ := receive_gives hpos hreceive
  have htransfer : Transfers args deeds o := ⟨steps, hrun, hdeeds⟩
  suffices ∃ more, s'.2 = s₁.2 ++ more ∧ Finishes args o more result by
    obtain ⟨more, hs', hfinishes⟩ := this
    rw [hs₁, List.append_assoc] at hs'
    exact ⟨deeds, more, o, hs', htransfer, hfinishes⟩
  cases hdata : data o with
  | error failure =>
    rw [hdata] at h
    obtain ⟨rfl, rfl⟩ := h.of_pure
    exact ⟨[], (List.append_nil _).symm, .failed hdata⟩
  | ok bytes =>
    rw [hdata] at h
    obtain ⟨more, saved, hsaves, ⟨e, rfl, rfl, hs'⟩ | ⟨rfl, rfl, hs'⟩⟩ := keeps_of_run h.of_lift
    · exact ⟨more, hs', .unsaved hdata hsaves⟩
    · exact ⟨_, hs', .received hdata hsaves⟩

/-- The deeds of the program stand in the order in which it works, as far as it comes. -/
theorem performs_of_gives {args : Arguments} {result : Except Failure Nat}
    (h : Gives (perform host.journaled args fuel) s result s') :
    ∃ deeds, s'.2 = s.2 ++ deeds ∧ Performs args deeds result := by
  unfold perform at h
  cases hsettings : portSettings args with
  | error e =>
    rw [hsettings] at h
    obtain ⟨rfl, rfl⟩ := h.of_pure
    exact ⟨[], (List.append_nil _).symm, .setting hsettings⟩
  | ok settings =>
    rw [hsettings] at h
    obtain ⟨_, s₁, hlog, h⟩ := h.of_bind
    obtain ⟨_, s₂, hopen, h⟩ := h.of_bind
    obtain ⟨opened, rfl, hopened⟩ := openPort_journaled hopen.of_lift
    rw [forM_log_gives hlog, List.append_assoc] at hopened
    cases opened with
    | error e =>
      obtain ⟨rfl, rfl⟩ := h.of_pure
      exact ⟨_, hopened, .unopened hsettings e⟩
    | ok port =>
      dsimp only [Except.map] at h
      split at h
      case isTrue hzero =>
        obtain ⟨rfl, rfl⟩ := h.of_pure
        exact ⟨_, hopened, .noCapacity hsettings hzero⟩
      case isFalse hpos =>
        obtain ⟨_, s₃, hprint, h⟩ := h.of_bind
        have hbegun := print_journaled hprint.of_lift
        rw [hopened, List.append_assoc] at hbegun
        split at h
        case isTrue hlt =>
          obtain ⟨rfl, rfl⟩ := h.of_pure
          exact ⟨_, hbegun, .tooLarge hsettings hlt⟩
        case isFalse _ =>
          have hpos := Nat.pos_of_ne_zero hpos
          obtain ⟨deeds, more, o, hs', htransfer, hfinishes⟩ := finishes_of_gives hpos h
          rw [hbegun, List.append_assoc] at hs'
          exact ⟨_, hs', .receives hsettings hpos htransfer hfinishes⟩

end

end Program

end Xmodem
