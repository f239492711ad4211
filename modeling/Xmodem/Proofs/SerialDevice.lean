import Xmodem.Bench.Device
import Xmodem.Proofs.Hosts
import Xmodem.Proofs.PortLine

/-!
# A serial device loses nothing

What is done with the simulated device is accounted for by the journal of its port: the bytes that reads hand
over, and behind them what is still queued, are the bytes that were queued, in order, and each byte that a
write takes stands on the wire once (`Device.Accounts`). Each operation of the port keeps the account, and so
does every procedure that knows the device only through its port. So a port that is polled and written to in
any order hands each byte over once, and a call that brings none takes none from the queue
(`Device.port_exact`).
-/

namespace Xmodem

open Serial

/-! ### Requests -/

/-- What is asked of a port. -/
inductive Serial.Request where
  | poll
  | send (byte : UInt8)

namespace Serial

/-- Carries a request out; there is no result if a write is interrupted `fuel` times. -/
def Port.serve {m : Type → Type} [Monad m] (port : Port m) (fuel : Nat) : Request → OptionT m Call
  | .poll => return .polled (← OptionT.lift port.poll)
  | .send byte => return .wrote byte (← OptionT.mk (port.send byte fuel))

theorem Port.serve_poll {τ : Type} {port : Port (StateM τ)} {env env' : τ} {found : Polled} (fuel : Nat)
    (h : port.poll.run env = (found, env')) : Gives (port.serve fuel .poll) env (.polled found) env' :=
  congrArg (fun r : Polled × τ => (some (Call.polled r.1), r.2)) h

theorem Port.serve_send {τ : Type} {port : Port (StateM τ)} {env env' : τ} {byte : UInt8} {fuel : Nat}
    {result : Except IoError Unit} (h : (port.send byte fuel).run env = (some result, env')) :
    Gives (port.serve fuel (.send byte)) env (.wrote byte result) env' :=
  Gives.bind h rfl

/-- The call is one that answers the request. -/
inductive Request.Gets : Request → Call → Prop
  | polled (found : Polled) : Gets .poll (.polled found)
  | wrote (byte : UInt8) (result : Except IoError Unit) : Gets (.send byte) (.wrote byte result)

/-- The byte that the port took. -/
def Use.sent? : Use → Option UInt8
  | wrote byte (.ok true) => some byte
  | _ => none

/-- What a flush came to. -/
def Use.flushed? : Use → Option (Except IoError Unit)
  | flushed result => some result
  | _ => none

end Serial

/-- A byte that was written was taken once, if the result is that of the flush behind it, and otherwise it was
not taken. -/
theorem Call.MadeOf.written {byte : UInt8} {result : Except IoError Unit} {uses : List Use}
    (h : (Call.wrote byte result).MadeOf uses) :
    uses.filterMap Use.sent? = [byte] ∧ uses.filterMap Use.flushed? = [result] ∨
      uses.filterMap Use.sent? = [] ∧ uses.filterMap Use.flushed? = [] ∧ ∃ e, result = .error e := by
  generalize hcall : Call.wrote byte result = call at h
  induction h with
  | sent byte' result' =>
    cases hcall
    exact .inl ⟨rfl, rfl⟩
  | untaken byte' =>
    cases hcall
    exact .inr ⟨rfl, rfl, _, rfl⟩
  | unsent byte' h =>
    cases hcall
    exact .inr ⟨rfl, rfl, _, rfl⟩
  | interrupted _ _ ih => exact ih hcall
  | _ => cases hcall

namespace Bench

/-! ### What is queued -/

/-- The bytes that are left. -/
def Burst.bytes (b : Burst) : List UInt8 :=
  (List.replicate b.times b.pattern.toList).flatten.drop b.taken

theorem getElem?_flatten_replicate {α : Type} {as : List α} {n i : Nat} (h : i < as.length * n) :
    (List.replicate n as).flatten[i]? = as[i % as.length]? := by
  induction n generalizing i with
  | zero => exact absurd h (Nat.not_lt_zero i)
  | succ n ih =>
    rw [List.replicate_succ, List.flatten_cons]
    rcases Nat.lt_or_ge i as.length with hlt | hge
    · rw [List.getElem?_append_left hlt, Nat.mod_eq_of_lt hlt]
    · rw [List.getElem?_append_right hge, ih (by rw [Nat.mul_succ] at h; omega), ← Nat.mod_eq_sub_mod hge]

namespace Burst
variable {b b' : Burst} {byte : UInt8}

theorem length_bytes (b : Burst) : b.bytes.length = b.left := by
  simp [bytes, left, Nat.mul_comm]

theorem bytes_of_left (h : b.left = 0) : b.bytes = [] := by
  rw [← List.length_eq_zero_iff, b.length_bytes, h]

/-- What is left is the next byte, and what is left without it. -/
theorem exists_next? (h : b.left ≠ 0) : ∃ byte b', b.next? = some (byte, b') ∧ b.bytes = byte :: b'.bytes := by
  have hlt : b.taken < b.pattern.toList.length * b.times := Nat.lt_of_sub_pos (Nat.pos_of_ne_zero h)
  have hpos : 0 < b.pattern.size := Nat.pos_of_mul_pos_right (Nat.zero_lt_of_lt hlt)
  have hmod : b.taken % b.pattern.size < b.pattern.size := Nat.mod_lt _ hpos
  refine ⟨b.pattern[b.taken % b.pattern.size], { b with taken := b.taken + 1 }, ?_, ?_⟩
  · simp [next?, h, hmod]
  · have hnext := getElem?_flatten_replicate hlt
    rw [Array.length_toList] at hnext
    rw [bytes, List.drop_eq_getElem?_toList_append, hnext, Array.getElem?_toList, Array.getElem?_eq_getElem hmod]
    rfl

theorem bytes_of_next? (h : b.next? = some (byte, b')) : b.bytes = byte :: b'.bytes := by
  have hleft : b.left ≠ 0 := fun hnone => by simp [next?, hnone] at h
  obtain ⟨byte, b', hnext, hbytes⟩ := exists_next? hleft
  cases hnext.symm.trans h
  exact hbytes

end Burst

/-- The bytes that are in store. -/
def Event.content : Event → List UInt8
  | bytes burst => burst.bytes
  | _ => []

def Event.queued (queue : List Event) : List UInt8 :=
  queue.flatMap content

theorem Event.queued_append (queue more : List Event) : queued (queue ++ more) = queued queue ++ queued more :=
  List.flatMap_append

theorem Device.queued_skipSpent (queue : List Event) : Event.queued (skipSpent queue) = Event.queued queue := by
  fun_induction skipSpent queue with
  | case1 rest ih => exact ih
  | case2 burst rest h ih =>
    show _ = burst.bytes ++ Event.queued rest
    rw [ih, burst.bytes_of_left h, List.nil_append]
  | case3 burst rest h => rfl
  | case4 queue => rfl

namespace Device
variable {d d₁ d' : Device} {uses more : List Use}

/-! ### Accounts -/

/-- The uses of the port account for what has become of the device. -/
structure Accounts (d : Device) (uses : List Use) (d' : Device) : Prop where
  faults_eq : d'.sendFaults = d.sendFaults
  control_eq : d'.control.toList = d.control.toList ++ uses.filterMap Use.sent?
  replies_eq : d'.replies = d.replies.drop (uses.filterMap Use.sent?).length
  bytes_eq : uses.filterMap Use.delivered? ++ Event.queued d'.queue =
    Event.queued (d.queue ++ (d.replies.take (uses.filterMap Use.sent?).length).flatten)

namespace Accounts

theorem refl (d : Device) : d.Accounts [] d :=
  ⟨rfl, (List.append_nil _).symm, rfl, by simp⟩

theorem trans (h₁ : d.Accounts uses d₁) (h₂ : d₁.Accounts more d') : d.Accounts (uses ++ more) d' := by
  refine ⟨h₂.faults_eq.trans h₁.faults_eq, ?_, ?_, ?_⟩
  · rw [h₂.control_eq, h₁.control_eq, List.filterMap_append, List.append_assoc]
  · rw [h₂.replies_eq, h₁.replies_eq, List.filterMap_append, List.length_append, List.drop_drop]
  · rw [List.filterMap_append, List.append_assoc, h₂.bytes_eq, h₁.replies_eq, Event.queued_append, ← List.append_assoc,
      h₁.bytes_eq, ← Event.queued_append, List.append_assoc, ← List.flatten_append,
      List.filterMap_append, List.length_append, List.take_add]

/-- An operation that hands no byte over and takes none. -/
theorem idle {use : Use} (hsent : use.sent? = none) (hdelivered : use.delivered? = none)
    (hfaults : d'.sendFaults = d.sendFaults) (hcontrol : d'.control = d.control) (hreplies : d'.replies = d.replies)
    (hqueue : Event.queued d'.queue = Event.queued d.queue) : d.Accounts [use] d' := by
  constructor <;> simp [hsent, hdelivered, hfaults, hcontrol, hreplies, hqueue]

end Accounts

/-! ### Operations -/

theorem accounts_waiting (d : Device) : d.Accounts [.announced d.waiting.1] d.waiting.2 := by
  have hskip := queued_skipSpent d.queue
  unfold waiting
  dsimp only
  split
  · exact .idle rfl rfl rfl rfl rfl rfl
  · split
    next hqueue =>
      rw [hqueue] at hskip
      exact .idle rfl rfl rfl rfl rfl hskip
    next left rest hqueue =>
      rw [hqueue] at hskip
      exact .idle rfl rfl rfl rfl rfl hskip
    next error sticky rest hqueue =>
      rw [hqueue] at hskip
      cases sticky <;> exact .idle rfl rfl rfl rfl rfl hskip
    next burst rest hqueue =>
      rw [hqueue] at hskip
      exact .idle rfl rfl rfl rfl rfl hskip
    next => exact .idle rfl rfl rfl rfl rfl hskip

/-- A byte that is read is no longer queued. -/
theorem accounts_read (d : Device) : d.Accounts [.read d.read.1] d.read.2 := by
  unfold read
  dsimp only
  split
  next burst rest hqueue =>
    split
    next byte burst' hnext =>
      refine ⟨rfl, (List.append_nil _).symm, rfl, ?_⟩
      show byte :: (burst'.bytes ++ Event.queued rest) = Event.queued (d.queue ++ [])
      rw [List.append_nil, hqueue, ← List.cons_append, ← Burst.bytes_of_next? hnext]
      rfl
    next => exact .idle rfl rfl rfl rfl rfl rfl
  next rest hqueue => exact .idle rfl rfl rfl rfl rfl (congrArg Event.queued hqueue).symm
  next error rest hqueue => exact .idle rfl rfl rfl rfl rfl (congrArg Event.queued hqueue).symm
  next => exact .idle rfl rfl rfl rfl rfl rfl

/-- A byte that is taken stands on the wire, and its reply is queued. -/
theorem accounts_write (d : Device) (byte : UInt8) :
    d.Accounts [.wrote byte (d.write byte).1] (d.write byte).2 := by
  unfold write
  dsimp only
  split
  · exact .idle rfl rfl rfl rfl rfl rfl
  · split
    · exact .idle rfl rfl rfl rfl rfl rfl
    · unfold take
      dsimp only
      split
      next hreplies => constructor <;> simp [Use.sent?, Use.delivered?, hreplies]
      next reply replies hreplies => constructor <;> simp [Use.sent?, Use.delivered?, hreplies]

theorem accounts_flush (d : Device) : d.Accounts [.flushed d.flush.1] d.flush.2 := by
  unfold flush
  dsimp only
  split <;> exact .idle rfl rfl rfl rfl rfl rfl

/-- The device with a journal that accounts for it since `d`, behind the uses before. -/
def Journal (d : Device) (before : List Use) (d' : Device) (s : Device × List Use) : Prop :=
  s.1 = d' ∧ ∃ uses, s.2 = before ++ uses ∧ d.Accounts uses d'

theorem Journal.refl (d : Device) (before : List Use) : d.Journal before d (d, before) :=
  ⟨rfl, [], (List.append_nil _).symm, .refl d⟩

theorem inStep_noting {α : Type} {before : List Use} {action : StateM Device α} {entry : α → Use}
    (h : ∀ d, Accounts d [entry (action.run d).1] (action.run d).2) :
    InStep (d.Journal before) Eq action (noting action fun a => [entry a]) := by
  rintro _ ⟨d₁, journal⟩ ⟨rfl, uses, rfl, haccounts⟩
  exact ⟨rfl, rfl, _, List.append_assoc .., haccounts.trans (h d₁)⟩

/-- The device goes in step with its journal, which accounts for it. -/
theorem port_inStep (d : Device) (before : List Use) :
    port.InStep (d.Journal before) (port.journaled id) where
  waiting := inStep_noting accounts_waiting
  read := inStep_noting accounts_read
  write byte := inStep_noting (accounts_write · byte)
  flush := inStep_noting accounts_flush

/-! ### Writes that are interrupted -/

/-- A write would be interrupted at this position among all writes. -/
def Interrupts (d : Device) (position : Nat) : Prop :=
  ∃ e, (write 0 { d with writes := position }).1 = .error e ∧ e.kind = .interrupted

/-- The faults and the position decide what a write comes to. -/
theorem fst_write_eq (byte byte' : UInt8) (hfaults : d'.sendFaults = d.sendFaults) (hwrites : d'.writes = d.writes) :
    (write byte' d').1 = (write byte d).1 := by
  unfold write
  rw [hfaults, hwrites]
  dsimp only
  split
  · rfl
  · split <;> rfl

theorem writes_write (d : Device) (byte : UInt8) : (write byte d).2.writes = d.writes + 1 := by
  unfold write
  dsimp only
  split
  · rfl
  · split
    · rfl
    · unfold take
      dsimp only
      split <;> rfl

theorem Accounts.interrupts_iff (h : d.Accounts uses d') (position : Nat) :
    d'.Interrupts position ↔ d.Interrupts position := by
  have hsame : (write 0 { d' with writes := position }).1 = (write 0 { d with writes := position }).1 :=
    fst_write_eq 0 0 h.faults_eq rfl
  rw [Interrupts, Interrupts, hsame]

theorem interrupts_of_write {byte : UInt8} {e : IoError} (h : (write byte d).1 = .error e)
    (he : e.kind = .interrupted) : d.Interrupts d.writes :=
  ⟨e, (fst_write_eq byte 0 rfl rfl).trans h, he⟩

/-- If no write is interrupted from some position on, a byte that is written is taken or refused at last. -/
theorem exists_put {last : Nat} (byte : UInt8) (fuel : Nat) (hpos : 0 < fuel) (hfuel : last < fuel + d.writes)
    (hlast : ∀ position, last ≤ position → ¬ d.Interrupts position) :
    ∃ result, ((port.put byte fuel).run d).1 = some result := by
  -- Each write that is interrupted leaves one position less at which one could be.
  induction fuel generalizing d with
  | zero => exact absurd hpos (Nat.lt_irrefl 0)
  | succ fuel ih =>
    obtain ⟨⟨taken, d₁⟩, hwrite⟩ : ∃ r, write byte d = r := ⟨_, rfl⟩
    have hrun : (port.write byte).run d = (taken, d₁) := hwrite
    rw [Port.put, run_bind_of hrun]
    cases taken with
    | ok kept => cases kept <;> exact ⟨_, rfl⟩
    | error e =>
      dsimp only
      by_cases he : e.kind = .interrupted
      · rw [if_pos he]
        have hbefore : ¬ last ≤ d.writes := fun hle =>
          hlast d.writes hle (interrupts_of_write (congrArg Prod.fst hwrite) he)
        have haccounts := d.accounts_write byte
        have hwrites := d.writes_write byte
        rw [hwrite] at haccounts hwrites
        dsimp only at hwrites
        refine ih (by omega) (by omega) fun position hle => ?_
        rw [haccounts.interrupts_iff]
        exact hlast position hle
      · rw [if_neg he]
        exact ⟨_, rfl⟩

theorem exists_send {last : Nat} (byte : UInt8) (fuel : Nat) (hpos : 0 < fuel) (hfuel : last < fuel + d.writes)
    (hlast : ∀ position, last ≤ position → ¬ d.Interrupts position) :
    ∃ result, ((port.send byte fuel).run d).1 = some result := by
  obtain ⟨⟨result?, d₁⟩, hput⟩ : ∃ r, (port.put byte fuel).run d = r := ⟨_, rfl⟩
  obtain ⟨result, hresult⟩ := exists_put byte fuel hpos hfuel hlast
  rw [hput] at hresult
  rw [Port.send, run_bind_of hput]
  cases result with
  | ok _ =>
    obtain rfl : result? = _ := hresult
    exact ⟨_, rfl⟩
  | error e =>
    obtain rfl : result? = _ := hresult
    exact ⟨_, rfl⟩

/-! ### Requests -/

/-- A request is answered by a call, with uses that account for what becomes of the device. -/
theorem exists_serve {last fuel : Nat} (request : Request) (before : List Use) (hfuel : last < fuel)
    (hlast : ∀ position, last ≤ position → ¬ d.Interrupts position) :
    ∃ call uses d', request.Gets call ∧ call.MadeOf uses ∧ d.Accounts uses d' ∧
      Gives (port.serve fuel request) d call d' ∧
      Gives ((port.journaled id).serve fuel request) (d, before) call (d', before ++ uses) := by
  have hstep := d.port_inStep before
  cases request with
  | poll =>
    obtain ⟨⟨found, d'⟩, hpoll⟩ : ∃ r, port.poll.run d = r := ⟨_, rfl⟩
    obtain ⟨hsame, hd, uses, hjournal, haccounts⟩ := hstep.poll d (d, before) (.refl d before)
    rw [hpoll] at hsame hd haccounts
    have hpoll' : (port.journaled id).poll.run (d, before) = (found, (d', before ++ uses)) :=
      Prod.ext hsame.symm (Prod.ext hd hjournal)
    obtain ⟨uses', hmade, hmore⟩ := Port.poll_journaled hpoll'
    obtain rfl : uses = uses' := by simpa using hmore
    exact ⟨_, uses, d', .polled found, hmade, haccounts, Port.serve_poll fuel hpoll, Port.serve_poll fuel hpoll'⟩
  | send byte =>
    obtain ⟨result, hresult⟩ := exists_send byte fuel (Nat.zero_lt_of_lt hfuel) (Nat.lt_add_right _ hfuel) hlast
    obtain ⟨⟨result?, d'⟩, hsend⟩ : ∃ r, (port.send byte fuel).run d = r := ⟨_, rfl⟩
    rw [hsend] at hresult
    obtain rfl : result? = some result := hresult
    obtain ⟨hsame, hd, uses, hjournal, haccounts⟩ := hstep.send byte fuel d (d, before) (.refl d before)
    rw [hsend] at hsame hd haccounts
    have hsend' : ((port.journaled id).send byte fuel).run (d, before) = (some result, (d', before ++ uses)) :=
      Prod.ext hsame.symm (Prod.ext hd hjournal)
    obtain ⟨uses', hmade, hmore⟩ := Port.send_journaled hsend'
    obtain rfl : uses = uses' := by simpa using hmore
    exact ⟨_, uses, d', .wrote byte result, hmade, haccounts, Port.serve_send hsend, Port.serve_send hsend'⟩

/-- The requests are carried out one after the other; each of them is answered by a call, which is made of
uses that account for what becomes of the device meanwhile. -/
inductive Serves : Device → List Request → List (Call × List Use) → Device → Prop
  | nil (d : Device) : Serves d [] [] d
  | cons {d d₁ d' : Device} {request : Request} {requests : List Request} {call : Call} {uses : List Use}
    {served : List (Call × List Use)} (hgets : request.Gets call) (hmade : call.MadeOf uses)
    (haccounts : d.Accounts uses d₁) (hrest : Serves d₁ requests served d') :
    Serves d (request :: requests) ((call, uses) :: served) d'

namespace Serves
variable {requests : List Request} {served : List (Call × List Use)}

theorem accounts (h : d.Serves requests served d') : d.Accounts (served.flatMap Prod.snd) d' := by
  induction h with
  | nil d => exact .refl d
  | cons _ _ haccounts _ ih => exact haccounts.trans ih

theorem delivered (h : d.Serves requests served d') :
    (served.flatMap Prod.snd).filterMap Use.delivered? = (served.map Prod.fst).filterMap Call.taken? := by
  induction h with
  | nil => rfl
  | @cons _ _ _ _ _ call _ _ _ hmade _ _ ih =>
    rw [List.flatMap_cons, List.filterMap_append, hmade.delivered, ih, List.map_cons]
    cases htaken : call.taken? <;> simp [htaken]

/-- Each call takes its byte, if it has one, from the head of what is queued, and no other. -/
theorem call_at {earlier later : List (Call × List Use)} {call : Call} {uses : List Use}
    (h : d.Serves requests (earlier ++ (call, uses) :: later) d') :
    call.MadeOf uses ∧ ∃ d₁ d₂ : Device, d.Serves (requests.take earlier.length) earlier d₁ ∧
      d₂.Serves (requests.drop (earlier.length + 1)) later d' ∧
      call.taken?.toList ++ Event.queued d₂.queue =
        Event.queued (d₁.queue ++ (d₁.replies.take (uses.filterMap Use.sent?).length).flatten) := by
  induction earlier generalizing d requests with
  | nil =>
    cases h with
    | @cons _ d₂ _ _ _ _ _ _ _ hmade haccounts hrest =>
      refine ⟨hmade, d, d₂, .nil d, hrest, ?_⟩
      rw [← hmade.delivered]
      exact haccounts.bytes_eq
  | cons first earlier ih =>
    cases h with
    | cons hgets hmade haccounts hrest =>
      obtain ⟨hmade', d₁, d₂, hbefore, hbehind, hbytes⟩ := ih hrest
      exact ⟨hmade', d₁, d₂, .cons hgets hmade haccounts hbefore, hbehind, hbytes⟩

end Serves

theorem exists_serves {last fuel : Nat} (requests : List Request) (before : List Use) (hfuel : last < fuel)
    (hlast : ∀ position, last ≤ position → ¬ d.Interrupts position) :
    ∃ served d', d.Serves requests served d' ∧
      Gives (requests.mapM (port.serve fuel)) d (served.map Prod.fst) d' ∧
      Gives (requests.mapM ((port.journaled id).serve fuel)) (d, before) (served.map Prod.fst)
        (d', before ++ served.flatMap Prod.snd) := by
  induction requests generalizing d before with
  | nil =>
    refine ⟨[], d, .nil d, rfl, ?_⟩
    rw [List.flatMap_nil, List.append_nil]
    rfl
  | cons request requests ih =>
    obtain ⟨call, uses, d₁, hgets, hmade, haccounts, hserve, hserve'⟩ := exists_serve request before hfuel hlast
    obtain ⟨served, d', hrest, hserves, hserves'⟩ := ih (before ++ uses) fun position hle => by
      rw [haccounts.interrupts_iff]
      exact hlast position hle
    rw [List.append_assoc] at hserves'
    refine ⟨(call, uses) :: served, d', .cons hgets hmade haccounts hrest, ?_, ?_⟩
    · rw [List.mapM_cons]
      exact hserve.bind (hserves.bind rfl)
    · rw [List.mapM_cons]
      exact hserve'.bind (hserves'.bind rfl)

/-- A port is polled and written to in any order, and every request is answered. The bytes that polls bring, in
order, and behind them those that are still queued, are the bytes that were queued, with the replies to the bytes
that were taken; the bytes that were taken stand on the wire. Each call takes its byte from the head of what is
queued, and one that brings none takes none. A poll fails with the error of a read, or with what an error of the
port becomes. A byte that is written stands on the wire once if a flush followed, which gives the result, and
otherwise the write failed. -/
theorem port_exact (d : Device) (requests : List Request) {last fuel : Nat} (hfuel : last < fuel)
    (hlast : ∀ position, last ≤ position → ¬ d.Interrupts position) :
    ∃ served d',
      Gives (requests.mapM (port.serve fuel)) d (served.map Prod.fst) d' ∧
      Gives (requests.mapM ((port.journaled id).serve fuel)) (d, []) (served.map Prod.fst)
        (d', served.flatMap Prod.snd) ∧
      d.Serves requests served d' ∧
      (∃ taken, taken = (served.flatMap Prod.snd).filterMap Use.sent? ∧
        d'.control.toList = d.control.toList ++ taken ∧
        (served.map Prod.fst).filterMap Call.taken? ++ Event.queued d'.queue =
          Event.queued (d.queue ++ (d.replies.take taken.length).flatten)) ∧
      ∀ earlier call uses later, served = earlier ++ (call, uses) :: later →
        call.MadeOf uses ∧
        (∃ d₁ d₂ : Device, d.Serves (requests.take earlier.length) earlier d₁ ∧
          d₂.Serves (requests.drop (earlier.length + 1)) later d' ∧
          call.taken?.toList ++ Event.queued d₂.queue =
            Event.queued (d₁.queue ++ (d₁.replies.take (uses.filterMap Use.sent?).length).flatten)) ∧
        (∀ e, call = .polled (.error e) →
          (∃ e' : PortError, e'.Becomes e ∧ uses = [.announced (.error e')]) ∨
            ∃ n, e.kind ≠ .timedOut ∧ uses = [.announced (.ok (n + 1)), .read (.error e)]) ∧
        ∀ byte result, call = .wrote byte result →
          uses.filterMap Use.sent? = [byte] ∧ uses.filterMap Use.flushed? = [result] ∨
            uses.filterMap Use.sent? = [] ∧ uses.filterMap Use.flushed? = [] ∧ ∃ e, result = .error e := by
  obtain ⟨served, d', hserves, hgives, hgives'⟩ := exists_serves requests [] hfuel hlast
  have haccounts := hserves.accounts
  refine ⟨served, d', hgives, hgives', hserves, ⟨_, rfl, haccounts.control_eq, ?_⟩, ?_⟩
  · rw [← hserves.delivered]
    exact haccounts.bytes_eq
  · rintro earlier call uses later rfl
    obtain ⟨hmade, hcall⟩ := hserves.call_at
    refine ⟨hmade, hcall, ?_, ?_⟩
    · rintro e rfl
      exact hmade.failed
    · rintro byte result rfl
      exact hmade.written

/-- Faults of all kinds between the bytes, the first write interrupted, a write that takes nothing, and a flush
that fails behind a byte that is taken all the same. -/
theorem port_exact_faults : ∃ (d : Device) (served : List (Call × List Use)) (d' : Device),
    d.queue.length = 7 ∧ d.replies.length = 2 ∧
    Gives ([.poll, .send 6, .poll, .poll, .poll, .poll, .poll, .send 7, .poll, .send 8, .poll, .poll].mapM
      (port.serve 2)) d (served.map Prod.fst) d' ∧
    served.map Prod.fst = [.polled (.ok none), .wrote 6 (.ok ()), .polled (.ok (some 1)), .polled (.ok (some 2)),
      .polled (.ok none), .polled (.ok none), .polled (.error ⟨.brokenPipe, "broken"⟩),
      .wrote 7 (.error Port.nothingTaken), .polled (.error ⟨.notFound, "gone"⟩),
      .wrote 8 (.error ⟨.other, "stuck"⟩), .polled (.ok (some 3)), .polled (.ok (some 9))] ∧
    (served.flatMap Prod.snd).filterMap Use.sent? = [6, 8] ∧
    [1, 2, 3, 9] ++ Event.queued d'.queue = Event.queued (d.queue ++ d.replies.flatten) := by
  let d : Device :=
    { queue := [.gap 500, .bytes ⟨#[1, 2], 1, 0⟩, .empty, .readFault ⟨.timedOut, "late"⟩,
        .readFault ⟨.brokenPipe, "broken"⟩, .pollFault ⟨.noDevice, "gone"⟩ false, .bytes ⟨#[3], 1, 0⟩]
      replies := [[.bytes ⟨#[9], 1, 0⟩], [.bytes ⟨#[4, 5], 2, 0⟩]]
      sendFaults := [⟨0, .write ⟨.interrupted, "again"⟩, false⟩, ⟨2, .untaken, false⟩,
        ⟨1, .flush ⟨.other, "stuck"⟩, false⟩] }
  have hlast : ∀ position, 1 ≤ position → ¬ d.Interrupts position := by
    rintro position hpos ⟨e, hwrite, he⟩
    unfold write at hwrite
    grind [SendFault.applies]
  let requests : List Request :=
    [.poll, .send 6, .poll, .poll, .poll, .poll, .poll, .send 7, .poll, .send 8, .poll, .poll]
  obtain ⟨served, d', hgives, -, -, ⟨taken, rfl, hcontrol, hbytes⟩, -⟩ :=
    port_exact d requests (show 1 < 2 by decide) hlast
  have hcalls : ((requests.mapM (port.serve 2)).run.run d).1 = some [.polled (.ok none), .wrote 6 (.ok ()),
      .polled (.ok (some 1)), .polled (.ok (some 2)), .polled (.ok none), .polled (.ok none),
      .polled (.error ⟨.brokenPipe, "broken"⟩), .wrote 7 (.error Port.nothingTaken),
      .polled (.error ⟨.notFound, "gone"⟩), .wrote 8 (.error ⟨.other, "stuck"⟩), .polled (.ok (some 3)),
      .polled (.ok (some 9))] := by
    decide +kernel
  have hwire : ((requests.mapM (port.serve 2)).run.run d).2.control = #[6, 8] := by
    decide +kernel
  rw [hgives] at hcalls hwire
  have hserved := Option.some.inj hcalls
  have hsent : (served.flatMap Prod.snd).filterMap Use.sent? = [6, 8] :=
    hcontrol.symm.trans (congrArg Array.toList hwire)
  rw [hsent, hserved] at hbytes
  exact ⟨d, served, d', rfl, rfl, hgives, hserved, hsent, hbytes⟩

end Device

end Bench

end Xmodem
