import Mathlib.Data.List.Chain
import Mathlib.Data.List.DropRight
import Xmodem.Proofs.Epilogue
import Xmodem.Proofs.Representation

/-!
# Attempts, and how many there may be

As far as attempts go, a run is a sequence of events. An attempt is opened by a control byte and comes to
a block, or to one seen before, or fails. After a failure the line is flushed and the block is asked for
again; otherwise the next attempt acknowledges (`Event.Next`). The session counts the attempts since
the last acknowledgement, and they are what the events say (`Session.Course`): there are never more than
the limit, and the transfer is given up exactly when that many have failed and the line has been flushed
for one more.
-/

namespace Xmodem

inductive Event where
  /-- A control byte was sent to open an attempt. -/
  | asked (byte : UInt8)
  /-- The attempt came to a block, or to the number of one that was seen before. -/
  | accepted
  | failed
  /-- The line was flushed for another attempt. -/
  | drained
  deriving DecidableEq, Repr

namespace Event

/-- What may come after what. -/
inductive Next : Event → Event → Prop
  | accepted (byte : UInt8) : Next (asked byte) accepted
  | failed (byte : UInt8) : Next (asked byte) failed
  | drained : Next failed drained
  | acknowledged : Next accepted (asked Control.ack)
  | again : Next drained (asked Control.nak)

/-- How many attempts have been opened. -/
def asks (events : List Event) : Nat :=
  events.countP fun
    | asked _ => true
    | _ => false

/-- What has happened since an attempt was last accepted. -/
def recent (events : List Event) : List Event :=
  events.rtakeWhile (· ≠ accepted)

/-- Since the last one that was accepted as many attempts as the limit allows have been opened, all of them
have failed, and the line has been flushed for one more. -/
structure Spent (limit : Nat) (events : List Event) : Prop where
  asks_eq : asks (recent events) = limit
  fails_eq : (recent events).count failed = limit
  last : events.getLast? = some drained

/-- An event may come after those so far; a flush comes first. -/
def Follows (events : List Event) (event : Event) : Prop :=
  match events.getLast? with
  | none => event = drained
  | some last => last.Next event

/-- The events are in order, and no more attempts have been opened than the limit allows. -/
structure Orderly (limit : Nat) (events : List Event) : Prop where
  first : ∀ event ∈ events.head?, event = drained
  chain : events.IsChain Next
  bound : asks (recent events) ≤ limit
  total : asks events ≤ limit * events.count accepted + asks (recent events)

variable {events : List Event} {event : Event} {limit : Nat}

@[simp] theorem recent_concat_accepted : recent (events ++ [accepted]) = [] := by
  simp [recent]

theorem recent_concat (h : event ≠ accepted) : recent (events ++ [event]) = recent events ++ [event] := by
  simp [recent, h]

@[simp] theorem asks_nil : asks [] = 0 := rfl

theorem asks_concat : asks (events ++ [event]) = asks events + asks [event] :=
  List.countP_append

theorem asks_recent_concat (h : event ≠ accepted) :
    asks (recent (events ++ [event])) = asks (recent events) + asks [event] := by
  rw [recent_concat h, asks_concat]

theorem fails_recent_concat (h : event ≠ accepted) :
    (recent (events ++ [event])).count failed = (recent events).count failed + [event].count failed := by
  rw [recent_concat h, List.count_append]

theorem Follows.of_last {last : Event} (h : events.getLast? = some last) (hnext : last.Next event) :
    Follows events event := by
  rw [Follows, h]
  exact hnext

theorem asks_concat_of_bound (hbound : ∀ byte, event = asked byte → asks (recent events) + 1 ≤ limit)
    (h : asks (recent events) ≤ limit) : asks (recent events) + asks [event] ≤ limit := by
  cases event with
  | asked byte => exact hbound byte rfl
  | accepted => exact h
  | failed => exact h
  | drained => exact h

theorem Orderly.nil (limit : Nat) : Orderly limit [] :=
  ⟨by simp, .nil, Nat.zero_le _, Nat.zero_le _⟩

theorem Orderly.concat (h : Orderly limit events) (hfollows : Follows events event)
    (hbound : ∀ byte, event = asked byte → asks (recent events) + 1 ≤ limit) :
    Orderly limit (events ++ [event]) := by
  have hle := asks_concat_of_bound hbound h.bound
  have htotal := h.total
  refine ⟨?_, ?_, ?_, ?_⟩
  · cases events with
    | nil => simpa [Follows] using hfollows
    | cons e events => simpa using h.first
  · refine h.chain.append (.singleton _) fun last hlast next hnext => ?_
    obtain rfl : event = next := by simpa using hnext
    rw [Follows, hlast] at hfollows
    exact hfollows
  · by_cases hacc : event = accepted
    · simp [hacc]
    · rw [asks_recent_concat hacc]
      exact hle
  · rw [asks_concat]
    by_cases hacc : event = accepted
    · -- What was recent is paid for by the limit that the acknowledgement adds.
      subst hacc
      have hbound := h.bound
      rw [List.count_append, List.count_singleton_self, Nat.mul_succ, recent_concat_accepted]
      show asks events + 0 ≤ _ + 0
      omega
    · rw [asks_recent_concat hacc, List.count_append, List.count_singleton,
        if_neg (by simpa using hacc), Nat.add_zero]
      omega

/-- Each attempt that was accepted has been acknowledged, but perhaps the last one. -/
theorem count_accepted_le (h : events.IsChain Next) :
    events.count accepted ≤ events.count (asked Control.ack) +
      if events.getLast? = some accepted then 1 else 0 := by
  induction events using List.reverseRecOn with
  | nil => exact Nat.zero_le _
  | append_singleton events event ih =>
    obtain ⟨hchain, -, hnext⟩ := List.isChain_append.1 h
    have ih := ih hchain
    cases hlast : events.getLast? with
    | none =>
      obtain rfl := List.getLast?_eq_none_iff.1 hlast
      cases event <;> simp
    | some last =>
      rw [hlast] at ih
      cases hnext last hlast event rfl <;> simp at ih ⊢ <;> omega

theorem Orderly.asks_le (h : Orderly limit events) :
    asks events ≤ limit * (events.count (asked Control.ack) + 1) := by
  have hacked := count_accepted_le h.chain
  refine Nat.le_trans h.total ?_
  split at hacked
  · rename_i hlast
    obtain ⟨past, rfl⟩ := List.getLast?_eq_some_iff.1 hlast
    rw [recent_concat_accepted]
    exact Nat.mul_le_mul_left limit hacked
  · rw [Nat.mul_succ]
    exact Nat.add_le_add (Nat.mul_le_mul_left limit hacked) h.bound

end Event

/-- What a call ends a wait with: a byte, or none. -/
def Wait.comes? : Wait → Call → Option (Option UInt8)
  | listening _, .polled (.ok (some byte)) => some (some byte)
  | checking deadline, .timed now => if deadline.reached now then some none else none
  | _, _ => none

namespace Wait.Step
variable {wait : Wait} {call : Call}

theorem comes?_of_going {wait' : Wait} (h : wait.Step call (.going wait')) : wait.comes? call = none := by
  cases h with
  | armed => rfl
  | missed => rfl
  | early h => simp [comes?, h]

theorem comes?_of_ended {byte : Option UInt8} (h : wait.Step call (.ended (.ok byte))) :
    wait.comes? call = some byte := by
  cases h with
  | found => rfl
  | late h => simp [comes?, h]

theorem comes?_of_error {e : IoError} (h : wait.Step call (.ended (.error e))) : wait.comes? call = none := by
  cases h
  rfl

end Wait.Step

namespace Drain.Step
variable {d : Drain} {call : Call}

theorem comes?_of_going {d' : Drain} (h : d.Step call (.going d')) : d.wait.comes? call ≠ some none := by
  cases h with
  | waiting h => simp [h.comes?_of_going]
  | discarded h => simp [h.comes?_of_ended]

theorem comes?_of_ended {count : Nat} (h : d.Step call (.ended (.ok count))) :
    d.wait.comes? call = some none := by
  cases h with
  | idle h => exact h.comes?_of_ended

theorem comes?_of_error {e : IoError} (h : d.Step call (.ended (.error e))) :
    d.wait.comes? call ≠ some none := by
  cases h with
  | broken h => simp [h.comes?_of_error]

end Drain.Step

namespace Session

/-- What a byte of the awaited field, or its absence, means for the attempt, if it decides it. -/
def verdict? (s : Session) : Field → Option UInt8 → Option Event
  | _, none => some .failed
  | .start, some byte => if byte = Control.soh ∨ byte = Control.eot then none else some .failed
  | .number, some byte => if byte = s.expected - 1 then some .accepted else none
  | .complement, some byte => if byte = ~~~s.expected then none else some .failed
  | .payload .., some _ => none
  | .checksum sum, some byte => if byte = sum then some .accepted else some .failed

end Session

namespace Receiver

/-- What a step has to do with attempts. -/
def event? : Receiver × Call → Option Event
  | (⟨s, .reading field wait⟩, call) => (wait.comes? call).bind (s.verdict? field)
  | (⟨_, .flushing .retry drain⟩, call) =>
    if drain.wait.comes? call = some none then some .drained else none
  | (⟨_, .sending .reply⟩, .wrote byte _) => some (.asked byte)
  | _ => none

def events (steps : List (Receiver × Call)) : List Event :=
  steps.filterMap event?

theorem events_concat (steps : List (Receiver × Call)) (step : Receiver × Call) :
    events (steps ++ [step]) = events steps ++ (event? step).toList := by
  cases h : event? step <;> simp [events, h]

end Receiver

open Event

namespace Session

/-- How the attempts that the session counts, and what it does, are related to the events. -/
def Course (s : Session) (limit : Nat) (events : List Event) : Activity → Prop
  | .reading _ _ => (∃ byte, events.getLast? = some (.asked byte)) ∧
      asks (recent events) = s.attempts.toNat ∧ (recent events).count .failed + 1 = s.attempts.toNat ∧
        s.reply = .nak
  | .flushing .retry _ => (∀ last ∈ events.getLast?, last = .failed) ∧
      asks (recent events) = s.attempts.toNat ∧ (recent events).count .failed = s.attempts.toNat ∧
        s.reply = .nak
  | .flushing .repeated _ => events.getLast? = some .accepted ∧ 0 < limit
  | .flushing (.unexpected _) _ => ∃ byte, events.getLast? = some (.asked byte)
  | .sending .reply => (∃ last, events.getLast? = some last ∧ last.Next (.asked s.reply.byte)) ∧
      asks (recent events) + 1 = s.attempts.toNat ∧ (recent events).count .failed + 1 = s.attempts.toNat ∧
        s.attempts.toNat ≤ limit
  | .sending .farewell => ∃ byte, events.getLast? = some (.asked byte)
  | .sending (.cancel error _) => (error = .timeout ↔ Spent limit events) ∧
      (error = .timeout → limit + 1 < UInt32.size)

end Session

structure Receiver.Course (limit : Nat) (events : List Event) (r : Receiver) : Prop where
  orderly : Orderly limit events
  counted : r.session.Course limit events r.activity

/-- With all attempts spent the transfer is given up, unless the count has no room for one more. -/
structure Outcome.Tally (limit : Nat) (events : List Event) (o : Outcome) : Prop where
  orderly : Orderly limit events
  timeout_iff : o.ending = .failed .timeout ↔ Spent limit events ∧ limit + 1 < UInt32.size
  exhausted_iff : o.ending = .exhausted ↔ Spent limit events ∧ UInt32.size ≤ limit + 1

structure Outcome.Course (limit : Nat) (events : List Event) (o : Outcome) : Prop where
  orderly : Orderly limit events
  timeout_iff : o.ending = .failed .timeout ↔ Spent limit events

theorem Outcome.Tally.course {limit : Nat} {events : List Event} {o : Outcome} (h : o.Tally limit events)
    (hmax : limit + 1 < UInt32.size) : o.Course limit events :=
  ⟨h.orderly, h.timeout_iff.trans (and_iff_left hmax)⟩

theorem Outcome.Tally.of_not_spent {limit : Nat} {events : List Event} {o : Outcome} (ho : Orderly limit events)
    (hspent : ¬ Spent limit events) (htimeout : o.ending ≠ .failed .timeout)
    (hexhausted : o.ending ≠ .exhausted) : o.Tally limit events :=
  ⟨ho, iff_of_false htimeout fun h => hspent h.1, iff_of_false hexhausted fun h => hspent h.1⟩

namespace Event
variable {events : List Event} {limit : Nat} {byte : UInt8}

theorem Orderly.accept (h : Orderly limit events) (hlast : events.getLast? = some (asked byte)) :
    Orderly limit (events ++ [accepted]) :=
  h.concat (.of_last hlast (.accepted byte)) nofun

theorem Orderly.fail (h : Orderly limit events) (hlast : events.getLast? = some (asked byte)) :
    Orderly limit (events ++ [failed]) :=
  h.concat (.of_last hlast (.failed byte)) nofun

theorem Orderly.drain (h : Orderly limit events) (hlast : ∀ last ∈ events.getLast?, last = failed) :
    Orderly limit (events ++ [drained]) := by
  refine h.concat ?_ nofun
  cases hl : events.getLast? with
  | none =>
    rw [Follows, hl]
  | some last =>
    obtain rfl := hlast last hl
    exact .of_last hl .drained

end Event

namespace Session
variable {s : Session} {events : List Event} {p : Progress Receiver Outcome}

/-- Only a transfer that is given up for that has spent its attempts. -/
theorem Course.of_spent {limit : Nat} {activity : Activity} (h : s.Course limit events activity)
    (hspent : Spent limit events) : ∃ left, activity = .sending (.cancel .timeout left) := by
  have hlast := hspent.last
  cases activity with
  | reading field wait =>
    obtain ⟨⟨byte, hasked⟩, -⟩ := h
    cases hlast.symm.trans hasked
  | flushing cause drain =>
    cases cause with
    | retry => cases h.1 _ hlast
    | repeated => cases hlast.symm.trans h.1
    | unexpected received =>
      obtain ⟨byte, hasked⟩ := h
      cases hlast.symm.trans hasked
  | sending what =>
    cases what with
    | reply =>
      obtain ⟨-, hasks, -, hle⟩ := h
      have hspent := hspent.asks_eq
      omega
    | farewell =>
      obtain ⟨byte, hasked⟩ := h
      cases hlast.symm.trans hasked
    | cancel error left => exact ⟨left, by rw [h.1.2 hspent]⟩

theorem Course.not_spent {limit : Nat} {activity : Activity} (h : s.Course limit events activity)
    (hne : ∀ left, activity ≠ .sending (.cancel .timeout left)) : ¬ Spent limit events := fun hspent =>
  let ⟨left, heq⟩ := h.of_spent hspent
  hne left heq

/-- A transfer that fails for another reason has not spent its attempts. -/
theorem Course.fail {limit : Nat} {activity : Activity} {error : TransferError}
    (h : s.Course limit events activity) (ho : Orderly limit events)
    (hactivity : ∀ left, activity ≠ .sending (.cancel .timeout left)) (herror : error ≠ .timeout) :
    (s.fail error).next.Holds (Receiver.Course limit events) (Outcome.Tally limit events) :=
  ⟨ho, iff_of_false herror (h.not_spent hactivity), fun h => absurd h herror⟩

theorem course_openAttempt (ho : Orderly s.config.maxRetries.toNat events)
    (hlast : ∃ last, events.getLast? = some last ∧ last.Next (.asked s.reply.byte))
    (hasks : asks (recent events) = s.attempts.toNat)
    (hfails : (recent events).count .failed = s.attempts.toNat)
    (hroom : s.reply = .ack → s.attempts.toNat < s.config.maxRetries.toNat) :
    s.openAttempt.next.Holds (Receiver.Course s.config.maxRetries.toNat events)
      (Outcome.Tally s.config.maxRetries.toNat events) := by
  have hbound := ho.bound
  have hsize : s.config.maxRetries.toNat < UInt32.size := s.config.maxRetries.toNat_lt
  -- An attempt that is not opened comes after a flush, since an acknowledgement has room for its own.
  have hspent (hlt : s.config.maxRetries.toNat < s.attempts.toNat + 1) :
      Spent s.config.maxRetries.toNat events := by
    have hnak : s.reply = .nak := by
      cases hreply : s.reply with
      | ack => exact absurd (hroom hreply) (by omega)
      | nak => rfl
    have hattempts : s.attempts.toNat = s.config.maxRetries.toNat := by omega
    obtain ⟨last, hlast, hnext⟩ := hlast
    rw [hnak] at hnext
    have hdrained : last = drained := by
      generalize hb : Event.asked Reply.nak.byte = event at hnext
      cases hnext with
      | acknowledged => simp [Reply.byte, Control.ack, Control.nak] at hb
      | again => rfl
      | _ => cases hb
    exact ⟨hasks.trans hattempts, hfails.trans hattempts, hdrained ▸ hlast⟩
  by_cases hcount : s.attempts.toNat + 1 < UInt32.size
  · have hopens := s.opens_openAttempt
    generalize s.openAttempt.next = p at hopens ⊢
    cases hopens with
    | opened hle =>
      have hattempts : (s.attempts + 1).toNat = s.attempts.toNat + 1 := by
        rw [UInt32.toNat_add]
        exact Nat.mod_eq_of_lt hcount
      refine ⟨ho, hlast, ?_, ?_, ?_⟩
      · exact (congrArg (· + 1) hasks).trans hattempts.symm
      · exact (congrArg (· + 1) hfails).trans hattempts.symm
      · exact hattempts ▸ hle
    | abandoned hlt => exact ⟨ho, iff_of_true rfl (hspent hlt), fun _ => by omega⟩
    | exhausted hge => exact absurd hcount (Nat.not_lt_of_le hge)
  · have hexhausted : s.openAttempt.next = (s.finish .exhausted).next := by
      rw [openAttempt, if_neg hcount]
    rw [hexhausted]
    exact ⟨ho, iff_of_false nofun fun h => by omega, iff_of_true rfl ⟨hspent (by omega), by omega⟩⟩

theorem course_acknowledge (ho : Orderly s.config.maxRetries.toNat events)
    (hlast : events.getLast? = some .accepted) (hpos : 0 < s.config.maxRetries.toNat) :
    s.acknowledge.next.Holds (Receiver.Course s.config.maxRetries.toNat events)
      (Outcome.Tally s.config.maxRetries.toNat events) := by
  obtain ⟨past, rfl⟩ := List.getLast?_eq_some_iff.1 hlast
  refine course_openAttempt (s := { s with attempts := 0, reply := .ack }) ho
    ⟨_, hlast, .acknowledged⟩ ?_ ?_ fun _ => hpos
  · rw [recent_concat_accepted]
    rfl
  · rw [recent_concat_accepted]
    rfl

theorem Rejects.verdict? {field : Field} {byte : Option UInt8} (h : s.Rejects field byte) :
    s.verdict? field byte = some .failed := by
  cases h with
  | silence field => cases field <;> rfl
  | start h₁ h₂ => simp [Session.verdict?, h₁, h₂]
  | complement h => exact if_neg h
  | checksum h => exact if_neg h

/-- A byte of a frame, or its absence, decides the attempt as its verdict says. -/
theorem Hears.course {field : Field} {wait : Wait} {byte : Option UInt8} (h : s.Hears field byte p)
    (ho : Orderly s.config.maxRetries.toNat events)
    (hc : s.Course s.config.maxRetries.toNat events (.reading field wait)) :
    p.Holds (Receiver.Course s.config.maxRetries.toNat (events ++ (s.verdict? field byte).toList))
      (Outcome.Tally s.config.maxRetries.toNat (events ++ (s.verdict? field byte).toList)) := by
  have hfull : (s.fail .bufferFull).next.Holds (Receiver.Course s.config.maxRetries.toNat events)
      (Outcome.Tally s.config.maxRetries.toNat events) := hc.fail ho nofun nofun
  obtain ⟨⟨asked, hlast⟩, hasks, hfails, hnak⟩ := hc
  have hpos : 0 < s.config.maxRetries.toNat := by
    have hbound := ho.bound
    omega
  have hquiet (hverdict : s.verdict? field byte = none) :
      events ++ (s.verdict? field byte).toList = events := by
    rw [hverdict]
    exact List.append_nil _
  have hother : s.expected ≠ s.expected - 1 := by
    grind
  have hread (s' : Session) (field' : Field) (hattempts : s'.attempts = s.attempts)
      (hreply : s'.reply = s.reply) :
      (s'.read field').next.Holds (Receiver.Course s.config.maxRetries.toNat events)
        (Outcome.Tally s.config.maxRetries.toNat events) :=
    ⟨ho, ⟨asked, hlast⟩, hattempts ▸ hasks, hattempts ▸ hfails, hreply.trans hnak⟩
  cases h with
  | header =>
    rw [hquiet rfl]
    exact hread s .number rfl rfl
  | farewell =>
    rw [hquiet rfl]
    exact ⟨ho, asked, hlast⟩
  | repeated =>
    rw [verdict?, if_pos rfl]
    exact ⟨ho.accept hlast, List.getLast?_concat, hpos⟩
  | unexpected h₁ _ =>
    rw [hquiet (if_neg h₁)]
    exact ⟨ho, asked, hlast⟩
  | noRoom _ =>
    rw [hquiet (if_neg hother)]
    exact hfull
  | number _ =>
    rw [hquiet (if_neg hother)]
    exact hread s .complement rfl rfl
  | complement =>
    rw [hquiet (if_pos rfl)]
    exact hread s (.payload 0 0) rfl rfl
  | @payload taken sum byte _ =>
    rw [hquiet rfl]
    exact hread (s.store byte) (.payload (taken + 1) (sum + byte)) rfl rfl
  | @lastPayload taken sum byte _ =>
    rw [hquiet rfl]
    exact hread (s.store byte) (.checksum (sum + byte)) rfl rfl
  | checksum =>
    rw [verdict?, if_pos rfl]
    exact course_acknowledge (s := s.commit) (ho.accept hlast) List.getLast?_concat hpos
  | rejected hr =>
    rw [hr.verdict?, Option.toList_some]
    refine ⟨ho.fail hlast, by simp, ?_, ?_, hnak⟩
    · exact (asks_recent_concat (by nofun)).trans hasks
    · exact (fails_recent_concat (by nofun)).trans hfails

end Session

namespace Receiver
variable {r : Receiver} {config : Config} {capacity : Nat} {evs : List Event}

theorem append_event?_of_none {step : Receiver × Call} (h : event? step = none) :
    evs ++ (event? step).toList = evs := by
  rw [h]
  exact List.append_nil _

theorem event?_of_comes {s : Session} {field : Field} {wait : Wait} {call : Call} {byte : Option UInt8}
    (h : wait.comes? call = some byte) :
    event? (⟨s, .reading field wait⟩, call) = s.verdict? field byte := by
  rw [event?, h]
  rfl

theorem event?_of_flushing {s : Session} {cause : FlushCause} {drain : Drain} {call : Call}
    (h : drain.wait.comes? call ≠ some none) : event? (⟨s, .flushing cause drain⟩, call) = none := by
  cases cause with
  | retry => exact if_neg h
  | repeated => rfl
  | unexpected received => rfl

theorem Course.wrote {s : Session} {what : Sending} (result : Except IoError Unit)
    (hc : Course s.config.maxRetries.toNat evs ⟨s, .sending what⟩) :
    (s.wrote what result).next.Holds
      (Course s.config.maxRetries.toNat
        (evs ++ (event? (⟨s, .sending what⟩, .wrote (s.byteFor what) result)).toList))
      (Outcome.Tally s.config.maxRetries.toNat
        (evs ++ (event? (⟨s, .sending what⟩, .wrote (s.byteFor what) result)).toList)) := by
  obtain ⟨ho, hcounted⟩ := hc
  cases what with
  | reply =>
    obtain ⟨⟨last, hlast, hnext⟩, hasks, hfails, hle⟩ := hcounted
    have ho' : Orderly s.config.maxRetries.toNat (evs ++ [.asked s.reply.byte]) :=
      ho.concat (.of_last hlast hnext) fun _ _ => by omega
    have hreading (wait : Wait) : Session.Course { s with reply := .nak } s.config.maxRetries.toNat
        (evs ++ [.asked s.reply.byte]) (.reading .start wait) :=
      ⟨⟨_, List.getLast?_concat⟩, (asks_recent_concat (by nofun)).trans hasks,
        (congrArg (· + 1) (fails_recent_concat (by nofun))).trans hfails, rfl⟩
    cases result with
    | ok _ => exact ⟨ho', hreading _⟩
    | error e => exact ⟨ho', iff_of_false nofun ((hreading (.arming 0)).not_spent nofun), nofun⟩
  | farewell =>
    rw [append_event?_of_none rfl]
    cases result with
    | ok _ => exact .of_not_spent ho (hcounted.not_spent nofun) nofun nofun
    | error e => exact hcounted.fail ho nofun nofun
  | cancel error left =>
    obtain ⟨hspent, hroom⟩ := id hcounted
    have hclosed : Outcome.Tally s.config.maxRetries.toNat evs ⟨.failed error, s.buffer⟩ := by
      refine ⟨ho, ?_, iff_of_false nofun fun h => ?_⟩
      · rw [Ending.failed.injEq, ← hspent]
        exact ⟨fun h => ⟨h, hroom h⟩, And.left⟩
      · exact absurd (hroom (hspent.2 h.1)) (Nat.not_lt_of_le h.2)
    rw [append_event?_of_none rfl]
    cases result with
    | ok _ =>
      by_cases h : 1 < left
      · rw [Session.wrote, if_pos h]
        exact ⟨ho, hcounted⟩
      · rw [Session.wrote, if_neg h]
        exact hclosed
    | error e => exact hclosed

theorem Course.step {call : Call} {turn : Receiver.Turn} (hc : r.Course r.session.config.maxRetries.toNat evs)
    (hs : r.Step call turn) :
    turn.next.Holds
      (Course r.session.config.maxRetries.toNat (evs ++ (event? (r, call)).toList))
      (Outcome.Tally r.session.config.maxRetries.toNat (evs ++ (event? (r, call)).toList)) := by
  obtain ⟨ho, hcounted⟩ := hc
  cases hs with
  | waiting h =>
    rw [append_event?_of_none (by rw [event?, h.comes?_of_going]; rfl)]
    exact ⟨ho, hcounted⟩
  | heard h =>
    rw [event?_of_comes h.comes?_of_ended]
    exact (Session.hears_heard _ _ _).course ho hcounted
  | unheard h =>
    rw [append_event?_of_none (by rw [event?, h.comes?_of_error]; rfl)]
    exact hcounted.fail ho nofun nofun
  | @draining s cause drain drain' call said h =>
    rw [append_event?_of_none (event?_of_flushing (Drain.Step.of_answer h).comes?_of_going)]
    refine ⟨ho, ?_⟩
    cases cause <;> exact hcounted
  | @drained s cause drain call said count h =>
    cases cause with
    | retry =>
      obtain ⟨hlast, hasks, hfails, hnak⟩ := hcounted
      rw [event?, if_pos (Drain.Step.of_answer h).comes?_of_ended, Option.toList_some]
      refine Session.course_openAttempt (ho.drain hlast) ⟨_, List.getLast?_concat, ?_⟩
        ((asks_recent_concat (by nofun)).trans hasks) ((fails_recent_concat (by nofun)).trans hfails) ?_
      · rw [hnak]
        exact .again
      · exact fun hack => nomatch hnak.symm.trans hack
    | repeated =>
      rw [append_event?_of_none rfl]
      exact Session.course_acknowledge ho hcounted.1 hcounted.2
    | unexpected received =>
      rw [append_event?_of_none rfl]
      exact hcounted.fail ho nofun nofun
  | @undrained s cause drain call said e h =>
    rw [append_event?_of_none (event?_of_flushing (Drain.Step.of_answer h).comes?_of_error)]
    exact hcounted.fail ho nofun nofun
  | wrote result => exact Course.wrote result ⟨ho, hcounted⟩

section
variable {buffer : Array UInt8} {steps : List (Receiver × Call)} {p : Progress Receiver Outcome}

theorem Run.tally (h : Run config capacity buffer steps p) :
    p.Holds (Course config.maxRetries.toNat (events steps))
      (Outcome.Tally config.maxRetries.toNat (events steps)) := by
  refine h.history (P := fun steps => Course config.maxRetries.toNat (events steps))
    (Q := fun steps => Outcome.Tally config.maxRetries.toNat (events steps)) ?_ ?_
  · exact ⟨.nil _, nofun, rfl, rfl, rfl⟩
  · intro steps r call turn hi hc hs
    have hconfig : r.session.config = config := hi.within.config_eq
    subst hconfig
    rw [events_concat]
    exact hc.step hs

theorem Run.course (h : Run config capacity buffer steps p)
    (hmax : config.maxRetries.toNat + 1 < UInt32.size) :
    p.Holds (Course config.maxRetries.toNat (events steps))
      (Outcome.Course config.maxRetries.toNat (events steps)) :=
  h.tally.mono (fun _ hc => hc) fun _ ho => ho.course hmax

end

/-- The attempts of a run are in order: the first control byte asks for a block, each later one acknowledges
if the attempt before it was accepted, and asks again if that one failed and the line was flushed. Since
the last one that was accepted there are never more attempts than the limit allows. The transfer is given
up for that exactly when so many have failed in a row and the line has been flushed for one more; from
there it comes to its end with that error on every line. So the control bytes of a run are limited by its
acknowledgements. -/
theorem Run.discipline {buffer : Array UInt8} {steps : List (Receiver × Call)}
    {p : Progress Receiver Outcome} (h : Run config capacity buffer steps p) (hmax : config.maxRetries.toNat < UInt32.size - 1) :
    (∀ event ∈ (events steps).head?, event = .drained) ∧ (events steps).IsChain Next ∧
    asks (recent (events steps)) ≤ config.maxRetries.toNat ∧
    (∀ o, p = .ended o → (o.ending = .failed .timeout ↔ Spent config.maxRetries.toNat (events steps))) ∧
    (∀ r, p = .going r → Spent config.maxRetries.toNat (events steps) →
      ∀ {τ : Type} (line : Line (StateM τ)) (calls : List Call) (env : τ), ∃ stored calls' env',
        ((line.recorded.run Receiver.ask cancelCount r).run calls).run env =
          ((.ended ⟨.failed .timeout, stored⟩, calls'), env')) ∧
    asks (events steps) ≤
      config.maxRetries.toNat * ((events steps).count (.asked Control.ack) + 1) := by
  have hcourse := h.course (by omega)
  have ho : Orderly config.maxRetries.toNat (events steps) := by
    cases p with
    | going r => exact hcourse.orderly
    | ended o => exact hcourse.orderly
  refine ⟨ho.first, ho.chain, ho.bound, ?_, ?_, ho.asks_le⟩
  · rintro o rfl
    exact hcourse.timeout_iff
  · rintro ⟨s, activity⟩ rfl hspent τ line calls env
    obtain ⟨left, rfl⟩ : ∃ left, activity = .sending (.cancel .timeout left) :=
      hcourse.counted.of_spent hspent
    obtain ⟨sent, hsent, hleft, -⟩ := h.closing
    exact ⟨s.buffer, line.run_cancel s .timeout hleft (by omega) calls env⟩

/-- One attempt in silence, a block, and two more that fail. -/
theorem Run.discipline_given_up : ∃ steps stored,
    Run { maxRetries := 2 } 128 (Array.replicate 128 0) steps (.ended ⟨.failed .timeout, stored⟩) ∧
      Spent 2 (events steps) ∧ (events steps).IsChain Next ∧
      asks (events steps) ≤ 2 * ((events steps).count (.asked Control.ack) + 1) := by
  let config : Config := { maxRetries := 2 }
  let line : Bench.ScriptedLine :=
    { script := [.silence, .silence, .silence, .bytes ⟨#[1, 1, 254], 1, 0⟩, .bytes ⟨#[7], 128, 0⟩,
        .bytes ⟨#[128], 1, 0⟩, .silence, .silence, .bytes ⟨#[9], 1, 0⟩, .silence] }
  let buffer : Array UInt8 := Array.replicate 128 0
  obtain ⟨steps, hrun⟩ := Bench.ScriptedLine.line.exists_run_standing config 128 buffer 330 line
    (by decide) (by simp [buffer])
  have hstands : ((Bench.ScriptedLine.line.standing config 128 buffer 330 line).result?.map
      fun o => o.ending) = some (.failed .timeout) := by
    decide +kernel
  obtain ⟨⟨ending, stored⟩, ho, hending⟩ := Option.map_eq_some_iff.1 hstands
  obtain rfl : ending = .failed .timeout := hending
  rw [Progress.eq_ended ho] at hrun
  obtain ⟨-, hchain, -, hspent, -, htotal⟩ := hrun.discipline (by decide)
  exact ⟨steps, stored, hrun, (hspent _ rfl).1 rfl, hchain, htotal⟩

end Receiver

end Xmodem
