import Xmodem.Program
import Xmodem.Proofs.Attempts
import Xmodem.Proofs.Passage
import Xmodem.Proofs.Termination

/-!
# A sender that stays silent

On a line on which no byte ever comes, and on a clock that moves, every wait runs out. So a transfer asks
for its first block as often as the limit allows and is given up then (`Line.receive_silence`). An attempt
is counted before the count is compared with the limit; a limit that is the largest count leaves no room
for the one that would exceed it, and a transfer that spends all its attempts ends with its count exhausted
instead, and without a word to the sender.
-/

namespace Xmodem

namespace Config

/-- How a transfer ends that has spent its attempts: it is given up, unless the limit is the largest count,
which has no room for an attempt more. -/
def surrender (config : Config) : Ending :=
  if config.maxRetries.toNat < UInt32.size - 1 then .failed .timeout else .exhausted

/-- What the sender is sent then. -/
def farewell (config : Config) : List UInt8 :=
  if config.maxRetries.toNat < UInt32.size - 1 then List.replicate cancelCount Control.can else []

end Config

namespace Line
variable {τ : Type}

/-! ### Attempts to which no byte comes -/

/-- No byte comes within the waits of a transfer, and bytes can be sent. `stage` relates what the waits have
cost so far to the state of the line. -/
structure Idles (line : Line (StateM τ)) (config : Config) (cost : UInt32 → Nat) (stage : Nat → τ → Prop) :
    Prop where
  unheard : ∀ spent env, stage spent env →
    ∃ env', line.Brings config.startTimeout env none env' ∧ stage (spent + cost config.startTimeout) env'
  flushed : ∀ spent env, stage spent env →
    ∃ env', line.Brings config.flushIdle env none env' ∧ stage (spent + cost config.flushIdle) env'
  written : ∀ byte spent env, stage spent env →
    ∃ env', (line.write byte).run env = (.ok (), env') ∧ stage spent env'
  reported : ∀ message spent env, stage spent env → stage spent ((line.report message).run env).2

namespace Idles
variable {line : Line (StateM τ)} {config : Config} {cost : UInt32 → Nat} {stage : Nat → τ → Prop}
variable {spent : Nat} {env : τ} {s : Session}

theorem told (hl : line.Idles config cost stage) (messages : List Message) (h : stage spent env) :
    stage spent (line.told messages env) :=
  told_induct (fun message env => hl.reported message spent env) messages h

theorem exchanges_drain (hl : line.Idles config cost stage) (spent : Nat) (cause : FlushCause) (hconfig : s.config = config)
    (h : stage spent env) :
    ∃ env', line.Exchanges Receiver.ask (.going (s.draining cause 0)) env [] [] (s.flushed cause).next env' ∧
      stage (spent + cost config.flushIdle) env' := by
  obtain ⟨env', hbrings, h'⟩ := hl.flushed spent env h
  rw [← hconfig] at hbrings
  exact ⟨_, (Carries.awaits_flushing s cause _ 0).exchanges_brings hbrings, hl.told _ h'⟩

theorem exchanges_unheard (hl : line.Idles config cost stage) (spent : Nat) (hconfig : s.config = config)
    (h : stage spent env) :
    ∃ env', line.Exchanges Receiver.ask (.going (s.awaiting .start)) env [] [] s.retry.next env' ∧
      stage (spent + cost config.startTimeout) env' := by
  obtain ⟨env', hbrings, h'⟩ := hl.unheard spent env h
  rw [← hconfig] at hbrings
  exact ⟨_, (Carries.awaits_reading s .start).exchanges_brings hbrings, hl.told _ h'⟩

/-- An attempt to which no byte comes fails, and the line is flushed for the next one. -/
theorem exchanges_failed (hl : line.Idles config cost stage) (spent : Nat) (hconfig : s.config = config)
    (h : stage spent env) :
    ∃ env', line.Exchanges Receiver.ask (.going (s.awaiting .start)) env [] [] s.openAttempt.next env' ∧
      stage (spent + cost config.startTimeout + cost config.flushIdle) env' := by
  obtain ⟨env₁, hsilence, h₁⟩ := hl.exchanges_unheard spent hconfig h
  obtain ⟨env', hflushed, h'⟩ := hl.exchanges_drain _ .retry hconfig h₁
  exact ⟨env', hsilence.trans hflushed, h'⟩

theorem exchanges_reply (hl : line.Idles config cost stage) (s : Session) (h : stage spent env) :
    ∃ env', line.Exchanges Receiver.ask (.going ⟨s, .sending .reply⟩) env [] [s.reply.byte]
      (.going ({ s with reply := .nak }.awaiting .start)) env' ∧ stage spent env' := by
  obtain ⟨env', hwrite, h'⟩ := hl.written s.reply.byte spent env h
  have ha : Ask.Answer (Receiver.ask ⟨s, .sending .reply⟩) (.wrote s.reply.byte (.ok ()))
      (s.wrote .reply (.ok ())) := .write ..
  exact ⟨_, .step ha hwrite rfl, hl.told _ h'⟩

/-- The attempts that are left fail, and then the transfer is given up if the count has room to say so. -/
theorem exchanges_openAttempt (hl : line.Idles config cost stage) (left spent : Nat)
    (hconfig : s.config = config) (hleft : s.attempts.toNat + left = config.maxRetries.toNat)
    (hnak : s.reply = .nak) (h : stage spent env) :
    ∃ env', line.Exchanges Receiver.ask s.openAttempt.next env []
      (List.replicate left Control.nak ++ config.farewell) (.ended ⟨config.surrender, s.buffer⟩) env' ∧
        stage (spent + left * (cost config.startTimeout + cost config.flushIdle)) env' := by
  induction left generalizing s spent env with
  | zero =>
    have hopens := s.opens_openAttempt
    rw [Nat.zero_mul]
    by_cases hmax : config.maxRetries.toNat < UInt32.size - 1
    · have htimeout : s.openAttempt.next = (s.fail .timeout).next := by
        generalize s.openAttempt.next = p at hopens ⊢
        subst hconfig
        cases hopens with
        | opened hle => omega
        | abandoned _ => rfl
        | exhausted hge => omega
      rw [htimeout, Config.farewell, Config.surrender, if_pos hmax, if_pos hmax]
      exact Line.exchanges_cancel (P := stage spent) (hl.written _ spent)
        (fun message => hl.reported message spent) s .timeout 2 h
    · have hexhausted : s.openAttempt.next = (s.finish .exhausted).next := by
        rw [Session.openAttempt, if_neg (by omega)]
      rw [hexhausted, Config.farewell, Config.surrender, if_neg hmax, if_neg hmax]
      exact ⟨env, .refl .., h⟩
  | succ left ih =>
    have hlt : config.maxRetries.toNat < UInt32.size := config.maxRetries.toNat_lt
    have hroom : s.attempts.toNat + 1 < UInt32.size := by omega
    have hcount : (s.attempts + 1).toNat = s.attempts.toNat + 1 := by
      rw [UInt32.toNat_add]
      exact Nat.mod_eq_of_lt hroom
    have hopened := Session.next_openAttempt (s := s) (by rw [hconfig]; omega)
    obtain ⟨env₁, hasked, h₁⟩ := hl.exchanges_reply { s with attempts := s.attempts + 1 } h
    obtain ⟨env₂, hfailed, h₂⟩ := hl.exchanges_failed spent
      (s := { s with attempts := s.attempts + 1, reply := .nak }) hconfig h₁
    obtain ⟨env', hrest, h'⟩ := ih (s := { s with attempts := s.attempts + 1, reply := .nak }) _ hconfig
      (by show (s.attempts + 1).toNat + left = config.maxRetries.toNat; omega) rfl h₂
    have hall := hasked.trans (hfailed.trans hrest)
    rw [show Reply.byte _ = Control.nak from congrArg Reply.byte hnak] at hall
    rw [hopened, List.replicate_succ, Nat.succ_mul, Nat.add_comm (left * _), ← Nat.add_assoc, ← Nat.add_assoc]
    exact ⟨env', hall, h'⟩

end Idles

/-! ### Lines on which no byte ever comes -/

/-- No byte comes over the line and bytes can be sent, in all states that are reached from here. Some time
passes in each poll, and at most half of the clock's range. -/
structure Silent (line : Line (StateM τ)) (stage : τ → Prop) : Prop where
  polled : ∀ env, stage env → ∃ env', line.poll.run env = (.ok none, env') ∧ stage env'
  written : ∀ byte env, stage env → ∃ env', (line.write byte).run env = (.ok (), env') ∧ stage env'
  timed : ∀ env, stage env → stage (line.clock.run env).2
  reported : ∀ message env, stage env → stage ((line.report message).run env).2
  ticks : ∀ {env env₁ env₂ env₃ a b found}, stage env → line.clock.run env = (a, env₁) →
    line.poll.run env₁ = (found, env₂) → line.clock.run env₂ = (b, env₃) →
      1 ≤ (b - a).toNat ∧ (b - a).toNat ≤ 2 ^ 31

namespace Silent
variable {line : Line (StateM τ)} {stage : τ → Prop} {env : τ} {s : Session}

/-- A wait whose deadline was set runs out. -/
theorem waits (hl : line.Silent stage) (d : Deadline) (h : stage env) :
    ∃ env', line.Waits d (line.clock.run env).2 none env' ∧ stage env' := by
  -- On the readings that may follow until the deadline is reached.
  generalize hn : d.readings (line.clock.run env).1 = n
  induction n using Nat.strongRecOn generalizing env with
  | ind n ih =>
    obtain ⟨env₁, hpoll, h₁⟩ := hl.polled _ (hl.timed env h)
    have hticks := hl.ticks h rfl hpoll rfl
    cases hreached : d.reached (line.clock.run env₁).1 with
    | true => exact ⟨_, .lapsed hpoll rfl hreached, hl.timed env₁ h₁⟩
    | false =>
      have hlt := Deadline.readings_lt hticks.1 hticks.2 hreached
      obtain ⟨env', hwaits, h'⟩ := ih _ (hn ▸ hlt) h₁ rfl
      exact ⟨env', .early hpoll rfl hreached hwaits, h'⟩

theorem idles (hl : line.Silent stage) (config : Config) :
    line.Idles config (fun _ => 0) fun _ env => stage env :=
  ⟨fun _ _ h => hl.waits _ h, fun _ _ h => hl.waits _ h, fun byte _ => hl.written byte,
    fun message _ => hl.reported message⟩

theorem exchanges_drain (hl : line.Silent stage) (s : Session) (cause : FlushCause) (h : stage env) :
    ∃ env', line.Exchanges Receiver.ask (.going (s.draining cause 0)) env [] [] (s.flushed cause).next env' ∧
      stage env' :=
  (hl.idles s.config).exchanges_drain 0 cause rfl h

theorem exchanges_openAttempt (hl : line.Silent stage) (left : Nat)
    (hleft : s.attempts.toNat + left = s.config.maxRetries.toNat) (hnak : s.reply = .nak) (h : stage env) :
    ∃ env', line.Exchanges Receiver.ask s.openAttempt.next env []
      (List.replicate left Control.nak ++ s.config.farewell) (.ended ⟨s.config.surrender, s.buffer⟩) env' ∧
        stage env' :=
  (hl.idles s.config).exchanges_openAttempt left 0 rfl hleft hnak h

end Silent

theorem playing_silent {lapse : UInt32} (h₀ : 1 ≤ lapse.toNat) (h₁ : lapse.toNat ≤ 2 ^ 31) :
    (playing lapse).Silent fun env => env.1 = ⟨[], []⟩ := by
  refine ⟨?_, ?_, ?_, ?_, ?_⟩
  · rintro ⟨sender, now⟩ rfl
    exact ⟨_, rfl, rfl⟩
  · rintro byte ⟨sender, now⟩ rfl
    exact ⟨_, rfl, rfl⟩
  · rintro ⟨sender, now⟩ rfl
    rfl
  · rintro message ⟨sender, now⟩ rfl
    rfl
  · rintro ⟨sender, now⟩ env₁ env₂ env₃ a b found rfl ⟨⟩ ⟨⟩ ⟨⟩
    have hlapse : now + lapse - now = lapse := by grind
    rw [hlapse]
    exact ⟨h₀, h₁⟩

/-- On a silent line each transfer comes to an end. It asks for a block exactly as often as the limit
allows, and is given up then, unless the limit is the largest count: then the count is exhausted. On every
line that is how a transfer ends whose count is exhausted: the limit is the largest count, and so many
attempts have failed in a row. -/
theorem receive_silence {line : Line (StateM τ)} {stage : τ → Prop} {config : Config} {capacity : Nat}
    {buffer : Array UInt8} {env : τ} (hl : line.Silent stage) (hpos : 0 < capacity)
    (hsize : capacity ≤ buffer.size) (hs : stage env) :
    (∃ fuel calls env',
      (∀ more, ((line.recorded.receive config capacity buffer (fuel + more)).run []).run env =
        ((.ok (.ended ⟨config.surrender, buffer⟩), calls), env')) ∧
      (∀ call ∈ calls, call.error? = none) ∧ calls.filterMap Call.taken? = [] ∧
      calls.filterMap Call.sent? = List.replicate config.maxRetries.toNat Control.nak ++ config.farewell) ∧
    ∀ steps o, Receiver.Run config capacity buffer steps (.ended o) →
      (o.ending = .exhausted ↔
        config.maxRetries.toNat = UInt32.size - 1 ∧
          Event.Spent (UInt32.size - 1) (Receiver.events steps)) := by
  refine ⟨?_, fun steps o hrun => ?_⟩
  · obtain ⟨env₁, hflushed, h₁⟩ := hl.exchanges_drain { config, capacity, buffer } .retry hs
    obtain ⟨env', hattempts, -⟩ := hl.exchanges_openAttempt (s := { config, capacity, buffer })
      config.maxRetries.toNat (Nat.zero_add _) rfl h₁
    obtain ⟨calls, hleads, herror, htaken, hsent⟩ := hflushed.trans hattempts
    have hended := hleads.run_recorded []
    refine ⟨calls.length, calls, env', fun more => ?_, herror, htaken, hsent⟩
    rw [run_receive_eq_ok hpos hsize]
    exact line.run_add_of_ended more hended
  · have htally : o.Tally config.maxRetries.toNat (Receiver.events steps) := hrun.tally
    have hlt : config.maxRetries.toNat < UInt32.size := config.maxRetries.toNat_lt
    rw [htally.exhausted_iff]
    constructor
    · rintro ⟨hspent, hge⟩
      have hmax : config.maxRetries.toNat = UInt32.size - 1 := by omega
      exact ⟨hmax, hmax ▸ hspent⟩
    · rintro ⟨hmax, hspent⟩
      exact ⟨hmax.symm ▸ hspent, by omega⟩

/-- The largest limit that is understood on a command line, and a sender that stays silent. -/
theorem receive_silence_exhausted : ∃ (args : CommandLine.Arguments) (fuel : Nat) (calls : List Call)
    (env' : Sender × UInt32),
    CommandLine.Arguments.parse ["-p", "COM1", "receive", "--retries", "4294967295"] = .ok args ∧
    (∀ more, (((playing 100000).recorded.receive (Program.config args.receive) 128 (Array.replicate 128 0)
      (fuel + more)).run []).run (⟨[], []⟩, 0) =
        ((.ok (.ended ⟨.exhausted, Array.replicate 128 0⟩), calls), env')) ∧
    calls.filterMap Call.sent? = List.replicate 4294967295 Control.nak := by
  obtain ⟨args, hparse, hretries⟩ : ∃ args,
      CommandLine.Arguments.parse ["-p", "COM1", "receive", "--retries", "4294967295"] = .ok args ∧
        (Program.config args.receive).maxRetries = 4294967295 :=
    ⟨{ port := "COM1", baud := 115200, dataBits := 8, parity := "none", stopBits := 1, debug := false,
       receive := { retries := 4294967295 } }, by decide +kernel, rfl⟩
  have hmax : (Program.config args.receive).maxRetries.toNat = 4294967295 := by
    rw [hretries]
    rfl
  have hlargest : ¬ (Program.config args.receive).maxRetries.toNat < UInt32.size - 1 := by
    rw [hmax]
    decide
  obtain ⟨⟨fuel, calls, env', hreceive, -, -, hsent⟩, -⟩ :=
    @receive_silence _ (playing 100000) _ (Program.config args.receive) 128 (Array.replicate 128 0)
      (⟨[], []⟩, 0) (playing_silent (by decide) (by decide)) (by decide) (by simp) rfl
  rw [Config.surrender, if_neg hlargest] at hreceive
  rw [Config.farewell, if_neg hlargest, List.append_nil, hmax] at hsent
  exact ⟨args, fuel, calls, env', hparse, hreceive, hsent⟩

end Line

end Xmodem
