import Mathlib.Tactic.Common
import Xmodem.CommandLine.Arguments

/-!
# What a command line fills in

The options of a level fill in its record one after the other. What holds of the record at the start, and is
kept by each option, holds of it when the level has been read, however the words are put
(`Grammar.scan_keeps`). For the two timeouts this is the range in which a number is understood, and each
number in it can be given: the timeouts that a command line asks for are exactly these
(`Arguments.exists_parse_timeouts`).
-/

namespace Xmodem.CommandLine

theorem exists_ok_of_bind {ε α β : Type} {x : Except ε α} {f : α → Except ε β} {b : β}
    (h : x >>= f = .ok b) : ∃ a, x = .ok a ∧ f a = .ok b := by
  cases x with
  | error e => cases h
  | ok a => exact ⟨a, rfl, h⟩

/-! ### The record of a level -/

namespace Grammar
variable {ι α : Type} [DecidableEq ι] {g : Grammar ι α} {P : α → Prop}
variable {r r' : Reading ι α} {option : ι} {value word : String} {words : List String}

/-- No option takes away what `P` says of the record. -/
def Keeps (g : Grammar ι α) (P : α → Prop) : Prop :=
  ∀ option value a a', P a → g.set option value a = .ok a' → P a'

theorem accept_keeps (hg : g.Keeps P) (hr : P r.record) (h : g.accept r option value = .ok r') :
    P r'.record := by
  unfold accept at h
  split at h
  · cases h
  · obtain ⟨a, hset, hok⟩ := exists_ok_of_bind h
    cases hok
    exact hg _ _ _ _ hr hset

theorem settle_keeps (hg : g.Keeps P) (hr : P r.record) (h : g.settle r = .ok r') : P r'.record := by
  unfold settle at h
  split at h
  · cases h
    exact hr
  · cases h
  · exact accept_keeps hg hr h

theorem readLetters_keeps (hg : g.Keeps P) {cs : List Char} (hr : P r.record)
    (h : g.readLetters r word cs = .ok r') : P r'.record := by
  induction cs generalizing r with
  | nil =>
    cases h
    exact hr
  | cons c cs ih =>
    unfold readLetters at h
    split at h
    · cases h
    · obtain ⟨r₁, hsettle, h⟩ := exists_ok_of_bind h
      have hr₁ := settle_keeps hg hr hsettle
      split at h
      · split at h
        · cases h
          exact hr₁
        · exact accept_keeps hg hr₁ h
        · exact accept_keeps hg hr₁ h
      · obtain ⟨r₂, haccept, h⟩ := exists_ok_of_bind h
        exact ih (accept_keeps hg hr₁ haccept) h

theorem readLong_keeps (hg : g.Keeps P) {name : String} {given : Option String} (hr : P r.record)
    (h : g.readLong r word name given = .ok r') : P r'.record := by
  unfold readLong at h
  split at h
  · cases h
  · split at h
    · obtain ⟨r₁, hsettle, h⟩ := exists_ok_of_bind h
      have hr₁ := settle_keeps hg hr hsettle
      split at h
      · cases h
        exact hr₁
      · exact accept_keeps hg hr₁ h
    · split at h
      · obtain ⟨r₁, hsettle, h⟩ := exists_ok_of_bind h
        exact accept_keeps hg (settle_keeps hg hr hsettle) h
      · cases h

/-- What every option keeps, a level keeps. -/
theorem scan_keeps (hg : g.Keeps P) {isCommand : String → Bool} {stray : Bool → String → UsageError}
    {ended : Bool} {s : Scan ι α} (hr : P r.record) (h : g.scan isCommand stray ended r words = .ok s) :
    P s.reading.record := by
  induction words generalizing ended r with
  | nil =>
    cases h
    exact hr
  | cons word words ih =>
    unfold scan at h
    split at h
    · cases h
    · split at h
      · exact ih hr h
      · obtain ⟨r₁, hlong, h⟩ := exists_ok_of_bind h
        exact ih (readLong_keeps hg hr hlong) h
      · obtain ⟨r₁, hletters, h⟩ := exists_ok_of_bind h
        exact ih (readLetters_keeps hg hr hletters) h
      · split at h
        · refine ih ?_ h
          exact hr
        · split at h
          · cases h
            exact hr
          · cases h

theorem settle_value (hnew : option ∉ r.given) :
    g.settle { r with pending := some ⟨option, some value⟩ } =
      (g.set option value r.record).map fun a => ⟨a, option :: r.given, none⟩ := by
  simp only [settle, accept, if_neg hnew]
  cases g.set option value r.record <;> rfl

/-- An option with its value as the next word. -/
theorem scan_option (option : ι) {isCommand : String → Bool} {stray : Bool → String → UsageError} {name : String}
    (hword : Word.ofString word = .long name none) (hlong : g.long name = some option)
    (htakes : g.takesValue option = true) (hvalue : Word.ofString value = .plain) :
    g.scan isCommand stray false r (word :: value :: words) = g.settle r >>= fun r' =>
      g.scan isCommand stray false { r' with pending := some ⟨option, some value⟩ } words := by
  cases hsettle : g.settle r with
  | error e =>
    simp only [scan, hword, readLong, hlong, htakes, hsettle, if_true, if_false, Bool.false_eq_true]
    rfl
  | ok r' =>
    simp only [scan, hword, readLong, hlong, htakes, hsettle, hvalue, if_true, if_false, Bool.false_eq_true]
    rfl

end Grammar

/-! ### Numbers -/

theorem le_of_within? {low high n : Nat} {text : String} (h : within? low high text = some n) :
    low ≤ n ∧ n ≤ high := by
  obtain ⟨i, -, hi⟩ := Option.bind_eq_some_iff.1 h
  split at hi
  · cases hi
    omega
  · cases hi

theorem isDigit_of_mem_toString {n : Nat} {c : Char} (h : c ∈ (toString n).toList) : c.isDigit = true := by
  rw [Nat.toString_eq_ofList_toDigits, String.toList_ofList] at h
  exact Nat.isDigit_of_mem_toDigits (by decide) (by decide) h

theorem digits?_toString (n : Nat) : digits? (toString n).toList = some n := by
  have hdigits : (toString n).toList.all Char.isDigit = true :=
    List.all_eq_true.2 fun c hc => isDigit_of_mem_toString hc
  rw [digits?, hdigits, Nat.toString_eq_ofList_toDigits, String.toList_ofList,
    List.isEmpty_eq_false_iff.2 Nat.toDigits_ne_nil, ← Nat.ofDigitChars_eq_foldl, Nat.ofDigitChars_ten_toDigits]
  rfl

theorem integer?_toString (n : Nat) : integer? (toString n) = some (n : Int) := by
  have hsign (c : Char) (cs : List Char) (hc : c.isDigit = false) : (toString n).toList ≠ c :: cs := by
    intro h
    have hdigit := isDigit_of_mem_toString (n := n) (h ▸ List.mem_cons_self)
    rw [hc] at hdigit
    cases hdigit
  unfold integer?
  split
  · exact absurd ‹_› (hsign _ _ rfl)
  · exact absurd ‹_› (hsign _ _ rfl)
  · rw [digits?_toString]
    rfl

theorem within?_toString (low high n : Nat) :
    within? low high (toString n) = if low ≤ n ∧ n ≤ high then some n else none := by
  rw [within?, integer?_toString]
  show (if (low : Int) ≤ n ∧ (n : Int) ≤ high then some (n : Int).toNat else none) = _
  simp only [Int.ofNat_le, Int.toNat_natCast]

theorem Word.ofString_toString (n : Nat) : Word.ofString (toString n) = .plain := by
  have hdash (cs : List Char) : (toString n).toList ≠ '-' :: cs := fun h => by
    have hdigit := isDigit_of_mem_toString (n := n) (h ▸ List.mem_cons_self)
    cases hdigit
  unfold Word.ofString
  split
  · exact absurd ‹_› (hdash _)
  · exact absurd ‹_› (hdash _)
  · exact absurd ‹_› (hdash _)
  · rfl

/-! ### The timeouts -/

/-- A timeout in milliseconds that a command line may ask for. -/
def InRange (ms : UInt32) : Prop :=
  1 ≤ ms.toNat ∧ ms.toNat ≤ maxTimeoutMs

theorem InRange.of_within? {n : Nat} {text : String} (h : within? 1 maxTimeoutMs text = some n) :
    InRange (UInt32.ofNat n) := by
  have hrange := le_of_within? h
  have hmax : maxTimeoutMs < UInt32.size := by decide
  rwa [InRange, UInt32.toNat_ofNat_of_lt' (by omega)]

instance (ms : UInt32) : Decidable (InRange ms) :=
  inferInstanceAs (Decidable (_ ∧ _))

structure ReceiveArguments.TimeoutsInRange (a : ReceiveArguments) : Prop where
  start : InRange a.startTimeoutMs
  byte : InRange a.byteTimeoutMs

theorem ReceiveOption.grammar_keeps : grammar.Keeps ReceiveArguments.TimeoutsInRange := by
  intro option value a a' ha h
  cases option with
  | startTimeout =>
    simp only [grammar] at h
    split at h
    · cases h
      exact ⟨.of_within? ‹_›, ha.byte⟩
    · cases h
  | byteTimeout =>
    simp only [grammar] at h
    split at h
    · cases h
      exact ⟨ha.start, .of_within? ‹_›⟩
    · cases h
  | output | capacity | retries | hexdump | help =>
    -- None of these has to do with a timeout.
    simp only [grammar] at h
    repeat' split at h
    all_goals cases h
    all_goals exact ⟨ha.start, ha.byte⟩

theorem ReceiveOption.timeoutsInRange_of_parse {words : List String} {a : ReceiveArguments}
    (h : ReceiveOption.parse words = .ok a) : a.TimeoutsInRange := by
  obtain ⟨level, hscan, h⟩ := exists_ok_of_bind h
  obtain ⟨reading, hsettle, h⟩ := exists_ok_of_bind h
  cases h
  have hlevel := Grammar.scan_keeps grammar_keeps ⟨by decide, by decide⟩ hscan
  exact Grammar.settle_keeps grammar_keeps hlevel hsettle

theorem Arguments.exists_parse_receive {words : List String} {args : Arguments}
    (h : Arguments.parse words = .ok args) : ∃ rest, ReceiveOption.parse rest = .ok args.receive := by
  obtain ⟨level, -, h⟩ := exists_ok_of_bind h
  obtain ⟨receive, hreceive, h⟩ := exists_ok_of_bind h
  obtain ⟨reading, -, h⟩ := exists_ok_of_bind h
  split at h
  · cases h
  · cases h
  · cases h
    cases hcommand : level.command with
    | none =>
      rw [hcommand] at hreceive
      cases hreceive
    | some rest =>
      rw [hcommand] at hreceive
      obtain ⟨a, ha, hsome⟩ := exists_ok_of_bind hreceive
      cases hsome
      exact ⟨rest, ha⟩

/-! ### Timeouts as they are typed -/

namespace ReceiveOption

theorem set_startTimeout (start : Nat) (a : ReceiveArguments) :
    grammar.set startTimeout (toString start) a =
      if 1 ≤ start ∧ start ≤ maxTimeoutMs then .ok { a with startTimeoutMs := UInt32.ofNat start }
      else .error (.badValue "--start-timeout-ms" (toString start)) := by
  simp only [grammar, within?_toString]
  by_cases h : 1 ≤ start ∧ start ≤ maxTimeoutMs
  · rw [if_pos h, if_pos h]
  · rw [if_neg h, if_neg h]

theorem set_byteTimeout (byte : Nat) (a : ReceiveArguments) :
    grammar.set byteTimeout (toString byte) a =
      if 1 ≤ byte ∧ byte ≤ maxTimeoutMs then .ok { a with byteTimeoutMs := UInt32.ofNat byte }
      else .error (.badValue "--byte-timeout-ms" (toString byte)) := by
  simp only [grammar, within?_toString]
  by_cases h : 1 ≤ byte ∧ byte ≤ maxTimeoutMs
  · rw [if_pos h, if_pos h]
  · rw [if_neg h, if_neg h]

theorem parse_timeouts (start byte : Nat) :
    ReceiveOption.parse ["--start-timeout-ms", toString start, "--byte-timeout-ms", toString byte] =
      grammar.set startTimeout (toString start) {} >>= grammar.set byteTimeout (toString byte) := by
  have hfirst : grammar.settle ⟨{}, [], some ⟨startTimeout, some (toString start)⟩⟩ =
      (grammar.set startTimeout (toString start) {}).map fun a => ⟨a, [startTimeout], none⟩ :=
    Grammar.settle_value (r := ⟨({} : ReceiveArguments), [], none⟩) List.not_mem_nil
  have hsecond (a : ReceiveArguments) :
      grammar.settle ⟨a, [startTimeout], some ⟨byteTimeout, some (toString byte)⟩⟩ =
        (grammar.set byteTimeout (toString byte) a).map fun a => ⟨a, [byteTimeout, startTimeout], none⟩ :=
    Grammar.settle_value (r := ⟨a, [startTimeout], none⟩) (by simp)
  rw [ReceiveOption.parse, Grammar.scan_option startTimeout rfl rfl rfl (Word.ofString_toString _)]
  show grammar.scan _ _ false ⟨{}, [], some ⟨startTimeout, some (toString start)⟩⟩ _ >>= _ = _
  rw [Grammar.scan_option byteTimeout rfl rfl rfl (Word.ofString_toString _), hfirst]
  cases grammar.set startTimeout (toString start) {} with
  | error e => rfl
  | ok a =>
    show grammar.settle ⟨a, [startTimeout], some ⟨byteTimeout, some (toString byte)⟩⟩ >>= _ = _
    rw [hsecond]
    show _ = grammar.set byteTimeout (toString byte) a
    cases grammar.set byteTimeout (toString byte) a <;> rfl

end ReceiveOption

theorem Arguments.parse_receive (words : List String) :
    Arguments.parse ("--port" :: "COM1" :: receiveCommand :: words) = (ReceiveOption.parse words).map fun a =>
      { port := "COM1", baud := 115200, dataBits := 8, parity := "none", stopBits := 1, debug := false,
        receive := a } := by
  rw [Arguments.parse, Grammar.scan_option PortOption.port rfl rfl rfl rfl]
  show (ReceiveOption.parse words >>= fun a => pure (some a)) >>= _ = _
  cases ReceiveOption.parse words <;> rfl

/-- The words of a user who asks for two timeouts. -/
def timeoutWords (start byte : Nat) : List String :=
  ["--port", "COM1", "receive", "--start-timeout-ms", toString start, "--byte-timeout-ms", toString byte]

theorem Arguments.parse_timeoutWords {start byte : Nat} {args : Arguments} :
    Arguments.parse (timeoutWords start byte) = .ok args ↔
      (1 ≤ start ∧ start ≤ maxTimeoutMs) ∧ (1 ≤ byte ∧ byte ≤ maxTimeoutMs) ∧
      args =
        { port := "COM1", baud := 115200, dataBits := 8, parity := "none", stopBits := 1, debug := false,
          receive := { startTimeoutMs := UInt32.ofNat start, byteTimeoutMs := UInt32.ofNat byte } } := by
  show Arguments.parse ("--port" :: "COM1" :: receiveCommand :: _) = _ ↔ _
  rw [parse_receive, ReceiveOption.parse_timeouts, ReceiveOption.set_startTimeout]
  by_cases hstart : 1 ≤ start ∧ start ≤ maxTimeoutMs
  · rw [if_pos hstart]
    show (ReceiveOption.grammar.set .byteTimeout (toString byte) { startTimeoutMs := .ofNat start }).map _ = _ ↔ _
    rw [ReceiveOption.set_byteTimeout]
    by_cases hbyte : 1 ≤ byte ∧ byte ≤ maxTimeoutMs
    · rw [if_pos hbyte]
      constructor
      · rintro ⟨⟩
        exact ⟨hstart, hbyte, rfl⟩
      · rintro ⟨-, -, rfl⟩
        rfl
    · rw [if_neg hbyte]
      exact iff_of_false nofun fun h => hbyte h.2.1
  · rw [if_neg hstart]
    exact iff_of_false nofun fun h => hstart h.1

theorem Arguments.exists_parse_timeouts {startMs byteMs : UInt32} :
    (∃ words args, Arguments.parse words = .ok args ∧ args.receive.startTimeoutMs = startMs ∧
      args.receive.byteTimeoutMs = byteMs) ↔ InRange startMs ∧ InRange byteMs := by
  constructor
  · rintro ⟨words, args, h, rfl, rfl⟩
    obtain ⟨rest, hrest⟩ := exists_parse_receive h
    have hrange := ReceiveOption.timeoutsInRange_of_parse hrest
    exact ⟨hrange.start, hrange.byte⟩
  · rintro ⟨hstart, hbyte⟩
    refine ⟨_, _, parse_timeoutWords.2 ⟨hstart, hbyte, rfl⟩, ?_, ?_⟩
    · exact UInt32.ofNat_toNat
    · exact UInt32.ofNat_toNat

/-- A timeout is taken as it is typed, if it is in range. -/
theorem Arguments.exists_parse_timeoutWords (start byte : Nat) :
    ((∃ args, Arguments.parse (timeoutWords start byte) = .ok args) ↔
      (1 ≤ start ∧ start ≤ maxTimeoutMs) ∧ 1 ≤ byte ∧ byte ≤ maxTimeoutMs) ∧
    ∀ args, Arguments.parse (timeoutWords start byte) = .ok args →
      args.receive.startTimeoutMs.toNat = start ∧ args.receive.byteTimeoutMs.toNat = byte := by
  have hmax : maxTimeoutMs < UInt32.size := by decide
  refine ⟨⟨?_, ?_⟩, fun args h => ?_⟩
  · rintro ⟨args, h⟩
    obtain ⟨hstart, hbyte, -⟩ := parse_timeoutWords.1 h
    exact ⟨hstart, hbyte⟩
  · rintro ⟨hstart, hbyte⟩
    exact ⟨_, parse_timeoutWords.2 ⟨hstart, hbyte, rfl⟩⟩
  · obtain ⟨hstart, hbyte, rfl⟩ := parse_timeoutWords.1 h
    exact ⟨UInt32.toNat_ofNat_of_lt' (by omega), UInt32.toNat_ofNat_of_lt' (by omega)⟩

end Xmodem.CommandLine
