import Mathlib.Data.List.Forall2
import Mathlib.Tactic.Common
import Xmodem.Proofs.Options
import Xmodem.Program

/-!
# The settings that arguments ask for

A port is opened with settings that its arguments ask for (`Program.Asks`): a count of data bits from 5 to 8, one
of three words for the parity, in small letters or capitals, and a count of stop bits of 1 or 2. If there are
none, the first argument that is not among these is to blame (`Program.Blames`). `Program.portSettings` finds the
settings, or the one to blame.
-/

namespace Xmodem

open CommandLine Serial

/-! ### Words -/

/-- The letters of a word, each of them small or a capital. -/
def Spells (given word : String) : Prop :=
  List.Forall₂ (fun c letter => c = letter ∨ c = letter.toUpper) given.toList word.toList

theorem isLower_iff {c : Char} : c.isLower = true ↔ 97 ≤ c.val.toNat ∧ c.val.toNat ≤ 122 := by
  show (decide ('a'.val ≤ c.val) && decide (c.val ≤ 'z'.val)) = true ↔ _
  simp [UInt32.le_iff_toNat_le]

theorem toNat_toUpper {c : Char} (h : c.isLower = true) : c.toUpper.val.toNat = c.val.toNat - 32 := by
  obtain ⟨hlow, hhigh⟩ := isLower_iff.1 h
  have hsmall : 'a'.val ≤ c.val ∧ c.val ≤ 'z'.val := ⟨hlow, hhigh⟩
  have hdown : ('A'.val - 'a'.val).toNat = 2 ^ 32 - 32 := rfl
  delta Char.toUpper
  rw [dif_pos hsmall, UInt32.toNat_add, hdown]
  omega

theorem toNat_toLower (c : Char) :
    c.toLower.val.toNat = if 65 ≤ c.val.toNat ∧ c.val.toNat ≤ 90 then c.val.toNat + 32 else c.val.toNat := by
  delta Char.toLower
  split
  case isTrue h =>
    have hcapital : 65 ≤ c.val.toNat ∧ c.val.toNat ≤ 90 := h
    have hup : ('a'.val - 'A'.val).toNat = 32 := rfl
    rw [if_pos hcapital, UInt32.toNat_add, hup]
    omega
  case isFalse h => exact (if_neg h).symm

/-- A character becomes a small letter if it is that letter, or its capital. -/
theorem toLower_eq_iff {c letter : Char} (h : letter.isLower = true) :
    c.toLower = letter ↔ c = letter ∨ c = letter.toUpper := by
  have hlower := toNat_toLower c
  have hupper := toNat_toUpper h
  obtain ⟨hlow, hhigh⟩ := isLower_iff.1 h
  rw [Char.ext_iff, Char.ext_iff, Char.ext_iff, ← UInt32.toNat_inj, ← UInt32.toNat_inj, ← UInt32.toNat_inj]
  split at hlower <;> omega

theorem spells_iff {given word : String} (h : word.toList.all Char.isLower = true) :
    Spells given word ↔ given.map Char.toLower = word := by
  rw [List.all_eq_true] at h
  rw [Spells, ← String.toList_inj, String.toList_map]
  generalize given.toList = cs
  generalize word.toList = letters at h
  induction cs generalizing letters with
  | nil => cases letters <;> simp
  | cons c cs ih =>
    cases letters with
    | nil => simp
    | cons letter letters =>
      rw [List.forall₂_cons, List.map_cons, List.cons.injEq, toLower_eq_iff (h letter List.mem_cons_self),
        ih letters fun l hl => h l (List.mem_cons_of_mem _ hl)]

/-! ### Each setting -/

namespace Serial

theorem DataBits.ofCount_eq_ok_iff {count : UInt8} {bits : DataBits} :
    ofCount count = .ok bits ↔ (count, bits) ∈ [(5, five), (6, six), (7, seven), (8, eight)] := by
  constructor
  · intro h
    unfold ofCount at h
    split at h <;> cases h <;> simp
  · intro h
    simp only [List.mem_cons, Prod.mk.injEq, List.not_mem_nil, or_false] at h
    rcases h with ⟨rfl, rfl⟩ | ⟨rfl, rfl⟩ | ⟨rfl, rfl⟩ | ⟨rfl, rfl⟩ <;> rfl

theorem DataBits.of_ofCount_eq_error {count : UInt8} {e : SettingError} (h : ofCount count = .error e) :
    count ∉ [5, 6, 7, 8] ∧ e = .dataBits count := by
  unfold ofCount at h
  split at h <;> cases h
  simp_all

theorem StopBits.ofCount_eq_ok_iff {count : UInt8} {bits : StopBits} :
    ofCount count = .ok bits ↔ (count, bits) ∈ [(1, one), (2, two)] := by
  constructor
  · intro h
    unfold ofCount at h
    split at h <;> cases h <;> simp
  · intro h
    simp only [List.mem_cons, Prod.mk.injEq, List.not_mem_nil, or_false] at h
    rcases h with ⟨rfl, rfl⟩ | ⟨rfl, rfl⟩ <;> rfl

theorem StopBits.of_ofCount_eq_error {count : UInt8} {e : SettingError} (h : ofCount count = .error e) :
    count ∉ [1, 2] ∧ e = .stopBits count := by
  unfold ofCount at h
  split at h <;> cases h
  simp_all

/-- The words for a parity, in any mixture of small letters and capitals. -/
theorem Parity.ofWord_eq_ok_iff {given : String} {parity : Parity} : ofWord given = .ok parity ↔
    ∃ word, Spells given word ∧ (word, parity) ∈ [("none", none), ("odd", odd), ("even", even)] := by
  constructor
  · intro h
    unfold ofWord at h
    split at h <;> cases h
    next hword => exact ⟨_, (spells_iff (by decide)).2 hword, by simp⟩
    next hword => exact ⟨_, (spells_iff (by decide)).2 hword, by simp⟩
    next hword => exact ⟨_, (spells_iff (by decide)).2 hword, by simp⟩
  · rintro ⟨word, hspells, hword⟩
    simp only [List.mem_cons, Prod.mk.injEq, List.not_mem_nil, or_false] at hword
    unfold ofWord
    rcases hword with ⟨rfl, rfl⟩ | ⟨rfl, rfl⟩ | ⟨rfl, rfl⟩ <;> rw [(spells_iff (by decide)).1 hspells] <;> rfl

theorem Parity.of_ofWord_eq_error {given : String} {e : SettingError} (h : ofWord given = .error e) :
    (∀ word ∈ ["none", "odd", "even"], ¬ Spells given word) ∧ e = .parity given := by
  refine ⟨fun word hword hspells => ?_, ?_⟩
  · obtain ⟨parity, hparity⟩ : ∃ parity, (word, parity) ∈ [("none", none), ("odd", odd), ("even", even)] := by
      simp only [List.mem_cons, List.not_mem_nil, or_false] at hword
      rcases hword with rfl | rfl | rfl <;> simp
    rw [ofWord_eq_ok_iff.2 ⟨word, hspells, hparity⟩] at h
    cases h
  · unfold ofWord at h
    split at h <;> cases h
    rfl

end Serial

/-! ### All settings -/

namespace Program

/-- The settings of the port that the arguments ask for. -/
structure Asks (args : Arguments) (settings : Settings) : Prop where
  port_eq : settings.port = args.port
  baud_eq : settings.baud = args.baud
  dataBits : (args.dataBits, settings.dataBits) ∈
    [(5, DataBits.five), (6, DataBits.six), (7, DataBits.seven), (8, DataBits.eight)]
  parity : ∃ word, Spells args.parity word ∧
    (word, settings.parity) ∈ [("none", Parity.none), ("odd", Parity.odd), ("even", Parity.even)]
  stopBits : (args.stopBits, settings.stopBits) ∈ [(1, StopBits.one), (2, StopBits.two)]
  timeoutMs_eq : settings.timeoutMs = 100

/-- The first argument for which there is no setting, and what is said of it. -/
inductive Blames (args : Arguments) : String → Prop
  | dataBits (h : args.dataBits ∉ [5, 6, 7, 8]) :
    Blames args ("Invalid data bits: " ++ toString args.dataBits ++ ". Must be 5, 6, 7, or 8")
  | parity (hdata : args.dataBits ∈ [5, 6, 7, 8])
    (h : ∀ word ∈ ["none", "odd", "even"], ¬ Spells args.parity word) :
    Blames args ("Invalid parity: " ++ args.parity ++ ". Must be 'none', 'odd', or 'even'")
  | stopBits (hdata : args.dataBits ∈ [5, 6, 7, 8])
    (hparity : ∃ word ∈ ["none", "odd", "even"], Spells args.parity word) (h : args.stopBits ∉ [1, 2]) :
    Blames args ("Invalid stop bits: " ++ toString args.stopBits ++ ". Must be 1 or 2")

theorem portSettings_eq_ok_iff {args : Arguments} {settings : Settings} :
    portSettings args = .ok settings ↔ Asks args settings := by
  constructor
  · intro h
    obtain ⟨dataBits, hdata, h⟩ := exists_ok_of_bind h
    obtain ⟨parity, hparity, h⟩ := exists_ok_of_bind h
    obtain ⟨stopBits, hstop, h⟩ := exists_ok_of_bind h
    cases h
    exact ⟨rfl, rfl, DataBits.ofCount_eq_ok_iff.1 hdata, Parity.ofWord_eq_ok_iff.1 hparity,
      StopBits.ofCount_eq_ok_iff.1 hstop, rfl⟩
  · rintro ⟨hport, hbaud, hdata, hparity, hstop, htimeout⟩
    obtain ⟨port, baud, dataBits, parity, stopBits, timeoutMs⟩ := settings
    obtain rfl := hport
    obtain rfl := hbaud
    obtain rfl := htimeout
    rw [portSettings, DataBits.ofCount_eq_ok_iff.2 hdata, Parity.ofWord_eq_ok_iff.2 hparity,
      StopBits.ofCount_eq_ok_iff.2 hstop]
    rfl

theorem blames_of_portSettings {args : Arguments} {e : SettingError} (h : portSettings args = .error e) :
    Blames args e.message := by
  unfold portSettings at h
  cases hdata : DataBits.ofCount args.dataBits with
  | error e' =>
    rw [hdata] at h
    cases h
    obtain ⟨hinvalid, rfl⟩ := DataBits.of_ofCount_eq_error hdata
    exact .dataBits hinvalid
  | ok dataBits =>
    have hcount : args.dataBits ∈ [5, 6, 7, 8] :=
      List.mem_map_of_mem (f := Prod.fst) (DataBits.ofCount_eq_ok_iff.1 hdata)
    cases hparity : Parity.ofWord args.parity with
    | error e' =>
      rw [hdata, hparity] at h
      cases h
      obtain ⟨hinvalid, rfl⟩ := Parity.of_ofWord_eq_error hparity
      exact .parity hcount hinvalid
    | ok parity =>
      obtain ⟨word, hspells, hword⟩ := Parity.ofWord_eq_ok_iff.1 hparity
      have hword : word ∈ ["none", "odd", "even"] := List.mem_map_of_mem (f := Prod.fst) hword
      cases hstop : StopBits.ofCount args.stopBits with
      | error e' =>
        rw [hdata, hparity, hstop] at h
        cases h
        obtain ⟨hinvalid, rfl⟩ := StopBits.of_ofCount_eq_error hstop
        exact .stopBits hcount ⟨word, hword, hspells⟩ hinvalid
      | ok stopBits =>
        rw [hdata, hparity, hstop] at h
        cases h

end Program

end Xmodem
