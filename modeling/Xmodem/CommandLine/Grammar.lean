import Xmodem.CommandLine.UsageError

/-!
# Reading options

A command line has levels: options of the program, then the name of a command, then options of the
command. A `Grammar` describes the options of one level, and `Grammar.scan` reads the words of a
level from left to right.

An option that takes a value may have it in the same word, or it is the next word that does not
look like an option. Such an option is *pending* until another option is met or the level ends:
only then are its presence, its uniqueness and its value checked. A word that is not understood
ends the reading at once, so its error comes before those of an option that is still pending.
-/

namespace Xmodem.CommandLine

inductive Word where
  /-- Two dashes alone: no options follow. -/
  | terminator
  /-- Two dashes and a name, and a value if an equals sign follows. -/
  | long (name : String) (value : Option String)
  /-- A dash and letters, each an option; what follows an option that takes a value is its value. -/
  | letters (cs : List Char)
  | plain
  deriving DecidableEq, Repr

def splitValue (cs : List Char) : String × Option String :=
  match cs.dropWhile (· ≠ '=') with
  | [] => (String.ofList cs, none)
  | _ :: value => (String.ofList (cs.takeWhile (· ≠ '=')), some (String.ofList value))

def Word.ofString (word : String) : Word :=
  match word.toList with
  | ['-', '-'] => .terminator
  | '-' :: '-' :: cs =>
    let (name, value) := splitValue cs
    .long name value
  | '-' :: c :: cs => .letters (c :: cs)
  | _ => .plain

/-- The options of a level, named by `ι`, which fill in a record of type `α`. -/
structure Grammar (ι α : Type) where
  long : String → Option ι
  short : Char → Option ι
  takesValue : ι → Bool
  name : ι → String
  /-- Fills in the value of an option, which is empty for one that takes none. -/
  set : ι → String → α → Except UsageError α

/-- An option that takes a value, and the value if it has come. -/
structure Pending (ι : Type) where
  option : ι
  value : Option String

/-- How far a level has been read: what the options have filled in, which of them were given, and
the one that is not checked yet. -/
structure Reading (ι α : Type) where
  record : α
  given : List ι := []
  pending : Option (Pending ι) := none

/-- How reading a level ends: with the words, or at the name of a command. -/
structure Scan (ι α : Type) where
  reading : Reading ι α
  /-- The words behind the name of a command, if there is one. -/
  command : Option (List String)

namespace Grammar

variable {ι α : Type} [DecidableEq ι] (g : Grammar ι α)

/-- Takes an option with its value; each may be given once. -/
def accept (r : Reading ι α) (option : ι) (value : String) : Except UsageError (Reading ι α) :=
  if option ∈ r.given then .error (.repeated (g.name option))
  else do
    let record ← g.set option value r.record
    return { record, given := option :: r.given }

def settle (r : Reading ι α) : Except UsageError (Reading ι α) :=
  match r.pending with
  | none => .ok r
  | some ⟨option, none⟩ => .error (.noValue (g.name option))
  | some ⟨option, some value⟩ => g.accept { r with pending := none } option value

def readLetters (r : Reading ι α) (word : String) : List Char → Except UsageError (Reading ι α)
  | [] => .ok r
  | c :: cs =>
    match g.short c with
    | none => .error (.unknownOption word)
    | some option => do
      let r ← g.settle r
      if g.takesValue option then
        match cs with
        | [] => return { r with pending := some ⟨option, none⟩ }
        | '=' :: value => g.accept r option (String.ofList value)
        | value => g.accept r option (String.ofList value)
      else
        readLetters (← g.accept r option "") word cs

def readLong (r : Reading ι α) (word name : String) (value : Option String) :
    Except UsageError (Reading ι α) :=
  match g.long name with
  | none => .error (.unknownOption word)
  | some option =>
    if g.takesValue option then do
      let r ← g.settle r
      match value with
      | none => return { r with pending := some ⟨option, none⟩ }
      | some value => g.accept r option value
    else
      match value with
      | none => do g.accept (← g.settle r) option ""
      | some value => .error (.needlessValue (g.name option) value)

/-- Reads the words of a level. `isCommand` tells the names of commands, and `stray` gives the
error for a plain word that is neither a value nor a command; it is told whether two dashes have
ended the options, and then no word is a command. -/
def scan (isCommand : String → Bool) (stray : Bool → String → UsageError) (ended : Bool)
    (r : Reading ι α) : List String → Except UsageError (Scan ι α)
  | [] => .ok ⟨r, none⟩
  | word :: words =>
    if ended then .error (stray true word)
    else
      match Word.ofString word with
      | .terminator => scan isCommand stray true r words
      | .long name value => do
        scan isCommand stray false (← g.readLong r word name value) words
      | .letters cs => do
        scan isCommand stray false (← g.readLetters r word cs) words
      | .plain =>
        match r.pending with
        | some ⟨option, none⟩ =>
          scan isCommand stray false { r with pending := some ⟨option, some word⟩ } words
        | _ =>
          if isCommand word then .ok ⟨r, some words⟩ else .error (stray false word)

end Grammar

end Xmodem.CommandLine
