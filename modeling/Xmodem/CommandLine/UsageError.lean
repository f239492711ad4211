/-!
# Why a command line is not understood

Asking for help counts as one of the reasons, since it too keeps the program from its work.
-/

namespace Xmodem.CommandLine

inductive UsageError where
  /-- Help is wanted, about the command if one is named. -/
  | help (command : Option String)
  /-- Nothing was given where a command is needed. -/
  | nothing
  /-- A word that looks like an option but is none here. -/
  | unknownOption (word : String)
  /-- A word that stands where none is expected. -/
  | surplus (word : String)
  | unknownCommand (word : String)
  | noCommand
  | missing (option : String)
  | noValue (option : String)
  | badValue (option value : String)
  /-- A value for an option that takes none. -/
  | needlessValue (option value : String)
  | repeated (option : String)
  deriving DecidableEq, Repr

namespace UsageError

def message : UsageError → String
  | help _ => ""
  | nothing => "error: nothing to do"
  | unknownOption word => "error: unexpected argument '" ++ word ++ "' found"
  | surplus word => "error: unexpected argument '" ++ word ++ "' found"
  | unknownCommand word => "error: unrecognized subcommand '" ++ word ++ "'"
  | noCommand => "error: a subcommand is required"
  | missing option => "error: " ++ option ++ " must be given"
  | noValue option => "error: a value is required for " ++ option
  | badValue option value => "error: invalid value '" ++ value ++ "' for " ++ option
  | needlessValue option value => "error: unexpected value '" ++ value ++ "' for " ++ option
  | repeated option => "error: " ++ option ++ " cannot be given more than once"

end UsageError

end Xmodem.CommandLine
