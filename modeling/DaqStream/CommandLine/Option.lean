import DaqStream.Text.Pieces

/-!
# Reading options

Options begin with two dashes. Some take a value, which follows an equals sign or is the next
argument; an argument that begins with a dash is no value, unless it is a single dash. Options
are read from left to right, and the first thing that is wrong decides.
-/

namespace DaqStream.CommandLine

/-- An option. -/
structure OptionSpec where
  name : String
  /-- What its value is called; without a name it takes no value. -/
  valueName : Option String := none
  /-- What it is for. -/
  about : String
  /-- Whether a text can be its value. -/
  accepts : String → Bool := fun _ => true
  /-- Whether it may be given more than once. -/
  repeatable : Bool := false

/-- Why arguments cannot be used. -/
inductive UsageError where
  | unexpected (argument : String)
  | missingValue (option : String)
  | uselessValue (option : String)
  | badValue (option value : String)
  | repeated (option : String)
  | missingCommand
  | unknownCommand (name : String)
  deriving DecidableEq, Repr

namespace UsageError

/-- What is said about an error. -/
def message : UsageError → String
  | unexpected argument => s!"unexpected argument '{argument}' found"
  | missingValue option => s!"a value is required for '--{option}' but none was supplied"
  | uselessValue option => s!"unexpected value for '--{option}' found; no more were expected"
  | badValue option value => s!"invalid value '{value}' for '--{option}'"
  | repeated option => s!"the argument '--{option}' cannot be used multiple times"
  | missingCommand => "a command is required"
  | unknownCommand name => s!"unrecognized subcommand '{name}'"

end UsageError

/-- Why the reading of arguments ends early. -/
inductive Interruption where
  /-- Help is asked for. -/
  | help
  | misuse (error : UsageError)
  deriving DecidableEq, Repr

/-- Options that were given, in order, with their values; a flag has an empty one. -/
abbrev Given := List (String × String)

namespace Given

/-- The value of an option that was given. -/
def value? (given : Given) (name : String) : Option String := given.lookup name

/-- All values of an option, in order. -/
def values (given : Given) (name : String) : List String :=
  (given.filter fun g => g.1 = name).map Prod.snd

/-- Add an option, if it can be given now and its value can be used. -/
def add (given : Given) (spec : OptionSpec) (value : String) : Except Interruption Given :=
  if !spec.accepts value then .error (.misuse (.badValue spec.name value))
  else if !spec.repeatable && (given.value? spec.name).isSome then
    .error (.misuse (.repeated spec.name))
  else .ok (given ++ [(spec.name, value)])

end Given

/-- An argument, by its form. -/
inductive Argument where
  /-- Two dashes: no options follow. -/
  | separator
  /-- An option with the value that is joined to it, if there is one. -/
  | long (name : String) (joined : Option String)
  /-- A single dash with letters. -/
  | short (letters : List Char)
  | plain
  deriving DecidableEq, Repr

namespace Argument

/-- The form of an argument. -/
def ofText (text : String) : Argument :=
  match text.toList with
  | ['-', '-'] => separator
  | '-' :: '-' :: cs =>
    match cs.dropWhile (· ≠ '=') with
    | [] => long (String.ofList cs) none
    | _ :: value => long (String.ofList (cs.takeWhile (· ≠ '='))) (some (String.ofList value))
  | '-' :: c :: cs => short (c :: cs)
  | _ => plain

end Argument

/-- Read options up to the first plain argument. Gives the options and the arguments from
    that one on. -/
def readOptions (specs : List OptionSpec) (given : Given) :
    List String → Except Interruption (Given × List String)
  | [] => .ok (given, [])
  | text :: rest =>
    match Argument.ofText text with
    | .plain => .ok (given, text :: rest)
    | .separator =>
      match rest with
      | [] => .ok (given, [])
      | next :: _ => .error (.misuse (.unexpected next))
    | .short letters =>
      if letters.head? = some 'h' then .error .help else .error (.misuse (.unexpected text))
    | .long name joined =>
      match specs.find? fun spec => spec.name = name with
      | none =>
        if name ≠ "help" then .error (.misuse (.unexpected text))
        else if joined.isSome then .error (.misuse (.uselessValue name))
        else .error .help
      | some spec =>
        match spec.valueName, joined with
        | none, none => do readOptions specs (← given.add spec "") rest
        | none, some _ => .error (.misuse (.uselessValue name))
        | some _, some value => do readOptions specs (← given.add spec value) rest
        | some _, none =>
          match rest with
          | [] => .error (.misuse (.missingValue name))
          | value :: rest =>
            if Argument.ofText value = .plain then do
              readOptions specs (← given.add spec value) rest
            else .error (.misuse (.missingValue name))

end DaqStream.CommandLine
