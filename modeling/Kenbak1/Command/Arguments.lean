/-
  Kenbak1.Command.Arguments

  The command line: a command, its options in any order, and the file of a program. The
  value of an option is its own argument or is joined to it: `-i 7`, `-i7`, `--input 7` and
  `--input=7` say the same. After `--` nothing is an option. What is wrong with a command line
  is reported in colours, of which only the plain text is left outside of a terminal.
-/
import Kenbak1.Numeral
import Kenbak1.Screen.Escape
import Kenbak1.Screen.Plain

namespace Kenbak1

/-! ## Commands -/

/-- The number of instructions after which a run is given up unless the command line says
    otherwise. -/
def defaultLimit : Nat := 10000

/-- How a program is run. -/
structure RunOptions where
  program : String
  /-- The number of instructions after which the run is given up. -/
  limit : Nat := defaultLimit
  /-- Every instruction is printed. -/
  trace : Bool := false
  config : Option String := none
  /-- The byte in the input register at the start. -/
  input : Option UInt8 := none
  deriving DecidableEq

/-- A command. -/
inductive Command where
  /-- Say what the program is. -/
  | banner
  /-- List the commands. -/
  | help
  /-- Run a program until it halts. -/
  | run (options : RunOptions)
  /-- Open the console on a program. -/
  | panel (program : String) (config : Option String)
  /-- List a program. -/
  | disassemble (program : String)
  | selfTest
  deriving DecidableEq

namespace Command

/-! ## Options -/

/-- An option of a command. -/
inductive Flag where
  | limit
  | trace
  | config
  | input
  deriving DecidableEq

namespace Flag

/-- The long name. -/
def long : Flag → String
  | .limit => "--max-instructions"
  | .trace => "--trace"
  | .config => "--config"
  | .input => "--input"

/-- The letter of the short name. -/
def short : Flag → Char
  | .limit => 'm'
  | .trace => 't'
  | .config => 'c'
  | .input => 'i'

/-- What stands for the value in messages; an option without it has no value. -/
def value? : Flag → Option String
  | .limit => some "<MAX_INSTRUCTIONS>"
  | .trace => none
  | .config => some "<CONFIG>"
  | .input => some "<INPUT>"

/-- The option in messages. -/
def display (s : Flag) : String :=
  match s.value? with
  | some value => s.long ++ " " ++ value
  | none => s.long

end Flag

/-- The report of a text that is no count. -/
def countFaultMessage : DecimalFault → String
  | .empty => "cannot parse integer from empty string"
  | .notADigit => "invalid digit found in string"
  | .tooLarge => "number too large to fit in target type"

/-- Why a command line is refused. -/
inductive UsageError where
  | unknownCommand (name : String)
  | unexpected (argument : String)
  | valueMissing (flag : Flag)
  | repeated (flag : Flag)
  | programMissing
  /-- The name of the program is empty. -/
  | programEmpty
  | badInput (text : String)
  | badLimit (text : String) (fault : DecimalFault)
  deriving DecidableEq

namespace UsageError

/-- The program in messages. -/
def programName : String := "<PROGRAM>"

/-- A word that is to be typed as it stands. -/
def literal (text : String) : String :=
  marked { bold := true } text

/-- A word that was typed and is wrong. -/
def wrong (text : String) : String :=
  marked (.plain .yellow) text

/-- A word that would be right. -/
def right (text : String) : String :=
  marked (.plain .green) text

/-- A value that is needed and was not given. -/
def noValue (name : String) : String :=
  "a value is required for '" ++ literal name ++ "' but none was supplied"

/-- An option whose value cannot be read. -/
def badValue (flag : Flag) (text reason : String) : String :=
  "invalid value '" ++ wrong text ++ "' for '" ++ literal flag.display ++ "': " ++ reason

/-- What is wrong. -/
def reason : UsageError → String
  | .unknownCommand name => "unrecognized subcommand '" ++ wrong name ++ "'"
  | .unexpected argument => "unexpected argument '" ++ wrong argument ++ "' found"
  | .valueMissing flag => noValue flag.display
  | .programEmpty => noValue programName
  | .repeated flag =>
      "the argument '" ++ wrong flag.display ++ "' cannot be used multiple times"
  | .programMissing =>
      "the following required arguments were not provided:\n  " ++ right programName
  | .badInput text =>
      badValue .input text ("'" ++ text ++ "' is not an octal byte (000-377)")
  | .badLimit text fault => badValue .limit text (countFaultMessage fault)

/-- The report of a refused command line in colours. -/
def colored (e : UsageError) : String :=
  marked (.strong .red) "error:" ++ " " ++ e.reason ++ "\n\nFor more information, try '"
    ++ literal "--help" ++ "'.\n"

/-- The report of a refused command line. -/
def message (e : UsageError) : String :=
  plain e.colored

end UsageError

/-! ## Dividing the command line -/

/-- A part of a command line. -/
inductive Argument where
  /-- An option with its value, which is empty for an option without one. -/
  | flag (flag : Flag) (value : String)
  /-- An argument that belongs to no option. -/
  | place (text : String)
  deriving DecidableEq

namespace Argument

/-- Options without a value, and possibly one option whose value is the next argument. -/
abbrev Opened := List Argument × Option Flag

/-- Reads the letters after a single hyphen. -/
def ofLetters (allowed : List Flag) : List Char → Except UsageError Opened
  | [] => .ok ([], none)
  | letter :: rest =>
    match allowed.find? (·.short = letter) with
    | none => .error (.unexpected (String.ofList ['-', letter]))
    | some s =>
      if s.value?.isSome then
        match rest with
        | [] => .ok ([], some s)
        | '=' :: value => .ok ([.flag s (String.ofList value)], none)
        | value => .ok ([.flag s (String.ofList value)], none)
      else do
        let others ← ofLetters allowed rest
        return (.flag s "" :: others.1, others.2)

/-- Reads an argument that begins with two hyphens. -/
def ofLong (allowed : List Flag) (text : List Char) : Except UsageError Opened :=
  let name := String.ofList (text.takeWhile (· ≠ '='))
  match allowed.find? (·.long = name), text.dropWhile (· ≠ '=') with
  | none, _ => .error (.unexpected name)
  | some s, [] => .ok (if s.value?.isSome then ([], some s) else ([.flag s ""], none))
  | some s, _ :: value =>
    if s.value?.isSome then .ok ([.flag s (String.ofList value)], none)
    else .error (.unexpected (String.ofList value))

/-- Reads an argument that is no value. A lone hyphen is no option. -/
def ofText (allowed : List Flag) (text : String) : Except UsageError Opened :=
  match text.toList with
  | '-' :: '-' :: _ => ofLong allowed text.toList
  | '-' :: letter :: letters => ofLetters allowed (letter :: letters)
  | _ => .ok ([.place text], none)

/-- An argument that looks like an option is no value of another. -/
def isHyphenated (text : String) : Bool :=
  match text.toList with
  | '-' :: _ :: _ => true
  | _ => false

/-- The arguments of a command up to the first that cannot be told apart, and what is wrong
    with that one. -/
structure Divided where
  arguments : List Argument := []
  error : Option UsageError := none

/-- More arguments in front. -/
def Divided.after (front : List Argument) (divided : Divided) : Divided :=
  { divided with arguments := front ++ divided.arguments }

/-- Divides the arguments of a command; `opened` is the option that waits for its value. -/
def divide (allowed : List Flag) : (opened : Option Flag) → List String → Divided
  | none, [] => {}
  | some s, [] => { error := some (.valueMissing s) }
  | some s, text :: rest =>
    if isHyphenated text then { error := some (.unexpected text) }
    else (divide allowed none rest).after [.flag s text]
  | none, text :: rest =>
    if text = "--" then { arguments := rest.map .place }
    else
      match ofText allowed text with
      | .ok (front, opened) => (divide allowed opened rest).after front
      | .error e => { error := some e }

end Argument

/-! ## Values -/

/-- The largest count. -/
def maxCount : Nat := UInt64.size - 1

/-- What the options of a command line say. -/
structure Given where
  program : Option String := none
  limit : Option Nat := none
  trace : Bool := false
  config : Option String := none
  input : Option UInt8 := none

namespace Given

/-- Takes one more argument into account. -/
def add (given : Given) : Argument → Except UsageError Given
  | .place text =>
    match given.program with
    | none => if text = "" then .error .programEmpty else .ok { given with program := some text }
    | some _ => .error (.unexpected text)
  | .flag .limit text =>
    match given.limit, readDecimal maxCount text.toList with
    | some _, _ => .error (.repeated .limit)
    | none, .ok n => .ok { given with limit := some n }
    | none, .error fault => .error (.badLimit text fault)
  | .flag .trace _ =>
    if given.trace then .error (.repeated .trace) else .ok { given with trace := true }
  | .flag .config text =>
    match given.config with
    | none =>
      if text = "" then .error (.valueMissing .config) else .ok { given with config := some text }
    | some _ => .error (.repeated .config)
  | .flag .input text =>
    match given.input, readOctal text.toList with
    | some _, _ => .error (.repeated .input)
    | none, .ok value => .ok { given with input := some value }
    | none, .error _ => .error (.badInput text)

/-- Reads the arguments of a command that needs a program. Of several faults the first in the
    order of the arguments is reported, a missing program last. -/
def read (allowed : List Flag) (texts : List String) : Except UsageError (String × Given) := do
  let divided := Argument.divide allowed none texts
  let given ← divided.arguments.foldlM add {}
  match divided.error, given.program with
  | some e, _ => .error e
  | none, some program => .ok (program, given)
  | none, none => .error .programMissing

end Given

/-! ## Reading a command line -/

/-- The files a command reads. -/
def paths : Command → List String
  | .run options => options.config.toList ++ [options.program]
  | .panel program config => config.toList ++ [program]
  | .disassemble program => [program]
  | _ => []

/-- Reads the arguments of a command that takes none. -/
def readNothing (command : Command) : List String → Except UsageError Command
  | [] | ["--"] => .ok command
  | "--" :: text :: _ => .error (.unexpected text)
  | text :: _ => .error (.unexpected text)

/-- Reads a command line. -/
def parse : List String → Except UsageError Command
  | [] => .ok .banner
  | "--" :: rest => readNothing .banner ("--" :: rest)
  | "run" :: rest => do
    let (program, given) ← Given.read [.limit, .trace, .config, .input] rest
    return .run
      { program
        limit := given.limit.getD defaultLimit
        trace := given.trace
        config := given.config
        input := given.input }
  | "panel" :: rest => do
    let (program, given) ← Given.read [.config] rest
    return .panel program given.config
  | "disasm" :: rest => do
    let (program, _) ← Given.read [] rest
    return .disassemble program
  | "test" :: rest => readNothing .selfTest rest
  | ["help"] | ["--help"] | ["-h"] => .ok .help
  | text :: _ =>
    .error (if Argument.isHyphenated text then .unexpected text else .unknownCommand text)

end Command

end Kenbak1
