/-
  Kenbak1.Command

  What each command does with the files it names. All commands but the console's end by
  themselves; that one hands over a console to be operated.
-/
import Kenbak1.Command.Run
import Kenbak1.Command.SelfTest
import Kenbak1.Console
import Kenbak1.Image.File

namespace Kenbak1
namespace Command

/-- What a command has printed, and its exit code. -/
structure Report where
  code : UInt8 := 0
  output : String := ""
  /-- What went to the error output. -/
  complaint : String := ""
  deriving DecidableEq

/-- What a command comes to. -/
inductive Performance where
  /-- It has ended. -/
  | ended (report : Report)
  /-- It has printed something, and a console is to be operated. -/
  | operated (output : String) (console : Console)

/-! ## Loading -/

/-- Reads the configuration a command names. -/
def loadConfig (files : Files) (path : Option String) : Except String Config :=
  match Config.loadOrDefault files path with
  | .ok config => .ok config
  | .error e => .error ("❌ Failed to load configuration: " ++ e.message ++ "\n")

/-- Reads the program a command names. -/
def loadProgram (files : Files) (path : String) (origin : UInt8) : Except String Image :=
  match Image.load files path origin with
  | .ok image => .ok image
  | .error e => .error ("❌ Failed to load " ++ path ++ ": " ++ e.message ++ "\n")

/-! ## Commands -/

/-- What the program is. -/
def bannerText : String :=
  "Kenbak-1 Emulator v0.1.0\n256 bytes, eight lamps, fifteen buttons\n\n"
    ++ "Use --help for available commands\n"

/-- The commands. -/
def helpText : String :=
  "Commands:\n"
    ++ "  run <PROGRAM> [-m COUNT] [-t] [-c CONFIG] [-i OCTAL]\n"
    ++ "  panel <PROGRAM> [-c CONFIG]\n"
    ++ "  disasm <PROGRAM>\n"
    ++ "  test\n"

/-- The exit code of a program that breaks off. -/
def brokenCode : UInt8 := 101

/-- Runs a program. The configuration is read before anything is printed. -/
def performRun (files : Files) (options : RunOptions) : Report :=
  match loadConfig files options.config with
  | .error complaint => { code := 1, complaint }
  | .ok config =>
    let heading := "🔧 Running: " ++ options.program ++ "\n"
    match loadProgram files options.program config.loadAddress with
    | .error complaint => { code := 1, output := heading, complaint }
    | .ok image =>
      match Run.tryOutcome image config options with
      | .ok outcome => { output := heading ++ Run.report outcome options.limit }
      | .error failure =>
        { code := brokenCode
          output := heading ++ Run.executionText (Run.brokenRows image config options failure)
          complaint := failure.overflow.message ++ "\n" }

/-- Opens the console on a program. -/
def performPanel (files : Files) (program : String) (config : Option String) : Performance :=
  match loadConfig files config with
  | .error complaint => .ended { code := 1, complaint }
  | .ok config =>
    match loadProgram files program config.loadAddress with
    | .error complaint => .ended { code := 1, complaint }
    | .ok image => .operated "🚀 Launching front panel...\n" (.new image config)

/-- Where a program without addresses is listed. -/
def listingOrigin : UInt8 := 0o004

/-- Lists a program. -/
def performDisassemble (files : Files) (program : String) : Report :=
  let heading := "📖 Disassembling: " ++ program ++ "\n\n"
  match loadProgram files program listingOrigin with
  | .error complaint => { code := 1, output := heading, complaint }
  | .ok image => { output := heading ++ listing (image.apply Memory.zero.cells) ++ "\n" }

/-- Carries out a command. -/
def perform (files : Files) : Command → Performance
  | .banner => .ended { output := bannerText }
  | .help => .ended { output := helpText }
  | .run options => .ended (performRun files options)
  | .panel program config => performPanel files program config
  | .disassemble program => .ended (performDisassemble files program)
  | .selfTest =>
      .ended { code := if SelfTest.succeeds then 0 else 1, output := SelfTest.report }

/-- The report of a refused command line. -/
def refusal (e : UsageError) : Report :=
  { code := 2, complaint := e.message }

/-- Carries out a command line. -/
def performLine (files : Files) (arguments : List String) : Performance :=
  match parse arguments with
  | .ok command => command.perform files
  | .error e => .ended (refusal e)

/-- The report of a console that cannot be operated, after what was printed before. -/
def noTerminal (output : String) : Report :=
  { code := 1
    output
    complaint := "❌ Front panel error: No such device or address (os error 6)\n" }

end Command
end Kenbak1
