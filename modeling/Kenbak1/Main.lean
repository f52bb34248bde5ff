/-
  Kenbak1.Main

  The command line program. It reads the files that a command names, prints what the command
  printed, and lets the console be operated at a terminal that sends every character at once.
-/
import Kenbak1.Command
import Kenbak1.Console.Stroke
import Kenbak1.Console.View
import Kenbak1.Screen.Escape

namespace Kenbak1
namespace Program

/-- The number of the system error that a path leads through a file. -/
def notADirectory : UInt32 := 20

/-- The fault of a system error. Its number is given as it is or negated. -/
def faultOf : IO.Error → FileFault
  | .noFileOrDirectory .. => .notFound
  | .permissionDenied .. => .denied
  | .inappropriateType _ code _ =>
    if code = notADirectory ∨ code = -notADirectory then .notADirectory else .isADirectory
  | e => .other (toString e)

/-- Reads the file at a path. -/
def readFile (path : String) : IO (Except FileFault (List UInt8)) := do
  try
    let bytes ← IO.FS.readBinFile path
    return .ok bytes.toList
  catch e => return .error (faultOf e)

/-- Reads the files at some paths. -/
def readFiles (paths : List String) : IO Files := do
  let contents ← paths.mapM fun path => do return (path, ← readFile path)
  return fun path => (contents.lookup path).getD (.error .notFound)

/-- Prints a report and returns its exit code. -/
def emit (report : Command.Report) : IO UInt32 := do
  IO.print report.output
  IO.eprint report.complaint
  return report.code.toUInt32

/-- The size of the screen. -/
def screenSize : Nat × Nat := (80, 24)

/-- Shows the console. -/
def display (console : Console) (output : IO.FS.Stream) : IO Unit := do
  output.putStr (screenSequences (console.draw screenSize.1 screenSize.2))
  output.flush

/-- Takes strokes from the keyboard until one quits or the input ends, or until a counter
    overflows, which is returned. -/
partial def operate (console : Console) (pending : Stroke.Pending) (input output : IO.FS.Stream) :
    IO (Option Machine.Overflow) := do
  display console output
  let bytes ← input.read 1
  match bytes.toList with
  | [] => return none
  | byte :: _ =>
    let next := pending.feed byte
    match next.2 with
    | none => operate console next.1 input output
    | some (some .quit) => return none
    | some key =>
      match console.tryTurn key with
      | .ok after => operate after next.1 input output
      | .error failure => return some failure.overflow

/-- Lets the console be operated at a terminal. -/
def interact (before : String) (console : Console) : IO UInt32 := do
  let input ← IO.getStdin
  let output ← IO.getStdout
  if ← input.isTty then
    output.putStr (before ++ enterScreen)
    match ← operate console .idle input output with
    | none =>
      output.putStr leaveScreen
      output.flush
      return 0
    | some overflow =>
      emit { code := Command.brokenCode, complaint := overflow.message ++ "\n" }
  else emit (Command.noTerminal before)

/-- Carries out a command line. -/
def run (arguments : List String) : IO UInt32 := do
  match Command.parse arguments with
  | .error e => emit (Command.refusal e)
  | .ok command =>
    match command.perform (← readFiles command.paths) with
    | .ended report => emit report
    | .operated before console => interact before console

end Program
end Kenbak1

/-- The entry of the program. -/
def main (arguments : List String) : IO UInt32 :=
  Kenbak1.Program.run arguments
