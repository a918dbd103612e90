import Lisplet.CommandLine.Basic

namespace Lisplet

namespace Main

def settingNames : List String := ["DOTLISP_MAX_DEPTH", "DOTLISP_LOG_LEVEL", "DOTLISP_PATH"]

def readSettings : IO (List (String × String)) :=
  settingNames.filterMapM fun name => do
    return (← IO.getEnv name).map fun value => (name, value)

-- The code of the error for a name that is too long. Codes of system errors are negative.
def longNameCode : UInt32 := -36

def readFile (path : Path) : IO (Except Failure (Option ByteArray)) := do
  try return .ok (some (← IO.FS.readBinFile path.text))
  catch
    | .invalidArgument _ code _ =>
      return if code = longNameCode then .error (.nameTooLong path) else .ok none
    | _ => return .ok none

-- Every place where one of the words would be looked for as a source is read beforehand.
def readHost (words : List String) : IO Host := do
  let settings ← readSettings
  let places := words.flatMap (Host.places ⟨settings, fun _ => .ok none⟩)
  let files ← places.mapM fun path => return (path, ← readFile path)
  return ⟨settings, fun path => (files.lookup path).getD (.ok none)⟩

def finish (outcome : CommandLine.Outcome) : IO UInt32 := do
  IO.print outcome.output
  IO.eprint outcome.complaint
  match outcome.result with
  | .ok code => return UInt32.ofNat code
  | .error failure =>
    IO.eprintln failure.message
    return 1

def endLine (setup : CommandLine.Setup) (action : ConsoleM α) (machine : Machine) :
    IO (Except Failure α × Machine) := do
  let (result, console) := action.run.run ⟨{ machine with log := [] }, ""⟩
  IO.print console.output
  IO.eprint (CommandLine.shownLog setup.level console.machine.log)
  return (result, console.machine)

-- Asks for a line at a time until the input ends between forms.
partial def converse (setup : CommandLine.Setup) (stack : List Opening) (machine : Machine) :
    IO UInt32 := do
  IO.print Repl.defaultPrompt
  (← IO.getStdout).flush
  let line := (← (← IO.getStdin).getLine).toList
  if line = [] ∧ stack.isEmpty then
    IO.println ""
    return 0
  let action : ConsoleM (List Opening) :=
    if line = [] then do
      Repl.report (.read (Reader.endError stack))
      return []
    else Repl.takeForms setup.interpreter stack line
  let (result, machine) ← endLine setup action machine
  match result with
  | .ok stack => converse setup stack machine
  | .error failure => finish ⟨"", "", .error failure⟩

end Main

end Lisplet

open Lisplet in
def main (words : List String) : IO UInt32 := do
  let host ← Main.readHost words
  match CommandLine.prepare host words with
  | .error outcome => Main.finish outcome
  | .ok setup =>
    if CommandLine.isDialogue setup.arguments then Main.converse setup [] .start
    else Main.finish (CommandLine.execute setup (CommandLine.runBatch host setup))
