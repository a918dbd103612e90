import Lisplet.CommandLine.Arguments
import Lisplet.Repl

namespace Lisplet

namespace CommandLine

def usage : String := "usage: dotlisp [-h] [-e EXPRS] [--log-level LOG_LEVEL] [files ...]\n"

def help : String :=
  usage ++ "\n" ++
    "DotLisp interpreter\n\n" ++
    "positional arguments:\n" ++
    "  files                 source files to load, in order\n\n" ++
    "options:\n" ++
    "  -h, --help            show this help message and exit\n" ++
    "  -e EXPRS, --eval EXPRS\n" ++
    "                        evaluate EXPR and print the result (may be repeated)\n" ++
    "  --log-level LOG_LEVEL\n" ++
    "                        override DOTLISP_LOG_LEVEL\n"

-- What a run wrote and how it ended: with an exit code, or with a failure that nothing handled.
structure Outcome where
  output : String
  complaint : String
  result : Except Failure Nat

-- A program that has been set up, with the level from which records are shown.
structure Setup where
  arguments : Arguments
  level : LogLevel
  interpreter : Interpreter

-- An empty level on the command line is as good as none.
def levelName (host : Host) (arguments : Arguments) : String :=
  (arguments.level.filter fun name => name ≠ "").getD host.logLevel

def setUp (host : Host) (arguments : Arguments) : Except Failure Setup :=
  let name := levelName host arguments
  match LogLevel.ofName? name with
  | none => .error (.unknownLevel name)
  | some level => do return ⟨arguments, level, ← Interpreter.ofHost host⟩

-- The records that are shown, one to a line.
def shownLog (level : LogLevel) (log : List LogRecord) : String :=
  String.join ((logAtLeast level log).map fun record =>
    "LOG " ++ record.level.name ++ " " ++ record.message ++ "\n")

def runFiles (interpreter : Interpreter) (host : Host) : List String → ConsoleM Unit
  | [] => return
  | file :: rest => do
    match ← Repl.attempt (interpreter.load host file) with
    | .ok _ => runFiles interpreter host rest
    | .error failure => throw failure

-- The value of each text is printed, if it has one.
def runTexts (interpreter : Interpreter) : List (Option String) → ConsoleM Unit
  | [] => return
  | none :: _ => throw .missingText
  | some text :: rest => do
    match ← Repl.attempt (interpreter.evalText text) with
    | .ok (some value) =>
      Repl.printValue value
      runTexts interpreter rest
    | .ok none => runTexts interpreter rest
    | .error failure => throw failure

-- Errors of the language and missing sources are handled. All others are not.
def isHandled : Failure → Bool
  | .read _ | .eval _ | .missingSource _ => true
  | _ => false

def outcome (setup : Setup) (result : Except Failure Unit) (console : Console) : Outcome :=
  let log := shownLog setup.level console.machine.log
  match result with
  | .ok () => ⟨console.output, log, .ok 0⟩
  | .error failure =>
    if isHandled failure then
      ⟨console.output, log ++ "error: " ++ failure.message ++ "\n", .ok 1⟩
    else ⟨console.output, log, .error failure⟩

-- Without files and texts there is a dialogue.
def isDialogue (arguments : Arguments) : Bool :=
  arguments.files.isEmpty && arguments.exprs.isEmpty

def runBatch (host : Host) (setup : Setup) : ConsoleM Unit := do
  runFiles setup.interpreter host setup.arguments.files
  runTexts setup.interpreter setup.arguments.exprs

-- What there is to run, or how the run ended before it began.
def prepare (host : Host) (words : List String) : Except Outcome Setup :=
  match Arguments.ofWords words with
  | .error .help => .error ⟨help, "", .ok 0⟩
  | .error (.usage error) =>
    .error ⟨"", usage ++ "dotlisp: error: " ++ error.message ++ "\n", .ok 2⟩
  | .ok arguments =>
    match setUp host arguments with
    | .error failure => .error ⟨"", "", .error failure⟩
    | .ok setup => .ok setup

-- Runs an action on a fresh machine and shows what came of it.
def execute (setup : Setup) (action : ConsoleM Unit) : Outcome :=
  let (result, console) := action.run.run ⟨.start, ""⟩
  outcome setup result console

def run (host : Host) (words : List String) (lines : List (List Char)) : Outcome :=
  match prepare host words with
  | .error outcome => outcome
  | .ok setup =>
    execute setup <|
      if isDialogue setup.arguments then Repl.run setup.interpreter Repl.defaultPrompt lines
      else runBatch host setup

end CommandLine

end Lisplet
