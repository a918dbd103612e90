import Lisplet.Interpreter

namespace Lisplet

-- A machine with a screen, which shows everything printed so far.
structure Console where
  machine : Machine
  output : String

abbrev ConsoleM (α : Type) : Type := ExceptT Failure (StateM Console) α

namespace Repl

def defaultPrompt : String := "dotlisp> "

def print (text : String) : ConsoleM Unit :=
  modify fun console => { console with output := console.output ++ text }

-- Runs a computation and takes its failure for a result.
def attempt (action : EvalM α) : ConsoleM (Except Failure α) := do
  let console ← get
  let (result, machine) := action.run.run console.machine
  set { console with machine := machine }
  return result

-- Errors of the language are logged and printed. Any other failure ends the loop.
def report (failure : Failure) : ConsoleM Unit :=
  match failure.languageKind? with
  | none => throw failure
  | some kind => do
    let record := "repl.error type=" ++ kind ++ " message=" ++ failure.message
    let _ ← attempt (EvalM.write .debug record)
    print ("error: " ++ failure.message ++ "\n")

def printValue (value : Expr) : ConsoleM Unit :=
  if value.printable then print (value.render ++ "\n") else throw .digitLimit

-- Evaluates each form that ends on this line and keeps what is begun. A syntax error drops
-- the rest of the line, an evaluation error drops nothing.
def takeForms (interpreter : Interpreter) (stack : List Opening) (line : List Char) :
    ConsoleM (List Opening) :=
  match _h : Input.advance .quotes stack line with
  | .form e rest => do
    match ← attempt (interpreter.evalForm e) with
    | .ok value => printValue value
    | .error failure => report failure
    takeForms interpreter [] rest
  | .failed error _ => do
    report (.read error)
    return []
  | .starved stack => return stack
termination_by line.length
decreasing_by exact Input.advance_form_lt ‹_›

-- Each line is asked for by a prompt. An end of input inside a form is an error and not the end:
-- the loop asks once more.
def takeLines (interpreter : Interpreter) (prompt : String) (stack : List Opening) :
    List (List Char) → ConsoleM Unit
  | [] => do
    print prompt
    if !stack.isEmpty then
      report (.read (Reader.endError stack))
      print prompt
    print "\n"
  | line :: lines => do
    print prompt
    if line ≠ [] then
      takeLines interpreter prompt (← takeForms interpreter stack line) lines
    else if stack.isEmpty then print "\n"
    else
      report (.read (Reader.endError stack))
      takeLines interpreter prompt [] lines

def run (interpreter : Interpreter) (prompt : String) (lines : List (List Char)) :
    ConsoleM Unit := takeLines interpreter prompt [] lines

end Repl

end Lisplet
