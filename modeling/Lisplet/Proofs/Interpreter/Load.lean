import Lisplet.Host.FileTree
import Lisplet.Proofs.Interpreter.Sequence
import Lisplet.Proofs.Reader.LineEnds
import Lisplet.Proofs.Text.Utf8

namespace Lisplet

open SourceFile

-- The lines of a file are those of its text once every line end is a newline.
theorem SourceFile.ofBytes_toUTF8 (text : String) :
    ofBytes text.toUTF8 = ⟨Input.splitLines (universalNewlines text.toList), none⟩ := by
  rw [ofBytes, Utf8.decode_toUTF8]

namespace Interpreter

variable {text : String}

-- A file comes to the program that its text is.
theorem evalInput_universalNewlines (interpreter : Interpreter)
    (hreturns : ReturnsEndLines text.toList) :
    evalInput interpreter none
      (Input.ofLines (Input.splitLines (universalNewlines text.toList))) none =
        interpreter.evalText text := by
  have hlines : (Input.splitLines (universalNewlines text.toList)).map Input.lineItems =
      (Input.splitLines text.toList).map Input.lineItems :=
    Input.map_lineItems_universalNewlines hreturns [] List.not_mem_nil
  have hfile := Input.holds_splitLines (universalNewlines text.toList)
  rw [hlines] at hfile
  rw [evalText, evalInput_eq, evalInput_eq,
    Input.sequence_congr hfile (Input.holds_ofText text)]

theorem evalForms_ignoresLog (interpreter : Interpreter) (forms : List Expr) (last : Option Expr) :
    (interpreter.evalForms forms last).IgnoresLog := by
  induction forms generalizing last with
  | nil => exact fun _ _ => rfl
  | cons e forms ih => exact (interpreter.evalForm_ignoresLog e).bind fun value => ih (some value)

theorem finish_ignoresLog (fault : Option DecodeError) (error? : Option ReadError)
    (last : Option Expr) : (finish fault error? last).IgnoresLog := by
  cases error? <;> cases fault <;> exact fun _ _ => rfl

theorem evalInput_ignoresLog (interpreter : Interpreter) (fault : Option DecodeError)
    (input : Input) (last : Option Expr) :
    (evalInput interpreter fault input last).IgnoresLog := by
  rw [evalInput_eq]
  exact (interpreter.evalForms_ignoresLog _ last).bind fun last => finish_ignoresLog fault _ last

-- Loading a file is evaluating its text, but for what is logged.
theorem load_eq_evalText (interpreter : Interpreter) (machine : Machine) {host : Host}
    {name : String} {path : Path}
    (hresolve : host.resolve? name = .ok (some (path, text.toUTF8)))
    (hreturns : ReturnsEndLines text.toList) :
    let evaluated := (interpreter.evalText text).on machine
    let loaded := (interpreter.load host name).on machine
    loaded.1 = evaluated.1 ∧ evaluated.2.SameButLog loaded.2 := by
  intro evaluated loaded
  have hload : interpreter.load host name = (do
      EvalM.write .debug ("interpreter.load path=" ++ path.text)
      interpreter.evalText text) := by
    simp only [load, hresolve, ofBytes_toUTF8, interpreter.evalInput_universalNewlines hreturns]
  obtain ⟨after, hwrite, hsame⟩ : ∃ after, (EvalM.write .debug
      ("interpreter.load path=" ++ path.text)).on machine = (.ok (), after) ∧
        machine.SameButLog after := ⟨_, rfl, rfl, rfl⟩
  have hloaded : loaded = (interpreter.evalText text).on after := by
    simp only [loaded, hload, ExceptT.on_bind_of_ok hwrite]
  rw [hloaded]
  exact (interpreter.evalInput_ignoresLog none _ none).on hsame

-- Returns after a comment, a symbol, and a backslash in a string that has no end.
theorem load_eq_evalText_with_returns :
    let text := "(def x (quote (é))) ; é\r\nx\r\n\"é\\\r\n"
    let host : Host := ⟨[], (FileTree.mk [(["lib", "e.lisp"], some text.toUTF8)]).contents?⟩
    let evaluated := (evalText ⟨50, 0⟩ text).on .start
    let loaded := (load ⟨50, 0⟩ host "lib/./e.lisp").on .start
    host.resolve? "lib/./e.lisp" = .ok (some (⟨"", ["lib", "e.lisp"]⟩, text.toUTF8)) ∧
      ReturnsEndLines text.toList ∧
      (match loaded.1 with
        | .ok _ => ""
        | .error failure => failure.message) = "Unterminated string literal" ∧
      loaded.1 = evaluated.1 ∧ evaluated.2.SameButLog loaded.2 := by
  intro text host evaluated loaded
  have hresolve : host.resolve? "lib/./e.lisp" =
      .ok (some (⟨"", ["lib", "e.lisp"]⟩, text.toUTF8)) := rfl
  have hreturns : ReturnsEndLines text.toList := by decide +kernel
  exact ⟨hresolve, hreturns, by decide +kernel,
    load_eq_evalText ⟨50, 0⟩ .start hresolve hreturns⟩

end Interpreter

end Lisplet
