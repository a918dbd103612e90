import Lisplet.Proofs.Interpreter.Sequence
import Lisplet.Proofs.Reader.Placed
import Lisplet.Proofs.Repl.Compose

namespace Lisplet.Repl

open Input Reader

-- The turns for lines on which these forms end.
def groupTurns : List (List Expr) → List Turn
  | [] => [.prompt]
  | forms :: later => .prompt :: (forms.map .form ++ groupTurns later)

-- What is shown for such lines: for each of them the prompt and the answers to its forms, and in
-- the end one more prompt.
def transcript (interpreter : Interpreter) (prompt : String) : List (List Expr) → Machine → String
  | [], _ => prompt ++ "\n"
  | forms :: later, machine =>
    prompt ++ String.join ((interpreter.outcomes forms machine).filterMap reply) ++
      transcript interpreter prompt later (interpreter.final forms machine)

-- Each form of a line has its last token there, and what is left of the line begins the next one.
theorem lineTurns_placed {stack : List Opening} {line : List Char} {later : List Item}
    {forms : List Expr} (before : List (Nat × String)) (n : Nat)
    (hbegun : Begun .quotes (before.map Prod.snd) stack)
    (hforms : formsOf .quotes stack (lineItems line ++ later) = .ok forms) :
    ∃ now rest left, (lineTurns stack line).1 = now.map .form ∧ forms = now ++ rest ∧
      formsOf .quotes (lineTurns stack line).2 later = .ok rest ∧
      Begun .quotes (left.map Prod.snd) (lineTurns stack line).2 ∧
      ∀ tokens placed, Placed .quotes (left ++ tokens) placed →
        Placed .quotes (before ++ ((lineTokens line).map (n, ·) ++ tokens))
          (now.map (n, ·) ++ placed) := by
  have hreads := advance_reads line hbegun
  fun_induction lineTurns stack line generalizing forms before with
  | case1 stack line e rest hadvance now begun hrest ih =>
    rw [formsOf_lineItems, hadvance] at hforms
    obtain ⟨forms, hlater, rfl⟩ := exists_of_map_eq_ok hforms
    rw [hrest] at ih
    obtain ⟨now', rest', left, hnow, rfl, hformsOf, hleft, hplaced⟩ :=
      ih [] .nil hlater (advance_reads rest .nil)
    refine ⟨e :: now', rest', left, congrArg (Turn.form e :: ·) hnow, rfl, hformsOf, hleft, ?_⟩
    intro tokens placed h
    rw [hadvance] at hreads
    obtain ⟨part, token, htokens, hform⟩ := hreads
    have hfirst : Derives .quotes ((before ++ part.map (n, ·)).map Prod.snd ++ [token]) e := by
      simpa [Function.comp_def] using hform
    have hall := Placed.cons _ _ n token e _ hfirst (hplaced tokens placed h)
    simpa [htokens] using hall
  | case2 stack line error rest hadvance =>
    rw [formsOf_lineItems, hadvance] at hforms
    cases hforms
  | case3 stack line begun hadvance =>
    rw [formsOf_lineItems, hadvance] at hforms
    rw [hadvance] at hreads
    refine ⟨[], forms, before ++ (lineTokens line).map (n, ·), rfl, rfl, hforms, ?_, ?_⟩
    · simpa [Function.comp_def] using hreads
    · intro tokens placed h
      rwa [List.append_assoc] at h

theorem turns_placed {lines : List (List Char)} (hlines : ∀ line ∈ lines, line ≠ [])
    {stack : List Opening} {forms : List Expr} (before : List (Nat × String)) (n : Nat)
    (hbegun : Begun .quotes (before.map Prod.snd) stack)
    (hforms : formsOf .quotes stack (lines.flatMap lineItems) = .ok forms) :
    ∃ groups, groups.length = lines.length ∧ groups.flatten = forms ∧
      turns stack lines = groupTurns groups ∧
      Placed .quotes (before ++ numbered n (lines.map lineTokens)) (numbered n groups) := by
  induction lines generalizing stack forms before n with
  | nil =>
    cases stack with
    | nil =>
      cases hforms
      have hbefore : before = [] := List.map_eq_nil_iff.mp hbegun.eq_nil
      subst hbefore
      exact ⟨[], rfl, rfl, rfl, .nil⟩
    | cons opening stack => cases hforms
  | cons line lines ih =>
    obtain ⟨hline, hlater⟩ := List.forall_mem_cons.mp hlines
    obtain ⟨now, rest, left, hnow, rfl, hrest, hleft, hplaced⟩ :=
      lineTurns_placed before n hbegun hforms
    obtain ⟨groups, hlength, hflatten, hturns, hgroups⟩ := ih hlater left (n + 1) hleft hrest
    refine ⟨now :: groups, congrArg (· + 1) hlength, congrArg (now ++ ·) hflatten, ?_, ?_⟩
    · rw [turns, if_pos hline, groupTurns, ← hturns, ← hnow]
    · exact hplaced _ _ hgroups

-- What has been logged has no say in an answer, and neither has what is logged because of it.
theorem take_form (interpreter : Interpreter) (prompt : String) (e : Expr)
    {machine other : Machine} (hsame : machine.SameButLog other) :
    let outcome := (interpreter.evalForm e).on machine
    let answered := (Turn.form e).take interpreter prompt other
    answered.1 = reply outcome.1 ∧ outcome.2.SameButLog answered.2 := by
  intro outcome answered
  obtain ⟨hresult, hafter⟩ := (interpreter.evalForm_ignoresLog e).on hsame
  rcases hother : (interpreter.evalForm e).on other with ⟨failure | value, after⟩
  · rw [hother] at hresult hafter
    have hanswered : answered = (reply (.error failure), noted failure after) := by
      simp only [answered, Turn.take, hother]
    rw [hanswered, ← hresult]
    refine ⟨rfl, ?_⟩
    rw [noted]
    split
    · exact hafter
    · exact ⟨hafter.store, hafter.depth⟩
  · rw [hother] at hresult hafter
    have hanswered : answered = (reply (.ok value), after) := by
      simp only [answered, Turn.take, hother]
    rw [hanswered, ← hresult]
    exact ⟨rfl, hafter⟩

theorem on_playAll_forms (interpreter : Interpreter) (prompt : String) {forms : List Expr}
    (console : Console) {machine : Machine} (hsame : machine.SameButLog console.machine)
    (htexts : ∀ outcome ∈ interpreter.outcomes forms machine, (reply outcome).isSome) :
    ∃ after, (playAll interpreter prompt (forms.map .form)).on console = (.ok (), after) ∧
      after.output = console.output ++
        String.join ((interpreter.outcomes forms machine).filterMap reply) ∧
      (interpreter.final forms machine).SameButLog after.machine := by
  induction forms generalizing console machine with
  | nil => exact ⟨console, rfl, (String.append_empty ..).symm, hsame⟩
  | cons e forms ih =>
    rw [Interpreter.outcomes_cons] at htexts ⊢
    obtain ⟨htext, hlater⟩ := List.forall_mem_cons.mp htexts
    obtain ⟨said, hsaid⟩ := Option.isSome_iff_exists.mp htext
    obtain ⟨hreply, hafter⟩ := take_form interpreter prompt e hsame
    rcases htake : (Turn.form e).take interpreter prompt console.machine with ⟨answer, next⟩
    rw [htake] at hreply hafter
    rw [hsaid] at hreply
    obtain ⟨after, hplay, houtput, hfinal⟩ :=
      ih ⟨next, console.output ++ said⟩ hafter hlater
    refine ⟨after, ?_, ?_, hfinal⟩
    · simp only at hreply
      rw [List.map_cons, playAll, ExceptT.on_bind, on_play, htake, hreply]
      exact hplay
    · rw [houtput, List.filterMap_cons_some hsaid]
      simp [String.append_assoc]

theorem on_playAll_groups (interpreter : Interpreter) (prompt : String)
    {groups : List (List Expr)} (console : Console) {machine : Machine}
    (hsame : machine.SameButLog console.machine)
    (htexts : ∀ outcome ∈ interpreter.outcomes groups.flatten machine, (reply outcome).isSome) :
    ∃ after, (playAll interpreter prompt (groupTurns groups)).on console = (.ok (), after) ∧
      after.output ++ "\n" = console.output ++ transcript interpreter prompt groups machine ∧
      (interpreter.final groups.flatten machine).SameButLog after.machine := by
  induction groups generalizing console machine with
  | nil => exact ⟨⟨console.machine, console.output ++ prompt⟩, rfl, String.append_assoc .., hsame⟩
  | cons forms groups ih =>
    rw [List.flatten_cons, Interpreter.outcomes_append] at htexts
    obtain ⟨hforms, hgroups⟩ := List.forall_mem_append.mp htexts
    obtain ⟨middle, hplay, houtput, hmiddle⟩ := on_playAll_forms interpreter prompt
      ⟨console.machine, console.output ++ prompt⟩ hsame hforms
    obtain ⟨after, hlater, hshown, hafter⟩ := ih middle hmiddle hgroups
    refine ⟨after, ?_, ?_, ?_⟩
    · rw [groupTurns, playAll, ExceptT.on_bind, on_play]
      simp only [Turn.take, playAll_append, ExceptT.on_bind, hplay, hlater]
    · rw [hshown, houtput, transcript]
      simp only [String.append_assoc]
    · rw [List.flatten_cons, Interpreter.final_append]
      exact hafter

-- If a text can be read and all it comes to has a text, the loop shows for each line the prompt and
-- the answers to the forms whose last tokens are there, and one more prompt in the end. Errors of
-- evaluation keep nothing from being evaluated, and without any the last value that is shown is that
-- of the text as a program.
theorem run_transcript (interpreter : Interpreter) (prompt text : String) (console : Console)
    {forms : List Expr} (hforms : parseAll .quotes text = .ok forms)
    (htexts : ∀ outcome ∈ interpreter.outcomes forms console.machine, (reply outcome).isSome) :
    let lines := splitLines text.toList
    let tokens := numbered 0 (lines.map lineTokens)
    let shown := (run interpreter prompt lines).on console
    (∃ groups, groups.length = lines.length ∧ groups.flatten = forms ∧
        Placed .quotes tokens (numbered 0 groups) ∧
        (∀ others, others.length = lines.length → Placed .quotes tokens (numbered 0 others) →
          others = groups) ∧
        shown.2.output = console.output ++ transcript interpreter prompt groups console.machine) ∧
      shown.1 = .ok () ∧
      shown.2.machine.store = (interpreter.final forms console.machine).store ∧
      ∀ values : List Expr, interpreter.outcomes forms console.machine = values.map .ok →
        let evaluated := (interpreter.evalText text).on console.machine
        evaluated.1 = .ok values.getLast? ∧ evaluated.2.store = shown.2.machine.store := by
  intro lines tokens shown
  have hlines : ∀ line ∈ lines, line ≠ [] := fun line hline => (isLine_of_mem_splitLines hline).2
  have hitems : formsOf .quotes [] (lines.flatMap lineItems) = .ok forms :=
    (parseAll_eq_formsOf .quotes text).symm.trans hforms
  obtain ⟨groups, hlength, rfl, hturns, hplaced⟩ := turns_placed hlines [] 0 .nil hitems
  obtain ⟨after, hplay, houtput, hfinal⟩ :=
    on_playAll_groups interpreter prompt console ⟨rfl, rfl⟩ htexts
  have hshown : shown = (.ok (), { after with output := after.output ++ "\n" }) := by
    simp only [shown, on_run, lines] at hturns ⊢
    rw [hturns, hplay]
  rw [hshown]
  refine ⟨⟨groups, hlength, rfl, hplaced, fun others hother hothers => ?_, houtput⟩, rfl,
    hfinal.store, fun values hvalues => ?_⟩
  · exact numbered_inj (hother.trans hlength.symm) (hplaced.unique hothers)
  · have hevaluated := Interpreter.on_evalText_of_values hforms hvalues
    intro evaluated
    exact ⟨congrArg Prod.fst hevaluated,
      (congrArg (·.2.store) hevaluated).trans hfinal.store.symm⟩

-- A form over two lines with a comment inside, an error, an empty line, and a line without its
-- newline.
theorem run_transcript_over_lines :
    let text := "(def x ; 1\n  true) (first x)\n\n(if x \x27a x) x"
    let forms : List Expr := [.list [.symbol "def", .symbol "x", .bool true],
      .list [.symbol "first", .symbol "x"],
      .list [.symbol "if", .symbol "x", .list [.symbol "quote", .symbol "a"], .symbol "x"],
      .symbol "x"]
    let shown := (run ⟨50, 0⟩ "> " (splitLines text.toList)).on ⟨.start, ""⟩
    parseAll .quotes text = .ok forms ∧
      (∀ outcome ∈ Interpreter.outcomes ⟨50, 0⟩ forms .start, (reply outcome).isSome) ∧
      shown.2.output = "> > true\nerror: first expects a list, got true\n> > a\ntrue\n> \n" ∧
      ∃ groups, groups.length = 4 ∧ groups.flatten = forms ∧
        shown.2.output = "" ++ transcript ⟨50, 0⟩ "> " groups .start := by
  have hforms : parseAll .quotes "(def x ; 1\n  true) (first x)\n\n(if x \x27a x) x" = .ok [
      .list [.symbol "def", .symbol "x", .bool true], .list [.symbol "first", .symbol "x"],
      .list [.symbol "if", .symbol "x", .list [.symbol "quote", .symbol "a"], .symbol "x"],
      .symbol "x"] := by
    with_unfolding_all exact rfl
  intro text forms shown
  have htexts : ∀ outcome ∈ Interpreter.outcomes ⟨50, 0⟩ forms .start, (reply outcome).isSome :=
    List.all_eq_true.mp (by decide +kernel)
  have hcount : (splitLines text.toList).length = 4 := by decide +kernel
  obtain ⟨⟨groups, hlength, hflatten, -, -, houtput⟩, -⟩ :=
    run_transcript ⟨50, 0⟩ "> " text ⟨.start, ""⟩ hforms htexts
  exact ⟨hforms, htexts, by decide +kernel, groups, hlength.trans hcount, hflatten, houtput⟩

-- Whether a text can be read and all values that it comes to have a text.
def valuesPrintable (interpreter : Interpreter) (text : String) : Bool :=
  match parseAll .quotes text with
  | .ok forms => (interpreter.outcomes forms .start).all fun outcome =>
    outcome.toOption.all Expr.printable
  | .error _ => false

theorem prompt_ne_transcript (answers : String) : "> " ≠ "> " ++ answers ++ "> \n" := by
  intro h
  have hlength := congrArg String.length h
  simp only [String.length_append, show "> ".length = 2 from rfl, show "> \n".length = 3 from rfl]
    at hlength
  omega

-- Texts for all values are not enough: an error without a text ends the loop before its next prompt.
-- The limit may be what the error cannot show, or the operand of a call.
theorem run_breaks_off_at_textless_error :
    let textless : Interpreter := ⟨-(Nat.pow 10 Number.digitLimit : Nat), 0⟩
    let atLimit := (run textless "> " (splitLines "1".toList)).on ⟨.start, ""⟩
    let text := "(first ((lambda (f) (f (f (f (f (f 10)))))) (lambda (x) (* x x x x x x x x))))\n" ++
      "(+ 1 1)\n"
    let atOperand := (run ⟨50, 0⟩ "> " (splitLines text.toList)).on ⟨.start, ""⟩
    (valuesPrintable textless "1" ∧
      atLimit.1.mapError Failure.message = .error Failure.digitLimitMessage ∧
      ∀ answers, atLimit.2.output ≠ "> " ++ answers ++ "> \n") ∧
    valuesPrintable ⟨50, 0⟩ text ∧
      atOperand.1.mapError Failure.message = .error Failure.digitLimitMessage ∧
      ∀ answers, atOperand.2.output ≠ "> " ++ answers ++ "> \n" := by
  intro textless atLimit text atOperand
  have hlimit : valuesPrintable textless "1" ∧
      atLimit.1.mapError Failure.message = .error Failure.digitLimitMessage ∧
      atLimit.2.output = "> " := by decide +kernel
  have hoperand : valuesPrintable ⟨50, 0⟩ text ∧
      atOperand.1.mapError Failure.message = .error Failure.digitLimitMessage ∧
      atOperand.2.output = "> " := by decide +kernel
  rw [hlimit.2.2, hoperand.2.2]
  exact ⟨⟨hlimit.1, hlimit.2.1, prompt_ne_transcript⟩, hoperand.1, hoperand.2.1,
    prompt_ne_transcript⟩

end Lisplet.Repl
