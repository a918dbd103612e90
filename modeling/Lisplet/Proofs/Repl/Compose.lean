import Lisplet.Proofs.Repl.Dialogue

namespace Lisplet

-- The same screen with something above it.
def Console.below (shown : String) (console : Console) : Console :=
  { console with output := shown ++ console.output }

namespace Repl

open Input

-- Whatever follows some lines, the loop comes to it with the same turns behind it and the same
-- forms begun.
theorem exists_turns_append {lines : List (List Char)} (h : ∀ line ∈ lines, line ≠ [])
    (stack : List Opening) : ∃ earlier begun, ∀ later,
      turns stack (lines ++ later) = earlier ++ turns begun later := by
  induction lines generalizing stack with
  | nil => exact ⟨[], stack, fun later => rfl⟩
  | cons line lines ih =>
    obtain ⟨hline, hlines⟩ := List.forall_mem_cons.mp h
    obtain ⟨earlier, begun, hlater⟩ := ih hlines (lineTurns stack line).2
    refine ⟨.prompt :: (lineTurns stack line).1 ++ earlier, begun, fun later => ?_⟩
    have hturns : turns stack (line :: (lines ++ later)) = .prompt :: ((lineTurns stack line).1 ++
        turns (lineTurns stack line).2 (lines ++ later)) := by
      rw [turns, if_pos hline]
    rw [List.cons_append, hturns, hlater]
    simp only [List.cons_append, List.append_assoc]

-- Nothing is begun after lines that no reading runs out of.
theorem exists_turns_append_of_complete {text : String}
    (h : ∀ error, .error error ∈ (Input.ofText text).readings .quotes → ¬error.isAtEnd) :
    ∃ earlier, turns [] (splitLines text.toList) = earlier ++ [.prompt] ∧
      ∀ later, turns [] (splitLines text.toList ++ later) = earlier ++ turns [] later := by
  have hlines : ∀ line ∈ splitLines text.toList, line ≠ [] := fun line hline =>
    (isLine_of_mem_splitLines hline).2
  obtain ⟨earlier, begun, hlater⟩ := exists_turns_append hlines []
  have hall : turns [] (splitLines text.toList) = earlier ++ turns begun [] := by
    simpa using hlater []
  cases begun with
  | nil => exact ⟨earlier, hall, hlater⟩
  | cons opening begun =>
    have hreadings : (turns [] (splitLines text.toList)).filterMap Turn.reading? =
        (Input.ofText text).readings .quotes :=
      (readings_turns _ []).trans (readings_discardLine .quotes ⟨[], _⟩).symm
    have hmisread : .misread (Reader.endError (opening :: begun)) ∈
        turns [] (splitLines text.toList) := by
      simp [hall, turns]
    have hfailed : .error (Reader.endError (opening :: begun)) ∈
        (Input.ofText text).readings .quotes := by
      rw [← hreadings]
      exact List.mem_filterMap.mpr ⟨_, hmisread, rfl⟩
    refine absurd ?_ (h _ hfailed)
    cases opening <;> rfl

-- What has been shown before has no say in what comes.
theorem on_playAll_below (interpreter : Interpreter) (prompt : String) (turns : List Turn)
    (console : Console) (shown : String) :
    let outcome := (playAll interpreter prompt turns).on console
    (playAll interpreter prompt turns).on (console.below shown) =
      (outcome.1, outcome.2.below shown) := by
  induction turns generalizing console with
  | nil => rfl
  | cons turn later ih =>
    have hmachine : (console.below shown).machine = console.machine := rfl
    simp only [playAll, ExceptT.on_bind, on_play, hmachine]
    rcases turn.take interpreter prompt console.machine with ⟨said | said, after⟩
    · rfl
    · have hbelow : (⟨after, (console.below shown).output ++ said⟩ : Console) =
          Console.below shown ⟨after, console.output ++ said⟩ := by
        simp only [Console.below, String.append_assoc]
      simp only [hbelow]
      exact ih _

-- The loop plays its turns and ends the last line, unless one of them ends it before.
theorem on_run (interpreter : Interpreter) (prompt : String) (lines : List (List Char))
    (console : Console) :
    (run interpreter prompt lines).on console =
      match (playAll interpreter prompt (turns [] lines)).on console with
      | (.ok _, after) => (.ok (), { after with output := after.output ++ "\n" })
      | (.error failure, after) => (.error failure, after) := by
  rw [run, takeLines_eq, ExceptT.on_bind]
  rcases (playAll interpreter prompt (turns [] lines)).on console with ⟨_ | _, _⟩ <;> rfl

theorem on_run_below (interpreter : Interpreter) (prompt : String) (lines : List (List Char))
    (console : Console) (shown : String) :
    let outcome := (run interpreter prompt lines).on console
    (run interpreter prompt lines).on (console.below shown) =
      (outcome.1, outcome.2.below shown) := by
  simp only [on_run, on_playAll_below]
  rcases (playAll interpreter prompt (turns [] lines)).on console with ⟨_ | _, after⟩
  · rfl
  · simp only [Console.below, String.append_assoc]

-- Whole lines leave nothing behind but the scopes, also after errors: if the loop gets through them
-- and no reading runs out of them, it goes on with more text as a loop that starts with it.
theorem run_append (interpreter : Interpreter) (prompt first second : String) (console : Console)
    (hlines : first = "" ∨ first.toList.getLast? = some '\n')
    (hends : ((run interpreter prompt (splitLines first.toList)).on console).1 = .ok ())
    (hreads : ∀ error,
      .error error ∈ (Input.ofText first).readings .quotes → ¬error.isAtEnd) :
    let alone := (run interpreter prompt (splitLines first.toList)).on console
    let next := (run interpreter prompt (splitLines second.toList)).on ⟨alone.2.machine, ""⟩
    let whole := (run interpreter prompt (splitLines (first ++ second).toList)).on console
    ∃ said, alone.2.output = said ++ prompt ++ "\n" ∧
      whole.2.output = said ++ next.2.output ∧
      whole.2.machine = next.2.machine ∧ whole.1 = next.1 := by
  intro alone next whole
  have hsplit : splitLines (first ++ second).toList =
      splitLines first.toList ++ splitLines second.toList := by
    rw [String.toList_append]
    exact splitLines_append_of_ended (hlines.imp (fun h => by simp [h]) id) _
  obtain ⟨earlier, hfirst, hlater⟩ := exists_turns_append_of_complete hreads
  have hprompt : ∀ console : Console, (playAll interpreter prompt [.prompt]).on console =
      (.ok (), { console with output := console.output ++ prompt }) := fun _ => rfl
  rcases hearlier : (playAll interpreter prompt earlier).on console with ⟨failure | _, before⟩
  · rw [on_run, hfirst, playAll_append, ExceptT.on_bind, hearlier] at hends
    cases hends
  · have halone : alone =
        (.ok (), { before with output := before.output ++ prompt ++ "\n" }) := by
      simp only [alone, on_run, hfirst, playAll_append, ExceptT.on_bind, hearlier, hprompt]
    have hbefore : before = Console.below before.output ⟨alone.2.machine, ""⟩ := by
      simp [halone, Console.below]
    have hwhole : whole = (run interpreter prompt (splitLines second.toList)).on before := by
      simp only [whole, on_run, hsplit, hlater, playAll_append, ExceptT.on_bind, hearlier]
    rw [hbefore, on_run_below] at hwhole
    refine ⟨before.output, by rw [halone], ?_, ?_, ?_⟩
    · rw [hwhole]
      rfl
    · rw [hwhole]
      rfl
    · rw [hwhole]

-- A form over two lines, a parenthesis too many, a string without its end, and a shorthand over two
-- lines, each followed by more text.
theorem run_append_after_errors :
    let first := "(def x\n 2) ) (+ 1\n(first \"a\n\x27(x\n x) (first x)\n"
    let second := "x)\n(+ x 1"
    let alone := (run ⟨50, 0⟩ "> " (splitLines first.toList)).on ⟨.start, ""⟩
    let next := (run ⟨50, 0⟩ "> " (splitLines second.toList)).on ⟨alone.2.machine, ""⟩
    let whole := (run ⟨50, 0⟩ "> " (splitLines (first ++ second).toList)).on ⟨.start, ""⟩
    next.2.output =
        "> 2\nerror: Unexpected ')'\n> > error: Unexpected EOF while reading list\n> \n" ∧
      ∃ said, alone.2.output = said ++ "> " ++ "\n" ∧ whole.2.output = said ++ next.2.output ∧
        whole.2.machine = next.2.machine ∧ whole.1 = next.1 := by
  intro first second alone next whole
  have hlines : first.toList.getLast? = some '\n' := by decide
  have hends : alone.1 = .ok () := by
    have hok : alone.1.toOption = some () := by decide +kernel
    cases hresult : alone.1 with
    | error failure => rw [hresult] at hok; cases hok
    | ok done => rfl
  have hreads : ∀ reading ∈ (Input.ofText first).readings .quotes,
      ∀ error, reading = .error error → ¬error.isAtEnd := by
    have hall : ((Input.ofText first).readings .quotes).all fun reading => match reading with
        | .ok _ => true
        | .error error => !error.isAtEnd := by decide +kernel
    rintro _ hreading error rfl
    simpa using List.all_eq_true.mp hall _ hreading
  exact ⟨by decide +kernel, run_append ⟨50, 0⟩ "> " first second ⟨.start, ""⟩ (.inr hlines) hends
    fun error herror => hreads _ herror error rfl⟩

end Repl

end Lisplet
