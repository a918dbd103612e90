import Lisplet.Proofs.Eval.Agreement
import Lisplet.Proofs.Number
import Mathlib.Data.Int.LeastGreatest

namespace Lisplet

-- The run was cut off, by the limit of the language or by the host stack.
abbrev CutOff (result : Except Failure α) : Prop :=
  FailsAs (fun failure => failure.languageKind? = some EvalErrorKind.depth.name) result

namespace Eval

theorem cutOff_of_le {limit : Int} {machine : Machine} (hlimit : (Number.int limit).printable)
    (h : limit ≤ machine.depth) (room : Nat) (scope : FrameId) (e : Expr) :
    CutOff ((evalWithin limit room scope e).on machine).1 := by
  have herror : Failure.ofEvalError (.tooDeep limit) = .eval (.tooDeep limit) := if_pos hlimit
  rw [on_evalWithin_of_le h, herror]
  rfl

-- What would say that the limit is reached cannot be said, and nothing is logged.
theorem on_evalWithin_of_textless {limit : Int}
    (hlimit : limit ≤ -(Nat.pow 10 Number.digitLimit : Nat)) (room : Nat) (scope : FrameId)
    (e : Expr) (machine : Machine) :
    (evalWithin limit room scope e).on machine = (.error .digitLimit, machine) := by
  have htextless : ¬(Number.int limit).printable := by
    rw [Number.printable_int_iff]
    omega
  have herror : Failure.ofEvalError (.tooDeep limit) = .digitLimit := if_neg htextless
  rw [on_evalWithin_of_le (by omega), herror, EvalM.depthWarning, if_neg htextless,
    List.append_nil]

-- A higher limit admits every run that a lower one admits, and nothing of it changes.
theorem evalWithin_agrees_of_le {low high : Int} (hlow : (Number.int low).printable)
    (h : low ≤ high) (room : Nat) (scope : FrameId) (e : Expr) (machine : Machine)
    (hcut : ¬CutOff ((evalWithin low room scope e).on machine).1) :
    (evalWithin high room scope e).on machine = (evalWithin low room scope e).on machine := by
  induction room generalizing scope e machine with
  | zero =>
    have hopen : ¬low ≤ machine.depth := fun hle => hcut (cutOff_of_le hlow hle 0 scope e)
    rw [on_evalWithin_zero hopen] at hcut
    exact absurd rfl hcut
  | succ room ih =>
    have hopen : ¬low ≤ machine.depth := fun hle => hcut (cutOff_of_le hlow hle _ scope e)
    have hopen' : ¬high ≤ machine.depth := by omega
    rw [on_evalWithin_succ hopen, EvalM.on_nested] at hcut ⊢
    rw [on_evalWithin_succ hopen', EvalM.on_nested, Plan.run_agrees
      (evalWithin_balanced low room) (fun scope e machine _ => ih scope e machine) _ rfl hcut]

-- Limits that are out of reach of the host stack are all the same.
theorem evalWithin_eq_of_lt {limit limit' : Int} (room : Nat) (scope : FrameId) (e : Expr)
    (machine : Machine) (h : machine.depth + room < limit) (h' : machine.depth + room < limit') :
    (evalWithin limit' room scope e).on machine = (evalWithin limit room scope e).on machine := by
  induction room generalizing scope e machine with
  | zero => rw [on_evalWithin_zero (by omega), on_evalWithin_zero (by omega)]
  | succ room ih =>
    have hsame : ∀ scope e (deeper : Machine), deeper.depth = machine.depth + 1 →
        (evalWithin limit' room scope e).on deeper = (evalWithin limit room scope e).on deeper :=
      fun scope e deeper hdepth => ih scope e deeper (by omega) (by omega)
    rw [on_evalWithin_succ (by omega), on_evalWithin_succ (by omega), EvalM.on_nested,
      EvalM.on_nested, Plan.run_eq (evalWithin_balanced limit room) hsame _ rfl]

section

variable {room : Nat} {scope : FrameId} {e : Expr} {machine : Machine} {limit threshold : Int}

-- A limit that admits a run at the outermost level is positive.
theorem pos_of_not_cutOff (hdepth : machine.depth = 0)
    (hlimit : -(Nat.pow 10 Number.digitLimit : Nat) < limit)
    (hcut : ¬CutOff ((evalWithin limit room scope e).on machine).1) : 1 ≤ limit := by
  by_contra hlow
  have hprintable : (Number.int limit).printable :=
    (Number.printable_int_iff limit).mpr ⟨hlimit, by omega⟩
  exact hcut (cutOff_of_le hprintable (by omega) room scope e)

-- A threshold that is too high to have a text is out of reach, and so are all limits above it.
theorem evalWithin_eq_of_le (hroom : room < Nat.pow 10 Number.digitLimit)
    (hdepth : machine.depth = 0) (hthreshold : -(Nat.pow 10 Number.digitLimit : Nat) < threshold)
    (hcut : ¬CutOff ((evalWithin threshold room scope e).on machine).1)
    (hle : threshold ≤ limit) :
    (evalWithin limit room scope e).on machine =
      (evalWithin threshold room scope e).on machine := by
  by_cases hprintable : (Number.int threshold).printable
  · exact evalWithin_agrees_of_le hprintable hle room scope e machine hcut
  · rw [Number.printable_int_iff] at hprintable
    exact evalWithin_eq_of_lt room scope e machine (by omega) (by omega)

end

-- A limit so low that it has no text is no error of the language. Any other limit cuts a run off or
-- leaves it alone: either all of them are too low, or there is a least one that suffices, and then
-- all limits from there on give the same run.
theorem limit_cuts_off_or_leaves_alone {room : Nat} (hroom : room < Nat.pow 10 Number.digitLimit)
    (scope : FrameId) (e : Expr) (store : Store) (log : List LogRecord) :
    let textless : Int := -(Nat.pow 10 Number.digitLimit : Nat)
    let run := fun limit : Int => (evalWithin limit room scope e).on ⟨store, 0, log⟩
    (∀ limit ≤ textless, run limit = (.error .digitLimit, ⟨store, 0, log⟩)) ∧
      Xor (∀ limit > textless, CutOff (run limit).1)
        (∃ threshold ≥ 1, (∀ limit > textless, limit < threshold → CutOff (run limit).1) ∧
          ∀ limit ≥ threshold, ¬CutOff (run limit).1 ∧ run limit = run threshold) := by
  intro textless run
  refine ⟨fun limit hlimit => on_evalWithin_of_textless hlimit room scope e _, ?_⟩
  by_cases hall : ∀ limit > textless, CutOff (run limit).1
  · refine .inl ⟨hall, ?_⟩
    rintro ⟨threshold, hpos, -, hsame⟩
    exact (hsame threshold le_rfl).1 (hall threshold (by omega))
  · refine .inr ⟨?_, hall⟩
    push Not at hall
    obtain ⟨threshold, ⟨hthreshold, hcut⟩, hleast⟩ := Int.exists_least_of_bdd
      ⟨1, fun limit hlimit => pos_of_not_cutOff rfl hlimit.1 hlimit.2⟩ hall
    have hsame : ∀ limit ≥ threshold, run limit = run threshold :=
      fun limit hle => evalWithin_eq_of_le hroom rfl hthreshold hcut hle
    refine ⟨threshold, pos_of_not_cutOff rfl hthreshold hcut, fun limit hlimit hlt => ?_,
      fun limit hle => ⟨by rw [hsame limit hle]; exact hcut, hsame limit hle⟩⟩
    by_contra hopen
    have := hleast limit ⟨hlimit, hopen⟩
    omega

-- A condition inside a form, and a value that is reached at the same depth.
theorem limit_cuts_off_or_leaves_alone_nested :
    let e : Expr := .list [.symbol "if", .list [.symbol "if", .bool true, .bool true, .bool true],
      .number (.int 1), .number (.int 2)]
    let run := fun limit : Int => (evalWithin limit hostRoom 0 e).on .start
    hostRoom < Nat.pow 10 Number.digitLimit ∧ CutOff (run 2).1 ∧
      run (-(Nat.pow 10 Number.digitLimit : Nat)) = (.error .digitLimit, .start) ∧
      ∀ limit ≥ 3, run limit = (.ok (.number (.int 1)), .start) := by
  intro e run
  have hroom : hostRoom < Nat.pow 10 Number.digitLimit := by decide +kernel
  have hthree : run 3 = (.ok (.number (.int 1)), .start) := rfl
  obtain ⟨htextless, hlaw⟩ := limit_cuts_off_or_leaves_alone hroom 0 e .global []
  refine ⟨hroom, by decide +kernel, htextless _ (Int.le_refl _), fun limit hlimit => ?_⟩
  have hopen : ¬CutOff (run 3).1 := by
    rw [hthree]
    exact id
  have hlow : (3 : Int) > -(Nat.pow 10 Number.digitLimit : Nat) := by decide +kernel
  rcases hlaw with ⟨hall, -⟩ | ⟨⟨threshold, -, hbelow, habove⟩, -⟩
  · exact absurd (hall 3 hlow) hopen
  · have hle : threshold ≤ 3 := Int.not_lt.mp fun hlt => hopen (hbelow 3 hlow hlt)
    calc run limit
      _ = run threshold := (habove limit (hle.trans hlimit)).2
      _ = run 3 := ((habove 3 hle).2).symm
      _ = (.ok (.number (.int 1)), .start) := hthree

-- With the limits that have no text neither holds: even a literal is not cut off at all the limits
-- that are too low for it.
theorem literal_not_cutOff_at_textless :
    let textless : Int := -(Nat.pow 10 Number.digitLimit : Nat)
    let run := fun limit : Int => (evalWithin limit hostRoom 0 (.number (.int 1))).on .start
    (run textless).1 = .error .digitLimit ∧
      ¬Xor (∀ limit, CutOff (run limit).1)
        (∃ threshold ≥ 1, (∀ limit < threshold, CutOff (run limit).1) ∧
          ∀ limit ≥ threshold, ¬CutOff (run limit).1 ∧ run limit = run threshold) := by
  intro textless run
  have hrun : (run textless).1 = .error .digitLimit :=
    congrArg Prod.fst (on_evalWithin_of_textless (Int.le_refl _) hostRoom 0 _ .start)
  have hlow : textless < 1 :=
    Int.lt_of_le_of_lt (Int.neg_nonpos_of_nonneg (Int.natCast_nonneg _)) Int.one_pos
  have hopen : ¬CutOff (run textless).1 := by
    rw [hrun]
    decide
  clear_value textless run
  refine ⟨hrun, ?_⟩
  rintro (⟨hall, -⟩ | ⟨⟨threshold, hpos, hbelow, -⟩, -⟩)
  · exact hopen (hall textless)
  · exact hopen (hbelow textless (Int.lt_of_lt_of_le hlow hpos))

end Eval

end Lisplet
