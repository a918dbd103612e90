import Lisplet.Reader.Input

namespace Lisplet.Input

variable {table : Shorthands} {stack : List Opening}

theorem advance_nil : advance table stack [] = .starved stack := by
  rw [advance]
  rfl

-- What has been begun before the end of a source came from a line of it.
theorem size_lt_of_readLines_error {error : ReadError} {after : Input} {lines : List (List Char)}
    (h : readLines table stack lines = (.error error, after)) :
    linesSize after.lines < linesSize lines ∨ stack ≠ [] ∧ after.lines = [] := by
  induction lines generalizing stack with
  | nil =>
    have hstack : stack ≠ [] := by
      rintro rfl
      cases h
    obtain ⟨-, rfl⟩ := Prod.mk.inj h
    exact .inr ⟨hstack, rfl⟩
  | cons line lines ih =>
    have hpos : linesSize lines < linesSize (line :: lines) := by
      simp only [linesSize]
      omega
    rw [readLines] at h
    split at h
    · obtain ⟨-, rfl⟩ := Prod.mk.inj h
      exact .inl hpos
    split at h
    · cases h
    · cases h
      exact .inl hpos
    · rcases ih h with hlt | ⟨-, hnil⟩
      · exact .inl (Nat.lt_trans hlt hpos)
      · rw [hnil]
        exact .inl (Nat.lt_of_le_of_lt (Nat.zero_le _) hpos)

-- Every failure costs at least one character, if its line is dropped.
theorem read_error_size_lt {input after : Input} {error : ReadError}
    (h : read table input = (.error error, after)) : after.discardLine.size < input.size := by
  have hrest (hstarts : advance table [] input.rest ≠ .starved []) : 0 < input.rest.length := by
    refine List.length_pos_iff.mpr fun hnil => hstarts ?_
    rw [hnil, advance_nil]
  simp only [discardLine, size, List.length_nil]
  unfold read at h
  split at h
  · cases h
  · next hadvance =>
    cases h
    have := hrest (by simp [hadvance])
    simp only
    omega
  · next stack hadvance =>
    rcases size_lt_of_readLines_error h with hlt | ⟨hstack, hnil⟩
    · omega
    · have := hrest (by simpa [hadvance] using hstack)
      rw [hnil]
      simp only [linesSize]
      omega

-- Everything that reading comes across up to an end of input, if a failure costs the rest of
-- its line and no more.
def readings (table : Shorthands) (input : Input) : List (Except ReadError Expr) :=
  match _h : input.read table with
  | (.ok none, _) => []
  | (.ok (some e), after) => .ok e :: readings table after
  | (.error error, after) => .error error :: readings table after.discardLine
termination_by input.size
decreasing_by
  · exact read_size_lt ‹_›
  · exact read_error_size_lt ‹_›

def readingsAfter (table : Shorthands) :
    Except ReadError (Option Expr) × Input → List (Except ReadError Expr)
  | (.ok none, _) => []
  | (.ok (some e), after) => .ok e :: readings table after
  | (.error error, after) => .error error :: readings table after.discardLine

theorem readings_eq (table : Shorthands) (input : Input) :
    readings table input = readingsAfter table (input.read table) := by
  rw [readings]
  split <;> simp_all [readingsAfter]

theorem readings_discardLine (table : Shorthands) (input : Input) :
    readings table input.discardLine = readingsAfter table (readLines table [] input.lines) := by
  rw [readings_eq, read, discardLine, advance_nil]

end Lisplet.Input
