import Lisplet.Proofs.Reader.Item
import Lisplet.SourceFile

namespace Lisplet

namespace SourceFile

-- Every return is the first half of a line end.
def ReturnsEndLines (text : List Char) : Prop :=
  ∀ i : Nat, text[i]? = some '\r' → text[i + 1]? = some '\n'

instance : DecidablePred ReturnsEndLines := fun text =>
  decidable_of_iff (∀ i < text.length, text[i]? = some '\r' → text[i + 1]? = some '\n')
    ⟨fun h i hreturn => h i (List.getElem?_eq_some_iff.mp hreturn).1 hreturn, fun h i _ => h i⟩

theorem ReturnsEndLines.of_cons {c : Char} {text : List Char} (h : ReturnsEndLines (c :: text)) :
    ReturnsEndLines text := fun i => h (i + 1)

theorem ReturnsEndLines.exists_eq_cons {text : List Char} (h : ReturnsEndLines ('\r' :: text)) :
    ∃ later, text = '\n' :: later := by
  have hnext : text[0]? = some '\n' := h 0 rfl
  rw [← List.head?_eq_getElem?] at hnext
  exact List.head?_eq_some_iff.mp hnext

end SourceFile

namespace Input

open SourceFile

-- No line has other items for having lost the return before its newline.
theorem map_lineItems_universalNewlines {text : List Char} (h : ReturnsEndLines text)
    (front : List Char) (hfront : '\n' ∉ front) :
    (splitLines (front ++ universalNewlines text)).map lineItems =
      (splitLines (front ++ text)).map lineItems := by
  fun_induction universalNewlines text generalizing front with
  | case1 => rfl
  | case2 rest ih =>
    have hreturn : '\n' ∉ front ++ ['\r'] := by simp [hfront]
    have hsame : lineItems (front ++ ['\n']) = lineItems (front ++ ['\r'] ++ ['\n']) := by
      rw [lineItems_append_blank rfl hfront, lineItems_append_blank rfl hreturn,
        lineItems_append_blank rfl hfront]
    rw [List.append_cons front '\r', splitLines_ended hfront, splitLines_ended hreturn,
      List.map_cons, List.map_cons, hsame]
    exact congrArg _ (ih h.of_cons.of_cons [] List.not_mem_nil)
  | case3 c rest hpair ih =>
    have hc : c ≠ '\r' := by
      rintro rfl
      obtain ⟨later, hrest⟩ := h.exists_eq_cons
      exact hpair later rfl hrest
    rw [if_neg hc]
    by_cases hnewline : c = '\n'
    · rw [hnewline, splitLines_ended hfront, splitLines_ended hfront, List.map_cons, List.map_cons]
      exact congrArg _ (ih h.of_cons [] List.not_mem_nil)
    · rw [List.append_cons front c rest, List.append_cons front c (universalNewlines rest)]
      exact ih h.of_cons (front ++ [c]) (by simp [hfront, Ne.symm hnewline])

end Input

end Lisplet
