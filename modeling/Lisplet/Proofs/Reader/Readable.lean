import Lisplet.Expr.Printer
import Lisplet.Atom
import Lisplet.Proofs.Number
import Lisplet.Proofs.Token

namespace Lisplet

open Token

-- A name that cannot be taken for anything else.
structure IsName (name : String) : Prop where
  ne_empty : name ≠ ""
  isRunChar : ∀ c ∈ name.toList, isRunChar c
  ne_true : name ≠ "true"
  ne_false : name ≠ "false"
  not_integer : ¬IsIntegerText name.toList
  not_decimal : ¬IsDecimalText name.toList

-- What a text can spell. An integer must not round to infinity.
inductive Expr.Readable : Expr → Prop
  | bool (b : Bool) : Readable (.bool b)
  | int (n : Int) (h : n.natAbs < 2 ^ 1024 - 2 ^ 970) : Readable (.number (.int n))
  | float (x : Binary64) (h : x.isFinite) : Readable (.number (.float x))
  | str (text : String) (h : StringBody text.toList) : Readable (.str text)
  | symbol (name : String) (h : IsName name) : Readable (.symbol name)
  | list (items : List Expr) (h : ∀ item ∈ items, Readable item) : Readable (.list items)

-- A single token that stands for the expression wherever it is met.
structure Spells (text : String) (e : Expr) : Prop where
  isToken : IsToken text.toList
  not_mark : ∀ c ∈ text.toList.head?, isMark c = false
  atom_eq : atom text = e

theorem isMark_eq_false_of_isRunChar {c : Char} (h : isRunChar c) : isMark c = false := by
  simp only [isRunChar, Bool.not_eq_true', Bool.or_eq_false_iff] at h
  exact h.1.1.2

theorem ne_quote_of_isRunChar {c : Char} (h : isRunChar c) : c ≠ '"' := by
  rintro rfl
  simp [isRunChar] at h

theorem atom_of_unquoted {text : String} (hquote : ∀ tail, text.toList ≠ '"' :: tail)
    (htrue : text ≠ "true") (hfalse : text ≠ "false") :
    atom text = match Number.ofLiteral? text.toList with
      | some n => .number n
      | none => .symbol text := by
  rw [atom]
  split
  · next tail htail => exact (hquote tail htail).elim
  · exact (if_neg htrue).trans (if_neg hfalse)

theorem atom_of_run {text : String} (hrun : ∀ c ∈ text.toList, isRunChar c) (htrue : text ≠ "true")
    (hfalse : text ≠ "false") :
    atom text = match Number.ofLiteral? text.toList with
      | some n => .number n
      | none => .symbol text := by
  refine atom_of_unquoted (fun tail htail => ?_) htrue hfalse
  exact absurd rfl (ne_quote_of_isRunChar (hrun '"' (by simp [htail])))

theorem Spells.of_run {text : String} {e : Expr} (hne : text ≠ "")
    (hrun : ∀ c ∈ text.toList, isRunChar c) (hatom : atom text = e) : Spells text e where
  isToken := .run text.toList (by simpa using hne) hrun
  not_mark c hc := isMark_eq_false_of_isRunChar (hrun c (List.mem_of_mem_head? hc))
  atom_eq := hatom

theorem atom_of_numerals {text : String} (h : ∀ c ∈ text.toList, IsNumeral c) :
    atom text = match Number.ofLiteral? text.toList with
      | some n => .number n
      | none => .symbol text := by
  have hword (c : Char) (hc : ¬IsNumeral c) : c ∉ text.toList := fun hmem => hc (h c hmem)
  refine atom_of_run (fun c hc => (h c hc).isRunChar) ?_ ?_
  · exact fun htrue => hword 't' (by simp [IsNumeral, Char.isDigit]) (by simp [htrue])
  · exact fun hfalse => hword 'f' (by simp [IsNumeral, Char.isDigit]) (by simp [hfalse])

theorem Spells.of_number {n : Number} (hchars : ∀ c ∈ n.render.toList, IsNumeral c)
    (hread : Number.ofLiteral? n.render.toList = some n) : Spells n.render (.number n) := by
  have hne : n.render ≠ "" := by
    intro hempty
    rw [hempty] at hread
    cases hread
  refine .of_run hne (fun c hc => (hchars c hc).isRunChar) ?_
  rw [atom_of_numerals hchars, hread]

theorem IsName.spells {name : String} (h : IsName name) : Spells name (.symbol name) := by
  refine .of_run h.ne_empty h.isRunChar ?_
  have hread : Number.ofLiteral? name.toList = none := by
    rw [← Option.not_isSome_iff_eq_none, Number.isSome_ofLiteral?_iff]
    exact h.not_decimal
  rw [atom_of_run h.isRunChar h.ne_true h.ne_false, hread]

theorem Spells.of_string {text : String} (h : StringBody text.toList) :
    Spells ("\"" ++ text ++ "\"") (.str text) where
  isToken := by simpa using IsToken.string text.toList h
  not_mark := by simp [isMark]
  atom_eq := by simp [atom]

theorem Spells.of_bool (b : Bool) : Spells (Expr.bool b).render (.bool b) := by
  have htrue : ∀ c ∈ "true".toList, isRunChar c := by simp [isRunChar, isBlank, isMark]
  have hfalse : ∀ c ∈ "false".toList, isRunChar c := by simp [isRunChar, isBlank, isMark]
  cases b with
  | true => exact .of_run (by simp [Expr.render]) htrue (by rfl)
  | false => exact .of_run (by simp [Expr.render]) hfalse (by rfl)

-- A readable expression is a single token, or else a list.
@[elab_as_elim]
theorem Expr.Readable.leaf_or_list {motive : ∀ e : Expr, e.Readable → Prop}
    (leaf : ∀ e h, (∀ items, e ≠ .list items) → Spells e.render e → motive e h)
    (list : ∀ items h, (∀ item hitem, motive item (h item hitem)) →
      motive (.list items) (.list items h))
    {e : Expr} (h : e.Readable) : motive e h := by
  induction h with
  | bool b => exact leaf _ (.bool b) (by simp) (.of_bool b)
  | int n h =>
    exact leaf _ (.int n h) (by simp)
      (.of_number (Number.isNumeral_of_mem_render_int n) (Number.ofLiteral?_render_int n h))
  | float x h =>
    exact leaf _ (.float x h) (by simp)
      (.of_number (Number.isNumeral_of_mem_render_float x h) (Number.ofLiteral?_render_float x h))
  | str text h => exact leaf _ (.str text h) (by simp) (.of_string h)
  | symbol name h => exact leaf _ (.symbol name h) (by simp) h.spells
  | list items h ih => exact list items h ih

end Lisplet
