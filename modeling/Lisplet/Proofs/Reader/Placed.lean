import Lisplet.Proofs.Reader.Forms
import Lisplet.Proofs.Reader.Grammar

namespace Lisplet

-- Everything in some groups, with the number of its group.
def numbered (n : Nat) : List (List α) → List (Nat × α)
  | [] => []
  | group :: groups => group.map (n, ·) ++ numbered (n + 1) groups

theorem le_of_mem_numbered {n : Nat} {groups : List (List α)} {entry : Nat × α}
    (h : entry ∈ numbered n groups) : n ≤ entry.1 := by
  induction groups generalizing n with
  | nil => cases h
  | cons group groups ih =>
    rcases List.mem_append.mp h with h | h
    · obtain ⟨a, -, rfl⟩ := List.mem_map.mp h
      exact Nat.le_refl n
    · exact Nat.le_of_succ_le (ih h)

theorem filter_numbered (n : Nat) (group : List α) (groups : List (List α)) :
    (numbered n (group :: groups)).filter (·.1 = n) = group.map (n, ·) := by
  have hgroup : ∀ entry ∈ group.map (n, ·), decide (entry.1 = n) = true := by
    rintro _ hmem
    obtain ⟨a, -, rfl⟩ := List.mem_map.mp hmem
    exact decide_eq_true rfl
  have hlater : ∀ entry ∈ numbered (n + 1) groups, ¬decide (entry.1 = n) = true := by
    intro entry hmem
    have hlt : n < entry.1 := le_of_mem_numbered hmem
    rw [decide_eq_true_eq]
    omega
  rw [numbered, List.filter_append, List.filter_eq_self.mpr hgroup,
    List.filter_eq_nil_iff.mpr hlater, List.append_nil]

-- The numbers tell the groups apart.
theorem numbered_inj {n : Nat} {groups others : List (List α)}
    (hlength : groups.length = others.length) (h : numbered n groups = numbered n others) :
    groups = others := by
  induction groups generalizing n others with
  | nil => exact (List.length_eq_zero_iff.mp hlength.symm).symm
  | cons group groups ih =>
    cases others with
    | nil => cases hlength
    | cons other others =>
      have hfirst : group.map (n, ·) = other.map (n, ·) := by
        rw [← filter_numbered n group groups, h, filter_numbered]
      have hsame : group = other := (List.map_inj_right fun _ _ => congrArg Prod.snd).mp hfirst
      subst hsame
      rw [ih (Nat.succ.inj hlength) (List.append_cancel_left h)]

def Item.text? : Item → Option String
  | token text => some (String.ofList text)
  | unterminated => none

namespace Reader

-- Tokens taken apart into those of one expression after the other. An expression gets the number
-- of its last token.
inductive Placed (table : Shorthands) : List (Nat × String) → List (Nat × Expr) → Prop
  | nil : Placed table [] []
  | cons (part later : List (Nat × String)) (n : Nat) (token : String) (e : Expr)
      (forms : List (Nat × Expr)) (h : Derives table (part.map Prod.snd ++ [token]) e)
      (hlater : Placed table later forms) :
      Placed table (part ++ (n, token) :: later) ((n, e) :: forms)

variable {table : Shorthands}

theorem Placed.unique {tokens : List (Nat × String)} {forms others : List (Nat × Expr)}
    (h : Placed table tokens forms) (h' : Placed table tokens others) : others = forms := by
  induction h generalizing others with
  | nil =>
    generalize htokens : ([] : List (Nat × String)) = tokens at h'
    cases h' with
    | nil => rfl
    | cons part later n token e forms _ _ => simp at htokens
  | cons part later n token e forms hform _ ih =>
    generalize htokens : part ++ (n, token) :: later = tokens at h'
    cases h' with
    | nil => simp at htokens
    | cons part' later' n' token' e' forms' hform' hlater' =>
      have htexts : (part.map Prod.snd ++ [token]) ++ later.map Prod.snd =
          (part'.map Prod.snd ++ [token']) ++ later'.map Prod.snd := by
        simpa using congrArg (List.map Prod.snd) htokens
      obtain ⟨hpart, rfl⟩ := hform.unique hform' htexts
      have hlength : part.length = part'.length := by
        have := congrArg List.length hpart
        simp only [List.length_append, List.length_map, List.length_singleton] at this
        omega
      obtain ⟨rfl, hrest⟩ := List.append_inj htokens hlength
      cases hrest
      rw [ih hlater']

theorem Begun.eq_nil {tokens : List String} (h : Begun table tokens []) : tokens = [] := by
  cases h
  rfl

end Reader

namespace Input

open Reader

variable {table : Shorthands} {stack : List Opening} {line rest : List Char}

def lineTokens (line : List Char) : List String := (lineItems line).filterMap Item.text?

theorem lineTokens_of_token {text : List Char} (h : Token.scan line = .token text rest) :
    lineTokens line = String.ofList text :: lineTokens rest := by
  rw [lineTokens, lineItems_of_token h]
  rfl

theorem lineTokens_of_blank (h : Token.scan line = .blank) : lineTokens line = [] := by
  rw [lineTokens, lineItems_of_blank h]
  rfl

-- A line ends what has begun before it, if reading it comes to the end of a form, or goes on with it.
theorem advance_reads (line : List Char) {before : List String} (h : Begun table before stack) :
    match advance table stack line with
    | .form e rest => ∃ part token, lineTokens line = part ++ token :: lineTokens rest ∧
        Derives table (before ++ part ++ [token]) e
    | .failed .. => True
    | .starved begun => Begun table (before ++ lineTokens line) begun := by
  fun_induction advance table stack line generalizing before with
  | case1 stack line text rest hscan e hfeed =>
    have hreads := feed_reads h (String.ofList text)
    rw [hfeed] at hreads
    refine ⟨[], String.ofList text, lineTokens_of_token hscan, ?_⟩
    rw [List.append_nil]
    exact hreads
  | case2 => trivial
  | case3 stack line text rest hscan stack' hfeed ih =>
    have hreads := feed_reads h (String.ofList text)
    rw [hfeed] at hreads
    have hrest := ih hreads
    rw [lineTokens_of_token hscan]
    cases hadvance : advance table stack' rest with
    | form e rest' =>
      rw [hadvance] at hrest
      obtain ⟨part, token, hpart, hform⟩ := hrest
      exact ⟨String.ofList text :: part, token, by rw [hpart]; rfl, by simpa using hform⟩
    | failed error rest' => trivial
    | starved begun =>
      rw [hadvance] at hrest
      simpa using hrest
  | case4 => trivial
  | case5 stack line hscan =>
    rw [lineTokens_of_blank hscan]
    simpa using h

end Input

end Lisplet
