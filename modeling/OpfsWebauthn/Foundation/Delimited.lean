import Mathlib.Data.List.Basic

/-!
# Pieces with a terminator

A list of pieces is written as a stream in which a separator follows each piece. When no piece has
the separator, the stream determines the pieces (`splitOn_terminated`). A piece that has it is
written like its parts: `terminated_splitOn` says that the stream of one piece is the stream of the
parts between its separators, which are one more than the separators (`length_splitOn`).
-/

set_option autoImplicit false
set_option relaxedAutoImplicit false

namespace OpfsWebauthn.Foundation

section Delimited

variable {α : Type*}

/-- The pieces, each followed by the separator. -/
def terminated (separator : α) (pieces : List (List α)) : List α :=
  pieces.flatMap fun piece ↦ piece ++ [separator]

variable [DecidableEq α] {separator : α}

/-- The pieces of a stream can be read back. -/
theorem splitOn_terminated {pieces : List (List α)}
    (hpieces : ∀ piece ∈ pieces, separator ∉ piece) :
    (terminated separator pieces).splitOn separator = pieces ++ [[]] := by
  induction pieces with
  | nil => rfl
  | cons piece rest ih =>
    obtain ⟨hpiece, hrest⟩ := List.forall_mem_cons.mp hpieces
    have hstream : terminated separator (piece :: rest) =
        piece ++ separator :: terminated separator rest := by
      simp [terminated]
    rw [hstream, List.splitOn_append_cons_self_of_not_mem hpiece, ih hrest, List.cons_append]

/-- Pieces without the separator are determined by their stream. -/
theorem terminated_inj {first second : List (List α)} (hfirst : ∀ piece ∈ first, separator ∉ piece)
    (hsecond : ∀ piece ∈ second, separator ∉ piece) :
    terminated separator first = terminated separator second ↔ first = second := by
  constructor
  · intro hstreams
    have hsplit := congrArg (List.splitOn separator) hstreams
    rw [splitOn_terminated hfirst, splitOn_terminated hsecond] at hsplit
    exact List.append_cancel_right hsplit
  · rintro rfl
    rfl

/-- The parts of a list around the first separator. -/
theorem splitOn_cons (symbol : α) (rest : List α) : (symbol :: rest).splitOn separator =
    if symbol = separator then [] :: rest.splitOn separator
    else (rest.splitOn separator).modifyHead (List.cons symbol) := by
  rw [List.splitOn_cons_eq_if_modifyHead]
  by_cases hsymbol : symbol = separator <;> simp [hsymbol]

/-- The parts between the separators have none. -/
theorem not_mem_of_mem_splitOn {list : List α} :
    ∀ part ∈ list.splitOn separator, separator ∉ part := by
  induction list with
  | nil => simp [List.splitOn_nil]
  | cons symbol rest ih =>
    rw [splitOn_cons]
    by_cases hsymbol : symbol = separator
    · rw [if_pos hsymbol]
      exact List.forall_mem_cons.mpr ⟨List.not_mem_nil, ih⟩
    · rw [if_neg hsymbol]
      cases hparts : rest.splitOn separator with
      | nil => exact absurd hparts (List.splitOn_ne_nil separator rest)
      | cons part others =>
        rw [hparts] at ih
        obtain ⟨hpart, hothers⟩ := List.forall_mem_cons.mp ih
        refine List.forall_mem_cons.mpr ⟨?_, hothers⟩
        rw [List.mem_cons]
        rintro (hsame | hmem)
        · exact hsymbol hsame.symm
        · exact hpart hmem

/-- There is one part more than there are separators. -/
theorem length_splitOn (list : List α) :
    (list.splitOn separator).length = list.count separator + 1 := by
  induction list with
  | nil => rfl
  | cons symbol rest ih =>
    rw [splitOn_cons]
    by_cases hsymbol : symbol = separator
    · rw [if_pos hsymbol, List.length_cons, ih, hsymbol, List.count_cons_self]
    · rw [if_neg hsymbol, List.length_modifyHead, ih, List.count_cons_of_ne hsymbol]

/-- A terminated list is the stream of its parts. -/
theorem terminated_splitOn (list : List α) :
    terminated separator (list.splitOn separator) = list ++ [separator] := by
  induction list with
  | nil => rfl
  | cons symbol rest ih =>
    rw [splitOn_cons]
    by_cases hsymbol : symbol = separator
    · rw [if_pos hsymbol, hsymbol, List.cons_append, ← ih]
      rfl
    · rw [if_neg hsymbol, List.cons_append, ← ih]
      cases hparts : rest.splitOn separator with
      | nil => exact absurd hparts (List.splitOn_ne_nil separator rest)
      | cons part others => rfl

end Delimited

end OpfsWebauthn.Foundation
