import Mathlib.Data.List.Basic

/-!
# Histories

A history is a list that grows at its end. What is said of every entry and the entries before it
carries over to the next history when it holds of the entry that was added: `split_concat` says
where an entry of the longer history stands.
-/

set_option autoImplicit false
set_option relaxedAutoImplicit false

namespace OpfsWebauthn.Foundation

variable {α : Type*} {history before after : List α} {last entry : α}

/-- An entry of a history that has grown is the last one, or an entry of the history before. -/
theorem split_concat (hsplit : history ++ [last] = before ++ entry :: after) :
    (history = before ∧ last = entry ∧ after = []) ∨
      ∃ inner, history = before ++ entry :: inner ∧ after = inner ++ [last] := by
  rcases List.eq_nil_or_concat after with rfl | ⟨inner, final, rfl⟩
  · obtain ⟨hbefore, hlast⟩ := List.append_inj' hsplit rfl
    exact Or.inl ⟨hbefore, List.singleton_inj.mp hlast, rfl⟩
  · have hinit : history ++ [last] = (before ++ entry :: inner) ++ [final] := by
      simpa using hsplit
    obtain ⟨hhistory, hfinal⟩ := List.append_inj' hinit rfl
    exact Or.inr ⟨inner, hhistory, by rw [List.singleton_inj.mp hfinal, List.concat_eq_append]⟩

end OpfsWebauthn.Foundation
