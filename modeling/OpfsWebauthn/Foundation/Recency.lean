import Mathlib.Data.List.Basic
import Mathlib.Data.List.Dedup

/-!
# The entries of a history that were used last

`lastDistinct cap history` are the `cap` distinct entries of a history that were used last, ordered
by their last use, oldest first. A cache that moves an entry to its end when the entry is used, and
drops the first entry when there are more than `cap`, holds these entries: `lastDistinct_concat_hit`
and `lastDistinct_concat_miss` are its two steps.

`mem_lastDistinct_append` says when an entry is still there: fewer than `cap` distinct entries were
used after its last use.
-/

set_option autoImplicit false
set_option relaxedAutoImplicit false

namespace OpfsWebauthn.Foundation

section Recency

variable {α : Type*} {cap : ℕ} {history : List α} {entry : α}

/-- An entry of a history has a last use. -/
theorem exists_last_use (hmem : entry ∈ history) :
    ∃ before since, history = before ++ entry :: since ∧ entry ∉ since := by
  obtain ⟨since, before, hreverse, habsent⟩ :=
    List.eq_append_cons_of_mem (List.mem_reverse.mpr hmem)
  refine ⟨before.reverse, since.reverse, ?_, by simpa using habsent⟩
  rw [← List.reverse_reverse history, hreverse]
  simp

variable [DecidableEq α]

/-- The distinct entries of a history that were used last, oldest first. -/
def lastDistinct (cap : ℕ) (history : List α) : List α :=
  history.dedup.drop (history.dedup.length - cap)

/-- There are at most as many as the cap. -/
theorem length_lastDistinct_le (cap : ℕ) (history : List α) :
    (lastDistinct cap history).length ≤ cap := by
  rw [lastDistinct, List.length_drop]
  omega

/-- They are distinct. -/
theorem nodup_lastDistinct (cap : ℕ) (history : List α) : (lastDistinct cap history).Nodup :=
  (List.nodup_dedup history).sublist (List.drop_sublist _ _)

/-- A use moves the entry to the end of the distinct entries. -/
theorem dedup_concat (history : List α) (entry : α) :
    (history ++ [entry]).dedup = (history.dedup.filter fun other ↦ other ≠ entry) ++ [entry] := by
  induction history with
  | nil => simp
  | cons first rest ih =>
    by_cases hrest : first ∈ rest
    · rw [List.cons_append, List.dedup_cons_of_mem (List.mem_append_left _ hrest), ih,
        List.dedup_cons_of_mem hrest]
    · rw [List.dedup_cons_of_notMem hrest]
      by_cases hsame : first = entry
      · have hmem : first ∈ rest ++ [entry] := by simp [hsame]
        rw [List.cons_append, List.dedup_cons_of_mem hmem, ih]
        simp [hsame]
      · have hnew : first ∉ rest ++ [entry] := by simp [hrest, hsame]
        rw [List.cons_append, List.dedup_cons_of_notMem hnew, ih]
        simp [hsame]

/-- The distinct entries are the ones used last after others, and no others were used before unless
the cap is reached. -/
theorem exists_split (cap : ℕ) (history : List α) : ∃ before,
    history.dedup = before ++ lastDistinct cap history ∧
      (before ≠ [] → (lastDistinct cap history).length = cap) := by
  refine ⟨history.dedup.take (history.dedup.length - cap), (List.take_append_drop _ _).symm, ?_⟩
  intro hbefore
  have hpos : history.dedup.length - cap ≠ 0 := fun hzero ↦ hbefore (by rw [hzero, List.take_zero])
  rw [lastDistinct, List.length_drop]
  omega

/-- This determines them. -/
theorem lastDistinct_eq_of_split {before last : List α} (hsplit : history.dedup = before ++ last)
    (hlength : last.length ≤ cap) (hfull : before ≠ [] → last.length = cap) :
    lastDistinct cap history = last := by
  rw [lastDistinct, hsplit, List.length_append]
  by_cases hbefore : before = []
  · have hzero : before.length + last.length - cap = 0 := by
      rw [hbefore, List.length_nil]
      omega
    rw [hzero, List.drop_zero, hbefore, List.nil_append]
  · rw [hfull hbefore, Nat.add_sub_cancel, List.drop_left]

/-- Entries that are not the used one are not moved. -/
theorem filter_of_not_mem {entries : List α} (habsent : entry ∉ entries) :
    (entries.filter fun other ↦ other ≠ entry) = entries := by
  refine List.filter_eq_self.mpr fun other hother ↦ ?_
  have hne : other ≠ entry := fun hsame ↦ habsent (hsame ▸ hother)
  simpa using hne

/-- An entry that is there is moved to the end by a use. -/
theorem lastDistinct_concat_hit (hmem : entry ∈ lastDistinct cap history) :
    lastDistinct cap (history ++ [entry]) =
      ((lastDistinct cap history).filter fun other ↦ other ≠ entry) ++ [entry] := by
  obtain ⟨before, hsplit, hfull⟩ := exists_split cap history
  have hnodup := List.nodup_dedup history
  rw [hsplit, List.nodup_append] at hnodup
  have habsent : entry ∉ before := fun hbefore ↦ hnodup.2.2 entry hbefore entry hmem rfl
  have hlength : ((lastDistinct cap history).filter fun other ↦ other ≠ entry).length + 1 =
      (lastDistinct cap history).length := by
    have hfilter : ((lastDistinct cap history).filter fun other ↦ other ≠ entry) =
        (lastDistinct cap history).erase entry := by
      rw [(nodup_lastDistinct cap history).erase_eq_filter]
      refine List.filter_congr fun other _ ↦ ?_
      by_cases hsame : other = entry <;> simp [hsame]
    have hpos := List.length_pos_of_mem hmem
    rw [hfilter, List.length_erase_of_mem hmem]
    omega
  refine @lastDistinct_eq_of_split _ cap _ _ before _ ?_ ?_ ?_
  · rw [dedup_concat, hsplit, List.filter_append, filter_of_not_mem habsent, List.append_assoc]
  · rw [List.length_append, List.length_singleton, hlength]
    exact length_lastDistinct_le cap history
  · intro hbefore
    rw [List.length_append, List.length_singleton, hlength]
    exact hfull hbefore

/-- A use of an entry that is not there puts it at the end, and drops the first entry when there
are as many as the cap. -/
theorem lastDistinct_concat_miss (hcap : 0 < cap) (hmem : entry ∉ lastDistinct cap history) :
    lastDistinct cap (history ++ [entry]) =
      if (lastDistinct cap history).length = cap then (lastDistinct cap history).tail ++ [entry]
      else lastDistinct cap history ++ [entry] := by
  obtain ⟨before, hsplit, hfull⟩ := exists_split cap history
  have hdedup : (history ++ [entry]).dedup = (before.filter fun other ↦ other ≠ entry) ++
      (lastDistinct cap history ++ [entry]) := by
    rw [dedup_concat, hsplit, List.filter_append, filter_of_not_mem hmem, List.append_assoc]
  by_cases hlength : (lastDistinct cap history).length = cap
  · rw [if_pos hlength]
    cases hlast : lastDistinct cap history with
    | nil =>
      rw [hlast, List.length_nil] at hlength
      omega
    | cons first rest =>
      rw [hlast, List.length_cons] at hlength
      have hrest : (rest ++ [entry]).length = cap := by
        rw [List.length_append, List.length_singleton, hlength]
      have hparts : (history ++ [entry]).dedup =
          ((before.filter fun other ↦ other ≠ entry) ++ [first]) ++ (rest ++ [entry]) := by
        rw [hdedup, hlast, List.append_assoc]
        rfl
      exact lastDistinct_eq_of_split hparts (Nat.le_of_eq hrest) fun _ ↦ hrest
  · have hnone : before = [] := by
      by_contra hsome
      exact hlength (hfull hsome)
    have hle := length_lastDistinct_le cap history
    rw [if_neg hlength]
    refine @lastDistinct_eq_of_split _ cap _ _ [] _ ?_ ?_ fun hne ↦ absurd rfl hne
    · rw [hdedup, hnone]
      rfl
    · rw [List.length_append, List.length_singleton]
      omega

/-- After the last use of an entry, the distinct entries end in this entry and those used since. -/
theorem suffix_dedup {before since : List α} (habsent : entry ∉ since) :
    entry :: since.dedup <:+ (before ++ entry :: since).dedup := by
  rw [List.dedup_append, List.dedup_cons_of_notMem habsent]
  exact List.suffix_union_right _ _

/-- Only entries of the history are there. -/
theorem mem_of_mem_lastDistinct (hmem : entry ∈ lastDistinct cap history) : entry ∈ history :=
  List.mem_dedup.mp (List.mem_of_mem_drop hmem)

/-- An entry is there exactly when fewer distinct entries than the cap were used after its last
use. -/
theorem mem_lastDistinct_append {before since : List α} (habsent : entry ∉ since) :
    entry ∈ lastDistinct cap (before ++ entry :: since) ↔ since.dedup.length < cap := by
  obtain ⟨others, hsplit, hfull⟩ := exists_split cap (before ++ entry :: since)
  have hlast : lastDistinct cap (before ++ entry :: since) <:+
      (before ++ entry :: since).dedup := ⟨others, hsplit.symm⟩
  have hsuffix := @suffix_dedup _ entry _ before since habsent
  constructor
  · intro hmem
    by_contra hlong
    have hlength := length_lastDistinct_le cap (before ++ entry :: since)
    have hsince := List.suffix_of_suffix_length_le hlast
      ((List.suffix_cons entry since.dedup).trans hsuffix) (by omega)
    exact habsent (List.mem_dedup.mp (hsince.subset hmem))
  · intro hfew
    by_cases hothers : others = []
    · rw [hothers, List.nil_append] at hsplit
      rw [← hsplit]
      exact hsuffix.subset List.mem_cons_self
    · have hlength := hfull hothers
      have hwithin := List.suffix_of_suffix_length_le hsuffix hlast (by
        rw [List.length_cons]
        omega)
      exact hwithin.subset List.mem_cons_self

end Recency

end OpfsWebauthn.Foundation
