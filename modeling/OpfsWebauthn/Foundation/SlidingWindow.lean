import Mathlib.Algebra.Order.Monoid.Unbundled.Basic
import Mathlib.Data.List.Basic
import Mathlib.Data.List.TakeWhile

/-!
# Events in a sliding window

A log of the times of events that is purged from the front before each new entry: what is older than
the window is dropped. Times do not go down, so the purge drops exactly what is too old, and the log
always has the same recent entries as the list of all events. `Purged.push` is the invariant of such
a log, and `Purged.length_purge` says that it counts what it should.
-/

set_option autoImplicit false
set_option relaxedAutoImplicit false

namespace OpfsWebauthn.Foundation

variable {τ : Type*} [LinearOrder τ] [Add τ]

/-- The events within the window before a time. -/
def recent (window now : τ) (times : List τ) : List τ :=
  times.filter fun time ↦ now ≤ time + window

/-- Dropping from the front what is older than the window. -/
def purge (window now : τ) (times : List τ) : List τ :=
  times.dropWhile fun time ↦ time + window < now

/-- A log that has all events but some that are older than the window. -/
def Purged (window now : τ) (times log : List τ) : Prop :=
  ∃ dropped, times = dropped ++ log ∧ ∀ time ∈ dropped, time + window < now

variable {window now later : τ} {times log : List τ}

/-- Nothing is recent when everything is too old. -/
theorem recent_eq_nil (hold : ∀ time ∈ times, time + window < now) :
    recent window now times = [] := by
  refine List.filter_eq_nil_iff.mpr fun time htime ↦ ?_
  simpa using hold time htime

/-- When times do not go down, a purge keeps what is recent. -/
theorem purge_eq_recent [AddRightMono τ] (hsorted : times.Pairwise (· ≤ ·)) :
    purge window now times = recent window now times := by
  induction times with
  | nil => rfl
  | cons first rest ih =>
    obtain ⟨hfirst, hrest⟩ := List.pairwise_cons.mp hsorted
    unfold purge recent
    by_cases hold : first + window < now
    · rw [List.dropWhile_cons_of_pos (by simpa using hold),
        List.filter_cons_of_neg (by simpa using hold)]
      exact ih hrest
    · rw [List.dropWhile_cons_of_neg (by simpa using hold)]
      refine (List.filter_eq_self.mpr ?_).symm
      intro time htime
      rcases List.mem_cons.mp htime with rfl | hlater
      · simpa using hold
      · have hle : first + window ≤ time + window := add_le_add_left (hfirst time hlater) window
        simpa using (not_lt.mp hold).trans hle

/-- A log without entries is purged. -/
theorem purged_nil : Purged window now [] [] :=
  ⟨[], rfl, fun _ htime ↦ by cases htime⟩

/-- A log stays purged as time goes on. -/
theorem Purged.mono (hpurged : Purged window now times log) (hlater : now ≤ later) :
    Purged window later times log := by
  obtain ⟨dropped, hsplit, hold⟩ := hpurged
  exact ⟨dropped, hsplit, fun time htime ↦ (hold time htime).trans_le hlater⟩

/-- The log has the recent events. -/
theorem Purged.recent_eq (hpurged : Purged window now times log) :
    recent window now log = recent window now times := by
  obtain ⟨dropped, rfl, hold⟩ := hpurged
  rw [recent, recent, List.filter_append]
  have hnone := recent_eq_nil hold
  unfold recent at hnone
  rw [hnone, List.nil_append]

/-- A purge of the log leaves as many entries as there are recent events. -/
theorem Purged.length_purge [AddRightMono τ] (hpurged : Purged window now times log)
    (hsorted : times.Pairwise (· ≤ ·)) :
    (purge window now log).length = (recent window now times).length := by
  have hlog : log.Pairwise (· ≤ ·) := by
    obtain ⟨dropped, rfl, -⟩ := hpurged
    exact (List.pairwise_append.mp hsorted).2.1
  rw [purge_eq_recent hlog, hpurged.recent_eq]

/-- The log stays purged when it is purged and the time of a new event is added. -/
theorem Purged.push (hpurged : Purged window now times log) :
    Purged window now (times ++ [now]) (purge window now log ++ [now]) := by
  obtain ⟨dropped, rfl, hold⟩ := hpurged
  refine ⟨dropped ++ log.takeWhile fun time ↦ time + window < now, ?_, ?_⟩
  · have hlog : log.takeWhile (fun time ↦ time + window < now) ++ purge window now log = log :=
      List.takeWhile_append_dropWhile
    calc dropped ++ log ++ [now]
        = dropped ++ (log.takeWhile (fun time ↦ time + window < now) ++ purge window now log) ++
            [now] := by rw [hlog]
      _ = _ := by simp only [List.append_assoc]
  · intro time htime
    rcases List.mem_append.mp htime with hdropped | htaken
    · exact hold time hdropped
    · simpa using List.mem_takeWhile_imp htaken

end OpfsWebauthn.Foundation
