import Narrative.Timers

/-!
This module contains the order in which timers fall due: by deadline, then by the place of the choice. The timers
that are due at a time are fixed by it, and an advance of the clock removes just those.
-/

namespace Narrative

namespace Timer

variable {a b c : Timer}

theorem firesBefore_iff : a.firesBefore b ↔ a.deadline.nanos < b.deadline.nanos ∨
    (a.deadline.nanos = b.deadline.nanos ∧ a.choice ≤ b.choice) := by
  unfold firesBefore
  simp

theorem firesBefore_trans (hab : a.firesBefore b) (hbc : b.firesBefore c) : a.firesBefore c := by
  rw [firesBefore_iff] at *
  omega

theorem firesBefore_total (a b : Timer) : a.firesBefore b || b.firesBefore a := by
  rw [Bool.or_eq_true, firesBefore_iff, firesBefore_iff]
  omega

theorem firesBefore_antisymm (hab : a.firesBefore b) (hba : b.firesBefore a) : a = b := by
  rw [firesBefore_iff] at hab hba
  have hdeadline : a.deadline = b.deadline := by
    apply Duration.ext
    omega
  have hchoice : a.choice = b.choice := by omega
  cases a
  cases b
  cases hdeadline
  cases hchoice
  rfl

end Timer

namespace Timers

variable {t : Timers} {time : Duration}

theorem perm_dueAt (t : Timers) (time : Duration) :
    (t.dueAt time).Perm (t.pending.filter (·.deadline ≤ time)) := by
  unfold dueAt
  apply List.mergeSort_perm

theorem mem_dueAt {timer : Timer} :
    timer ∈ t.dueAt time ↔ timer ∈ t.pending ∧ timer.deadline ≤ time := by
  rw [(t.perm_dueAt time).mem_iff, List.mem_filter, decide_eq_true_iff]

theorem pairwise_dueAt (t : Timers) (time : Duration) :
    (t.dueAt time).Pairwise (fun a b => a.firesBefore b) := by
  unfold dueAt
  apply List.pairwise_mergeSort
  · intro a b c
    exact Timer.firesBefore_trans
  · exact Timer.firesBefore_total

/--
There is but one way to put the timers that are due into the order in which they fire.
-/
theorem eq_dueAt {due : List Timer} (hperm : due.Perm (t.pending.filter (·.deadline ≤ time)))
    (hsorted : due.Pairwise (fun a b => a.firesBefore b)) : due = t.dueAt time := by
  apply List.Perm.eq_of_pairwise _ hsorted (t.pairwise_dueAt time)
  · exact hperm.trans (t.perm_dueAt time).symm
  · intro a b _ _
    exact Timer.firesBefore_antisymm

theorem mem_advance {elapsed : Duration} {timer : Timer} :
    timer ∈ (t.advance elapsed).2.pending ↔
      timer ∈ t.pending ∧ ¬timer.deadline ≤ t.now + elapsed := by
  unfold advance
  rw [List.mem_filter, Bool.not_eq_true', decide_eq_false_iff_not]

end Timers

end Narrative
