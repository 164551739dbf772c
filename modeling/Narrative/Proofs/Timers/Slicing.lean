import Narrative.Proofs.Timers

/-!
This module contains that it does not matter in how many steps time passes: the same timers fire in the same order,
and the same timers are left.
-/

namespace Narrative.Timers

/--
Let spans of time pass one after another. The choices whose timers fall due are given in the order in which they fire.
-/
def advances (t : Timers) : List Duration → List Nat × Timers
  | [] => ([], t)
  | elapsed :: rest =>
    let (fired, later) := t.advance elapsed
    let (others, last) := later.advances rest
    (fired ++ others, last)

theorem filter_due (t : Timers) (a b : Duration) :
    (t.pending.filter (·.deadline ≤ t.now + a)).filter (·.deadline ≤ t.now + a + b) =
      t.pending.filter (·.deadline ≤ t.now + a) := by
  rw [List.filter_filter]
  apply List.filter_congr
  intro timer _
  have hlater (h : timer.deadline ≤ t.now + a) : timer.deadline ≤ t.now + a + b :=
    Nat.le_trans h (Duration.le_add (t.now + a) b)
  rw [← Bool.decide_and, decide_eq_decide]
  exact and_iff_right_of_imp hlater

theorem filter_waiting (t : Timers) (a b : Duration) :
    (t.pending.filter (fun timer => !(timer.deadline ≤ t.now + a))).filter
        (fun timer => !(timer.deadline ≤ t.now + a + b)) =
      t.pending.filter (fun timer => !(timer.deadline ≤ t.now + a + b)) := by
  rw [List.filter_filter]
  apply List.filter_congr
  intro timer _
  have hearlier (h : ¬timer.deadline ≤ t.now + a + b) : ¬timer.deadline ≤ t.now + a :=
    fun hle => h (Nat.le_trans hle (Duration.le_add (t.now + a) b))
  rw [← decide_not, ← decide_not, ← Bool.decide_and, decide_eq_decide]
  exact and_iff_left_of_imp hearlier

/--
What is due at a time was due before that or falls due later, and what was due before fires first.
-/
theorem dueAt_advance (t : Timers) (a b : Duration) :
    t.dueAt (t.now + a) ++ (t.advance a).2.dueAt (t.now + a + b) = t.dueAt (t.now + a + b) := by
  apply eq_dueAt
  · have hperm := (t.perm_dueAt (t.now + a)).append ((t.advance a).2.perm_dueAt (t.now + a + b))
    apply hperm.trans
    show (t.pending.filter _ ++ (t.pending.filter _).filter _).Perm _
    rw [← filter_due t a b, ← List.filter_append]
    exact (List.filter_append_perm _ t.pending).filter _
  · rw [List.pairwise_append]
    refine ⟨t.pairwise_dueAt _, (t.advance a).2.pairwise_dueAt _, ?_⟩
    intro early hearly late hlate
    have hdue := (mem_dueAt.mp hearly).2
    have hwaits := (mem_advance.mp (mem_dueAt.mp hlate).1).2
    rw [Timer.firesBefore_iff]
    exact .inl (Nat.lt_of_le_of_lt hdue (Nat.lt_of_not_le hwaits))

theorem advance_add (t : Timers) (a b : Duration) :
    t.advance (a + b) = ((t.advance a).1 ++ ((t.advance a).2.advance b).1, ((t.advance a).2.advance b).2) := by
  unfold advance
  dsimp only
  rw [← Duration.add_assoc, filter_waiting, ← List.map_append]
  congr 2
  exact (dueAt_advance t a b).symm

theorem advances_cons (t : Timers) (elapsed : Duration) (rest : List Duration) :
    t.advances (elapsed :: rest) = t.advance (rest.foldl (· + ·) elapsed) := by
  induction rest generalizing t elapsed with
  | nil => simp only [advances, List.append_nil, List.foldl_nil]
  | cons next rest ih =>
    rw [List.foldl_cons, ← ih]
    simp only [advances, advance_add, List.append_assoc]

/--
Two advances fire together what one of both spans fires, and leave the same clock and the same timers. So it is with
however many advances: what they fire depends on nothing but the time that passes in all.
-/
theorem advance_slices (t : Timers) :
    (∀ a b, ((t.advance a).1 ++ ((t.advance a).2.advance b).1, ((t.advance a).2.advance b).2) =
      t.advance (a + b)) ∧
    ∀ elapsed rest, t.advances (elapsed :: rest) = t.advance (rest.foldl (· + ·) elapsed) := by
  constructor
  · intro a b
    exact (t.advance_add a b).symm
  · exact t.advances_cons

end Narrative.Timers
