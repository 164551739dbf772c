import Narrative.Duration

/-!
This module contains the timers of timed choices on a clock that only moves when it is told to. A timer
fires at the first advance that brings the clock to its deadline.
-/

namespace Narrative

/--
A timer that has not fired: the choice it belongs to and the time at which it falls due.
-/
structure Timer where
  choice : Nat
  deadline : Duration
  deriving DecidableEq

/--
Whether the first of two timers fires no later: by deadline, then by the place of the choice.
-/
def Timer.firesBefore (a b : Timer) : Bool :=
  a.deadline.nanos < b.deadline.nanos ||
    (a.deadline.nanos == b.deadline.nanos && a.choice ≤ b.choice)

structure Timers where
  now : Duration
  pending : List Timer
  deriving DecidableEq

namespace Timers

def start : Timers := ⟨.zero, []⟩

instance : Inhabited Timers := ⟨start⟩

/--
Arm a timer for a choice, due after the given time.
-/
def arm (t : Timers) (choice : Nat) (after : Duration) : Timers :=
  { t with pending := t.pending ++ [⟨choice, t.now + after⟩] }

/--
The timers that are due at a time, in the order in which they fire.
-/
def dueAt (t : Timers) (time : Duration) : List Timer :=
  (t.pending.filter (·.deadline ≤ time)).mergeSort Timer.firesBefore

/--
Let time pass. The choices whose timers fell due are given in the order in which they fire, and their
timers are gone.
-/
def advance (t : Timers) (elapsed : Duration) : List Nat × Timers :=
  let now := t.now + elapsed
  ((t.dueAt now).map (·.choice), ⟨now, t.pending.filter (fun timer => !(timer.deadline ≤ now))⟩)

def clear (t : Timers) : Timers :=
  { t with pending := [] }

/--
Drop all timers that are pending. The answer is how many there were.
-/
def cancelAll (t : Timers) : Nat × Timers :=
  (t.pending.length, t.clear)

end Timers

end Narrative
