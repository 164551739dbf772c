import Mathlib.Algebra.Ring.Nat
import Mathlib.Data.List.Basic
import Mathlib.Data.List.Induction
import Narrative.Proofs.Timers

/-!
This module contains runs of calls to timers, and what becomes of every timer that is armed in a run: it fires at the
first later advance that brings the clock to its deadline, unless all timers are cancelled before that.
-/

namespace Narrative

inductive TimerCall where
  | arm (choice : Nat) (after : Duration)
  | advance (elapsed : Duration)
  | cancelAll

inductive TimerAnswer where
  | armed
  | fired (choices : List Nat)
  | cancelled (count : Nat)

/--
A timer that is armed in a run of calls, with the place of the call that arms it.
-/
structure Arming where
  place : Nat
  timer : Timer

def Arming.firesBefore (a b : Arming) : Bool :=
  a.timer.firesBefore b.timer

namespace TimerAnswer

def firedCount : TimerAnswer → Nat
  | .fired choices => choices.length
  | _ => 0

def cancelledCount : TimerAnswer → Nat
  | .cancelled count => count
  | _ => 0

end TimerAnswer

namespace Timers

def perform (t : Timers) : TimerCall → TimerAnswer × Timers
  | .arm choice after => (.armed, t.arm choice after)
  | .advance elapsed => (.fired (t.advance elapsed).1, (t.advance elapsed).2)
  | .cancelAll => (.cancelled t.cancelAll.1, t.cancelAll.2)

def run (t : Timers) (calls : List TimerCall) : Timers :=
  calls.foldl (fun t call => (t.perform call).2) t

def answers (t : Timers) : List TimerCall → List TimerAnswer
  | [] => []
  | call :: rest => (t.perform call).1 :: (t.perform call).2.answers rest

end Timers

theorem exists_append_of_getElem? {α : Type} {l : List α} {place : Nat} {a : α} (h : l[place]? = some a) :
    ∃ first rest, l = first ++ a :: rest ∧ first.length = place := by
  obtain ⟨hlt, rfl⟩ := List.getElem?_eq_some_iff.mp h
  refine ⟨l.take place, l.drop (place + 1), ?_, List.length_take_of_le (Nat.le_of_lt hlt)⟩
  rw [← List.drop_eq_getElem_cons hlt, List.take_append_drop]

namespace TimerCall

variable {first rest calls : List TimerCall} {call : TimerCall} {place : Nat} {timer : Timer} {arming : Arming}

def isArm : TimerCall → Bool
  | .arm _ _ => true
  | _ => false

/--
The time that a call lets pass, in nanoseconds.
-/
def nanos : TimerCall → Nat
  | .advance elapsed => elapsed.nanos
  | _ => 0

/--
The clock after calls: the sum of the time that they let pass, or the greatest time.
-/
def clock (calls : List TimerCall) : Duration :=
  .ofNanos (calls.map nanos).sum

/--
The timer that a call arms at a time. It falls due its delay after that.
-/
def timerAt? (call : TimerCall) (now : Duration) : Option Timer :=
  match call with
  | .arm choice after => some ⟨choice, now + after⟩
  | _ => none

/--
Whether a call that leaves the clock at a time ends the wait of a timer: the clock has come to its deadline, or all
timers are cancelled.
-/
def ends (call : TimerCall) (now : Duration) (timer : Timer) : Bool :=
  match call with
  | .arm _ _ => false
  | .advance _ => timer.deadline ≤ now
  | .cancelAll => true

/--
The timer that the call at a place of a run arms.
-/
def armingAt? (calls : List TimerCall) (place : Nat) : Option Arming :=
  (calls[place]?.bind (·.timerAt? (clock (calls.take place)))).map (⟨place, ·⟩)

def armings (calls : List TimerCall) : List Arming :=
  (List.range calls.length).filterMap (armingAt? calls)

/--
Whether the call at a place of a run ends the wait of a timer.
-/
def endsAt (calls : List TimerCall) (timer : Timer) (place : Nat) : Bool :=
  calls[place]?.any (·.ends (clock (calls.take (place + 1))) timer)

/--
The place of the call that ends the wait of a timer: the first to do so after the one that arms it.
-/
def fate? (calls : List TimerCall) (arming : Arming) : Option Nat :=
  (List.range calls.length).find? fun place => arming.place < place && endsAt calls arming.timer place

/--
The timers whose wait is ended at a place, or at none, in the order in which they are armed.
-/
def withFate (calls : List TimerCall) (fate : Option Nat) : List Arming :=
  (armings calls).filter (fun arming => fate? calls arming = fate)

theorem clock_append (calls : List TimerCall) (call : TimerCall) :
    clock (calls ++ [call]) = clock calls + .ofNanos call.nanos := by
  unfold clock
  rw [Duration.ofNanos_add, List.map_append, List.sum_append, List.map_singleton, List.sum_singleton]

theorem armingAt?_append (h : place < first.length) :
    armingAt? (first ++ rest) place = armingAt? first place := by
  unfold armingAt?
  rw [List.getElem?_append_left h, List.take_append_of_le_length (Nat.le_of_lt h)]

theorem armingAt?_length (first rest : List TimerCall) (call : TimerCall) :
    armingAt? (first ++ call :: rest) first.length =
      (call.timerAt? (clock first)).map (⟨first.length, ·⟩) := by
  unfold armingAt?
  simp

theorem endsAt_append (h : place < first.length) :
    endsAt (first ++ rest) timer place = endsAt first timer place := by
  unfold endsAt
  rw [List.getElem?_append_left h, List.take_append_of_le_length h]

theorem endsAt_length (first rest : List TimerCall) (call : TimerCall) (timer : Timer) :
    endsAt (first ++ call :: rest) timer first.length = call.ends (clock (first ++ [call])) timer := by
  have htake : (first ++ call :: rest).take (first.length + 1) = first ++ [call] := by
    rw [List.take_length_add_append]
    rfl
  unfold endsAt
  rw [htake]
  simp

theorem place_eq (h : armingAt? calls place = some arming) : arming.place = place := by
  obtain ⟨timer, _, rfl⟩ := Option.map_eq_some_iff.mp h
  rfl

theorem place_lt_of_mem (h : arming ∈ armings calls) : arming.place < calls.length := by
  obtain ⟨place, hplace, harming⟩ := List.mem_filterMap.mp h
  rw [place_eq harming]
  exact List.mem_range.mp hplace

/--
What later calls arm comes after what earlier calls arm.
-/
theorem armings_append (first rest : List TimerCall) :
    armings (first ++ rest) = armings first ++
      (List.range rest.length).filterMap (fun place => armingAt? (first ++ rest) (first.length + place)) := by
  unfold armings
  rw [List.length_append, List.range_add, List.filterMap_append, List.filterMap_map]
  congr 1
  apply List.filterMap_congr
  intro place hplace
  exact armingAt?_append (List.mem_range.mp hplace)

theorem fate?_eq_none : fate? calls arming = none ↔
    ∀ place < calls.length, arming.place < place → endsAt calls arming.timer place = false := by
  unfold fate?
  simp

theorem fate?_eq_some : fate? calls arming = some place ↔
    (arming.place < place ∧ endsAt calls arming.timer place) ∧ place < calls.length ∧
      ∀ earlier < place, arming.place < earlier → endsAt calls arming.timer earlier = false := by
  unfold fate?
  rw [List.find?_range_eq_some]
  simp only [Bool.and_eq_true, decide_eq_true_eq, List.mem_range, Bool.not_eq_true', Bool.and_eq_false_imp]

theorem fate?_append_eq_none (h : arming.place < first.length) : fate? (first ++ [call]) arming = none ↔
    fate? first arming = none ∧ call.ends (clock (first ++ [call])) arming.timer = false := by
  rw [fate?_eq_none, fate?_eq_none, ← endsAt_length first [] call, List.length_append]
  constructor
  · intro hwaits
    refine ⟨?_, hwaits _ (by simp) h⟩
    intro place hplace hlt
    rw [← endsAt_append hplace]
    exact hwaits place (by omega) hlt
  · rintro ⟨hfirst, hlast⟩ place hplace hlt
    rcases Nat.lt_or_eq_of_le (Nat.le_of_lt_succ hplace) with hbefore | rfl
    · rw [endsAt_append hbefore]
      exact hfirst place hbefore hlt
    · exact hlast

theorem fate?_eq_some_length (h : arming.place < first.length) :
    fate? (first ++ call :: rest) arming = some first.length ↔
      fate? first arming = none ∧ call.ends (clock (first ++ [call])) arming.timer := by
  rw [fate?_eq_some, fate?_eq_none, endsAt_length]
  constructor
  · rintro ⟨⟨_, hends⟩, _, hearlier⟩
    refine ⟨?_, hends⟩
    intro place hplace hlt
    rw [← endsAt_append hplace]
    exact hearlier place hplace hlt
  · rintro ⟨hfirst, hends⟩
    refine ⟨⟨h, hends⟩, by simp, ?_⟩
    intro place hplace hlt
    rw [endsAt_append hplace]
    exact hfirst place hplace hlt

/--
The timers that wait on after one more call: those that it does not end, and the one that it arms.
-/
theorem withFate_append_none (calls : List TimerCall) (call : TimerCall) :
    withFate (calls ++ [call]) none =
      (withFate calls none).filter (fun arming => !call.ends (clock (calls ++ [call])) arming.timer) ++
        ((call.timerAt? (clock calls)).map (⟨calls.length, ·⟩)).toList := by
  have harmed : armings (calls ++ [call]) =
      armings calls ++ ((call.timerAt? (clock calls)).map (⟨calls.length, ·⟩)).toList := by
    rw [armings_append, ← armingAt?_length calls [] call]
    cases harming : armingAt? (calls ++ [call]) calls.length <;> simp [harming]
  unfold withFate
  rw [harmed, List.filter_append, List.filter_filter]
  congr 1
  · apply List.filter_congr
    intro arming harming
    have hfate : fate? (calls ++ [call]) arming = none ↔ _ := fate?_append_eq_none (place_lt_of_mem harming)
    simp [hfate, Bool.and_comm]
  · apply List.filter_eq_self.mpr
    intro arming harming
    rw [Option.mem_toList, Option.map_eq_some_iff] at harming
    obtain ⟨timer, _, rfl⟩ := harming
    rw [decide_eq_true_iff, fate?_eq_none, List.length_append]
    -- No call comes after the one that arms it.
    intro place hplace (hlt : calls.length < place)
    rw [List.length_singleton] at hplace
    omega

/--
The timers whose wait a call ends are those that wait before it and do not outlast it.
-/
theorem withFate_length (first rest : List TimerCall) (call : TimerCall) :
    withFate (first ++ call :: rest) (some first.length) =
      (withFate first none).filter (fun arming => call.ends (clock (first ++ [call])) arming.timer) := by
  have hlater : ((List.range (call :: rest).length).filterMap
      (fun place => armingAt? (first ++ call :: rest) (first.length + place))).filter
        (fun arming => fate? (first ++ call :: rest) arming = some first.length) = [] := by
    apply List.filter_eq_nil_iff.mpr
    intro arming harming
    rw [decide_eq_true_iff]
    intro hfate
    obtain ⟨place, _, harming⟩ := List.mem_filterMap.mp harming
    have hplace := place_eq harming
    have hlt := (fate?_eq_some.mp hfate).1.1
    omega
  unfold withFate
  rw [armings_append, List.filter_append, hlater, List.append_nil, List.filter_filter]
  apply List.filter_congr
  intro arming harming
  have hfate : fate? (first ++ call :: rest) arming = _ ↔ _ := fate?_eq_some_length (place_lt_of_mem harming)
  simp [hfate, Bool.and_comm]

end TimerCall

namespace Timers

open TimerCall

theorem run_append (t : Timers) (calls : List TimerCall) (call : TimerCall) :
    t.run (calls ++ [call]) = ((t.run calls).perform call).2 := by
  unfold run
  rw [List.foldl_append]
  rfl

theorem run_cons (t : Timers) (call : TimerCall) (rest : List TimerCall) :
    t.run (call :: rest) = (t.perform call).2.run rest := rfl

theorem now_perform (t : Timers) (call : TimerCall) :
    (t.perform call).2.now = t.now + .ofNanos call.nanos := by
  cases call with
  | arm choice after => exact (Duration.add_zero t.now).symm
  | advance elapsed =>
    rw [nanos, Duration.ofNanos_nanos]
    rfl
  | cancelAll => exact (Duration.add_zero t.now).symm

theorem now_run (calls : List TimerCall) : (start.run calls).now = clock calls := by
  induction calls using List.reverseRecOn with
  | nil => rfl
  | append_singleton calls call ih => rw [run_append, now_perform, ih, clock_append]

/--
The timers that are pending after calls are those whose wait none of the calls has ended.
-/
theorem pending_run (calls : List TimerCall) :
    (start.run calls).pending = (withFate calls none).map (·.timer) := by
  induction calls using List.reverseRecOn with
  | nil => rfl
  | append_singleton calls call ih =>
    have hnow := now_run (calls ++ [call])
    rw [run_append] at hnow ⊢
    rw [withFate_append_none, List.map_append, ← hnow, ← now_run calls]
    cases call with
    | arm choice after => simp [perform, arm, ih, ends, timerAt?]
    | advance elapsed =>
      show (start.run calls).pending.filter _ = _
      rw [ih, List.filter_map]
      simp only [timerAt?, Option.map_none, Option.toList_none, List.map_nil, List.append_nil]
      rfl
    | cancelAll => simp [perform, cancelAll, clear, ends, timerAt?]

theorem getElem?_answers (t : Timers) (first rest : List TimerCall) (call : TimerCall) :
    (t.answers (first ++ call :: rest))[first.length]? = some ((t.run first).perform call).1 := by
  induction first generalizing t with
  | nil => rfl
  | cons head first ih => exact ih (t.perform head).2

/--
An advance fires the timers whose wait it ends, in the order in which they fall due.
-/
theorem choices_advance (first rest : List TimerCall) (elapsed : Duration) :
    ((start.run first).advance elapsed).1 =
      ((withFate (first ++ .advance elapsed :: rest) (some first.length)).mergeSort Arming.firesBefore).map
        (·.timer.choice) := by
  have hnow := now_run (first ++ [.advance elapsed])
  rw [run_append] at hnow
  have hdue : (start.run first).dueAt ((start.run first).now + elapsed) =
      ((withFate (first ++ .advance elapsed :: rest) (some first.length)).mergeSort Arming.firesBefore).map
        (·.timer) := by
    have hsame : ∀ a b : Arming, a.firesBefore b = a.timer.firesBefore b.timer := fun _ _ => rfl
    rw [List.map_mergeSort (fun a _ b _ => hsame a b), withFate_length, ← hnow]
    unfold dueAt
    rw [pending_run, List.filter_map]
    rfl
  unfold advance
  dsimp only
  rw [hdue, List.map_map]
  rfl

theorem length_advance (t : Timers) (elapsed : Duration) :
    (t.advance elapsed).1.length + (t.advance elapsed).2.pending.length = t.pending.length := by
  unfold advance
  dsimp only
  rw [List.length_map, (t.perm_dueAt _).length_eq, ← List.length_eq_length_filter_add]

theorem balance_perform (t : Timers) (call : TimerCall) :
    (if call.isArm then 1 else 0) + t.pending.length =
      (t.perform call).1.firedCount + (t.perform call).1.cancelledCount + (t.perform call).2.pending.length := by
  cases call with
  | arm choice after =>
    show 1 + t.pending.length = 0 + 0 + (t.pending ++ [_]).length
    rw [List.length_append, List.length_singleton]
    omega
  | advance elapsed =>
    have hlength := t.length_advance elapsed
    show 0 + t.pending.length = (t.advance elapsed).1.length + 0 + (t.advance elapsed).2.pending.length
    omega
  | cancelAll =>
    show 0 + t.pending.length = 0 + t.pending.length + 0
    rfl

/--
No timer is lost, and none is told twice: those that are armed have fired, were cancelled, or are pending.
-/
theorem balance_run (t : Timers) (calls : List TimerCall) :
    calls.countP TimerCall.isArm + t.pending.length =
      ((t.answers calls).map (·.firedCount)).sum + ((t.answers calls).map (·.cancelledCount)).sum +
        (t.run calls).pending.length := by
  induction calls generalizing t with
  | nil => rfl
  | cons call rest ih =>
    have hfirst := t.balance_perform call
    have hrest := ih (t.perform call).2
    rw [List.countP_cons]
    unfold answers
    rw [run_cons, List.map_cons, List.map_cons, List.sum_cons, List.sum_cons]
    omega

/--
What timers that start empty tell of a run. The clock is the sum of what has passed; an advance tells of each timer
whose wait it ends, in the order in which they fall due; cancelling tells how many timers wait no longer; all others
are pending, and the numbers agree.
-/
structure Delivers (calls : List TimerCall) : Prop where
  now_eq : (start.run calls).now = clock calls
  fired : ∀ (place : Nat) (elapsed : Duration), calls[place]? = some (.advance elapsed) →
    ∃ due : List Arming, due.Perm (withFate calls (some place)) ∧ due.Pairwise (fun a b => a.firesBefore b) ∧
      (start.answers calls)[place]? = some (.fired (due.map (·.timer.choice)))
  cancelled : ∀ place : Nat, calls[place]? = some .cancelAll →
    (start.answers calls)[place]? = some (.cancelled (withFate calls (some place)).length)
  pending_eq : (start.run calls).pending = (withFate calls none).map (·.timer)
  balance : calls.countP TimerCall.isArm =
    ((start.answers calls).map (·.firedCount)).sum + ((start.answers calls).map (·.cancelledCount)).sum +
      (start.run calls).pending.length

/--
Over every run of calls, each timer that is armed fires exactly once, at the first later advance that brings the clock
to its deadline, unless all timers are cancelled before that.
-/
theorem delivers_calls (calls : List TimerCall) : Delivers calls where
  now_eq := now_run calls
  fired := by
    intro place elapsed hcall
    obtain ⟨first, rest, rfl, rfl⟩ := exists_append_of_getElem? hcall
    refine ⟨_, List.mergeSort_perm _ Arming.firesBefore, ?_, ?_⟩
    · apply List.pairwise_mergeSort
      · intro a b c
        exact Timer.firesBefore_trans
      · intro a b
        exact Timer.firesBefore_total a.timer b.timer
    · rw [getElem?_answers, ← choices_advance]
      rfl
  cancelled := by
    intro place hcall
    obtain ⟨first, rest, rfl, rfl⟩ := exists_append_of_getElem? hcall
    -- Cancelling ends every wait.
    have hall : withFate (first ++ .cancelAll :: rest) (some first.length) = withFate first none := by
      rw [withFate_length]
      exact List.filter_eq_self.mpr (fun _ _ => rfl)
    rw [getElem?_answers, hall, ← List.length_map Arming.timer, ← pending_run]
    rfl
  pending_eq := pending_run calls
  balance := balance_run start calls

end Timers

end Narrative
