import Narrative.Proofs.Session.Agreement
import Narrative.Proofs.Session.Ledger
import Narrative.Proofs.Session.Timeout

/-!
This module contains sessions that are the same but for the time on their clocks, and the session that a reset leaves:
it goes on like one that has just begun, only at a later time.
-/

namespace Narrative

variable {delay elapsed : Duration}

def Timer.delayed (timer : Timer) (delay : Duration) : Timer :=
  { timer with deadline := timer.deadline + delay }

namespace Timers

variable {t : Timers}

/--
The same timers at a later time: the clock and every deadline are moved on.
-/
def delayed (t : Timers) (delay : Duration) : Timers :=
  ⟨t.now + delay, t.pending.map (·.delayed delay)⟩

theorem uniform_delayed (delay : Duration) : Uniform (·.delayed delay) where
  clear := fun _ => rfl
  arm := by
    intro t choice after
    unfold delayed arm
    dsimp only
    rw [List.map_append, Duration.add_right_comm]
    rfl
  length := by
    intro t
    unfold delayed
    dsimp only
    rw [List.length_map]

/--
Timers that are due before the greatest time keep their order when they are moved on.
-/
theorem firesBefore_delayed {a b : Timer} (ha : a.deadline.nanos + delay.nanos < Duration.limit)
    (hb : b.deadline.nanos + delay.nanos < Duration.limit) :
    (a.delayed delay).firesBefore (b.delayed delay) = a.firesBefore b := by
  rw [Bool.eq_iff_iff, Timer.firesBefore_iff, Timer.firesBefore_iff]
  unfold Timer.delayed
  dsimp only
  simp only [Duration.nanos_add]
  omega

/--
Short of the greatest time the same timers fall due, and in the same order. At the greatest time every timer would.
-/
theorem advance_delayed (h : (t.now + delay + elapsed).nanos < Duration.limit) :
    (t.delayed delay).advance elapsed =
      ((t.advance elapsed).1, (t.advance elapsed).2.delayed delay) := by
  have hlt : t.now.nanos + delay.nanos + elapsed.nanos < Duration.limit := by
    simp only [Duration.nanos_add] at h
    omega
  have hdue (timer : Timer) : decide ((timer.delayed delay).deadline ≤ t.now + delay + elapsed) =
      decide (timer.deadline ≤ t.now + elapsed) := by
    rw [decide_eq_decide]
    show (timer.deadline + delay).nanos ≤ (t.now + delay + elapsed).nanos ↔
      timer.deadline.nanos ≤ (t.now + elapsed).nanos
    simp only [Duration.nanos_add]
    omega
  unfold advance dueAt delayed
  dsimp only
  rw [List.filter_map, List.filter_map]
  unfold Function.comp
  simp only [hdue]
  rw [← List.map_mergeSort (r := Timer.firesBefore), List.map_map, Duration.add_right_comm]
  · rfl
  · have hexact {timer : Timer}
        (hmem : timer ∈ t.pending.filter (fun timer => decide (timer.deadline ≤ t.now + elapsed))) :
        timer.deadline.nanos + delay.nanos < Duration.limit := by
      rw [List.mem_filter, decide_eq_true_iff] at hmem
      have hle : timer.deadline.nanos ≤ (t.now + elapsed).nanos := hmem.2
      rw [Duration.nanos_add] at hle
      omega
    intro a ha b hb
    exact (firesBefore_delayed (hexact ha) (hexact hb)).symm

end Timers

namespace Session

variable {s t : Session}

def delayed (s : Session) (delay : Duration) : Session :=
  s.retimed (·.delayed delay)

/--
What the calls of a run are answered, each with the notices that it sends.
-/
def replies (s : Session) : List Call → List (Except SessionError Answer × List Notice)
  | [] => []
  | call :: rest =>
    let reply := s.perform call
    (reply.answer, reply.notices) :: replies reply.session rest

theorem now_after (s : Session) (event : Event) : s.timers.now ≤ (s.after event).timers.now := by
  cases event with
  | passed elapsed => exact Duration.le_add s.timers.now elapsed
  | reached id document => cases document <;> exact Nat.le_refl _
  | returned =>
    show s.timers.now ≤ s.returning.timers.now
    unfold returning
    cases s.active <;> exact Nat.le_refl _
  | cast chapter spell =>
    show s.timers.now ≤ (s.changing _).timers.now
    rw [changing_frame]
    exact Nat.le_refl _
  | dropped | began | took | reset => exact Nat.le_refl _

theorem now_path {events : List Event} (h : Path s events t) : s.timers.now ≤ t.timers.now := by
  induction h with
  | nil s => exact Nat.le_refl _
  | cons _ _ ih => exact Nat.le_trans (now_after _ _) ih

theorem Coherent.now_run (hs : s.Coherent) (calls : List Call) :
    s.timers.now ≤ (s.run calls).timers.now :=
  now_path (path_trace hs calls)

theorem hostEvents_pollTimers (s : Session) (elapsed : Duration) :
    ∃ rest, s.hostEvents (.pollTimers elapsed) = .passed elapsed :: rest := by
  unfold hostEvents
  cases (s.perform (.pollTimers elapsed)).answer with
  | error e => exact ⟨_, rfl⟩
  | ok answer => cases answer <;> exact ⟨_, rfl⟩

/--
A call that moves the clock does so before anything else.
-/
theorem trace_of_elapsing? {call : Call} (h : s.elapsing? call = some elapsed) :
    ∃ events, s.trace [call] = .passed elapsed :: events := by
  obtain ⟨first, hfirst⟩ := s.hostEvents_pollTimers elapsed
  cases call with
  | pollTimers duration =>
    cases h
    rw [trace_of_isHostCall rfl]
    exact ⟨first, hfirst⟩
  | tick duration =>
    unfold elapsing? at h
    cases hsource : s.source with
    | none =>
      rw [hsource] at h
      cases h
    | some source =>
      rw [hsource] at h
      cases h
      by_cases hrequest : ∃ request, (s.perform (.pollTimers elapsed)).answer = .ok (.request request)
      · obtain ⟨request, hrequest⟩ := hrequest
        rw [trace_of_request rfl hsource hrequest, hfirst]
        exact ⟨_, rfl⟩
      · rw [trace_of_no_request rfl hsource hrequest]
        exact ⟨first, hfirst⟩
  | _ => cases h

theorem Coherent.now_of_elapsing? (hs : s.Coherent) {call : Call}
    (h : s.elapsing? call = some elapsed) :
    s.timers.now + elapsed ≤ (s.perform call).session.timers.now := by
  obtain ⟨events, hevents⟩ := trace_of_elapsing? h
  have hpath : Path s (s.trace [call]) (s.run [call]) := path_trace hs [call]
  rw [hevents] at hpath
  cases hpath with
  | cons _ hrest => exact now_path hrest

/--
A session at a later time does the same, as long as its clock does not reach the greatest time.
-/
theorem perform_delayed {call : Call} (hs : (s.delayed delay).Coherent)
    (h : ((s.delayed delay).perform call).session.timers.now.nanos < Duration.limit) :
    (s.delayed delay).perform call = (s.perform call).retimed (·.delayed delay) := by
  apply perform_retimed (Timers.uniform_delayed delay)
  intro elapsed helapsed
  have hsame : (s.delayed delay).elapsing? call = some elapsed := helapsed
  have hnow : (s.timers.now + delay + elapsed).nanos ≤
      ((s.delayed delay).perform call).session.timers.now.nanos := hs.now_of_elapsing? hsame
  exact Timers.advance_delayed (Nat.lt_of_le_of_lt hnow h)

theorem run_delayed {calls : List Call} (hs : (s.delayed delay).Coherent)
    (h : ((s.delayed delay).run calls).timers.now.nanos < Duration.limit) :
    (s.delayed delay).replies calls = s.replies calls ∧
      (s.delayed delay).run calls = (s.run calls).delayed delay := by
  induction calls generalizing s with
  | nil => exact ⟨rfl, rfl⟩
  | cons call rest ih =>
    rw [run_cons] at h
    have hnext := hs.run [call]
    rw [run_cons, run_nil] at hnext
    -- The clock never goes back, so it has not reached the greatest time before.
    have hfirst := perform_delayed hs (Nat.lt_of_le_of_lt (hnext.now_run rest) h)
    rw [hfirst] at hnext h
    obtain ⟨hreplies, hrun⟩ := ih hnext h
    constructor
    · unfold replies
      rw [hfirst]
      exact congrArg (((s.perform call).answer, (s.perform call).notices) :: ·) hreplies
    · rw [run_cons, run_cons, hfirst]
      exact hrun

theorem Coherent.config_run (hs : s.Coherent) (calls : List Call) : (s.run calls).config = s.config := by
  apply (path_trace hs calls).preserves (fun t => t.config = s.config)
  · intro t event ht _
    rw [config_after, ht]
  · rfl

theorem session_reset (s : Session) :
    s.reset.session = (Session.new s.config s.source none).delayed s.timers.now := by
  unfold reset delayed retimed Timers.delayed Session.new Timers.start Timers.clear
  dsimp only
  rw [Duration.zero_add]
  rfl

/--
Whatever a session has been through, after a reset it goes on like one that has just begun: calls are answered alike
and send the same notices, and at every point the sessions are the same but for the time, by which the one that was
reset is ahead. This holds as long as its clock does not reach the greatest time.
-/
theorem replies_reset_run (config : Config) (source : Option ContentSource) (player : Option Player)
    (calls rest : List Call)
    (h : (((Session.new config source player).run calls).reset.session.run rest).timers.now ≠
      .greatest) :
    let s := (Session.new config source player).run calls
    let fresh := Session.new config source none
    s.reset.session.replies rest = fresh.replies rest ∧
      ∀ first, first <+: rest →
        s.reset.session.run first = (fresh.run first).delayed s.timers.now := by
  intro s fresh
  have hfirst := coherent_new config source player
  have hreset : s.reset.session = fresh.delayed s.timers.now := by
    rw [session_reset, hfirst.config_run, hfirst.source_run]
    rfl
  have hs : s.reset.session.Coherent := Coherent.reset s
  have hlt : (s.reset.session.run rest).timers.now.nanos < Duration.limit :=
    Duration.nanos_lt_of_ne_greatest h
  rw [hreset] at hs hlt ⊢
  refine ⟨(run_delayed hs hlt).1, ?_⟩
  rintro first ⟨later, rfl⟩
  rw [run_append] at hlt
  have hbefore := (hs.run first).now_run later
  exact (run_delayed hs (Nat.lt_of_le_of_lt hbefore hlt)).2

/--
The reset comes a second late, while the successor of a choice is loading; then a choice falls due.
-/
theorem replies_reset_run_ferry :
    let calls : List Call := [.pollTimers second, .beginLoad "crossroads", .completeLoad crossroads,
      .selectChoice 0]
    let rest : List Call := [.beginLoad "ferry", .completeLoad ferry, .pollTimers second]
    let s := (Session.new .builtin none none).run calls
    let fresh := Session.new .builtin none none
    s.rollback.isSome ∧ s.timers.now = second ∧
      (s.reset.session.run rest).timers.now ≠ .greatest ∧
        s.reset.session.replies rest = fresh.replies rest ∧
          s.reset.session.run rest = (fresh.run rest).delayed second := by
  intro calls rest s fresh
  obtain ⟨hrollback, hnow, hclock⟩ : s.rollback.isSome ∧ s.timers.now = second ∧
      (s.reset.session.run rest).timers.now ≠ .greatest := by
    decide +kernel
  obtain ⟨hreplies, hrun⟩ := replies_reset_run .builtin none none calls rest hclock
  refine ⟨hrollback, hnow, hclock, hreplies, ?_⟩
  rw [← hnow]
  exact hrun rest (List.prefix_refl rest)

end Session

end Narrative
