import Narrative.Proofs.Session.Showing
import Narrative.Proofs.Session.Timeout
import Narrative.Proofs.Session.Undo

/-!
This module contains how long a choice with a timeout waits before it is taken on its own: as long as its timeout says,
counted from the beginning of the presentation on screen, unless the clock has come to the greatest time. There it
stops, and every timer is due.
-/

namespace Narrative

theorem Duration.eq_greatest_iff {d : Duration} : d = .greatest ↔ d.nanos = Duration.limit := by
  constructor
  · rintro rfl
    exact Nat.min_self limit
  · intro h
    ext
    rw [h]
    exact (Nat.min_self limit).symm

/--
A deadline is passed when the delay has passed, or when the clock cannot go on.
-/
theorem Duration.deadline_le_iff {since after elapsed : Duration} {polled : Nat} :
    since + after ≤ ofNanos (since.nanos + polled) + elapsed ↔
      after.nanos ≤ polled + elapsed.nanos ∨ ofNanos (since.nanos + polled) + elapsed = .greatest := by
  have hsince := since.nanos_le
  have hafter := after.nanos_le
  have hnow : (ofNanos (since.nanos + polled)).nanos = min (since.nanos + polled) limit := rfl
  rw [eq_greatest_iff]
  show (since + after).nanos ≤ (ofNanos (since.nanos + polled) + elapsed).nanos ↔ _
  simp only [nanos_add, hnow]
  omega

namespace Session

variable {s : Session} {elapsed : Duration} {showing : Showing} {shown : Option Showing} {timer : Timer}

/--
Whether the time of a choice is up when a span has passed: it has been on screen for as long as its timeout says, or
the clock has come to the greatest time.
-/
def TimeUp (s : Session) (shown : Option Showing) (choice : Choice) (elapsed : Duration) : Prop :=
  ∃ showing after, shown = some showing ∧ choice.timeout.bind Duration.ofSeconds? = some after ∧
    (after.nanos ≤ showing.polled + elapsed.nanos ∨ s.timers.now + elapsed = .greatest)

/--
Timers wait for the time of their choices to be up, neither less nor more. No choice is taken on its own before that.
-/
structure Patient (s : Session) (shown : Option Showing) : Prop where
  due_iff : ∀ timer ∈ s.timers.pending, ∃ chapter choice, s.choiceAt? timer.choice = some (chapter, choice) ∧
    ∀ elapsed, timer.deadline ≤ s.timers.now + elapsed ↔ s.TimeUp shown choice elapsed
  resolved : ∀ elapsed chapter choice id,
    .took chapter choice id ∈ s.trace [.pollTimers elapsed] ∨
      .took chapter choice id ∈ s.trace [.tick elapsed] → s.TimeUp shown choice elapsed

/--
A timer of the presentation on screen is that of a choice on screen, and counts from when the presentation began.
-/
theorem Within.deadline_eq (h : s.Within showing) (hmem : timer ∈ s.timers.pending) :
    ∃ content choice after, s.active = some content ∧ content.choices[timer.choice]? = some choice ∧
      choice.timeout.bind Duration.ofSeconds? = some after ∧
      timer.deadline = showing.first.timers.now + after := by
  obtain ⟨content, hopens⟩ := h.opens
  have hfirst := h.waited_subset (h.pending_subset hmem)
  rw [hopens.timers_eq, ActiveContent.mem_timersAt] at hfirst
  obtain ⟨choice, after, hchoice, _, _, htimeout, hdeadline⟩ := hfirst
  exact ⟨content, choice, after, h.active_eq.trans hopens.active_eq, hchoice, htimeout, hdeadline⟩

theorem Coherent.due_iff (hs : s.Coherent) (h : s.Shown shown) (hmem : timer ∈ s.timers.pending) :
    ∃ chapter choice, s.choiceAt? timer.choice = some (chapter, choice) ∧
      ∀ elapsed, timer.deadline ≤ s.timers.now + elapsed ↔ s.TimeUp shown choice elapsed := by
  have hphase : s.phase = .choicesVisible := by
    by_cases hphase : s.phase = .choicesVisible
    · exact hphase
    · rw [hs.timers_eq_nil hphase] at hmem
      cases hmem
  obtain ⟨showing, rfl, hwithin⟩ := h hphase
  obtain ⟨content, choice, after, hactive, hchoice, htimeout, hdeadline⟩ := hwithin.deadline_eq hmem
  have hchapter := hs.isSome_chapter
  rw [hactive, Option.isSome_some, Option.isSome_iff_exists] at hchapter
  obtain ⟨chapter, hchapter⟩ := hchapter
  refine ⟨chapter, choice, choiceAt?_eq_some.mpr ⟨hchapter, content, hactive, hchoice⟩, ?_⟩
  intro elapsed
  unfold TimeUp
  rw [hdeadline, hwithin.now_eq, Duration.deadline_le_iff]
  constructor
  · intro hup
    exact ⟨showing, after, rfl, htimeout, hup⟩
  · rintro ⟨_, _, hshowing, hsame, hup⟩
    rw [htimeout] at hsame
    cases hshowing
    cases hsame
    exact hup

theorem Coherent.timeUp_of_fallsDue (hs : s.Coherent) (h : s.Shown shown) {chapter : Chapter} {choice : Choice}
    (hdue : s.FallsDue elapsed chapter choice) : s.TimeUp shown choice elapsed := by
  obtain ⟨timer, hmem, hdeadline, hplace⟩ := hdue.timer
  obtain ⟨_, _, hchoice, hiff⟩ := hs.due_iff h hmem
  rw [hplace] at hchoice
  cases hchoice
  exact (hiff elapsed).mp hdeadline

theorem Coherent.patient (hs : s.Coherent) (h : s.Shown shown) : s.Patient shown where
  due_iff := fun _ hmem => hs.due_iff h hmem
  resolved := by
    intro elapsed chapter choice id htook
    rcases htook with hpoll | htick
    · rw [trace_of_host rfl] at hpoll
      exact hs.timeUp_of_fallsDue h (hs.fallsDue_of_pollTimers hpoll)
    · exact hs.timeUp_of_fallsDue h (hs.fallsDue_of_tick htick)

/--
In every session that calls can lead to, a choice is taken on its own when it has been on screen for as long as its
timeout says, and no earlier, unless the clock has come to the greatest time.
-/
theorem patient_run (config : Config) (source : Option ContentSource) (player : Option Player)
    (calls : List Call) :
    let fresh := Session.new config source player
    (fresh.run calls).Patient (fresh.showing? (fresh.trace calls)) := by
  intro fresh
  have hfresh : fresh.Coherent := coherent_new config source player
  exact (hfresh.run calls).patient ((shown_new config source player).path hfresh (path_trace hfresh calls))

/--
Time that passes takes the choice whose timer falls due, as the answer tells.
-/
theorem took_of_fired {index : Nat} {chapter : Chapter} {choice : Choice} {request : ContentRequest}
    (hfired : s.fired? elapsed = some index) (hchoice : s.choiceAt? index = some (chapter, choice))
    (hanswer : (s.perform (.pollTimers elapsed)).answer = .ok (.request request)) :
    .took chapter choice request.id ∈ s.trace [.pollTimers elapsed] := by
  rw [trace_of_host rfl]
  unfold hostEvents
  rw [hanswer]
  dsimp only
  rw [hfired, beginning_some _ hchoice]
  exact List.mem_cons_of_mem _ (List.mem_singleton_self _)

/--
When the clock has stopped, a choice with a timeout of a second is taken without any time passing.
-/
theorem not_patient_ferry :
    ¬∀ (config : Config) (source : Option ContentSource) (player : Option Player) (calls : List Call)
      (elapsed : Duration) (chapter : Chapter) (choice : Choice) (id : String) (showing : Showing) (after : Duration),
      let fresh := Session.new config source player
      .took chapter choice id ∈ (fresh.run calls).trace [.pollTimers elapsed] →
        fresh.showing? (fresh.trace calls) = some showing →
        choice.timeout.bind Duration.ofSeconds? = some after → after.nanos ≤ showing.polled + elapsed.nanos := by
  intro hall
  have hfacts : ∀ fresh calls, fresh = Session.new .builtin none none →
      calls = [.pollTimers .greatest, .beginLoad "ferry", .completeLoad ferry] →
      ((fresh.run calls).perform (.pollTimers .zero)).answer.toOption = some (.request (.ofId "river")) ∧
        (fresh.run calls).fired? .zero = some 1 ∧
        ((fresh.run calls).choiceAt? 1).bind (fun place => place.2.timeout.bind Duration.ofSeconds?) = some second ∧
        (fresh.showing? (fresh.trace calls)).map (·.polled) = some 0 := by
    rintro fresh calls rfl rfl
    decide +kernel
  obtain ⟨hanswer, hfired, htimeout, hpolled⟩ := hfacts _ _ rfl rfl
  obtain ⟨⟨chapter, choice⟩, hchoice, htimeout⟩ := Option.bind_eq_some_iff.mp htimeout
  obtain ⟨showing, hshowing, hpolled⟩ := Option.map_eq_some_iff.mp hpolled
  have htook := took_of_fired hfired hchoice (answer_of_toOption hanswer)
  have hwaited := hall .builtin none none _ .zero chapter choice _ showing second htook hshowing htimeout
  rw [hpolled] at hwaited
  exact absurd hwaited (by decide)

end Session

end Narrative
