import Narrative.Proofs.Session.Presentation

/-!
This module contains the course of the presentation on screen: the session in which it began, the time that has passed
since, and the timers that have waited in it. A choice that is taken on its own has been on screen for as long as its
timeout says, unless the clock has come to the greatest time.
-/

namespace Narrative

/--
The time that an event lets pass, in nanoseconds.
-/
def Event.nanos : Event → Nat
  | .passed elapsed => elapsed.nanos
  | _ => 0

/--
What is remembered of the presentation on screen: the session with which it began, the nanoseconds that have passed
since, and all timers that have been seen to wait in it.
-/
structure Showing where
  first : Session
  polled : Nat
  waited : List Timer

namespace Session

/--
Whether a presentation begins with an event: a chapter is reached, or returned to.
-/
def presents (s : Session) : Event → Bool
  | .reached _ (.chapter _) => true
  | .returned => s.active.isSome
  | _ => false

end Session

namespace Showing

def opening (s : Session) : Showing :=
  ⟨s, 0, s.timers.pending⟩

/--
The same presentation after one more event.
-/
def extend (showing : Showing) (event : Event) (s : Session) : Showing :=
  { showing with
    polled := showing.polled + event.nanos
    waited := showing.waited ++ s.timers.pending }

def note (shown : Option Showing) (s : Session) (event : Event) : Option Showing :=
  if s.presents event then
    some (opening (s.after event))
  else
    shown.map (·.extend event (s.after event))

def along (shown : Option Showing) (s : Session) : List Event → Option Showing
  | [] => shown
  | event :: rest => along (note shown s event) (s.after event) rest

end Showing

namespace Session

variable {s t : Session} {event : Event} {showing : Showing} {shown : Option Showing}

/--
The presentation on screen after events in a session that has presented nothing before them.
-/
def showing? (s : Session) (events : List Event) : Option Showing :=
  Showing.along none s events

/--
What a session is like when a presentation begins: the choices and the timers are those of the content on screen.
-/
structure Opens (s : Session) (content : ActiveContent) : Prop where
  active_eq : s.active = some content
  choices_eq : s.choices = content.views s.config s.player
  timers_eq : s.timers.pending = content.timersAt s.config s.player s.timers.now

/--
The presentation on screen goes on over an event. Time may pass, but no timers are armed, and none are lost unless they
are dropped.
-/
structure Continues (s t : Session) (event : Event) : Prop where
  visible : s.phase = .choicesVisible
  active_eq : t.active = s.active
  config_eq : t.config = s.config
  now_eq : t.timers.now = s.timers.now + .ofNanos event.nanos
  pending_subset : t.timers.pending ⊆ s.timers.pending
  retained : event ≠ .dropped → ∀ timer ∈ s.timers.pending,
    timer ∈ t.timers.pending ∨ timer.deadline ≤ t.timers.now

/--
How a session stands to the presentation on screen.
-/
structure Within (s : Session) (showing : Showing) : Prop where
  opens : ∃ content, showing.first.Opens content
  active_eq : s.active = showing.first.active
  config_eq : s.config = showing.first.config
  now_eq : s.timers.now = .ofNanos (showing.first.timers.now.nanos + showing.polled)
  opening_subset : showing.first.timers.pending ⊆ showing.waited
  waited_subset : showing.waited ⊆ showing.first.timers.pending
  pending_subset : s.timers.pending ⊆ showing.waited

theorem opens_presenting {content : ActiveContent} (htimers : s.timers.pending = [])
    (hactive : s.active = some content) : (s.presenting content).Opens content where
  active_eq := hactive
  choices_eq := rfl
  timers_eq := by
    rw [presenting_timers htimers]
    rfl

theorem Coherent.opens_of_presents (hs : s.Coherent) (hoccurs : s.Occurs event) (h : s.presents event) :
    ∃ content, (s.after event).Opens content := by
  cases hoccurs with
  | @reached request text document hpending hdocument =>
    cases document with
    | chapter chapter => exact ⟨_, opens_presenting (hs.timers_eq_nil_of_pending hpending) rfl⟩
    | ending ending => cases h
  | returned hpending =>
    obtain ⟨content, hactive⟩ := Option.isSome_iff_exists.mp h
    show ∃ content, s.returning.Opens content
    unfold Session.returning
    rw [hactive]
    exact ⟨content, opens_presenting (hs.timers_eq_nil_of_pending hpending) rfl⟩
  | passed | dropped | began | took | cast | reset => cases h

/--
Choices are on offer after an event if a presentation begins with it, or goes on over it.
-/
theorem Coherent.presents_or_continues (hs : s.Coherent) (hoccurs : s.Occurs event)
    (h : (s.after event).phase = .choicesVisible) : s.presents event ∨ s.Continues (s.after event) event := by
  cases hoccurs with
  | passed elapsed =>
    right
    refine ⟨h, rfl, rfl, ?_, ?_, ?_⟩
    · show s.timers.now + elapsed = s.timers.now + .ofNanos elapsed.nanos
      rw [Duration.ofNanos_nanos]
    · intro timer htimer
      exact (Timers.mem_advance.mp htimer).1
    · intro _ timer htimer
      by_cases hdeadline : timer.deadline ≤ s.timers.now + elapsed
      · exact .inr hdeadline
      · exact .inl (Timers.mem_advance.mpr ⟨htimer, hdeadline⟩)
  | dropped => exact .inr ⟨h, rfl, rfl, (Duration.add_zero _).symm, List.nil_subset _, fun hne => absurd rfl hne⟩
  | began | took | reset => cases h
  | @reached request text document hpending hdocument =>
    cases document with
    | chapter chapter => exact .inl rfl
    | ending ending => cases h
  | returned hpending =>
    cases hactive : s.active with
    | some content =>
      left
      show s.active.isSome
      rw [hactive]
      rfl
    | none =>
      change s.returning.phase = _ at h
      unfold Session.returning at h
      rw [hactive] at h
      dsimp only at h
      split at h <;> cases h
  | @cast _ chapter spell hpending hchapter _ =>
    right
    have hactive := hs.isSome_chapter
    rw [hchapter, Option.isSome_some, eq_comm, Option.isSome_iff_exists] at hactive
    obtain ⟨content, hactive⟩ := hactive
    have hvisible : s.phase = .choicesVisible := by
      rw [hs.phase_eq]
      unfold screen
      rw [hpending, hactive]
    show s.Continues (s.changing _) _
    rw [changing_of_active _ hpending hactive]
    exact ⟨hvisible, rfl, rfl, (Duration.add_zero _).symm, List.Subset.refl _, fun _ _ => .inl⟩

namespace Within

theorem opening (h : ∃ content, s.Opens content) : s.Within (.opening s) where
  opens := h
  active_eq := rfl
  config_eq := rfl
  now_eq := (Duration.ofNanos_nanos s.timers.now).symm
  opening_subset := List.Subset.refl _
  waited_subset := List.Subset.refl _
  pending_subset := List.Subset.refl _

theorem extend (h : s.Within showing) (hcontinues : s.Continues t event) :
    t.Within (showing.extend event t) where
  opens := h.opens
  active_eq := hcontinues.active_eq.trans h.active_eq
  config_eq := hcontinues.config_eq.trans h.config_eq
  now_eq := by
    rw [hcontinues.now_eq, h.now_eq, Duration.ofNanos_add, Nat.add_assoc]
    rfl
  opening_subset := List.subset_append_of_subset_left _ h.opening_subset
  waited_subset := by
    intro timer htimer
    rcases List.mem_append.mp htimer with hbefore | hnow
    · exact h.waited_subset hbefore
    · exact h.waited_subset (h.pending_subset (hcontinues.pending_subset hnow))
  pending_subset := List.subset_append_right _ _

end Within

/--
While choices are on offer, the session is within a presentation.
-/
def Shown (s : Session) (shown : Option Showing) : Prop :=
  s.phase = .choicesVisible → ∃ showing, shown = some showing ∧ s.Within showing

theorem shown_new (config : Config) (source : Option ContentSource) (player : Option Player) :
    (Session.new config source player).Shown none := nofun

theorem Shown.after (hs : s.Coherent) (h : s.Shown shown) (hoccurs : s.Occurs event) :
    (s.after event).Shown (Showing.note shown s event) := by
  intro hphase
  unfold Showing.note
  by_cases hpresents : s.presents event
  · rw [if_pos hpresents]
    exact ⟨_, rfl, .opening (hs.opens_of_presents hoccurs hpresents)⟩
  · rw [if_neg hpresents]
    have hcontinues := (hs.presents_or_continues hoccurs hphase).resolve_left hpresents
    obtain ⟨showing, rfl, hwithin⟩ := h hcontinues.visible
    exact ⟨_, rfl, hwithin.extend hcontinues⟩

theorem Shown.path {events : List Event} (hs : s.Coherent) (h : s.Shown shown) (hpath : Path s events t) :
    t.Shown (Showing.along shown s events) := by
  induction hpath generalizing shown with
  | nil s => exact h
  | cons hoccurs _ ih => exact ih (hs.after hoccurs) (h.after hs hoccurs)

end Session

end Narrative
