import Narrative.Proofs.Session.Refusal
import Narrative.Proofs.Session.Trace
import Narrative.Proofs.Views

/-!
This module contains what a host may rely on about the fields of a session, whatever calls it has seen.
-/

namespace Narrative.Session

variable {s : Session}

/--
How the fields of a session agree with its phase.
-/
structure Consistent (s : Session) : Prop where
  loading : s.phase = .loading ↔ s.pending.isSome
  chapter : s.chapter.isSome ↔ s.active.isSome
  oneScreen : ¬(s.active.isSome ∧ s.ending.isSome)
  choicesVisible : s.phase = .choicesVisible → s.active.isSome ∧ s.choices ≠ []
  ended : s.phase = .ended → s.ending.isSome ∧ s.choices = []
  idle : s.phase = .idle →
    s.chapter = none ∧ s.active = none ∧ s.ending = none ∧ s.choices = []
  rollback : s.rollback.isSome → s.pending.isSome ∧ s.active.isSome

inductive Shows (s : Session) : Phase → Prop where
  | loading {request : ContentRequest} (hpending : s.pending = some request) : Shows s .loading
  | choicesVisible {content : ActiveContent} (hpending : s.pending = none)
      (hactive : s.active = some content) : Shows s .choicesVisible
  | ended {ending : Ending} (hpending : s.pending = none) (hactive : s.active = none)
      (hending : s.ending = some ending) : Shows s .ended
  | idle (hpending : s.pending = none) (hactive : s.active = none) (hending : s.ending = none) :
      Shows s .idle

theorem shows_screen (s : Session) : s.Shows s.screen := by
  unfold screen
  split
  · next hpending => exact .loading hpending
  · next hpending hactive => exact .choicesVisible hpending hactive
  · next hpending hactive hending => exact .ended hpending hactive hending
  · next hpending hactive hending => exact .idle hpending hactive hending

namespace Coherent

theorem shows (hs : s.Coherent) {phase : Phase} (h : s.phase = phase) : s.Shows phase := by
  rw [← h, hs.phase_eq]
  exact shows_screen s

theorem choices_eq_nil (hs : s.Coherent) (h : s.active = none) : s.choices = [] := by
  rw [hs.choices_eq]
  unfold offered
  rw [h]

theorem choices_eq_views (hs : s.Coherent) {content : ActiveContent} (hpending : s.pending = none)
    (hactive : s.active = some content) : s.choices = content.views s.config s.player := by
  rw [hs.choices_eq]
  unfold offered
  rw [hactive, hs.settled_eq hpending]

theorem consistent (hs : s.Coherent) : s.Consistent where
  loading := by
    constructor
    · intro h
      cases hs.shows h with
      | loading hpending =>
        rw [hpending]
        rfl
    · intro h
      rw [Option.isSome_iff_exists] at h
      obtain ⟨request, hpending⟩ := h
      exact hs.phase_eq_loading hpending
  chapter := by rw [hs.isSome_chapter]
  oneScreen := by
    rintro ⟨hactive, hending⟩
    rw [hs.ending_eq_none hactive] at hending
    cases hending
  choicesVisible := by
    intro h
    cases hs.shows h with
    | choicesVisible hpending hactive =>
      refine ⟨by rw [hactive]; rfl, ?_⟩
      rw [hs.choices_eq_views hpending hactive]
      apply ActiveContent.views_ne_nil
  ended := by
    intro h
    cases hs.shows h with
    | ended hpending hactive hending =>
      refine ⟨by rw [hending]; rfl, ?_⟩
      exact hs.choices_eq_nil hactive
  idle := by
    intro h
    cases hs.shows h with
    | idle hpending hactive hending =>
      refine ⟨?_, hactive, hending, hs.choices_eq_nil hactive⟩
      have hchapter := hs.isSome_chapter
      rw [hactive] at hchapter
      simpa using hchapter
  rollback := hs.isSome_rollback

theorem selectChoice_ne_loadInProgress (position : Nat) (requested pending : String) :
    (s.selectChoice position).answer ≠ .error (.loadInProgress requested pending) := by
  intro h
  cases selectChoice_error h with
  | inl hcause => cases hcause
  | inr htaken =>
    obtain ⟨_, _, hcause⟩ := htaken
    cases hcause

theorem pollTimers_ne_loadInProgress (hs : s.Coherent) (elapsed : Duration)
    (requested pending : String) :
    (s.pollTimers elapsed).answer ≠ .error (.loadInProgress requested pending) := by
  intro h
  obtain ⟨index, _, huntakable⟩ := pollTimers_error hs.pending_of_fired h
  cases huntakable

end Coherent

/--
In every session that calls can lead to, the fields agree with the phase; a choice that is clicked or falls
due is never refused for a load that is pending; and for want of a source nothing is refused but at the outset.
-/
theorem consistent_run (config : Config) (source : Option ContentSource) (player : Option Player)
    (calls : List Call) :
    let s := (Session.new config source player).run calls
    s.Consistent ∧
      (∀ position requested pending,
        (s.selectChoice position).answer ≠ .error (.loadInProgress requested pending)) ∧
      (∀ elapsed requested pending,
        (s.pollTimers elapsed).answer ≠ .error (.loadInProgress requested pending)) ∧
      ∀ call, (s.perform call).answer = .error .noSource →
        s.source = none ∧ (s.perform call).session = s := by
  intro s
  have hs : s.Coherent := (coherent_new config source player).run calls
  refine ⟨hs.consistent, ?_, ?_, ?_⟩
  · exact Coherent.selectChoice_ne_loadInProgress
  · exact hs.pollTimers_ne_loadInProgress
  · intro call h
    exact perform_noSource (fun _ => hs.pending_of_fired) h

end Narrative.Session
