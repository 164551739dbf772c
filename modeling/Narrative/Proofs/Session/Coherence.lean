import Narrative.Proofs.Session.Event

/-!
This module contains the invariant of a session: how its fields agree with each other. Every event preserves it.
-/

namespace Narrative

namespace Session

variable {s : Session}

def screen (s : Session) : Phase :=
  match s.pending, s.active, s.ending with
  | some _, _, _ => .loading
  | none, some _, _ => .choicesVisible
  | none, none, some _ => .ended
  | none, none, none => .idle

/--
The choices that the content on screen has for the settled progress.
-/
def offered (s : Session) : List ChoiceView :=
  match s.active with
  | some content => content.views s.config s.settled
  | none => []

/--
The invariant. While the successor of a choice is loading, the offered choices are still those of the progress
before that choice; timers wait only while choices are on offer.
-/
structure Coherent (s : Session) : Prop where
  phase_eq : s.phase = s.screen
  isSome_chapter : s.chapter.isSome = s.active.isSome
  ending_eq_none : s.active.isSome → s.ending = none
  choices_eq : s.choices = s.offered
  isSome_rollback : s.rollback.isSome → s.pending.isSome ∧ s.active.isSome
  timers_eq_nil : s.phase ≠ .choicesVisible → s.timers.pending = []
  request_eq : ∀ request, s.pending = some request → request = .ofId request.id

theorem coherent_new (config : Config) (source : Option ContentSource) (player : Option Player) :
    (Session.new config source player).Coherent where
  phase_eq := rfl
  isSome_chapter := rfl
  ending_eq_none := nofun
  choices_eq := rfl
  isSome_rollback := nofun
  timers_eq_nil := fun _ => rfl
  request_eq := nofun

namespace Coherent

theorem rollback_eq_none (hs : s.Coherent) (h : s.pending = none) : s.rollback = none := by
  cases hrollback : s.rollback with
  | none => rfl
  | some p =>
    have hpending := (hs.isSome_rollback (by rw [hrollback]; rfl)).1
    rw [h] at hpending
    cases hpending

theorem settled_eq (hs : s.Coherent) (h : s.pending = none) : s.settled = s.player := by
  unfold settled
  rw [hs.rollback_eq_none h]
  rfl

theorem phase_eq_loading (hs : s.Coherent) {request : ContentRequest}
    (h : s.pending = some request) : s.phase = .loading := by
  rw [hs.phase_eq]
  unfold screen
  rw [h]

theorem timers_eq_nil_of_pending (hs : s.Coherent) {request : ContentRequest}
    (h : s.pending = some request) : s.timers.pending = [] := by
  apply hs.timers_eq_nil
  rw [hs.phase_eq_loading h]
  decide

theorem pending_of_fired (hs : s.Coherent) {elapsed : Duration} (h : s.fired? elapsed ≠ none) :
    s.pending = none := by
  cases hpending : s.pending with
  | none => rfl
  | some request => exact absurd (fired?_eq_none (hs.timers_eq_nil_of_pending hpending)) h

theorem pending_of_fired_eq_some (hs : s.Coherent) {elapsed : Duration} {index : Nat}
    (h : s.fired? elapsed = some index) : s.pending = none := by
  have hne : s.fired? elapsed ≠ none := by
    rw [h]
    nofun
  exact hs.pending_of_fired hne

theorem passing (hs : s.Coherent) (elapsed : Duration) : (s.passing elapsed).Coherent := by
  refine { hs with timers_eq_nil := ?_ }
  intro hphase
  have hnil := hs.timers_eq_nil hphase
  unfold Session.passing Timers.advance
  dsimp
  rw [hnil]
  rfl

theorem dropped (hs : s.Coherent) : s.cancelTimers.session.Coherent :=
  { hs with timers_eq_nil := fun _ => rfl }

theorem loading (hs : s.Coherent) (id : String) (h : s.pending = none) :
    (s.loading id).Coherent := by
  refine { hs with phase_eq := rfl, isSome_rollback := ?_, timers_eq_nil := fun _ => rfl, request_eq := ?_ }
  · intro hrollback
    have hsome : s.rollback.isSome := hrollback
    rw [hs.rollback_eq_none h] at hsome
    cases hsome
  · intro request hrequest
    cases hrequest
    rfl

theorem taking (hs : s.Coherent) {index : Nat} {chapter : Chapter} {choice : Choice} (id : String)
    (h : s.pending = none) (hchoice : s.choiceAt? index = some (chapter, choice)) :
    (s.taking chapter choice id).Coherent := by
  have hloading := hs.loading id h
  refine { hloading with choices_eq := ?_, isSome_rollback := ?_ }
  · -- The choices stay those of the progress that is put aside.
    have hchoices := hs.choices_eq
    unfold offered at hchoices
    rw [hs.settled_eq h] at hchoices
    exact hchoices
  · intro _
    refine ⟨rfl, ?_⟩
    obtain ⟨_, content, hactive, _⟩ := choiceAt?_eq_some.mp hchoice
    show s.active.isSome
    rw [hactive]
    rfl

theorem presenting (content : ActiveContent) (hpending : s.pending = none)
    (hrollback : s.rollback = none) (hchapter : s.chapter.isSome) (hactive : s.active = some content)
    (hending : s.ending = none) : (s.presenting content).Coherent where
  phase_eq := by
    show Phase.choicesVisible = (s.presenting content).screen
    unfold screen Session.presenting
    dsimp
    rw [hpending, hactive]
  isSome_chapter := by
    show s.chapter.isSome = s.active.isSome
    rw [hchapter, hactive]
    rfl
  ending_eq_none := fun _ => hending
  choices_eq := by
    unfold offered settled Session.presenting
    dsimp
    rw [hactive, hrollback]
    rfl
  isSome_rollback := by
    intro h
    have hsome : s.rollback.isSome := h
    rw [hrollback] at hsome
    cases hsome
  timers_eq_nil := fun h => absurd rfl h
  request_eq := by
    intro request hrequest
    have hsome : s.pending = some request := hrequest
    rw [hpending] at hsome
    cases hsome

theorem reaching (hs : s.Coherent) {request : ContentRequest} (document : Document)
    (h : s.pending = some request) : (s.reaching request.id document).Coherent := by
  cases document with
  | chapter chapter =>
    unfold Session.reaching
    apply presenting <;> rfl
  | ending ending =>
    exact {
      phase_eq := rfl
      isSome_chapter := rfl
      ending_eq_none := nofun
      choices_eq := rfl
      isSome_rollback := nofun
      timers_eq_nil := fun _ => hs.timers_eq_nil_of_pending h
      request_eq := nofun
    }

theorem returning (hs : s.Coherent) {request : ContentRequest} (h : s.pending = some request) :
    s.returning.Coherent := by
  unfold Session.returning
  cases hactive : s.active with
  | some content =>
    dsimp
    apply presenting
    · rfl
    · rfl
    · show s.chapter.isSome
      rw [hs.isSome_chapter, hactive]
      rfl
    · rfl
    · apply hs.ending_eq_none
      rw [hactive]
      rfl
  | none =>
    -- There were no choices to be undone; what is left is the ending, or nothing.
    have hchoices := hs.choices_eq
    have hchapter := hs.isSome_chapter
    unfold offered at hchoices
    rw [hactive] at hchoices hchapter
    exact {
      phase_eq := by
        unfold screen
        dsimp
        cases s.ending <;> rfl
      isSome_chapter := hchapter
      ending_eq_none := nofun
      choices_eq := hchoices
      isSome_rollback := nofun
      timers_eq_nil := fun _ => hs.timers_eq_nil_of_pending h
      request_eq := nofun
    }

theorem changing (hs : s.Coherent) (p : Player) (h : s.pending = none)
    (hchapter : s.chapter.isSome) : (s.changing p).Coherent := by
  rw [hs.isSome_chapter, Option.isSome_iff_exists] at hchapter
  obtain ⟨content, hactive⟩ := hchapter
  rw [changing_of_active p h hactive]
  refine { hs with phase_eq := ?_, choices_eq := ?_, timers_eq_nil := fun hphase => absurd rfl hphase }
  · unfold screen
    dsimp
    rw [h, hactive]
  · unfold offered settled
    dsimp
    rw [hactive, hs.rollback_eq_none h]
    rfl

theorem reset (s : Session) : s.reset.session.Coherent where
  phase_eq := rfl
  isSome_chapter := rfl
  ending_eq_none := nofun
  choices_eq := rfl
  isSome_rollback := nofun
  timers_eq_nil := fun _ => rfl
  request_eq := nofun

theorem after (hs : s.Coherent) {event : Event} (h : s.Occurs event) : (s.after event).Coherent := by
  cases h with
  | passed elapsed => exact hs.passing elapsed
  | dropped => exact hs.dropped
  | began id hpending => exact hs.loading id hpending
  | took hpending hchoice hsuccessor => exact hs.taking _ hpending hchoice
  | reached hpending hdocument => exact hs.reaching _ hpending
  | returned hpending => exact hs.returning hpending
  | cast hpending hchapter hspell =>
    apply hs.changing _ hpending
    rw [hchapter]
    rfl
  | reset => exact Coherent.reset s

theorem path {t : Session} {events : List Event} (hs : s.Coherent) (h : Path s events t) :
    t.Coherent :=
  h.preserves Coherent (fun _ _ hs hoccurs => hs.after hoccurs) hs

end Coherent

end Session

end Narrative
