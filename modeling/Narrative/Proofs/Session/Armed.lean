import Narrative.Proofs.Session.Showing

/-!
This module contains which of the choices on screen have a timer. Timers are armed when a presentation begins, for the
choices that are shown then; a choice that a spell brings to light later shows its timeout but has no timer.
-/

namespace Narrative

/--
Whether a timer of a presented choice has waited in the presentation on screen, and is pending still or has fallen due.
-/
def Showing.Arms (showing : Showing) (s : Session) (view : ChoiceView) : Prop :=
  ∃ timer ∈ showing.waited, view.slot = .authored timer.choice ∧
    (timer ∈ s.timers.pending ∨ timer.deadline ≤ s.timers.now)

namespace Session

variable {s t : Session} {event : Event} {showing : Showing} {shown : Option Showing}

/--
While choices are on offer, none of the timers that the presentation began with is lost: each is pending still, or has
fallen due.
-/
def Retains (s : Session) (shown : Option Showing) : Prop :=
  s.phase = .choicesVisible → ∀ showing, shown = some showing →
    ∀ timer ∈ showing.first.timers.pending, timer ∈ s.timers.pending ∨ timer.deadline ≤ s.timers.now

theorem Retains.after (hs : s.Coherent) (h : s.Retains shown) (hoccurs : s.Occurs event) (hne : event ≠ .dropped) :
    (s.after event).Retains (Showing.note shown s event) := by
  intro hphase showing hshowing timer htimer
  unfold Showing.note at hshowing
  by_cases hpresents : s.presents event
  · rw [if_pos hpresents] at hshowing
    cases hshowing
    exact .inl htimer
  · rw [if_neg hpresents] at hshowing
    obtain ⟨earlier, hearlier, rfl⟩ := Option.map_eq_some_iff.mp hshowing
    have hcontinues := (hs.presents_or_continues hoccurs hphase).resolve_left hpresents
    rcases h hcontinues.visible earlier hearlier timer htimer with hpending | hdue
    · exact hcontinues.retained hne timer hpending
    · right
      rw [hcontinues.now_eq]
      exact Nat.le_trans hdue (Duration.le_add _ _)

theorem Retains.path {events : List Event} (hs : s.Coherent) (h : s.Retains shown) (hpath : Path s events t)
    (hevents : .dropped ∉ events) : t.Retains (Showing.along shown s events) := by
  induction hpath generalizing shown with
  | nil s => exact h
  | cons hoccurs _ ih =>
    rw [List.mem_cons, not_or] at hevents
    exact ih (hs.after hoccurs) (h.after hs hoccurs (Ne.symm hevents.1)) hevents.2

/--
A choice is shown with the same timeout wherever it is shown in a presentation, so that it has had a timer just if it
was shown when the presentation began.
-/
theorem Within.arms_iff (h : s.Within showing) (hs : s.Coherent) (hphase : s.phase = .choicesVisible)
    (hretains : s.Retains (some showing)) {view : ChoiceView} (hmem : view ∈ s.choices)
    (htimeout : view.timeout.isSome) :
    showing.Arms s view ↔ ∃ seen ∈ showing.first.choices, seen.slot = view.slot := by
  obtain ⟨content, hopens⟩ := h.opens
  have hchoices : s.choices = content.views s.config s.player := by
    cases hs.shows hphase with
    | choicesVisible hpending hactive =>
      rw [h.active_eq, hopens.active_eq] at hactive
      cases hactive
      exact hs.choices_eq_views hpending (h.active_eq.trans hopens.active_eq)
  rw [hchoices] at hmem
  constructor
  · rintro ⟨timer, htimer, hslot, _⟩
    have hfirst := h.waited_subset htimer
    rw [hopens.timers_eq] at hfirst
    obtain ⟨seen, hseen, hstarts⟩ := List.mem_filterMap.mp hfirst
    rw [← hopens.choices_eq] at hseen
    refine ⟨seen, hseen, ?_⟩
    rw [(ActiveContent.timerAt?_eq_some.mp hstarts).1, hslot]
  · rintro ⟨seen, hseen, hslot⟩
    obtain ⟨index, hindex⟩ := ActiveContent.slot_of_timeout hmem htimeout
    rw [hindex] at hslot
    rw [hopens.choices_eq] at hseen
    obtain ⟨choice, hchoice, hview⟩ := ActiveContent.timeout_of_view hmem hindex
    obtain ⟨same, hsame, hseenTimeout⟩ := ActiveContent.timeout_of_view hseen hslot
    rw [hchoice] at hsame
    cases hsame
    obtain ⟨after, hafter⟩ := Option.isSome_iff_exists.mp htimeout
    have hstarts : seen.timerAt? showing.first.timers.now = some ⟨index, showing.first.timers.now + after⟩ :=
      ActiveContent.timerAt?_eq_some.mpr ⟨hslot, after, hseenTimeout.trans (hview.symm.trans hafter), rfl⟩
    have hfirst : ⟨index, showing.first.timers.now + after⟩ ∈ showing.first.timers.pending := by
      rw [hopens.timers_eq]
      exact List.mem_filterMap.mpr ⟨seen, hseen, hstarts⟩
    exact ⟨_, h.opening_subset hfirst, hindex, hretains hphase showing rfl _ hfirst⟩

/--
While choices are on offer, those that are shown with a timeout have had their timers just if they have been shown since
the presentation on screen began.
-/
def ArmsSeen (s : Session) (shown : Option Showing) : Prop :=
  s.phase = .choicesVisible → ∃ showing, shown = some showing ∧ ∀ view ∈ s.choices, view.timeout.isSome →
    (showing.Arms s view ↔ ∃ seen ∈ showing.first.choices, seen.slot = view.slot)

theorem Coherent.armsSeen (hs : s.Coherent) (h : s.Shown shown) (hretains : s.Retains shown) : s.ArmsSeen shown := by
  intro hphase
  obtain ⟨showing, rfl, hwithin⟩ := h hphase
  exact ⟨showing, rfl, fun _ hmem htimeout => hwithin.arms_iff hs hphase hretains hmem htimeout⟩

/--
In every session that calls can lead to without dropping the timers, each choice that has been on screen with a timeout
since the presentation began has had its timer, and it is pending still or has fallen due. A choice that came to light
later has had none.
-/
theorem armsSeen_run (config : Config) (source : Option ContentSource) (player : Option Player)
    (calls : List Call) (h : .cancelTimers ∉ calls) :
    let fresh := Session.new config source player
    (fresh.run calls).ArmsSeen (fresh.showing? (fresh.trace calls)) := by
  intro fresh
  have hfresh : fresh.Coherent := coherent_new config source player
  have hpath := path_trace hfresh calls
  have hshown := shown_new config source player
  have hretains : fresh.Retains none := nofun
  have hevents : .dropped ∉ fresh.trace calls := fun hmem => h (dropped_mem_trace.mp hmem)
  exact (hfresh.run calls).armsSeen (hshown.path hfresh hpath) (hretains.path hfresh hpath hevents)

/--
A chapter with two choices that have a timeout. One of them is hidden until a spell earns the gold that it requires.
-/
def grove : String :=
  "\x7b\"id\": \"grove\", \"text\": \"Roots.\", \"background\": \"wood\", \"choices\": [\x7b" ++
    "\"text\": \"Wait.\", \"next\": \"bank\", \"timeout\": 9\x7d, \x7b\"text\": \"Go.\", \"next\": \"glade\", " ++
    "\"hidden\": true, \"requires\": \x7b\"gold\": 15\x7d, \"timeout\": 5\x7d], \"spells\": \x7b\"rite\": \x7b" ++
    "\"element\": \"blood\", \"skill\": \"willpower\", \"threshold\": 1, \"effects\": [\x7b" ++
    "\"type\": \"stat_change\", \"target\": \"gold\", \"value\": 5\x7d]\x7d\x7d\x7d"

def riteInGrove : List Call :=
  [.beginLoad "grove", .completeLoad grove, .cast "rite"]

theorem cancelTimers_not_mem_riteInGrove : .cancelTimers ∉ riteInGrove := by
  simp [riteInGrove]

/--
The second choice is shown after the rite, but only the first has had its timer.
-/
theorem run_riteInGrove :
    let fresh := Session.new .builtin none none
    (fresh.run riteInGrove).phase = .choicesVisible ∧
      (fresh.run riteInGrove).choices[1]?.map (fun view => (view.slot, view.timeout)) =
        some (.authored 1, some (.ofParts 5 0)) ∧
      (fresh.showing? (fresh.trace riteInGrove)).map (fun showing => showing.waited.map (·.choice)) = some [0, 0] := by
  decide +kernel

theorem armsSeen_run_grove :
    let fresh := Session.new .builtin none none
    .cancelTimers ∉ riteInGrove ∧ (fresh.run riteInGrove).phase = .choicesVisible ∧
      (fresh.run riteInGrove).ArmsSeen (fresh.showing? (fresh.trace riteInGrove)) :=
  ⟨cancelTimers_not_mem_riteInGrove, run_riteInGrove.1,
    armsSeen_run .builtin none none riteInGrove cancelTimers_not_mem_riteInGrove⟩

/--
A choice that a spell brings to light shows a timeout, but has no timer.
-/
theorem not_arms_grove :
    ¬∀ (config : Config) (source : Option ContentSource) (player : Option Player) (calls : List Call)
      (showing : Showing), .cancelTimers ∉ calls →
      let fresh := Session.new config source player
      (fresh.run calls).phase = .choicesVisible → fresh.showing? (fresh.trace calls) = some showing →
        ∀ view ∈ (fresh.run calls).choices, view.timeout.isSome → showing.Arms (fresh.run calls) view := by
  intro hall
  obtain ⟨hphase, hview, hwaited⟩ := run_riteInGrove
  obtain ⟨view, hposition, hview⟩ := Option.map_eq_some_iff.mp hview
  obtain ⟨showing, hshowing, hwaited⟩ := Option.map_eq_some_iff.mp hwaited
  obtain ⟨hslot, htimeout⟩ := Prod.mk.inj hview
  obtain ⟨timer, htimer, hown, _⟩ := hall .builtin none none riteInGrove showing cancelTimers_not_mem_riteInGrove
    hphase hshowing view (List.mem_of_getElem? hposition) (by rw [htimeout]; rfl)
  -- All timers that have waited are those of the other choice.
  have hchoice : timer.choice ∈ [0, 0] := hwaited ▸ List.mem_map_of_mem htimer
  rw [hslot, ChoiceSlot.authored.injEq] at hown
  rw [← hown] at hchoice
  exact absurd hchoice (by decide)

end Session

end Narrative
