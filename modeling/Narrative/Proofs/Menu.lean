import Narrative.Proofs.Views
import Mathlib.Data.List.Sort

/-!
This module contains the menu of a content, told from its choices and the progress alone: which choices are on it, in
what order they stand, and what stands there where no choice does. Only one list of presented choices is the menu.
-/

namespace Narrative

/--
A choice that belongs on the menu. It has a text, and a successor or effects, and where it is hidden its requirement
holds.
-/
structure Choice.Qualifies (choice : Choice) (p : Player) : Prop where
  text : choice.text ≠ ""
  consequence : choice.next ≠ none ∨ choice.reveal ≠ none ∨ choice.effects ≠ []
  visible : choice.hidden → choice.requires.met p

theorem Choice.isWellFormed_iff {choice : Choice} : choice.isWellFormed ↔
    choice.text ≠ "" ∧ (choice.next ≠ none ∨ choice.reveal ≠ none ∨ choice.effects ≠ []) := by
  simp [isWellFormed, Option.isSome_iff_ne_none, or_assoc]

theorem Choice.qualifies_iff {choice : Choice} {p : Player} : choice.Qualifies p ↔
    choice.isWellFormed ∧ (choice.requires.met p ∨ choice.hidden = false) := by
  have hvisible : (choice.hidden → choice.requires.met p) ↔ choice.requires.met p ∨ choice.hidden = false := by
    cases choice.hidden <;> simp
  rw [isWellFormed_iff, ← hvisible]
  constructor
  · intro h
    exact ⟨⟨h.text, h.consequence⟩, h.visible⟩
  · rintro ⟨⟨htext, hconsequence⟩, hvisible⟩
    exact ⟨htext, hconsequence, hvisible⟩

namespace ChoiceView

/--
What is shown of a choice: its text, whether it can be taken, and the time until it is taken on its own.
-/
structure Shows (view : ChoiceView) (choice : Choice) (p : Player) : Prop where
  text : view.text = choice.text
  enabled : view.enabled ↔ choice.requires.met p
  timeout : view.timeout = choice.timeout.bind Duration.ofSeconds?

def Precedes (a b : ChoiceView) : Prop :=
  ∃ i j, a.slot = .authored i ∧ b.slot = .authored j ∧ i < j

instance : Std.Irrefl Precedes where
  irrefl := by
    rintro view ⟨i, j, hi, hj, hlt⟩
    rw [hi, ChoiceSlot.authored.injEq] at hj
    omega

instance : Std.Antisymm Precedes where
  antisymm := by
    rintro a b ⟨i, j, hi, hj, hlt⟩ ⟨j', i', hj', hi', hgt⟩
    rw [hi, ChoiceSlot.authored.injEq] at hi'
    rw [hj, ChoiceSlot.authored.injEq] at hj'
    omega

end ChoiceView

theorem Choice.view?_eq_some_iff_shows {choice : Choice} {p : Player} {index : Nat} {view : ChoiceView} :
    choice.view? p index = some view ↔ choice.Qualifies p ∧ view.slot = .authored index ∧ view.Shows choice p := by
  rw [view?_eq_some, qualifies_iff, and_assoc]
  refine and_congr_right (fun _ => and_congr_right (fun _ => ?_))
  constructor
  · rintro rfl
    exact ⟨rfl, rfl, Iff.rfl, rfl⟩
  · rintro ⟨hslot, htext, henabled, htimeout⟩
    have henabled := Bool.eq_iff_iff.mpr henabled
    obtain ⟨slot, text, enabled, timeout⟩ := view
    rw [ChoiceView.mk.injEq]
    exact ⟨hslot, htext, henabled, htimeout⟩

theorem Choice.exists_view? {choice : Choice} {p : Player} (h : choice.Qualifies p) (index : Nat) :
    ∃ view, choice.view? p index = some view := by
  obtain ⟨hwf, hvisible⟩ := qualifies_iff.mp h
  exact ⟨_, view?_eq_some.mpr ⟨hwf, hvisible, rfl⟩⟩

theorem ChoiceView.Shows.unique {choice : Choice} {p : Player} {index : Nat} {a b : ChoiceView}
    (ha : a.Shows choice p) (h : choice.Qualifies p) (haslot : a.slot = .authored index) (hb : b.Shows choice p)
    (hbslot : b.slot = .authored index) : a = b := by
  have haview := Choice.view?_eq_some_iff_shows.mpr ⟨h, haslot, ha⟩
  rw [Choice.view?_eq_some_iff_shows.mpr ⟨h, hbslot, hb⟩, Option.some.injEq] at haview
  exact haview.symm

namespace ActiveContent

variable {content : ActiveContent} {config : Config} {p : Player} {views : List ChoiceView}

/--
The menu of a content. Every choice that qualifies is on it once, under its own place and in the authored order, and
nothing else is; where no choice qualifies, the way on is all there is.
-/
structure Menu (content : ActiveContent) (config : Config) (p : Player) (views : List ChoiceView) : Prop where
  denotes : ∀ view ∈ views, ∀ index, view.slot = .authored index →
    ∃ choice : Choice, content.choices[index]? = some choice ∧ choice.Qualifies p ∧ view.Shows choice p
  complete : ∀ index (choice : Choice), content.choices[index]? = some choice → choice.Qualifies p →
    ∃! position : Nat, ∃ view : ChoiceView, views[position]? = some view ∧ view.slot = .authored index
  ascending : views.Pairwise ChoiceView.Precedes
  onward : (∀ choice ∈ content.choices, ¬choice.Qualifies p) ↔
    views = [⟨.continue (content.defaultNext.getD config.fallbackChapter), config.continueLabel, true, none⟩]
  nonempty : views ≠ []
  unmixed : ∀ view ∈ views, ∀ next, view.slot = .continue next → views = [view]
  hidden : ∀ index (choice : Choice), content.choices[index]? = some choice → choice.hidden →
    ∀ view ∈ views, view.slot = .authored index → view.enabled
  plain : ∀ index (choice : Choice), content.choices[index]? = some choice → choice.isWellFormed →
    choice.hidden = false → ∃ view ∈ views, view.slot = .authored index

theorem mem_authoredViews_iff_shows {view : ChoiceView} : view ∈ content.authoredViews p ↔
    ∃ index, ∃ choice : Choice, content.choices[index]? = some choice ∧ choice.Qualifies p ∧
      view.slot = .authored index ∧ view.Shows choice p := by
  rw [mem_authoredViews]
  simp only [Choice.view?_eq_some_iff_shows]

theorem slot_of_mem_authoredViews {view : ChoiceView} (h : view ∈ content.authoredViews p) :
    ∃ index, view.slot = .authored index := by
  obtain ⟨index, _, _, _, hslot, _⟩ := mem_authoredViews_iff_shows.mp h
  exact ⟨index, hslot⟩

theorem authoredViews_eq_nil_iff :
    content.authoredViews p = [] ↔ ∀ choice ∈ content.choices, ¬choice.Qualifies p := by
  rw [List.eq_nil_iff_forall_not_mem]
  constructor
  · intro h choice hchoice hqualifies
    obtain ⟨index, hindex⟩ := List.mem_iff_getElem?.mp hchoice
    obtain ⟨view, hview⟩ := Choice.exists_view? hqualifies index
    exact h view (mem_authoredViews.mpr ⟨index, choice, hindex, hview⟩)
  · intro h view hview
    obtain ⟨_, choice, hindex, hqualifies, _⟩ := mem_authoredViews_iff_shows.mp hview
    exact h choice (List.mem_of_getElem? hindex) hqualifies

theorem denotes_views {view : ChoiceView} {index : Nat} (h : view ∈ content.views config p)
    (hslot : view.slot = .authored index) :
    ∃ choice : Choice, content.choices[index]? = some choice ∧ choice.Qualifies p ∧ view.Shows choice p := by
  obtain ⟨position, hposition⟩ := List.mem_iff_getElem?.mp h
  have hmem := List.mem_of_getElem? (views_of_slot hposition hslot)
  obtain ⟨place, choice, hchoice, hqualifies, hplace, hshows⟩ := mem_authoredViews_iff_shows.mp hmem
  rw [hslot, ChoiceSlot.authored.injEq] at hplace
  subst hplace
  exact ⟨choice, hchoice, hqualifies, hshows⟩

theorem complete_views (config : Config) {index : Nat} {choice : Choice}
    (h : content.choices[index]? = some choice) (hqualifies : choice.Qualifies p) :
    ∃! position : Nat, ∃ view : ChoiceView,
      (content.views config p)[position]? = some view ∧ view.slot = .authored index := by
  obtain ⟨view, hview⟩ := Choice.exists_view? hqualifies index
  obtain ⟨position, hposition, hunique⟩ := existsUnique_of_view? config h hview
  refine ⟨position, ⟨view, hposition, (Choice.view?_eq_some_iff_shows.mp hview).2.1⟩, ?_⟩
  rintro other ⟨w, hother, hslot⟩
  exact hunique other w hother hslot

theorem menu_views (content : ActiveContent) (config : Config) (p : Player) :
    content.Menu config p (content.views config p) where
  denotes _ hview _ hslot := denotes_views hview hslot
  complete _ _ hchoice hqualifies := complete_views config hchoice hqualifies
  ascending := by
    by_cases hnil : content.authoredViews p = []
    · rw [views_eq_continueView hnil]
      exact List.pairwise_singleton _ _
    · rw [views_eq_authoredViews hnil]
      exact pairwise_authoredViews content p
  onward := by
    rw [← authoredViews_eq_nil_iff]
    constructor
    · exact views_eq_continueView
    · intro hviews
      by_contra hne
      rw [views_eq_authoredViews hne] at hviews
      obtain ⟨index, hslot⟩ := slot_of_mem_authoredViews (hviews ▸ List.mem_singleton_self _)
      cases hslot
  nonempty := views_ne_nil content config p
  unmixed := by
    intro view hview next hslot
    by_cases hnil : content.authoredViews p = []
    · rw [views_eq_continueView hnil] at hview ⊢
      rw [List.mem_singleton.mp hview]
    · rw [views_eq_authoredViews hnil] at hview
      obtain ⟨index, hauthored⟩ := slot_of_mem_authoredViews hview
      rw [hslot] at hauthored
      cases hauthored
  hidden := by
    intro index choice hchoice hhidden view hview hslot
    obtain ⟨shown, hshown, hqualifies, hshows⟩ := denotes_views hview hslot
    rw [hchoice, Option.some.injEq] at hshown
    subst hshown
    exact hshows.enabled.mpr (hqualifies.visible hhidden)
  plain := by
    intro index choice hchoice hwf hplain
    have hqualifies : choice.Qualifies p := Choice.qualifies_iff.mpr ⟨hwf, .inr hplain⟩
    obtain ⟨_, ⟨view, hposition, hslot⟩, _⟩ := complete_views config hchoice hqualifies
    exact ⟨view, List.mem_of_getElem? hposition, hslot⟩

namespace Menu

/--
Where a choice qualifies, the menu does not go on by itself.
-/
theorem slot_ne_continue (h : content.Menu config p views) {choice : Choice} (hchoice : choice ∈ content.choices)
    (hqualifies : choice.Qualifies p) {view : ChoiceView} (hview : view ∈ views) (next : String) :
    view.slot ≠ .continue next := by
  intro hslot
  obtain ⟨index, hindex⟩ := List.mem_iff_getElem?.mp hchoice
  obtain ⟨_, ⟨authored, hposition, hauthored⟩, _⟩ := h.complete index choice hindex hqualifies
  have hmem := List.mem_of_getElem? hposition
  rw [h.unmixed view hview next hslot, List.mem_singleton] at hmem
  rw [hmem, hslot] at hauthored
  cases hauthored

theorem mem_iff (h : content.Menu config p views) {choice : Choice} (hchoice : choice ∈ content.choices)
    (hqualifies : choice.Qualifies p) (view : ChoiceView) : view ∈ views ↔ view ∈ content.authoredViews p := by
  rw [mem_authoredViews_iff_shows]
  constructor
  · intro hview
    cases hslot : view.slot with
    | «continue» next => exact absurd hslot (h.slot_ne_continue hchoice hqualifies hview next)
    | authored index =>
      obtain ⟨shown, hindex, hqualifies, hshows⟩ := h.denotes view hview index hslot
      exact ⟨index, shown, hindex, hqualifies, rfl, hshows⟩
  · rintro ⟨index, shown, hindex, hqualifies, hslot, hshows⟩
    obtain ⟨_, ⟨other, hposition, hother⟩, _⟩ := h.complete index shown hindex hqualifies
    have hmem := List.mem_of_getElem? hposition
    obtain ⟨_, hindex', _, hshows'⟩ := h.denotes other hmem index hother
    rw [hindex, Option.some.injEq] at hindex'
    subst hindex'
    rwa [hshows.unique hqualifies hslot hshows' hother]

end Menu

/--
The presented choices are the menu of the content, and there is no other list that is one.
-/
theorem menu_iff : content.Menu config p views ↔ views = content.views config p := by
  constructor
  · intro h
    by_cases hnone : ∀ choice ∈ content.choices, ¬choice.Qualifies p
    · rw [h.onward.mp hnone, (menu_views content config p).onward.mp hnone]
    · rw [views_eq_authoredViews (mt authoredViews_eq_nil_iff.mp hnone)]
      push Not at hnone
      obtain ⟨choice, hchoice, hqualifies⟩ := hnone
      exact h.ascending.eq_of_mem_iff (pairwise_authoredViews content p) (h.mem_iff hchoice hqualifies)
  · rintro rfl
    exact menu_views content config p

end ActiveContent

end Narrative
