import Narrative.Resolve

/-!
This module contains the choices that content presents: which of its choices have a presented form, and in
what order these stand.
-/

namespace Narrative

theorem Choice.view?_eq_some {choice : Choice} {p : Player} {index : Nat} {view : ChoiceView} :
    choice.view? p index = some view ↔ choice.isWellFormed ∧
      (choice.requires.met p ∨ choice.hidden = false) ∧
      view = ⟨.authored index, choice.text, choice.requires.met p,
        choice.timeout.bind Duration.ofSeconds?⟩ := by
  unfold Choice.view?
  dsimp only
  constructor
  · intro h
    split at h
    · next hshown =>
      simp only [Bool.and_eq_true, Bool.or_eq_true, Bool.not_eq_true'] at hshown
      cases h
      exact ⟨hshown.1, hshown.2, rfl⟩
    · cases h
  · rintro ⟨hwf, hshown, rfl⟩
    rw [if_pos]
    simp only [Bool.and_eq_true, Bool.or_eq_true, Bool.not_eq_true']
    exact ⟨hwf, hshown⟩

namespace ActiveContent

variable {content : ActiveContent} {config : Config} {p : Player}

theorem mem_authoredViews {view : ChoiceView} :
    view ∈ content.authoredViews p ↔
      ∃ (index : Nat) (choice : Choice), content.choices[index]? = some choice ∧
        choice.view? p index = some view := by
  unfold authoredViews
  rw [List.mem_filterMap]
  constructor
  · rintro ⟨⟨choice, index⟩, hmem, hview⟩
    rw [List.mem_zipIdx_iff_getElem?] at hmem
    exact ⟨index, choice, hmem, hview⟩
  · rintro ⟨index, choice, hmem, hview⟩
    refine ⟨(choice, index), ?_, hview⟩
    rw [List.mem_zipIdx_iff_getElem?]
    exact hmem

theorem pairwise_authoredViews (content : ActiveContent) (p : Player) :
    (content.authoredViews p).Pairwise (fun a b =>
      ∃ i j, a.slot = .authored i ∧ b.slot = .authored j ∧ i < j) := by
  unfold authoredViews
  -- `zipIdx` lists the places in order, and a presented choice keeps its place.
  have hsorted : content.choices.zipIdx.Pairwise (·.2 < ·.2) := by
    rw [← List.pairwise_map, List.zipIdx_map_snd]
    exact List.pairwise_lt_range'
  apply List.Pairwise.filterMap _ _ hsorted
  rintro ⟨a, i⟩ ⟨b, j⟩ hij v hv w hw
  obtain ⟨_, _, rfl⟩ := Choice.view?_eq_some.mp hv
  obtain ⟨_, _, rfl⟩ := Choice.view?_eq_some.mp hw
  exact ⟨i, j, rfl, rfl, hij⟩

/--
No two presented choices stand for the same authored one.
-/
theorem position_unique {a b index : Nat} {v w : ChoiceView}
    (ha : (content.authoredViews p)[a]? = some v) (hb : (content.authoredViews p)[b]? = some w)
    (hv : v.slot = .authored index) (hw : w.slot = .authored index) : a = b := by
  have hsorted := List.pairwise_iff_getElem.mp (pairwise_authoredViews content p)
  obtain ⟨ha, hva⟩ := List.getElem?_eq_some_iff.mp ha
  obtain ⟨hb, hwb⟩ := List.getElem?_eq_some_iff.mp hb
  rcases Nat.lt_trichotomy a b with hlt | heq | hgt
  · obtain ⟨i, j, hi, hj, hij⟩ := hsorted a b ha hb hlt
    rw [hva, hv] at hi
    rw [hwb, hw] at hj
    cases hi
    cases hj
    omega
  · exact heq
  · obtain ⟨i, j, hi, hj, hij⟩ := hsorted b a hb ha hgt
    rw [hwb, hw] at hi
    rw [hva, hv] at hj
    cases hi
    cases hj
    omega

theorem views_eq_authoredViews (h : content.authoredViews p ≠ []) :
    content.views config p = content.authoredViews p := by
  unfold views
  split
  · next hnil => exact absurd hnil h
  · rfl

theorem views_eq_continueView (h : content.authoredViews p = []) :
    content.views config p = [content.continueView config] := by
  unfold views
  rw [h]

theorem views_ne_nil (content : ActiveContent) (config : Config) (p : Player) :
    content.views config p ≠ [] := by
  by_cases h : content.authoredViews p = []
  · rw [views_eq_continueView h]
    simp
  · rw [views_eq_authoredViews h]
    exact h

theorem views_of_slot {position index : Nat} {view : ChoiceView}
    (h : (content.views config p)[position]? = some view) (hslot : view.slot = .authored index) :
    (content.authoredViews p)[position]? = some view := by
  by_cases hnil : content.authoredViews p = []
  · rw [views_eq_continueView hnil] at h
    have hmem := List.mem_of_getElem? h
    rw [List.mem_singleton] at hmem
    subst hmem
    cases hslot
  · rw [views_eq_authoredViews hnil] at h
    exact h

/--
The way on is presented only where no choice is, and leads where the content says, or else to the fallback.
-/
theorem next_of_view {view : ChoiceView} {next : String} (h : view ∈ content.views config p)
    (hslot : view.slot = .continue next) :
    content.defaultNext = some next ∨ content.defaultNext = none ∧ next = config.fallbackChapter := by
  by_cases hnil : content.authoredViews p = []
  · rw [views_eq_continueView hnil, List.mem_singleton] at h
    subst h
    unfold continueView at hslot
    cases hnext : content.defaultNext with
    | none =>
      rw [hnext] at hslot
      cases hslot
      exact .inr ⟨rfl, rfl⟩
    | some target =>
      rw [hnext] at hslot
      cases hslot
      exact .inl rfl
  · rw [views_eq_authoredViews hnil] at h
    obtain ⟨_, _, _, hview⟩ := mem_authoredViews.mp h
    obtain ⟨_, _, rfl⟩ := Choice.view?_eq_some.mp hview
    cases hslot

theorem choice_of_view {position index : Nat} {view : ChoiceView}
    (h : (content.views config p)[position]? = some view) (hslot : view.slot = .authored index) :
    ∃ choice, content.choices[index]? = some choice ∧ choice.isWellFormed ∧
      view.enabled = choice.requires.met p := by
  have hmem := List.mem_of_getElem? (views_of_slot h hslot)
  obtain ⟨place, choice, hplace, hview⟩ := mem_authoredViews.mp hmem
  obtain ⟨hwf, _, rfl⟩ := Choice.view?_eq_some.mp hview
  cases hslot
  exact ⟨choice, hplace, hwf, rfl⟩

/--
The timeout that is shown for a choice is the choice's own, whatever the progress.
-/
theorem timeout_of_view {index : Nat} {view : ChoiceView} (h : view ∈ content.views config p)
    (hslot : view.slot = .authored index) :
    ∃ choice, content.choices[index]? = some choice ∧
      view.timeout = choice.timeout.bind Duration.ofSeconds? := by
  obtain ⟨position, hposition⟩ := List.mem_iff_getElem?.mp h
  have hmem := List.mem_of_getElem? (views_of_slot hposition hslot)
  obtain ⟨place, choice, hplace, hview⟩ := mem_authoredViews.mp hmem
  obtain ⟨_, _, rfl⟩ := Choice.view?_eq_some.mp hview
  cases hslot
  exact ⟨choice, hplace, rfl⟩

theorem slot_of_timeout {view : ChoiceView} (h : view ∈ content.views config p) (htimeout : view.timeout.isSome) :
    ∃ index, view.slot = .authored index := by
  by_cases hnil : content.authoredViews p = []
  · rw [views_eq_continueView hnil, List.mem_singleton] at h
    subst h
    cases htimeout
  · rw [views_eq_authoredViews hnil] at h
    obtain ⟨index, _, _, hview⟩ := mem_authoredViews.mp h
    obtain ⟨_, _, rfl⟩ := Choice.view?_eq_some.mp hview
    exact ⟨index, rfl⟩

/--
A choice that has a presented form is presented at exactly one position.
-/
theorem existsUnique_of_view? (config : Config) {index : Nat} {choice : Choice} {view : ChoiceView}
    (h : content.choices[index]? = some choice) (hview : choice.view? p index = some view) :
    ∃ position, (content.views config p)[position]? = some view ∧
      ∀ (other : Nat) (w : ChoiceView), (content.views config p)[other]? = some w →
        w.slot = .authored index → other = position := by
  have hmem := mem_authoredViews.mpr ⟨index, choice, h, hview⟩
  have hslot : view.slot = .authored index := by
    obtain ⟨_, _, rfl⟩ := Choice.view?_eq_some.mp hview
    rfl
  obtain ⟨position, hposition⟩ := List.mem_iff_getElem?.mp hmem
  refine ⟨position, ?_, ?_⟩
  · rw [views_eq_authoredViews (List.ne_nil_of_mem hmem)]
    exact hposition
  · intro other w hother hw
    exact position_unique (views_of_slot hother hw) hposition hw hslot

/--
A well formed choice whose requirement is met is presented at exactly one position, and enabled.
-/
theorem existsUnique_position (config : Config) {index : Nat} {choice : Choice}
    (h : content.choices[index]? = some choice) (hwf : choice.isWellFormed)
    (hmet : choice.requires.met p) :
    ∃ position, (∃ view, (content.views config p)[position]? = some view ∧
      view.slot = .authored index ∧ view.enabled = true) ∧
      ∀ (other : Nat) (view : ChoiceView), (content.views config p)[other]? = some view →
        view.slot = .authored index → other = position := by
  have hview : choice.view? p index = some _ := Choice.view?_eq_some.mpr ⟨hwf, .inl hmet, rfl⟩
  obtain ⟨position, hposition, hunique⟩ := existsUnique_of_view? config h hview
  exact ⟨position, ⟨_, hposition, rfl, hmet⟩, hunique⟩

end ActiveContent

end Narrative
