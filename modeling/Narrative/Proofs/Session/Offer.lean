import Narrative.Proofs.Session.Consistency

/-!
This module contains what a session offers and what a click can take: the presented choices are those for the
progress of the moment, and only a choice whose requirement is met can be taken.
-/

namespace Narrative.Session

variable {s : Session}

/--
The presented choices are current, and they decide what a click takes.
-/
structure Gated (s : Session) : Prop where
  current : s.phase = .choicesVisible →
    ∃ content, s.active = some content ∧ s.choices = content.views s.config s.player
  taken : ∀ position index, s.clicked? position = some index →
    s.selectChoice position = s.takeChoice index ∧
      ∃ content choice, s.active = some content ∧ content.choices[index]? = some choice ∧
        choice.isWellFormed ∧ choice.requires.met s.player
  untaken : ∀ position, s.clicked? position = none →
    (∃ e, s.selectChoice position = s.report e) ∨ ∃ next, s.selectChoice position = s.beginLoad next
  selectable : s.phase = .choicesVisible → ∀ content index choice, s.active = some content →
    content.choices[index]? = some choice → choice.isWellFormed → choice.requires.met s.player →
      ∃ position, s.clicked? position = some index ∧
        ∀ other, s.clicked? other = some index → other = position
  closed : s.phase ≠ .choicesVisible → ∀ position,
    (∃ e, s.selectChoice position = s.report e) ∧
      ∃ e, (s.choose position).answer = .error e ∧ (s.choose position).session = s

theorem choose_of_report {position : Nat} {e : SessionError}
    (h : s.selectChoice position = s.report e) :
    ∃ e, (s.choose position).answer = .error e ∧ (s.choose position).session = s := by
  cases hsource : s.source with
  | none =>
    unfold choose withSource
    rw [hsource]
    exact ⟨_, rfl, rfl⟩
  | some source =>
    rw [choose_of_source position hsource, h]
    exact ⟨e, rfl, rfl⟩

namespace Coherent

theorem current (hs : s.Coherent) (h : s.phase = .choicesVisible) :
    s.pending = none ∧ ∃ content, s.active = some content ∧
      s.choices = content.views s.config s.player := by
  cases hs.shows h with
  | choicesVisible hpending hactive =>
    exact ⟨hpending, _, hactive, hs.choices_eq_views hpending hactive⟩

theorem clicked (hs : s.Coherent) {position index : Nat} (h : s.clicked? position = some index) :
    ∃ content choice, s.active = some content ∧ content.choices[index]? = some choice ∧
      choice.isWellFormed ∧ choice.requires.met s.player := by
  rw [clicked?_eq_some] at h
  obtain ⟨_, hphase, view, hview, hslot, henabled⟩ := h
  obtain ⟨_, content, hactive, hchoices⟩ := hs.current hphase
  rw [hchoices] at hview
  obtain ⟨choice, hchoice, hwf, hmet⟩ := ActiveContent.choice_of_view hview hslot
  rw [henabled] at hmet
  exact ⟨content, choice, hactive, hchoice, hwf, hmet.symm⟩

theorem clickable (hs : s.Coherent) (h : s.phase = .choicesVisible) {content : ActiveContent}
    {index : Nat} {choice : Choice} (hactive : s.active = some content)
    (hchoice : content.choices[index]? = some choice) (hwf : choice.isWellFormed)
    (hmet : choice.requires.met s.player) :
    ∃ position, s.clicked? position = some index ∧
      ∀ other, s.clicked? other = some index → other = position := by
  obtain ⟨hpending, shown, hshown, hchoices⟩ := hs.current h
  rw [hactive] at hshown
  cases hshown
  obtain ⟨position, ⟨view, hview, hslot, henabled⟩, hunique⟩ :=
    ActiveContent.existsUnique_position s.config hchoice hwf hmet
  refine ⟨position, ?_, ?_⟩
  · rw [clicked?_eq_some, hchoices]
    exact ⟨hpending, h, view, hview, hslot, henabled⟩
  · intro other hother
    rw [clicked?_eq_some, hchoices] at hother
    obtain ⟨_, _, view, hview, hslot, _⟩ := hother
    exact hunique other view hview hslot

theorem gated (hs : s.Coherent) : s.Gated where
  current := fun h => (hs.current h).2
  taken := fun _ _ h => ⟨selectChoice_of_clicked h, hs.clicked h⟩
  untaken := by
    intro position h
    cases s.click position with
    | refused hselect _ => exact .inl ⟨_, hselect⟩
    | onward _ _ hselect => exact .inr ⟨_, hselect⟩
    | taken _ hclicked =>
      rw [h] at hclicked
      cases hclicked
  selectable := fun h _ _ _ hactive hchoice hwf hmet => hs.clickable h hactive hchoice hwf hmet
  closed := by
    intro h position
    obtain ⟨e, he⟩ := selectChoice_of_phase position h
    exact ⟨⟨e, he⟩, choose_of_report he⟩

end Coherent

/--
In every session that calls can lead to, the presented choices are current and gate what can be taken.
-/
theorem gated_run (config : Config) (source : Option ContentSource) (player : Option Player)
    (calls : List Call) : ((Session.new config source player).run calls).Gated :=
  ((coherent_new config source player).run calls).gated

end Narrative.Session
