import Narrative.Proofs.Session.Presentation

/-!
This module contains what becomes of the timers that fall due together. The first of them whose choice is open is
honoured, and if that choice leads nowhere all the others are lost with it.
-/

namespace Narrative.Session

variable {s : Session} {elapsed : Duration}

def firstResolvable? (s : Session) (elapsed : Duration) : Option Timer :=
  (s.dueAfter elapsed).find? (fun timer => s.isResolvable timer.choice)

/--
No due choice is lost: the first of them that can be taken is taken, and if none is taken then there was none.
-/
structure KeepsDue (s : Session) (elapsed : Duration) : Prop where
  taken : ∀ timer, s.firstResolvable? elapsed = some timer →
    ∃ chapter choice successor, s.choiceAt? timer.choice = some (chapter, choice) ∧
      choice.successor = .ok successor ∧
      (s.pollTimers elapsed).answer = .ok (some (.ofId successor.id)) ∧
      (s.pollTimers elapsed).session = (s.passing elapsed).taking chapter choice successor.id
  kept : (∀ request, (s.pollTimers elapsed).answer ≠ .ok (some request)) →
    ∀ timer ∈ s.timers.pending, timer ∉ (s.pollTimers elapsed).session.timers.pending →
      s.isResolvable timer.choice = false

/--
A choice that is open but leads nowhere falls due before one that can be taken.
-/
def DeadEnd (s : Session) (elapsed : Duration) : Prop :=
  ∃ timer, s.firstOpen? elapsed = some timer ∧ s.isResolvable timer.choice = false ∧
    ∃ later ∈ s.dueAfter elapsed, s.isResolvable later.choice

theorem firstResolvable?_of_firstOpen? {timer : Timer} (h : s.firstOpen? elapsed = some timer)
    (hresolvable : s.isResolvable timer.choice) : s.firstResolvable? elapsed = some timer := by
  unfold firstOpen? at h
  unfold firstResolvable?
  rw [List.find?_eq_some_iff_append] at h ⊢
  obtain ⟨_, before, rest, hdue, hclosed⟩ := h
  refine ⟨hresolvable, before, rest, hdue, ?_⟩
  intro other hother
  have hnot := hclosed other hother
  rw [Bool.not_eq_true'] at hnot ⊢
  cases hother : s.isResolvable other.choice with
  | false => rfl
  | true =>
    rw [isOpen_of_isResolvable hother] at hnot
    cases hnot

theorem mem_dueAfter {timer : Timer} : timer ∈ s.dueAfter elapsed ↔
    timer ∈ s.timers.pending ∧ timer ∉ (s.passing elapsed).timers.pending := by
  unfold dueAfter
  rw [Timers.mem_dueAt]
  constructor
  · rintro ⟨hmem, hdeadline⟩
    exact ⟨hmem, fun hkept => (Timers.mem_advance.mp hkept).2 hdeadline⟩
  · rintro ⟨hmem, hgone⟩
    refine ⟨hmem, ?_⟩
    by_cases hdeadline : timer.deadline ≤ s.timers.now + elapsed
    · exact hdeadline
    · exact absurd (Timers.mem_advance.mpr ⟨hmem, hdeadline⟩) hgone

theorem KeepsDue.of_none (hsession : (s.pollTimers elapsed).session = s.passing elapsed)
    (hnone : ∀ timer ∈ s.dueAfter elapsed, s.isResolvable timer.choice = false) :
    s.KeepsDue elapsed where
  taken := by
    intro timer hfirst
    unfold firstResolvable? at hfirst
    have hresolvable := List.find?_some hfirst
    rw [hnone timer (List.mem_of_find?_eq_some hfirst)] at hresolvable
    cases hresolvable
  kept := by
    intro _ timer hmem hgone
    rw [hsession] at hgone
    exact hnone timer (mem_dueAfter.mpr ⟨hmem, hgone⟩)

/--
A session loses a due choice exactly where one that is open but leads nowhere falls due before it.
-/
theorem Coherent.keepsDue_iff (hs : s.Coherent) (elapsed : Duration) :
    s.KeepsDue elapsed ↔ ¬s.DeadEnd elapsed := by
  constructor
  · rintro hkeeps ⟨timer, hopen, hdead, later, hlater, hresolvable⟩
    cases hs.polling elapsed with
    | quiet hnone _ =>
      rw [hopen] at hnone
      cases hnone
    | taken hfirst hlive _ _ _ _ =>
      rw [hopen] at hfirst
      cases hfirst
      rw [hdead] at hlive
      cases hlive
    | stuck _ _ hanswer hsession =>
      -- The later choice was due as well, so its timer is gone.
      obtain ⟨hmem, hgone⟩ := mem_dueAfter.mp hlater
      rw [← hsession] at hgone
      have hlost := hkeeps.kept (by rw [hanswer]; nofun) later hmem hgone
      rw [hresolvable] at hlost
      cases hlost
  · intro hlive
    cases hs.polling elapsed with
    | quiet hnone hpoll =>
      apply KeepsDue.of_none
      · rw [hpoll]
      · intro timer hmem
        have hclosed := List.find?_eq_none.mp hnone timer hmem
        cases hresolvable : s.isResolvable timer.choice with
        | false => rfl
        | true => exact absurd (isOpen_of_isResolvable hresolvable) hclosed
    | @stuck timer _ hopen hdead _ hsession =>
      apply KeepsDue.of_none hsession
      intro later hlater
      cases hresolvable : s.isResolvable later.choice with
      | false => rfl
      | true => exact absurd ⟨timer, hopen, hdead, later, hlater, hresolvable⟩ hlive
    | @taken timer chapter choice successor hopen hresolvable hchoice hsuccessor hanswer hsession =>
      constructor
      · intro first hfirst
        rw [firstResolvable?_of_firstOpen? hopen hresolvable] at hfirst
        cases hfirst
        exact ⟨chapter, choice, successor, hchoice, hsuccessor, hanswer, hsession⟩
      · intro hnone
        exact absurd hanswer (hnone _)

/--
In every session that calls can lead to, time that passes takes the first due choice that can be taken, unless one
that is open but leads nowhere falls due before it: then the choice is lost.
-/
theorem keepsDue_run (config : Config) (source : Option ContentSource) (player : Option Player)
    (calls : List Call) (elapsed : Duration) :
    let s := (Session.new config source player).run calls
    s.KeepsDue elapsed ↔ ¬s.DeadEnd elapsed :=
  ((coherent_new config source player).run calls).keepsDue_iff elapsed

/--
A chapter with two choices that fall due together. The first leads nowhere, the second on.
-/
def bridge : String :=
  "\x7b\"id\": \"bridge\", \"text\": \"Now or never.\", \"background\": \"gorge\", \"choices\": [\x7b" ++
    "\"text\": \"Wait.\", \"effects\": \x7b\"gold\": 1\x7d, \"timeout\": 1\x7d, \x7b" ++
    "\"text\": \"Jump.\", \"next\": \"river\", \"timeout\": 1\x7d]\x7d"

def second : Duration := .ofParts 1 0

theorem not_keepsDue_bridge :
    ¬∀ (config : Config) (source : Option ContentSource) (player : Option Player) (calls : List Call)
      (elapsed : Duration), ((Session.new config source player).run calls).KeepsDue elapsed := by
  intro hall
  have hs := (coherent_new .builtin none none).run [.beginLoad "bridge", .completeLoad bridge]
  have hkeeps := (hs.keepsDue_iff second).mp (hall .builtin none none _ second)
  have hfacts : ∀ s, s = (Session.new .builtin none none).run
      [.beginLoad "bridge", .completeLoad bridge] →
      s.timers.pending.filter (·.deadline ≤ s.timers.now + second) = [⟨0, second⟩, ⟨1, second⟩] ∧
        s.isOpen 0 ∧ s.isResolvable 0 = false ∧ s.isResolvable 1 := by
    rintro s rfl
    decide +kernel
  obtain ⟨hpending, hopen, hdead, hresolvable⟩ := hfacts _ rfl
  have hdue := Timers.eq_dueAt (.of_eq hpending.symm) (by decide)
  apply hkeeps
  refine ⟨⟨0, second⟩, ?_, hdead, ⟨1, second⟩, ?_, hresolvable⟩
  · unfold firstOpen? dueAfter
    rw [← hdue]
    exact List.find?_cons_of_pos hopen
  · unfold dueAfter
    rw [← hdue]
    simp

end Narrative.Session
