import Narrative.Proofs.Session.Trace
import Narrative.Proofs.Timers

/-!
This module contains what the passing of time does to a session. Of the choices that fall due the first that is open
is taken, and unless one is taken nothing moves but the clock.
-/

namespace Narrative.Session

variable {s : Session} {elapsed : Duration}

/--
Whether the choice at a place of the content on screen can be taken: its requirement is met, and it leads somewhere.
-/
def isResolvable (s : Session) (index : Nat) : Bool :=
  (s.active.bind (fun content => content.choices[index]?)).any fun choice =>
    choice.requires.met s.player && (choice.resolve s.player).isOk

def dueAfter (s : Session) (elapsed : Duration) : List Timer :=
  s.timers.dueAt (s.timers.now + elapsed)

def firstOpen? (s : Session) (elapsed : Duration) : Option Timer :=
  (s.dueAfter elapsed).find? (fun timer => s.isOpen timer.choice)

theorem isOk_resolve (choice : Choice) (p : Player) : (choice.resolve p).isOk = choice.successor.isOk := by
  cases hsuccessor : choice.successor with
  | error e =>
    rw [Choice.resolve_of_error p hsuccessor]
    rfl
  | ok successor =>
    obtain ⟨resolution, hresolve, _⟩ := Choice.resolve_of_ok p hsuccessor
    rw [hresolve]
    rfl

theorem isResolvable_eq {index : Nat} {chapter : Chapter} {choice : Choice}
    (h : s.choiceAt? index = some (chapter, choice)) :
    s.isResolvable index = (s.isOpen index && choice.successor.isOk) := by
  obtain ⟨_, content, hactive, hindex⟩ := choiceAt?_eq_some.mp h
  unfold isResolvable isOpen
  rw [hactive, Option.bind_some, hindex]
  simp only [Option.any_some]
  rw [isOk_resolve]

theorem isOpen_of_isResolvable {index : Nat} (h : s.isResolvable index) : s.isOpen index := by
  unfold isResolvable at h
  unfold isOpen
  rw [Option.any_eq_true] at h ⊢
  obtain ⟨choice, hchoice, hmet⟩ := h
  rw [Bool.and_eq_true] at hmet
  exact ⟨choice, hchoice, hmet.1⟩

theorem isOpen_of_firstOpen? {timer : Timer} (h : s.firstOpen? elapsed = some timer) :
    s.isOpen timer.choice := by
  unfold firstOpen? at h
  have hopen := List.find?_some h
  exact hopen

theorem fired?_eq_map (s : Session) (elapsed : Duration) :
    s.fired? elapsed = (s.firstOpen? elapsed).map (·.choice) := by
  unfold fired? Timers.advance firstOpen? dueAfter
  dsimp only
  rw [List.find?_map]
  rfl

theorem Coherent.choiceAt?_of_isOpen (hs : s.Coherent) {index : Nat} (h : s.isOpen index) :
    ∃ chapter choice, s.choiceAt? index = some (chapter, choice) := by
  unfold isOpen at h
  rw [Option.any_eq_true] at h
  obtain ⟨choice, hchoice, _⟩ := h
  obtain ⟨content, hactive, hindex⟩ := Option.bind_eq_some_iff.mp hchoice
  have hchapter := hs.isSome_chapter
  rw [hactive, Option.isSome_some, Option.isSome_iff_exists] at hchapter
  obtain ⟨chapter, hchapter⟩ := hchapter
  exact ⟨chapter, choice, choiceAt?_eq_some.mpr ⟨hchapter, content, hactive, hindex⟩⟩

/--
What becomes of the timers that fall due: none of their choices is open, or the first that is open leads nowhere,
or it is taken.
-/
inductive Polling (s : Session) (elapsed : Duration) : Prop where
  | quiet (hopen : s.firstOpen? elapsed = none)
      (hpoll : s.pollTimers elapsed = ⟨.ok none, s.passing elapsed, []⟩)
  | stuck {timer : Timer} {e : SessionError} (hopen : s.firstOpen? elapsed = some timer)
      (hdead : s.isResolvable timer.choice = false)
      (hanswer : (s.pollTimers elapsed).answer = .error e)
      (hsession : (s.pollTimers elapsed).session = s.passing elapsed)
  | taken {timer : Timer} {chapter : Chapter} {choice : Choice} {successor : Successor}
      (hopen : s.firstOpen? elapsed = some timer) (hresolvable : s.isResolvable timer.choice)
      (hchoice : s.choiceAt? timer.choice = some (chapter, choice))
      (hsuccessor : choice.successor = .ok successor)
      (hanswer : (s.pollTimers elapsed).answer = .ok (some (.ofId successor.id)))
      (hsession : (s.pollTimers elapsed).session =
        (s.passing elapsed).taking chapter choice successor.id)

theorem Coherent.polling (hs : s.Coherent) (elapsed : Duration) : s.Polling elapsed := by
  have hfired := s.fired?_eq_map elapsed
  cases hopen : s.firstOpen? elapsed with
  | none =>
    rw [hopen] at hfired
    exact .quiet hopen (pollTimers_of_none hfired)
  | some timer =>
    rw [hopen, Option.map_some] at hfired
    have hpoll := pollTimers_of_some hfired
    have hpending := hs.pending_of_fired_eq_some hfired
    have hisOpen := isOpen_of_firstOpen? hopen
    obtain ⟨chapter, choice, hchoice⟩ := hs.choiceAt?_of_isOpen hisOpen
    have hresolvable := isResolvable_eq hchoice
    -- The clock has no part in which choice stands at a place.
    have hplace : (s.passing elapsed).choiceAt? timer.choice = some (chapter, choice) := hchoice
    rw [hisOpen, Bool.true_and] at hresolvable
    cases hsuccessor : choice.successor with
    | error e =>
      rw [hsuccessor] at hresolvable
      rw [takeChoice_of_error hplace hsuccessor] at hpoll
      apply Polling.stuck hopen hresolvable
      · rw [hpoll]
        rfl
      · rw [hpoll]
        rfl
    | ok successor =>
      rw [hsuccessor] at hresolvable
      obtain ⟨hanswer, hsession⟩ := takeChoice_of_ok (s := s.passing elapsed) hpending hplace hsuccessor
      apply Polling.taken hopen hresolvable hchoice hsuccessor
      · rw [hpoll, Reply.answer_map, hanswer]
        rfl
      · rw [hpoll, Reply.session_map, hsession]

/--
A choice that falls due when time passes: it stands on screen, nothing is loading, and its timer waits no longer
than that.
-/
structure FallsDue (s : Session) (elapsed : Duration) (chapter : Chapter) (choice : Choice) : Prop where
  pending_eq : s.pending = none
  phase_eq : s.phase = .choicesVisible
  timer : ∃ timer ∈ s.timers.pending, timer.deadline ≤ s.timers.now + elapsed ∧
    s.choiceAt? timer.choice = some (chapter, choice)

theorem timer_of_fired {index : Nat} (h : s.fired? elapsed = some index) :
    ∃ timer ∈ s.timers.pending, timer.deadline ≤ s.timers.now + elapsed ∧ timer.choice = index := by
  have hmem := List.mem_of_find?_eq_some h
  unfold Timers.advance at hmem
  obtain ⟨timer, hdue, rfl⟩ := List.mem_map.mp hmem
  obtain ⟨hpending, hdeadline⟩ := Timers.mem_dueAt.mp hdue
  exact ⟨timer, hpending, hdeadline, rfl⟩

theorem Coherent.phase_of_fired (hs : s.Coherent) {index : Nat} (h : s.fired? elapsed = some index) :
    s.phase = .choicesVisible := by
  obtain ⟨_, hmem, _, _⟩ := timer_of_fired h
  by_cases hphase : s.phase = .choicesVisible
  · exact hphase
  · rw [hs.timers_eq_nil hphase] at hmem
    cases hmem

theorem Coherent.fallsDue (hs : s.Coherent) {index : Nat} {chapter : Chapter} {choice : Choice}
    (hfired : s.fired? elapsed = some index) (hchoice : s.choiceAt? index = some (chapter, choice)) :
    s.FallsDue elapsed chapter choice := by
  obtain ⟨timer, hmem, hdeadline, rfl⟩ := timer_of_fired hfired
  exact ⟨hs.pending_of_fired_eq_some hfired, hs.phase_of_fired hfired, timer, hmem, hdeadline, hchoice⟩

/--
What is resolved when time passes, and what the trace tells of it. Where a poll asks for a document, it has taken a
choice that falls due. Otherwise only the clock has moved. A tick polls, and then tells the session how the source
answers what the poll asks for.
-/
structure ResolvesDue (s : Session) (elapsed : Duration) : Prop where
  taken : ∀ request, (s.pollTimers elapsed).answer = .ok (some request) →
    ∃ chapter choice successor, s.FallsDue elapsed chapter choice ∧ choice.successor = .ok successor ∧
      request = .ofId successor.id ∧
      (s.pollTimers elapsed).session = (s.passing elapsed).taking chapter choice successor.id ∧
      s.trace [.pollTimers elapsed] = [.passed elapsed, .took chapter choice successor.id]
  idle : (∀ request, (s.pollTimers elapsed).answer ≠ .ok (some request)) →
    (s.pollTimers elapsed).session = s.passing elapsed ∧ s.trace [.pollTimers elapsed] = [.passed elapsed]
  settled : ∀ source request, s.source = some source → (s.pollTimers elapsed).answer = .ok (some request) →
    (s.tick elapsed).session = ((s.pollTimers elapsed).session.perform (source.settle request)).session
  ticked : s.source.isSome → (∀ request, (s.pollTimers elapsed).answer ≠ .ok (some request)) →
    (s.tick elapsed).session = (s.pollTimers elapsed).session
  unsourced : s.source = none → (s.tick elapsed).session = s

theorem perform_pollTimers {request : ContentRequest} :
    (s.perform (.pollTimers elapsed)).answer = .ok (.request request) ↔
      (s.pollTimers elapsed).answer = .ok (some request) := by
  unfold perform
  rw [Reply.answer_map]
  cases (s.pollTimers elapsed).answer with
  | error e => simp [Except.map]
  | ok answer => cases answer <;> simp [Except.map, Answer.ofRequest?]

theorem trace_of_taken {index : Nat} {chapter : Chapter} {choice : Choice} {request : ContentRequest}
    (hfired : s.fired? elapsed = some index) (hchoice : s.choiceAt? index = some (chapter, choice))
    (h : (s.pollTimers elapsed).answer = .ok (some request)) :
    s.trace [.pollTimers elapsed] = [.passed elapsed, .took chapter choice request.id] := by
  rw [trace_of_host rfl]
  unfold hostEvents
  rw [perform_pollTimers.mpr h]
  dsimp only
  rw [hfired, beginning_some _ hchoice]

theorem trace_of_idle (h : ∀ request, (s.pollTimers elapsed).answer ≠ .ok (some request)) :
    s.trace [.pollTimers elapsed] = [.passed elapsed] := by
  rw [trace_of_host rfl]
  unfold hostEvents
  cases hanswer : (s.perform (.pollTimers elapsed)).answer with
  | error e => rfl
  | ok answer =>
    cases answer with
    | request request => exact absurd (perform_pollTimers.mp hanswer) (h request)
    | done | noRequest | count | flag => rfl

theorem Coherent.resolvesDue (hs : s.Coherent) (elapsed : Duration) : s.ResolvesDue elapsed where
  taken := by
    intro request h
    cases hs.polling elapsed with
    | quiet _ hpoll =>
      rw [hpoll] at h
      cases h
    | stuck _ _ hanswer _ =>
      rw [hanswer] at h
      cases h
    | @taken timer chapter choice successor hopen _ hchoice hsuccessor hanswer hsession =>
      have hfired := s.fired?_eq_map elapsed
      rw [hopen, Option.map_some] at hfired
      have htrace := trace_of_taken hfired hchoice hanswer
      rw [hanswer] at h
      cases h
      exact ⟨chapter, choice, successor, hs.fallsDue hfired hchoice, hsuccessor, rfl, hsession, htrace⟩
  idle := by
    intro h
    refine ⟨?_, trace_of_idle h⟩
    cases hs.polling elapsed with
    | quiet _ hpoll => rw [hpoll]
    | stuck _ _ _ hsession => exact hsession
    | taken _ _ _ _ hanswer _ => exact absurd hanswer (h _)
  settled := by
    intro source request hsource h
    have hrequest := perform_pollTimers.mpr h
    have hdrives := s.drives_tick elapsed
    unfold Drives at hdrives
    rw [hsource, hrequest] at hdrives
    apply hdrives.trans
    apply session_fetchAndComplete
    · rw [source_of_request hrequest, hsource]
    · rw [pending_of_request hrequest]
      rfl
  ticked := by
    intro hsource h
    have hdrives := s.drives_tick elapsed
    unfold Drives at hdrives
    split at hdrives
    · next _ hnone =>
      rw [hnone] at hsource
      cases hsource
    · next request _ hrequest => exact absurd (perform_pollTimers.mp hrequest) (h request)
    · exact hdrives
  unsourced := by
    intro hsource
    have hdrives := s.drives_tick elapsed
    unfold Drives at hdrives
    rw [hsource] at hdrives
    exact hdrives

end Narrative.Session
