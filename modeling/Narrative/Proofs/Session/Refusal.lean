import Narrative.Proofs.Session.Driving

/-!
This module contains the errors that the operations of a session answer with, each with its cause.
-/

namespace Narrative.Session

variable {s : Session} {e : SessionError}

theorem beginLoad_error {id : String} (h : (s.beginLoad id).answer = .error e) :
    ∃ request, s.pending = some request ∧ e = .loadInProgress id request.id := by
  cases hpending : s.pending with
  | some request =>
    rw [beginLoad_of_some id hpending] at h
    cases h
    exact ⟨request, rfl, rfl⟩
  | none =>
    rw [beginLoad_of_none id hpending] at h
    cases h

theorem takeChoice_error {index : Nat} (hpending : s.pending = none)
    (h : (s.takeChoice index).answer = .error e) : Untakable index e := by
  cases taking_of_none index hpending with
  | refused htake hcause =>
    rw [htake] at h
    cases h
    exact hcause
  | taken _ _ hanswer _ =>
    rw [hanswer] at h
    cases h

theorem selectChoice_error {position : Nat} (h : (s.selectChoice position).answer = .error e) :
    s.Unclickable position e ∨ ∃ index, s.clicked? position = some index ∧ Untakable index e := by
  cases s.click position with
  | refused hselect hcause =>
    left
    rw [hselect] at h
    cases h
    exact hcause
  | @onward next hpending _ hselect =>
    rw [hselect, beginLoad_of_none next hpending] at h
    cases h
  | @taken index hpending hclicked =>
    right
    rw [selectChoice_of_clicked hclicked] at h
    exact ⟨index, hclicked, takeChoice_error hpending h⟩

theorem pollTimers_error {elapsed : Duration} (hpending : s.fired? elapsed ≠ none → s.pending = none)
    (h : (s.pollTimers elapsed).answer = .error e) :
    ∃ index, s.fired? elapsed = some index ∧ Untakable index e := by
  cases hfired : s.fired? elapsed with
  | none =>
    rw [pollTimers_of_none hfired] at h
    cases h
  | some index =>
    rw [pollTimers_of_some hfired, Reply.answer_map] at h
    have hnone : (s.passing elapsed).pending = none := hpending (by rw [hfired]; nofun)
    cases hanswer : ((s.passing elapsed).takeChoice index).answer with
    | ok request =>
      rw [hanswer] at h
      cases h
    | error cause =>
      rw [hanswer] at h
      cases h
      exact ⟨index, rfl, takeChoice_error hnone hanswer⟩

inductive Unfinished (s : Session) : SessionError → Prop where
  | notLoading (hpending : s.pending = none) : Unfinished s .notLoading
  | document {request : ContentRequest} (hpending : s.pending = some request) (e : DocumentError) :
      Unfinished s (.document request.id e)

theorem completeLoad_error {text : String} (h : (s.completeLoad text).answer = .error e) :
    Unfinished s e := by
  cases hpending : s.pending with
  | none =>
    rw [completeLoad_of_none text hpending] at h
    cases h
    exact .notLoading hpending
  | some request =>
    cases hdocument : Document.ofText request.kind text with
    | ok document =>
      rw [(completeLoad_of_ok hpending hdocument).1] at h
      cases h
    | error cause =>
      rw [(completeLoad_of_error hpending hdocument).1] at h
      cases h
      exact .document hpending cause

theorem fetchAndComplete_error {source : ContentSource} {request : ContentRequest}
    (hsource : s.source = some source) (h : (s.fetchAndComplete request).answer = .error e) :
    Unfinished s e ∨ ∃ cause, source.fetch request.id = .error cause ∧ e = .fetch cause := by
  unfold fetchAndComplete withSource at h
  rw [hsource] at h
  dsimp only at h
  split at h
  · left
    exact completeLoad_error h
  · next cause hfetch =>
    right
    cases h
    exact ⟨cause, hfetch, rfl⟩

theorem hostCall_ne_noSource {call : Call} (hhost : call.isHostCall)
    (hpending : ∀ elapsed, s.fired? elapsed ≠ none → s.pending = none) :
    (s.perform call).answer ≠ .error .noSource := by
  intro h
  cases call with
  | beginLoad id =>
    rw [perform, Reply.answer_map_eq_error] at h
    obtain ⟨_, _, he⟩ := beginLoad_error h
    cases he
  | completeLoad text =>
    rw [perform, Reply.answer_map_eq_error] at h
    cases completeLoad_error h
  | failLoad message =>
    rw [perform, Reply.answer_map_eq_error] at h
    cases hload : s.pending with
    | none =>
      rw [failLoad_of_none message hload] at h
      cases h
    | some request =>
      rw [(failLoad_of_some message hload).1] at h
      cases h
  | selectChoice position =>
    rw [perform, Reply.answer_map_eq_error] at h
    cases selectChoice_error h with
    | inl hcause => cases hcause
    | inr htaken =>
      obtain ⟨_, _, hcause⟩ := htaken
      cases hcause
  | pollTimers elapsed =>
    rw [perform, Reply.answer_map_eq_error] at h
    obtain ⟨_, _, huntakable⟩ := pollTimers_error (hpending elapsed) h
    cases huntakable
  | cancelTimers | cast | reset => cases h
  | start | load | choose | tick => cases hhost

theorem fetchAndComplete_ne_noSource {source : ContentSource} {request : ContentRequest}
    (hsource : s.source = some source) : (s.fetchAndComplete request).answer ≠ .error .noSource := by
  intro h
  cases fetchAndComplete_error hsource h with
  | inl hunfinished => cases hunfinished
  | inr hfetch =>
    obtain ⟨_, _, he⟩ := hfetch
    cases he

inductive FailsIn (s : Session) (opening : Call) (e : SessionError) : Prop where
  | opening (h : (s.perform opening).answer = .error e)
  | loading {request : ContentRequest} (hrequest : (s.perform opening).answer = .ok (.request request))
      (h : ((s.perform opening).session.fetchAndComplete request).answer = .error e)

theorem load_error {source : ContentSource} {id : String} (hsource : s.source = some source)
    (h : (s.load id).answer = .error e) : s.FailsIn (.beginLoad id) e := by
  rw [load_of_source id hsource, Reply.answer_andThen_eq_error] at h
  rcases h with h | ⟨request, hrequest, h⟩
  · apply FailsIn.opening
    rw [perform, Reply.answer_map_eq_error, h]
  · have hbegun : (s.perform (.beginLoad id)).answer = .ok (.request request) := by
      rw [perform, Reply.answer_map, hrequest]
      rfl
    exact .loading hbegun h

theorem choose_error {source : ContentSource} {position : Nat} (hsource : s.source = some source)
    (h : (s.choose position).answer = .error e) : s.FailsIn (.selectChoice position) e := by
  rw [choose_of_source position hsource, Reply.answer_andThen_eq_error] at h
  rcases h with h | ⟨request, hrequest, h⟩
  · apply FailsIn.opening
    rw [perform, Reply.answer_map_eq_error, h]
  · have hbegun : (s.perform (.selectChoice position)).answer = .ok (.request request) := by
      rw [perform, Reply.answer_map, hrequest]
      rfl
    exact .loading hbegun h

theorem tick_error {source : ContentSource} {elapsed : Duration} (hsource : s.source = some source)
    (h : (s.tick elapsed).answer = .error e) : s.FailsIn (.pollTimers elapsed) e := by
  unfold tick withSource at h
  rw [hsource] at h
  dsimp only at h
  rw [Reply.answer_andThen_eq_error] at h
  rcases h with h | ⟨answer, hanswer, h⟩
  · apply FailsIn.opening
    rw [perform, Reply.answer_map_eq_error, h]
  · cases answer with
    | none => cases h
    | some request =>
      dsimp only at h
      rw [Reply.answer_map_eq_error] at h
      have hbegun : (s.perform (.pollTimers elapsed)).answer = .ok (.request request) := by
        rw [perform, Reply.answer_map, hanswer]
        rfl
      exact .loading hbegun h

theorem perform_error {opening call : Call} {source : ContentSource}
    (hopening : s.opening? call = some opening) (hsource : s.source = some source)
    (h : (s.perform call).answer = .error e) : s.FailsIn opening e := by
  cases call with
  | start =>
    cases hopening
    rw [perform, Reply.answer_map_eq_error] at h
    exact load_error hsource h
  | load id =>
    cases hopening
    rw [perform, Reply.answer_map_eq_error] at h
    exact load_error hsource h
  | choose position =>
    cases hopening
    rw [perform, Reply.answer_map_eq_error] at h
    exact choose_error hsource h
  | tick elapsed =>
    cases hopening
    rw [perform, Reply.answer_map_eq_error] at h
    exact tick_error hsource h
  | beginLoad | completeLoad | failLoad | selectChoice | pollTimers | cancelTimers | cast | reset =>
    cases hopening

theorem answer_of_failsIn {opening : Call} {begun : Reply (Except SessionError ContentRequest)}
    {e : SessionError} (hbegun : s.perform opening = begun.map (Except.map .request))
    (h : s.FailsIn opening e) :
    (begun.andThen fun request s => s.fetchAndComplete request).answer = .error e := by
  rw [Reply.answer_andThen_eq_error]
  cases h with
  | opening hanswer =>
    rw [hbegun] at hanswer
    exact .inl (Reply.answer_map_eq_error.mp hanswer)
  | loading hrequest hanswer =>
    rw [hbegun] at hrequest hanswer
    obtain ⟨_, hok, heq⟩ := Reply.answer_map_eq_ok.mp hrequest
    cases heq
    exact .inr ⟨_, hok, hanswer⟩

/--
A call that loads from the source fails just when the call fails that it begins with, or the load that follows.
-/
theorem perform_error_iff {opening call : Call} {source : ContentSource} {e : SessionError}
    (hopening : s.opening? call = some opening) (hsource : s.source = some source) :
    (s.perform call).answer = .error e ↔ s.FailsIn opening e := by
  constructor
  · exact perform_error hopening hsource
  · intro h
    cases call with
    | start =>
      cases hopening
      apply Reply.answer_map_eq_error.mpr
      unfold start
      rw [load_of_source _ hsource]
      exact answer_of_failsIn rfl h
    | load id =>
      cases hopening
      apply Reply.answer_map_eq_error.mpr
      rw [load_of_source id hsource]
      exact answer_of_failsIn rfl h
    | choose position =>
      cases hopening
      apply Reply.answer_map_eq_error.mpr
      rw [choose_of_source position hsource]
      exact answer_of_failsIn rfl h
    | tick elapsed =>
      cases hopening
      apply Reply.answer_map_eq_error.mpr
      unfold tick withSource
      rw [hsource]
      dsimp only
      rw [Reply.answer_andThen_eq_error]
      cases h with
      | opening hanswer => exact .inl (Reply.answer_map_eq_error.mp hanswer)
      | loading hrequest hanswer =>
        obtain ⟨answer, hbegun, heq⟩ := Reply.answer_map_eq_ok.mp hrequest
        cases answer with
        | none => cases heq
        | some request =>
          cases heq
          exact .inr ⟨_, hbegun, Reply.answer_map_eq_error.mpr hanswer⟩
    | beginLoad | completeLoad | failLoad | selectChoice | pollTimers | cancelTimers | cast | reset =>
      cases hopening

/--
A session without a source says so before anything else; one that has a source never says so.
-/
theorem perform_noSource (hpending : ∀ elapsed, s.fired? elapsed ≠ none → s.pending = none)
    {call : Call} (h : (s.perform call).answer = .error .noSource) :
    s.source = none ∧ (s.perform call).session = s := by
  cases hopening : s.opening? call with
  | none =>
    have hhost := isHostCall_of_opening?_eq_none hopening
    exact absurd h (hostCall_ne_noSource hhost hpending)
  | some opening =>
    have hhost := isHostCall_of_opening? hopening
    cases hsource : s.source with
    | none =>
      refine ⟨rfl, ?_⟩
      have hdrives := drives_of_opening? hopening
      unfold Drives at hdrives
      rw [hsource] at hdrives
      exact hdrives
    | some source =>
      cases perform_error hopening hsource h with
      | opening h => exact absurd h (hostCall_ne_noSource hhost hpending)
      | loading hrequest h =>
        have hafter := source_of_request hrequest
        rw [hsource] at hafter
        exact absurd h (fetchAndComplete_ne_noSource hafter)

end Narrative.Session
