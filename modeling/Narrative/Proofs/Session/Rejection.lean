import Narrative.Proofs.Session.Undo

/-!
This module contains what calls leave behind that a session rejects: nothing at all. While a load is pending the
calls that do not end it are rejected, and only the clock goes on.
-/

namespace Narrative

/--
Whether a call wants to begin a load, apart from those that only let time pass.
-/
def Call.startsLoad : Call → Bool
  | .beginLoad _ => true
  | .selectChoice _ => true
  | .start => true
  | .load _ => true
  | .choose _ => true
  | _ => false

def Call.passesTime : Call → Bool
  | .pollTimers _ => true
  | .tick _ => true
  | _ => false

/--
Whether errors of a kind reject a call. The others end a load that had begun.
-/
def ErrorKind.isRejection : ErrorKind → Bool
  | .contentFetch => false
  | .malformedContent => false
  | _ => true

namespace Session

variable {s : Session} {e : SessionError}

def atTime (s : Session) (now : Duration) : Session :=
  { s with timers := ⟨now, s.timers.pending⟩ }

theorem waitingAt_eq_atTime (now : Duration) (h : s.timers.pending = []) :
    s.waitingAt now = s.atTime now := by
  unfold waitingAt atTime
  rw [h]

theorem isRejection_document (id : String) (e : DocumentError) :
    (SessionError.document id e).kind.isRejection = false := by
  cases e <;> rfl

theorem session_report_of_error {α : Type} {r : Reply (Except SessionError α)} {cause : SessionError}
    (h : r = s.report cause) : r.session = s := by
  rw [h]
  rfl

theorem takeChoice_rejected {index : Nat} (hpending : s.pending = none)
    (h : (s.takeChoice index).answer = .error e) : (s.takeChoice index).session = s := by
  cases taking_of_none index hpending with
  | refused htake _ => exact session_report_of_error htake
  | taken _ _ hanswer _ =>
    rw [hanswer] at h
    cases h

theorem selectChoice_rejected {position : Nat} (h : (s.selectChoice position).answer = .error e) :
    (s.selectChoice position).session = s := by
  cases s.click position with
  | refused hselect _ => exact session_report_of_error hselect
  | @onward next hpending _ hselect =>
    rw [hselect, beginLoad_of_none next hpending] at h
    cases h
  | taken hpending hclicked =>
    rw [selectChoice_of_clicked hclicked] at h ⊢
    exact takeChoice_rejected hpending h

theorem beginLoad_rejected {id : String} (h : (s.beginLoad id).answer = .error e) :
    (s.beginLoad id).session = s := by
  obtain ⟨request, hpending, _⟩ := beginLoad_error h
  exact session_report_of_error (beginLoad_of_some id hpending)

theorem completeLoad_rejected {text : String} (h : (s.completeLoad text).answer = .error e)
    (hkind : e.kind.isRejection) : (s.completeLoad text).session = s := by
  cases completeLoad_error h with
  | notLoading hpending => exact session_report_of_error (completeLoad_of_none text hpending)
  | @document request _ cause =>
    rw [isRejection_document] at hkind
    cases hkind

theorem failLoad_rejected {message : String} (h : (s.failLoad message).answer = .error e) :
    (s.failLoad message).session = s := by
  cases hpending : s.pending with
  | none => exact session_report_of_error (failLoad_of_none message hpending)
  | some request =>
    rw [(failLoad_of_some message hpending).1] at h
    cases h

theorem hostCall_rejected {call : Call} (hhost : call.isHostCall) (htime : call.passesTime = false)
    (h : (s.perform call).answer = .error e) (hkind : e.kind.isRejection) :
    (s.perform call).session = s := by
  cases call with
  | beginLoad id => exact beginLoad_rejected (Reply.answer_map_eq_error.mp h)
  | completeLoad text => exact completeLoad_rejected (Reply.answer_map_eq_error.mp h) hkind
  | failLoad message => exact failLoad_rejected (Reply.answer_map_eq_error.mp h)
  | selectChoice position => exact selectChoice_rejected (Reply.answer_map_eq_error.mp h)
  | cancelTimers | cast | reset => cases h
  | pollTimers => cases htime
  | start | load | choose | tick => cases hhost

/--
An error that comes after a load has begun does not reject the call.
-/
theorem isRejection_of_fetchAndComplete {source : ContentSource} {request : ContentRequest}
    (hsource : s.source = some source) (hpending : s.pending.isSome)
    (h : (s.fetchAndComplete request).answer = .error e) : e.kind.isRejection = false := by
  rcases fetchAndComplete_error hsource h with hunfinished | ⟨cause, _, rfl⟩
  · cases hunfinished with
    | notLoading hnone =>
      rw [hnone] at hpending
      cases hpending
    | document _ cause => exact isRejection_document _ cause
  · rfl

theorem perform_rejected {call : Call} (htime : call.passesTime = false)
    (h : (s.perform call).answer = .error e) (hkind : e.kind.isRejection) :
    (s.perform call).session = s := by
  cases hopening : s.opening? call with
  | none => exact hostCall_rejected (isHostCall_of_opening?_eq_none hopening) htime h hkind
  | some opening =>
    have hdrives := drives_of_opening? hopening
    unfold Drives at hdrives
    cases hsource : s.source with
    | none =>
      rw [hsource] at hdrives
      exact hdrives
    | some source =>
      rw [hsource] at hdrives
      cases perform_error hopening hsource h with
      | opening hanswer =>
        rw [hanswer] at hdrives
        dsimp only at hdrives
        rw [hdrives]
        apply hostCall_rejected (isHostCall_of_opening? hopening) _ hanswer hkind
        cases call <;> cases hopening <;> first | rfl | cases htime
      | @loading request hrequest hanswer =>
        have hafter := source_of_request hrequest
        rw [hsource] at hafter
        have hpending : (s.perform opening).session.pending.isSome := by
          rw [pending_of_request hrequest]
          rfl
        rw [isRejection_of_fetchAndComplete hafter hpending hanswer] at hkind
        cases hkind

theorem cast_failed {name : String} (h : (s.cast name).answer = false) : (s.cast name).session = s := by
  cases s.casting name with
  | failed hcast => rw [hcast]
  | succeeded _ _ _ hanswer _ =>
    rw [hanswer] at h
    cases h

theorem load_of_pending {request : ContentRequest} (id : String) (hpending : s.pending = some request) :
    ∃ e, (s.load id).answer = .error e ∧ e.kind.isRejection := by
  cases hsource : s.source with
  | none =>
    refine ⟨.noSource, ?_, rfl⟩
    unfold load withSource
    rw [hsource]
    rfl
  | some source =>
    refine ⟨.loadInProgress id request.id, ?_, rfl⟩
    rw [load_of_source id hsource, beginLoad_of_some id hpending]
    rfl

theorem selectChoice_of_pending {request : ContentRequest} (position : Nat)
    (hpending : s.pending = some request) :
    s.selectChoice position = s.report (.busy .takeChoice request.id) := by
  unfold selectChoice
  rw [hpending]

theorem choose_of_pending {request : ContentRequest} (position : Nat)
    (hpending : s.pending = some request) :
    ∃ e, (s.choose position).answer = .error e ∧ e.kind.isRejection := by
  cases hsource : s.source with
  | none =>
    refine ⟨.noSource, ?_, rfl⟩
    unfold choose withSource
    rw [hsource]
    rfl
  | some source =>
    refine ⟨.busy .takeChoice request.id, ?_, rfl⟩
    rw [choose_of_source position hsource, selectChoice_of_pending position hpending]
    rfl

/--
A session that is waiting for a document turns away whatever would begin another load.
-/
theorem startsLoad_of_pending {request : ContentRequest} {call : Call}
    (hpending : s.pending = some request) (h : call.startsLoad) :
    ∃ e, (s.perform call).answer = .error e ∧ e.kind.isRejection := by
  cases call with
  | beginLoad id =>
    refine ⟨.loadInProgress id request.id, ?_, rfl⟩
    apply Reply.answer_map_eq_error.mpr
    rw [beginLoad_of_some id hpending]
    rfl
  | selectChoice position =>
    refine ⟨.busy .takeChoice request.id, ?_, rfl⟩
    apply Reply.answer_map_eq_error.mpr
    rw [selectChoice_of_pending position hpending]
    rfl
  | start =>
    obtain ⟨e, he, hkind⟩ := load_of_pending s.config.startChapter hpending
    exact ⟨e, Reply.answer_map_eq_error.mpr he, hkind⟩
  | load id =>
    obtain ⟨e, he, hkind⟩ := load_of_pending id hpending
    exact ⟨e, Reply.answer_map_eq_error.mpr he, hkind⟩
  | choose position =>
    obtain ⟨e, he, hkind⟩ := choose_of_pending position hpending
    exact ⟨e, Reply.answer_map_eq_error.mpr he, hkind⟩
  | completeLoad | failLoad | pollTimers | cancelTimers | tick | cast | reset => cases h

theorem passesTime_of_startsLoad {call : Call} (h : call.startsLoad) : call.passesTime = false := by
  cases call <;> first | rfl | cases h

theorem cast_of_pending {request : ContentRequest} (name : String) (hpending : s.pending = some request) :
    (s.cast name).answer = false := by
  unfold cast
  rw [hpending]
  rfl

theorem pollTimers_of_waiting (elapsed : Duration) (htimers : s.timers.pending = []) :
    s.pollTimers elapsed = ⟨.ok none, s.atTime (s.timers.now + elapsed), []⟩ := by
  rw [pollTimers_of_none (fired?_eq_none htimers), passing_of_waiting elapsed htimers,
    waitingAt_eq_atTime _ htimers]

theorem tick_of_waiting (elapsed : Duration) (htimers : s.timers.pending = []) :
    s.tick elapsed = s.withSource fun _ => ⟨.ok false, s.atTime (s.timers.now + elapsed), []⟩ := by
  unfold tick withSource
  cases s.source with
  | none => rfl
  | some source =>
    dsimp only
    rw [pollTimers_of_waiting elapsed htimers]
    rfl

/--
A session is not moved by calls that it rejects. While a load is pending, that is so of all calls that would begin
another one and of spells, time only moves the clock, and nothing but the end of that load or a reset moves
anything else.
-/
structure Steadfast (s : Session) : Prop where
  unmoved : ∀ call e, call.passesTime = false → (s.perform call).answer = .error e →
    e.kind.isRejection → (s.perform call).session = s
  fizzled : ∀ name, (s.cast name).answer = false → (s.cast name).session = s
  closed : s.pending.isSome → ∀ call, call.startsLoad →
    (∃ e, (s.perform call).answer = .error e) ∧ (s.perform call).session = s
  uncast : s.pending.isSome → ∀ name, (s.cast name).answer = false
  polled : s.pending.isSome → ∀ elapsed,
    s.pollTimers elapsed = ⟨.ok none, s.atTime (s.timers.now + elapsed), []⟩
  ticked : s.pending.isSome → ∀ elapsed,
    s.tick elapsed = s.withSource fun _ => ⟨.ok false, s.atTime (s.timers.now + elapsed), []⟩
  held : s.pending.isSome → ∀ calls, (∀ call ∈ calls, call.isClosing = false) →
    ∃ now, s.run calls = s.atTime now

theorem Coherent.steadfast (hs : s.Coherent) : s.Steadfast := by
  have hwaiting : s.pending.isSome → s.timers.pending = [] := by
    intro h
    obtain ⟨request, hpending⟩ := Option.isSome_iff_exists.mp h
    exact hs.timers_eq_nil_of_pending hpending
  exact {
    unmoved := fun _ _ => perform_rejected
    fizzled := fun _ => cast_failed
    closed := by
      intro h call hstarts
      obtain ⟨request, hpending⟩ := Option.isSome_iff_exists.mp h
      obtain ⟨e, he, hkind⟩ := startsLoad_of_pending hpending hstarts
      exact ⟨⟨e, he⟩, perform_rejected (passesTime_of_startsLoad hstarts) he hkind⟩
    uncast := by
      intro h name
      obtain ⟨request, hpending⟩ := Option.isSome_iff_exists.mp h
      exact cast_of_pending name hpending
    polled := fun h elapsed => pollTimers_of_waiting elapsed (hwaiting h)
    ticked := fun h elapsed => tick_of_waiting elapsed (hwaiting h)
    held := by
      intro h calls hopen
      obtain ⟨request, hpending⟩ := Option.isSome_iff_exists.mp h
      obtain ⟨now, hrun⟩ := run_of_waiting hpending (hwaiting h) hopen
      rw [waitingAt_eq_atTime now (hwaiting h)] at hrun
      exact ⟨now, hrun⟩
  }

/--
In every session that calls can lead to, a rejected call leaves everything as it was, and a pending load is ended by
nothing but its completion, its failure or a reset.
-/
theorem steadfast_run (config : Config) (source : Option ContentSource) (player : Option Player)
    (calls : List Call) : ((Session.new config source player).run calls).Steadfast :=
  ((coherent_new config source player).run calls).steadfast

end Session

end Narrative
