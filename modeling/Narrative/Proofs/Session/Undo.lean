import Narrative.Proofs.Session.Consistency
import Narrative.Proofs.Session.Ledger

/-!
This module contains loads that fail. A load may begin with a choice, and time may pass before it fails; the
session comes back to what it was, with the timers of its choices started afresh.
-/

namespace Narrative

def Call.isClosing : Call → Bool
  | .completeLoad _ => true
  | .failLoad _ => true
  | .reset => true
  | _ => false

inductive Call.Fails (request : ContentRequest) : Call → Prop where
  | failLoad (message : String) : Fails request (.failLoad message)
  | completeLoad {text : String} {e : DocumentError}
      (hdocument : Document.ofText request.kind text = .error e) :
      Fails request (.completeLoad text)

inductive ContentSource.Fails (source : ContentSource) (request : ContentRequest) : Prop where
  | fetch {e : FetchError} (hfetch : source.fetch request.id = .error e)
  | document {text : String} {e : DocumentError} (hfetch : source.fetch request.id = .ok text)
      (hdocument : Document.ofText request.kind text = .error e)

theorem ContentSource.Fails.settle {source : ContentSource} {request : ContentRequest}
    (h : source.Fails request) : (source.settle request).Fails request := by
  unfold ContentSource.settle
  cases h with
  | fetch hfetch =>
    rw [hfetch]
    exact .failLoad _
  | document hfetch hdocument =>
    rw [hfetch]
    exact .completeLoad hdocument

namespace Session

variable {s : Session}

/--
Calls in which a load begins and fails, once or several times. Either the host fetches the document, and does
whatever it likes in between, or the session fetches it from its source.
-/
inductive Futile : Session → List Call → Prop where
  | host {s : Session} {opening failure : Call} {request : ContentRequest} {during : List Call}
      (hrequest : (s.perform opening).answer = .ok (.request request))
      (hduring : ∀ call ∈ during, call.isClosing = false) (hfailure : failure.Fails request) :
      Futile s (opening :: (during ++ [failure]))
  | source {s : Session} {opening call : Call} {source : ContentSource} {request : ContentRequest}
      (hopening : s.opening? call = some opening) (hsource : s.source = some source)
      (hrequest : (s.perform opening).answer = .ok (.request request))
      (hfails : source.Fails request) : Futile s [call]
  | again {s : Session} {first rest : List Call} (hfirst : Futile s first)
      (hrest : Futile (s.run first) rest) : Futile s (first ++ rest)

/--
The session at a time, with the timers of its choices started just then.
-/
def rearmed (s : Session) (now : Duration) : Session :=
  { s with timers := ⟨now, s.choices.filterMap (·.timerAt? now)⟩ }

def waitingAt (s : Session) (now : Duration) : Session :=
  { s with timers := ⟨now, []⟩ }

def trying (s : Session) (request : ContentRequest) (p : Player) (undo : Option Player) : Session :=
  { s with player := p, phase := .loading, pending := some request, rollback := undo }

theorem waitingAt_self (h : s.timers.pending = []) : s.waitingAt s.timers.now = s := by
  unfold waitingAt
  rw [← h]

theorem passing_of_waiting (elapsed : Duration) (h : s.timers.pending = []) :
    s.passing elapsed = s.waitingAt (s.timers.now + elapsed) := by
  unfold passing waitingAt Timers.advance
  dsimp
  rw [h]
  rfl

/--
While a load is pending, nothing but the clock is changed by a host call that does not end it.
-/
theorem hostCall_of_waiting {request : ContentRequest} {call : Call} (hpending : s.pending = some request)
    (htimers : s.timers.pending = []) (hhost : call.isHostCall) (hopen : call.isClosing = false) :
    ∃ now, (s.perform call).session = s.waitingAt now := by
  have hself := (waitingAt_self htimers).symm
  unfold perform
  cases call with
  | beginLoad id =>
    refine ⟨s.timers.now, ?_⟩
    rw [Reply.session_map, beginLoad_of_some id hpending]
    exact hself
  | selectChoice position =>
    cases s.click position with
    | refused hselect _ =>
      refine ⟨s.timers.now, ?_⟩
      rw [Reply.session_map, hselect]
      exact hself
    | onward hnone _ _ =>
      rw [hpending] at hnone
      cases hnone
    | taken hnone _ =>
      rw [hpending] at hnone
      cases hnone
  | pollTimers elapsed =>
    refine ⟨s.timers.now + elapsed, ?_⟩
    rw [Reply.session_map, pollTimers_of_none (fired?_eq_none htimers)]
    exact passing_of_waiting elapsed htimers
  | cancelTimers => exact ⟨s.timers.now, rfl⟩
  | cast name =>
    cases s.casting name with
    | failed hcast =>
      refine ⟨s.timers.now, ?_⟩
      rw [Reply.session_map, hcast]
      exact hself
    | succeeded hnone _ _ _ _ =>
      rw [hpending] at hnone
      cases hnone
  | completeLoad | failLoad | reset => cases hopen
  | start | load | choose | tick => cases hhost

theorem perform_of_waiting {request : ContentRequest} {call : Call} (hpending : s.pending = some request)
    (htimers : s.timers.pending = []) (hopen : call.isClosing = false) :
    ∃ now, (s.perform call).session = s.waitingAt now := by
  cases hopening : s.opening? call with
  | none =>
    exact hostCall_of_waiting hpending htimers (isHostCall_of_opening?_eq_none hopening) hopen
  | some opening =>
    have hdrives := drives_of_opening? hopening
    unfold Drives at hdrives
    split at hdrives
    · exact ⟨s.timers.now, by rw [hdrives, waitingAt_self htimers]⟩
    · next hrequest =>
      -- No call begins a load while another is pending.
      have hnone := (perform_request hrequest).1
      rw [hpending] at hnone
      cases hnone
    · have hhost := isHostCall_of_opening? hopening
      rw [hdrives]
      apply hostCall_of_waiting hpending htimers hhost
      cases call <;> cases hopening <;> rfl

theorem run_of_waiting {request : ContentRequest} {calls : List Call} (hpending : s.pending = some request)
    (htimers : s.timers.pending = []) (hopen : ∀ call ∈ calls, call.isClosing = false) :
    ∃ now, s.run calls = s.waitingAt now := by
  induction calls generalizing s with
  | nil => exact ⟨_, (waitingAt_self htimers).symm⟩
  | cons call rest ih =>
    obtain ⟨noon, hcall⟩ := perform_of_waiting hpending htimers (hopen call (by simp))
    rw [run_cons, hcall]
    obtain ⟨now, hrest⟩ := ih (s := s.waitingAt noon) hpending rfl
      (fun call hcall => hopen call (by simp [hcall]))
    exact ⟨now, hrest⟩

theorem trying_of_request {call : Call} {request : ContentRequest} (hrollback : s.rollback = none)
    (h : (s.perform call).answer = .ok (.request request)) :
    ∃ now p undo, undo.getD p = s.player ∧
      (s.perform call).session = (s.trying request p undo).waitingAt now := by
  obtain ⟨_, hid, t, ht, hsession⟩ := perform_request h
  have hpassed : ∃ timers, t = { s with timers := timers } := by
    rcases ht with rfl | ⟨elapsed, rfl⟩
    · exact ⟨_, rfl⟩
    · exact ⟨_, rfl⟩
  obtain ⟨timers, rfl⟩ := hpassed
  rcases hsession with hloading | ⟨chapter, choice, htaking⟩
  · refine ⟨timers.now, s.player, none, rfl, ?_⟩
    rw [hloading]
    unfold loading trying waitingAt
    dsimp
    rw [← hid, hrollback]
    rfl
  · refine ⟨timers.now, Deed.apply s.player (.take chapter choice), some s.player, rfl, ?_⟩
    rw [htaking]
    unfold taking loading trying waitingAt
    dsimp
    rw [← hid]
    rfl

theorem perform_of_fails {request : ContentRequest} {failure : Call} (hpending : s.pending = some request)
    (h : failure.Fails request) : (s.perform failure).session = s.returning := by
  unfold perform
  cases h with
  | failLoad message =>
    rw [Reply.session_map, (failLoad_of_some message hpending).2]
  | completeLoad hdocument =>
    rw [Reply.session_map, (completeLoad_of_error hpending hdocument).2]

/--
A session that gives up a load is back where it was before.
-/
theorem Coherent.returning_trying (hs : s.Coherent) (hpending : s.pending = none) {p : Player}
    {undo : Option Player} (request : ContentRequest) (now : Duration) (hundo : undo.getD p = s.player) :
    ((s.trying request p undo).waitingAt now).returning = s.rearmed now := by
  have hrollback := hs.rollback_eq_none hpending
  have hphase := hs.phase_eq
  unfold screen at hphase
  rw [hpending] at hphase
  unfold Session.returning settled trying waitingAt rearmed Session.presenting
  dsimp
  rw [hundo]
  cases hactive : s.active with
  | some content =>
    rw [hactive] at hphase
    -- The choices on offer already are those of the progress that comes back.
    have hchoices := hs.choices_eq_views hpending hactive
    simp [hphase, hpending, hrollback, hchoices]
  | none =>
    rw [hactive] at hphase
    have hchoices := hs.choices_eq_nil hactive
    cases hending : s.ending with
    | some ending =>
      rw [hending] at hphase
      simp [hphase, hpending, hrollback, hchoices]
    | none =>
      rw [hending] at hphase
      simp [hphase, hpending, hrollback, hchoices]

theorem Coherent.run_host (hs : s.Coherent) {opening failure : Call} {request : ContentRequest}
    {during : List Call} (hrequest : (s.perform opening).answer = .ok (.request request))
    (hduring : ∀ call ∈ during, call.isClosing = false) (hfailure : failure.Fails request) :
    ∃ now, s.run (opening :: (during ++ [failure])) = s.rearmed now := by
  have hpending := (perform_request hrequest).1
  obtain ⟨noon, p, undo, hundo, hopening⟩ :=
    trying_of_request (hs.rollback_eq_none hpending) hrequest
  obtain ⟨now, hwaiting⟩ :=
    run_of_waiting (s := (s.trying request p undo).waitingAt noon) rfl rfl hduring
  have htrying : ((s.trying request p undo).waitingAt noon).waitingAt now =
      (s.trying request p undo).waitingAt now := rfl
  refine ⟨now, ?_⟩
  rw [run_cons, hopening, run_append, hwaiting, htrying, run_cons, run_nil,
    perform_of_fails rfl hfailure, hs.returning_trying hpending request now hundo]

theorem Futile.pending_eq_none {calls : List Call} (h : s.Futile calls) : s.pending = none := by
  induction h with
  | host hrequest _ _ => exact (perform_request hrequest).1
  | source _ _ hrequest _ => exact (perform_request hrequest).1
  | again _ _ ih _ => exact ih

theorem Coherent.run_futile (hs : s.Coherent) {calls : List Call} (h : s.Futile calls) :
    ∃ now, s.run calls = s.rearmed now := by
  induction h with
  | host hrequest hduring hfailure => exact hs.run_host hrequest hduring hfailure
  | source hopening hsource hrequest hfails =>
    have hduring : ∀ call ∈ ([] : List Call), call.isClosing = false := nofun
    have hcalls := hs.run_host hrequest hduring hfails.settle
    rw [run_cons, run_nil, session_perform]
    unfold hostCalls
    rw [hopening, hsource]
    dsimp
    rw [hrequest]
    exact hcalls
  | again _ _ ihfirst ihrest =>
    obtain ⟨noon, hfirst⟩ := ihfirst hs
    obtain ⟨now, hrest⟩ := ihrest (hs.run _)
    refine ⟨now, ?_⟩
    rw [run_append, hrest, hfirst]
    -- To start the timers afresh twice is to do so once.
    rfl

/--
However often a load fails, only the clock shows it: the session is as it was before, and each of its choices has
its full time again.
-/
theorem run_of_futile (config : Config) (source : Option ContentSource) (player : Option Player)
    (calls attempts : List Call)
    (h : ((Session.new config source player).run calls).Futile attempts) :
    let s := (Session.new config source player).run calls
    s.pending = none ∧ s.rollback = none ∧ ∃ now, s.run attempts = s.rearmed now := by
  intro s
  have hs : s.Coherent := (coherent_new config source player).run calls
  have hpending : s.pending = none := h.pending_eq_none
  exact ⟨hpending, hs.rollback_eq_none hpending, hs.run_futile h⟩

theorem answer_of_toOption {call : Call} {request : ContentRequest}
    (h : (s.perform call).answer.toOption = some (.request request)) :
    (s.perform call).answer = .ok (.request request) := by
  cases hanswer : (s.perform call).answer with
  | error e =>
    rw [hanswer] at h
    cases h
  | ok answer =>
    rw [hanswer] at h
    cases h
    rfl

/--
The choice is taken twice; the host gives up its successor once, and once has no document for it.
-/
theorem run_of_futile_crossroads :
    let s := (Session.new .builtin none none).run [.beginLoad "crossroads", .completeLoad crossroads]
    let first : List Call := [.selectChoice 0, .cast "spark", .failLoad "offline"]
    let rest : List Call := [.selectChoice 0, .completeLoad ""]
    s.Futile (first ++ rest) ∧ s.pending = none ∧ s.rollback = none ∧
      ∃ now, s.run (first ++ rest) = s.rearmed now := by
  intro s first rest
  have hfirst : s.Futile (.selectChoice 0 :: ([.cast "spark"] ++ [.failLoad "offline"])) := by
    have hrequest : (s.perform (.selectChoice 0)).answer = .ok (.request (.ofId "ending_home")) :=
      answer_of_toOption (by decide +kernel)
    exact .host hrequest (by decide) (.failLoad "offline")
  have hrest : (s.run first).Futile (.selectChoice 0 :: ([] ++ [.completeLoad ""])) := by
    have hrequest : ((s.run first).perform (.selectChoice 0)).answer =
        .ok (.request (.ofId "ending_home")) :=
      answer_of_toOption (by decide +kernel)
    have hdocument : Document.ofText (ContentRequest.ofId "ending_home").kind "" = .error .parse := by
      cbv
    exact .host hrequest (by decide) (.completeLoad hdocument)
  have h := hfirst.again hrest
  exact ⟨h, run_of_futile .builtin none none _ _ h⟩

end Session

end Narrative
