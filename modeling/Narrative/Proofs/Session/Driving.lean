import Narrative.Proofs.Session.Operation

/-!
This module contains the two ways of driving a session. A host that fetches documents itself begins a load and
later completes it or gives it up; a call that loads from the source does both at once. Each call of the second
kind leaves the session that the host calls it stands for would leave.
-/

namespace Narrative

/--
Whether a call leaves the fetching of documents to the host.
-/
def Call.isHostCall : Call → Bool
  | .start => false
  | .load _ => false
  | .choose _ => false
  | .tick _ => false
  | _ => true

/--
The call that tells a session how the source answered a request.
-/
def ContentSource.settle (source : ContentSource) (request : ContentRequest) : Call :=
  match source.fetch request.id with
  | .ok text => .completeLoad text
  | .error e => .failLoad e.message

namespace Session

variable {s : Session}

/--
The call with which a call that loads from the source begins.
-/
def opening? (s : Session) : Call → Option Call
  | .start => some (.beginLoad s.config.startChapter)
  | .load id => some (.beginLoad id)
  | .choose position => some (.selectChoice position)
  | .tick elapsed => some (.pollTimers elapsed)
  | _ => none

/--
The calls with which a host that has the source at hand does what a call does.
-/
def hostCalls (s : Session) (call : Call) : List Call :=
  match s.opening? call, s.source with
  | none, _ => [call]
  | some _, none => []
  | some opening, some source =>
    match (s.perform opening).answer with
    | .ok (.request request) => [opening, source.settle request]
    | _ => [opening]

def unfolded (s : Session) : List Call → List Call
  | [] => []
  | call :: rest => s.hostCalls call ++ (s.perform call).session.unfolded rest

theorem run_nil (s : Session) : s.run [] = s := rfl

theorem run_cons (s : Session) (call : Call) (rest : List Call) :
    s.run (call :: rest) = (s.perform call).session.run rest := rfl

theorem run_append (s : Session) (first rest : List Call) :
    s.run (first ++ rest) = (s.run first).run rest := by
  unfold run
  rw [List.foldl_append]

theorem takeChoice_request {index : Nat} {request : ContentRequest}
    (h : (s.takeChoice index).answer = .ok request) :
    s.pending = none ∧ ∃ chapter choice, (s.takeChoice index).session =
      s.taking chapter choice request.id ∧ request = .ofId request.id := by
  cases hpending : s.pending with
  | some pending =>
    obtain ⟨e, he⟩ := takeChoice_of_some index hpending
    rw [he] at h
    cases h
  | none =>
    refine ⟨rfl, ?_⟩
    cases taking_of_none index hpending with
    | refused htake _ =>
      rw [htake] at h
      cases h
    | @taken chapter choice successor _ _ hanswer hsession =>
      rw [hanswer] at h
      cases h
      exact ⟨chapter, choice, hsession, rfl⟩

/--
A call that answers with a request has begun a load, perhaps after some time, perhaps with a choice.
-/
theorem perform_request {call : Call} {request : ContentRequest}
    (h : (s.perform call).answer = .ok (.request request)) :
    s.pending = none ∧ request = .ofId request.id ∧
      ∃ t, (t = s ∨ ∃ elapsed, t = s.passing elapsed) ∧
        ((s.perform call).session = t.loading request.id ∨
          ∃ chapter choice, (s.perform call).session = t.taking chapter choice request.id) := by
  cases call with
  | beginLoad id =>
    obtain ⟨begun, hanswer, heq⟩ := Reply.answer_map_eq_ok.mp h
    cases heq
    cases hpending : s.pending with
    | some pending =>
      rw [beginLoad_of_some id hpending] at hanswer
      cases hanswer
    | none =>
      rw [beginLoad_of_none id hpending] at hanswer
      cases hanswer
      refine ⟨rfl, rfl, s, .inl rfl, .inl ?_⟩
      unfold perform
      rw [Reply.session_map, beginLoad_of_none id hpending]
      rfl
  | selectChoice position =>
    obtain ⟨begun, hanswer, heq⟩ := Reply.answer_map_eq_ok.mp h
    cases heq
    cases s.click position with
    | refused hselect _ =>
      rw [hselect] at hanswer
      cases hanswer
    | @onward next hpending _ hselect =>
      rw [hselect, beginLoad_of_none next hpending] at hanswer
      cases hanswer
      refine ⟨hpending, rfl, s, .inl rfl, .inl ?_⟩
      unfold perform
      rw [Reply.session_map, hselect, beginLoad_of_none next hpending]
      rfl
    | taken hpending hclicked =>
      rw [selectChoice_of_clicked hclicked] at hanswer
      obtain ⟨_, chapter, choice, hsession, hid⟩ := takeChoice_request hanswer
      refine ⟨hpending, hid, s, .inl rfl, .inr ⟨chapter, choice, ?_⟩⟩
      unfold perform
      rw [Reply.session_map, selectChoice_of_clicked hclicked, hsession]
  | pollTimers elapsed =>
    obtain ⟨begun, hanswer, heq⟩ := Reply.answer_map_eq_ok.mp h
    cases hfired : s.fired? elapsed with
    | none =>
      rw [pollTimers_of_none hfired] at hanswer
      cases hanswer
      cases heq
    | some index =>
      rw [pollTimers_of_some hfired] at hanswer
      obtain ⟨taken, htaken, hsome⟩ := Reply.answer_map_eq_ok.mp hanswer
      subst hsome
      cases heq
      obtain ⟨hpending, chapter, choice, hsession, hid⟩ := takeChoice_request htaken
      refine ⟨hpending, hid, s.passing elapsed, .inr ⟨elapsed, rfl⟩, .inr ⟨chapter, choice, ?_⟩⟩
      unfold perform
      rw [Reply.session_map, pollTimers_of_some hfired, Reply.session_map, hsession]
  | completeLoad | failLoad | start | load | choose | tick =>
    obtain ⟨_, _, heq⟩ := Reply.answer_map_eq_ok.mp h
    cases heq
  | cancelTimers | cast | reset => cases h

theorem pending_of_request {call : Call} {request : ContentRequest}
    (h : (s.perform call).answer = .ok (.request request)) :
    (s.perform call).session.pending = some request := by
  obtain ⟨_, hid, t, _, hloading | ⟨chapter, choice, htaking⟩⟩ := perform_request h
  · rw [hloading, hid]
    rfl
  · rw [htaking, hid]
    rfl

theorem source_of_request {call : Call} {request : ContentRequest}
    (h : (s.perform call).answer = .ok (.request request)) :
    (s.perform call).session.source = s.source := by
  obtain ⟨_, _, t, ht, hsession⟩ := perform_request h
  have hsource : t.source = s.source := by
    rcases ht with rfl | ⟨elapsed, rfl⟩ <;> rfl
  rw [← hsource]
  rcases hsession with hloading | ⟨chapter, choice, htaking⟩
  · rw [hloading]
    rfl
  · rw [htaking]
    rfl

theorem session_fetchAndComplete {source : ContentSource} {request : ContentRequest}
    (hsource : s.source = some source) (hpending : s.pending.isSome) :
    (s.fetchAndComplete request).session = (s.perform (source.settle request)).session := by
  rw [Option.isSome_iff_exists] at hpending
  obtain ⟨pending, hpending⟩ := hpending
  unfold fetchAndComplete withSource
  rw [hsource]
  dsimp
  unfold ContentSource.settle
  cases source.fetch request.id with
  | ok text => rfl
  | error e =>
    dsimp
    unfold perform
    rw [Reply.session_map, (failLoad_of_some e.message hpending).2, ← hsource]
    exact session_abortLoad (α := Unit) (.fetch e)

theorem load_of_source {source : ContentSource} (id : String) (h : s.source = some source) :
    s.load id = (s.beginLoad id).andThen (fun request s => s.fetchAndComplete request) := by
  unfold load withSource
  rw [h]

theorem choose_of_source {source : ContentSource} (position : Nat) (h : s.source = some source) :
    s.choose position =
      (s.selectChoice position).andThen (fun request s => s.fetchAndComplete request) := by
  unfold choose withSource
  rw [h]

def Drives (s : Session) (opening call : Call) : Prop :=
  match s.source, (s.perform opening).answer with
  | none, _ => (s.perform call).session = s
  | some _, .ok (.request request) =>
    (s.perform call).session = ((s.perform opening).session.fetchAndComplete request).session
  | some _, _ => (s.perform call).session = (s.perform opening).session

theorem drives_load (id : String) : s.Drives (.beginLoad id) (.load id) := by
  unfold Drives perform
  rw [Reply.session_map, Reply.session_map, Reply.answer_map]
  cases hsource : s.source with
  | none =>
    dsimp
    unfold load withSource
    rw [hsource]
    rfl
  | some source =>
    rw [load_of_source id hsource]
    unfold Reply.andThen
    cases (s.beginLoad id).answer with
    | error e => rfl
    | ok request => rfl

theorem drives_choose (position : Nat) : s.Drives (.selectChoice position) (.choose position) := by
  unfold Drives perform
  rw [Reply.session_map, Reply.session_map, Reply.answer_map]
  cases hsource : s.source with
  | none =>
    dsimp
    unfold choose withSource
    rw [hsource]
    rfl
  | some source =>
    rw [choose_of_source position hsource]
    unfold Reply.andThen
    cases (s.selectChoice position).answer with
    | error e => rfl
    | ok request => rfl

theorem drives_tick (elapsed : Duration) : s.Drives (.pollTimers elapsed) (.tick elapsed) := by
  unfold Drives perform tick withSource
  rw [Reply.session_map, Reply.session_map, Reply.answer_map]
  cases s.source with
  | none => rfl
  | some source =>
    dsimp
    unfold Reply.andThen
    cases (s.pollTimers elapsed).answer with
    | error e => rfl
    | ok answer =>
      cases answer with
      | none => rfl
      | some request => rfl

theorem drives_of_opening? {opening call : Call} (h : s.opening? call = some opening) :
    s.Drives opening call := by
  cases call with
  | start =>
    cases h
    exact drives_load s.config.startChapter
  | load id =>
    cases h
    exact drives_load id
  | choose position =>
    cases h
    exact drives_choose position
  | tick elapsed =>
    cases h
    exact drives_tick elapsed
  | beginLoad | completeLoad | failLoad | selectChoice | pollTimers | cancelTimers | cast | reset =>
    cases h

/--
A call leaves the session that its host calls leave.
-/
theorem session_perform (s : Session) (call : Call) :
    (s.perform call).session = s.run (s.hostCalls call) := by
  unfold hostCalls
  cases hopening : s.opening? call with
  | none => rfl
  | some opening =>
    have hdrives := drives_of_opening? hopening
    unfold Drives at hdrives
    cases hsource : s.source with
    | none =>
      rw [hsource] at hdrives
      exact hdrives
    | some source =>
      rw [hsource] at hdrives
      dsimp only
      cases hanswer : (s.perform opening).answer with
      | error e =>
        rw [hanswer] at hdrives
        exact hdrives
      | ok answer =>
        rw [hanswer] at hdrives
        cases answer with
        | request request =>
          -- The source answers on the spot, which is what the second host call tells the session.
          dsimp only at hdrives ⊢
          rw [hdrives, run_cons, run_cons, run_nil]
          apply session_fetchAndComplete
          · rw [source_of_request hanswer, hsource]
          · rw [pending_of_request hanswer]
            rfl
        | done | noRequest | count | flag => exact hdrives

theorem run_unfolded (s : Session) (calls : List Call) : s.run (s.unfolded calls) = s.run calls := by
  induction calls generalizing s with
  | nil => rfl
  | cons call rest ih =>
    unfold unfolded
    rw [run_append, ← session_perform, ih, run_cons]

theorem isHostCall_settle (source : ContentSource) (request : ContentRequest) :
    (source.settle request).isHostCall := by
  unfold ContentSource.settle
  split <;> rfl

theorem isHostCall_of_opening? {call opening : Call} (h : s.opening? call = some opening) :
    opening.isHostCall := by
  cases call <;> cases h <;> rfl

theorem isHostCall_of_opening?_eq_none {call : Call} (h : s.opening? call = none) :
    call.isHostCall := by
  cases call with
  | start | load | choose | tick => cases h
  | _ => rfl

theorem isHostCall_of_mem_hostCalls {call inner : Call} (h : inner ∈ s.hostCalls call) :
    inner.isHostCall := by
  unfold hostCalls at h
  cases hopening : s.opening? call with
  | none =>
    rw [hopening] at h
    rw [List.mem_singleton.mp h]
    exact isHostCall_of_opening?_eq_none hopening
  | some opening =>
    have hhost := isHostCall_of_opening? hopening
    rw [hopening] at h
    cases hsource : s.source with
    | none =>
      rw [hsource] at h
      cases h
    | some source =>
      rw [hsource] at h
      dsimp only at h
      split at h
      · rcases List.mem_cons.mp h with rfl | h
        · exact hhost
        · rw [List.mem_singleton.mp h]
          exact isHostCall_settle source _
      · rw [List.mem_singleton.mp h]
        exact hhost

theorem isHostCall_of_mem_unfolded {calls : List Call} {call : Call} (h : call ∈ s.unfolded calls) :
    call.isHostCall := by
  induction calls generalizing s with
  | nil => cases h
  | cons first rest ih =>
    unfold unfolded at h
    rw [List.mem_append] at h
    cases h with
    | inl h => exact isHostCall_of_mem_hostCalls h
    | inr h => exact ih h

end Session

end Narrative
