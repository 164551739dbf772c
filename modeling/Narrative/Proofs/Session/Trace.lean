import Narrative.Proofs.Session.Coherence

/-!
This module contains the trace of a session: the events that its calls bring about, told from the calls and
their answers. The trace of a run is a path through the session, so that the invariant holds wherever a run leads.
-/

namespace Narrative

/--
Whether a call neither begins a load nor ends one, unless it discards the playthrough.
-/
def Call.isAside : Call → Bool
  | .cancelTimers => true
  | .cast _ => true
  | .reset => true
  | _ => false

namespace Session

variable {s : Session}

def beginning (s : Session) (index : Option Nat) (id : String) : Event :=
  match index.bind s.choiceAt? with
  | some (chapter, choice) => .took chapter choice id
  | none => .began id

def completion? (s : Session) (text : String) : Option Event :=
  match s.pending with
  | some request => (Document.ofText request.kind text).toOption.map (.reached request.id)
  | none => none

def casting? (s : Session) (name : String) : Option Event :=
  match s.chapter with
  | some chapter => (chapter.spells.get? name).map (.cast chapter)
  | none => none

/--
The events of a host call, as its answer tells them.
-/
def hostEvents (s : Session) (call : Call) : List Event :=
  match call, (s.perform call).answer with
  | .beginLoad _, .ok (.request request) => [.began request.id]
  | .completeLoad text, .ok _ => (s.completion? text).toList
  | .completeLoad _, .error (.document _ _) => [.returned]
  | .failLoad _, .ok _ => [.returned]
  | .selectChoice position, .ok (.request request) =>
    [s.beginning (s.clicked? position) request.id]
  | .pollTimers elapsed, .ok (.request request) =>
    [.passed elapsed, s.beginning (s.fired? elapsed) request.id]
  | .pollTimers elapsed, _ => [.passed elapsed]
  | .cancelTimers, _ => [.dropped]
  | .cast name, .ok (.flag true) => (s.casting? name).toList
  | .reset, _ => [.reset]
  | _, _ => []

def hostTrace (s : Session) : List Call → List Event
  | [] => []
  | call :: rest => s.hostEvents call ++ (s.perform call).session.hostTrace rest

def trace (s : Session) (calls : List Call) : List Event :=
  s.hostTrace (s.unfolded calls)

theorem beginning_none (id : String) : s.beginning none id = .began id := rfl

theorem beginning_some {index : Nat} {chapter : Chapter} {choice : Choice} (id : String)
    (h : s.choiceAt? index = some (chapter, choice)) :
    s.beginning (some index) id = .took chapter choice id := by
  unfold beginning
  rw [Option.bind_some, h]

/--
Which host calls can bring about an event. A choice is taken where it is clicked, or falls due.
-/
inductive Brings (s : Session) : Call → Event → Prop where
  | began (call : Call) (id : String) : Brings s call (.began id)
  | clicked {position index : Nat} {chapter : Chapter} {choice : Choice}
      (h : s.clicked? position = some index) (hchoice : s.choiceAt? index = some (chapter, choice))
      (id : String) : Brings s (.selectChoice position) (.took chapter choice id)
  | fired {elapsed : Duration} {index : Nat} {chapter : Chapter} {choice : Choice}
      (h : s.fired? elapsed = some index) (hchoice : s.choiceAt? index = some (chapter, choice))
      (id : String) : Brings s (.pollTimers elapsed) (.took chapter choice id)
  | reached (text id : String) (document : Document) :
      Brings s (.completeLoad text) (.reached id document)
  | returned (call : Call) : Brings s call .returned
  | passed (elapsed : Duration) : Brings s (.pollTimers elapsed) (.passed elapsed)
  | dropped : Brings s .cancelTimers .dropped
  | cast (name : String) (chapter : Chapter) (spell : Spell) : Brings s (.cast name) (.cast chapter spell)
  | reset : Brings s .reset .reset

theorem brings_beginning {call : Call} {place : Option Nat} (id : String)
    (h : ∀ index chapter choice, place = some index → s.choiceAt? index = some (chapter, choice) →
      s.Brings call (.took chapter choice id)) : s.Brings call (s.beginning place id) := by
  unfold beginning
  split
  · next hplace =>
    obtain ⟨index, hindex, hchoice⟩ := Option.bind_eq_some_iff.mp hplace
    exact h index _ _ hindex hchoice
  · exact .began call id

theorem brings_of_mem {call : Call} {event : Event} (h : event ∈ s.hostEvents call) :
    s.Brings call event := by
  unfold hostEvents at h
  split at h
  · obtain rfl := List.mem_singleton.mp h
    exact .began _ _
  · next text _ _ =>
    rw [Option.mem_toList] at h
    unfold completion? at h
    split at h
    · next request _ =>
      obtain ⟨document, _, rfl⟩ := Option.map_eq_some_iff.mp h
      exact .reached text request.id document
    · cases h
  · obtain rfl := List.mem_singleton.mp h
    exact .returned _
  · obtain rfl := List.mem_singleton.mp h
    exact .returned _
  · obtain rfl := List.mem_singleton.mp h
    exact brings_beginning _ (fun _ _ _ hclicked hchoice => .clicked hclicked hchoice _)
  · rcases List.mem_cons.mp h with rfl | h
    · exact .passed _
    · obtain rfl := List.mem_singleton.mp h
      exact brings_beginning _ (fun _ _ _ hfired hchoice => .fired hfired hchoice _)
  · obtain rfl := List.mem_singleton.mp h
    exact .passed _
  · obtain rfl := List.mem_singleton.mp h
    exact .dropped
  · next name _ =>
    rw [Option.mem_toList] at h
    unfold casting? at h
    split at h
    · next chapter _ =>
      obtain ⟨spell, _, rfl⟩ := Option.map_eq_some_iff.mp h
      exact .cast name chapter spell
    · cases h
  · obtain rfl := List.mem_singleton.mp h
    exact .reset
  · cases h

theorem path_beginLoad (id : String) :
    Path s (s.hostEvents (.beginLoad id)) (s.perform (.beginLoad id)).session := by
  unfold hostEvents perform
  rw [Reply.session_map, Reply.answer_map]
  cases hpending : s.pending with
  | some request =>
    rw [beginLoad_of_some id hpending]
    exact .nil s
  | none =>
    rw [beginLoad_of_none id hpending]
    exact .single (.began id hpending)

theorem path_completeLoad (text : String) :
    Path s (s.hostEvents (.completeLoad text)) (s.perform (.completeLoad text)).session := by
  unfold hostEvents perform completion?
  rw [Reply.session_map, Reply.answer_map]
  cases hpending : s.pending with
  | none =>
    rw [completeLoad_of_none text hpending]
    exact .nil s
  | some request =>
    cases hdocument : Document.ofText request.kind text with
    | ok document =>
      obtain ⟨hanswer, hsession⟩ := completeLoad_of_ok hpending hdocument
      rw [hanswer, hsession]
      dsimp [Except.map]
      rw [hdocument]
      exact .single (.reached hpending hdocument)
    | error e =>
      obtain ⟨hanswer, hsession⟩ := completeLoad_of_error hpending hdocument
      rw [hanswer, hsession]
      exact .single (.returned hpending)

theorem path_failLoad (message : String) :
    Path s (s.hostEvents (.failLoad message)) (s.perform (.failLoad message)).session := by
  unfold hostEvents perform
  rw [Reply.session_map, Reply.answer_map]
  cases hpending : s.pending with
  | none =>
    rw [failLoad_of_none message hpending]
    exact .nil s
  | some request =>
    obtain ⟨hanswer, hsession⟩ := failLoad_of_some message hpending
    rw [hanswer, hsession]
    exact .single (.returned hpending)

theorem path_selectChoice (position : Nat) :
    Path s (s.hostEvents (.selectChoice position)) (s.perform (.selectChoice position)).session := by
  unfold hostEvents perform
  rw [Reply.session_map, Reply.answer_map]
  cases s.click position with
  | refused hselect _ =>
    rw [hselect]
    exact .nil s
  | @onward next hpending hclicked hselect =>
    rw [hselect, beginLoad_of_none next hpending]
    dsimp only [Except.map]
    rw [hclicked, beginning_none]
    exact .single (.began next hpending)
  | @taken index hpending hclicked =>
    rw [selectChoice_of_clicked hclicked]
    cases taking_of_none index hpending with
    | refused htake _ =>
      rw [htake]
      exact .nil s
    | taken hchoice hsuccessor hanswer hsession =>
      rw [hanswer, hsession]
      dsimp only [Except.map]
      rw [hclicked, beginning_some _ hchoice]
      exact .single (.took hpending hchoice hsuccessor)

theorem path_pollTimers (hs : s.Coherent) (elapsed : Duration) :
    Path s (s.hostEvents (.pollTimers elapsed)) (s.perform (.pollTimers elapsed)).session := by
  unfold hostEvents perform
  rw [Reply.session_map, Reply.answer_map]
  cases hfired : s.fired? elapsed with
  | none =>
    rw [pollTimers_of_none hfired]
    exact .single (.passed elapsed)
  | some index =>
    rw [pollTimers_of_some hfired]
    have hpending : (s.passing elapsed).pending = none := hs.pending_of_fired_eq_some hfired
    cases taking_of_none index hpending with
    | refused htake _ =>
      rw [htake]
      exact .single (.passed elapsed)
    | @taken chapter choice _ hchoice hsuccessor hanswer hsession =>
      rw [Reply.session_map, Reply.answer_map, hanswer, hsession]
      -- The clock has no part in which choice stands at a place.
      have hplace : s.choiceAt? index = some (chapter, choice) := hchoice
      dsimp only [Except.map, Answer.ofRequest?]
      rw [hfired, beginning_some _ hplace]
      exact .cons (.passed elapsed) (.single (.took hpending hchoice hsuccessor))

theorem path_cast (name : String) :
    Path s (s.hostEvents (.cast name)) (s.perform (.cast name)).session := by
  unfold hostEvents perform
  rw [Reply.session_map, Reply.answer_map]
  cases s.casting name with
  | failed hcast =>
    rw [hcast]
    exact .nil s
  | succeeded hpending hchapter hspell hanswer hsession =>
    rw [hanswer, hsession]
    dsimp only
    unfold casting?
    rw [hchapter]
    dsimp only
    rw [hspell]
    exact .single (.cast hpending hchapter hspell)

theorem path_hostEvents (hs : s.Coherent) {call : Call} (h : call.isHostCall) :
    Path s (s.hostEvents call) (s.perform call).session := by
  cases call with
  | beginLoad id => exact path_beginLoad id
  | completeLoad text => exact path_completeLoad text
  | failLoad message => exact path_failLoad message
  | selectChoice position => exact path_selectChoice position
  | pollTimers elapsed => exact path_pollTimers hs elapsed
  | cancelTimers => exact .single .dropped
  | cast name => exact path_cast name
  | reset => exact .single .reset
  | start | load | choose | tick => cases h

theorem path_hostTrace (hs : s.Coherent) {calls : List Call} (h : ∀ call ∈ calls, call.isHostCall) :
    Path s (s.hostTrace calls) (s.run calls) := by
  -- The invariant goes along, as it keeps timers from falling due during a load.
  induction calls generalizing s with
  | nil => exact .nil s
  | cons call rest ih =>
    have hfirst := path_hostEvents hs (h call (by simp))
    unfold hostTrace
    rw [run_cons]
    apply hfirst.append
    apply ih
    · exact hs.path hfirst
    · intro call hcall
      exact h call (by simp [hcall])

theorem trace_of_host {call : Call} (h : s.hostCalls call = [call]) :
    s.trace [call] = s.hostEvents call := by
  unfold trace unfolded unfolded
  rw [h]
  simp [hostTrace]

theorem trace_of_isHostCall {call : Call} (h : call.isHostCall) : s.trace [call] = s.hostEvents call := by
  apply trace_of_host
  unfold hostCalls
  cases call with
  | start | load | choose | tick => cases h
  | _ => rfl

theorem trace_of_request {opening call : Call} {source : ContentSource} {request : ContentRequest}
    (hopening : s.opening? call = some opening) (hsource : s.source = some source)
    (h : (s.perform opening).answer = .ok (.request request)) :
    s.trace [call] =
      s.hostEvents opening ++ (s.perform opening).session.hostEvents (source.settle request) := by
  unfold trace unfolded unfolded hostCalls
  rw [hopening, hsource, List.append_nil]
  dsimp only
  rw [h]
  unfold hostTrace hostTrace hostTrace
  rw [List.append_nil]

theorem trace_of_no_request {opening call : Call} {source : ContentSource}
    (hopening : s.opening? call = some opening) (hsource : s.source = some source)
    (h : ¬∃ request, (s.perform opening).answer = .ok (.request request)) :
    s.trace [call] = s.hostEvents opening := by
  unfold trace unfolded unfolded hostCalls
  rw [hopening, hsource, List.append_nil]
  dsimp only
  split
  · next request hanswer => exact absurd ⟨request, hanswer⟩ h
  · unfold hostTrace hostTrace
    rw [List.append_nil]

theorem trace_of_noSource {opening call : Call} (hopening : s.opening? call = some opening)
    (hsource : s.source = none) : s.trace [call] = [] := by
  unfold trace unfolded unfolded hostCalls
  rw [hopening, hsource]
  rfl

/--
The trace of a run leads to the session after it.
-/
theorem path_trace (hs : s.Coherent) (calls : List Call) : Path s (s.trace calls) (s.run calls) := by
  rw [← run_unfolded]
  apply path_hostTrace hs
  intro call h
  exact isHostCall_of_mem_unfolded h

theorem Coherent.run (hs : s.Coherent) (calls : List Call) : (s.run calls).Coherent :=
  hs.path (path_trace hs calls)

theorem mem_hostCalls_iff {call own : Call} (hown : own.isAside) : own ∈ s.hostCalls call ↔ call = own := by
  constructor
  · intro h
    unfold hostCalls at h
    split at h
    · exact (List.mem_singleton.mp h).symm
    · cases h
    · next opening source hopening _ =>
      have hopen : own ≠ opening := by
        rintro rfl
        cases call <;> cases hopening <;> cases hown
      split at h
      · rcases List.mem_cons.mp h with h | h
        · exact absurd h hopen
        · have hsettle := List.mem_singleton.mp h
          unfold ContentSource.settle at hsettle
          split at hsettle <;> subst hsettle <;> cases hown
      · exact absurd (List.mem_singleton.mp h) hopen
  · rintro rfl
    unfold hostCalls
    cases call with
    | cancelTimers | cast | reset => exact List.mem_singleton_self _
    | beginLoad | completeLoad | failLoad | selectChoice | pollTimers | start | load | choose | tick => cases hown

theorem mem_unfolded_iff {calls : List Call} {own : Call} (hown : own.isAside) :
    own ∈ s.unfolded calls ↔ own ∈ calls := by
  induction calls generalizing s with
  | nil => exact ⟨nofun, nofun⟩
  | cons call rest ih =>
    rw [unfolded, List.mem_append, mem_hostCalls_iff hown, ih, List.mem_cons]
    exact or_congr_left eq_comm

theorem mem_hostTrace_iff {calls : List Call} {own : Call} {event : Event}
    (hevent : ∀ (s : Session) call, event ∈ s.hostEvents call ↔ call = own) :
    event ∈ s.hostTrace calls ↔ own ∈ calls := by
  induction calls generalizing s with
  | nil => exact ⟨nofun, nofun⟩
  | cons call rest ih =>
    rw [hostTrace, List.mem_append, hevent, ih, List.mem_cons]
    exact or_congr_left eq_comm

/--
An event that just one call brings about is in the trace when that call is among the calls.
-/
theorem mem_trace_iff {calls : List Call} {own : Call} {event : Event} (hown : own.isAside)
    (hevent : ∀ (s : Session) call, event ∈ s.hostEvents call ↔ call = own) :
    event ∈ s.trace calls ↔ own ∈ calls := by
  unfold trace
  rw [mem_hostTrace_iff hevent, mem_unfolded_iff hown]

theorem reset_mem_trace {calls : List Call} : .reset ∈ s.trace calls ↔ .reset ∈ calls := by
  apply mem_trace_iff rfl
  intro s call
  constructor
  · intro h
    cases brings_of_mem h
    rfl
  · rintro rfl
    exact List.mem_singleton_self _

theorem dropped_mem_trace {calls : List Call} : .dropped ∈ s.trace calls ↔ .cancelTimers ∈ calls := by
  apply mem_trace_iff rfl
  intro s call
  constructor
  · intro h
    cases brings_of_mem h
    rfl
  · rintro rfl
    exact List.mem_singleton_self _

end Session

end Narrative
