import Narrative.Proofs.Session.Agreement

/-!
This module contains the notices that show a session: what is presented, the progress, and the end of the story.
Each event sends its own, and those of a run are the ones of its trace.
-/

namespace Narrative

/--
Whether a notice shows part of the session, rather than an error or a reaction.
-/
def Notice.isScene : Notice → Bool
  | .error _ _ => false
  | .reaction _ => false
  | _ => true

namespace Session

variable {s t : Session}

/--
The notices that present the content on screen.
-/
def presented (s : Session) : List Notice :=
  match s.active with
  | some content => [.variantResolved content, .choicesReady s.choices, .statsChanged s.player]
  | none => []

/--
The notices by which an event is seen.
-/
def scene (s : Session) : Event → List Notice
  | .passed _ => []
  | .dropped => []
  | .began _ => []
  | .took chapter choice _ => [.statsChanged (Deed.apply s.player (.take chapter choice))]
  | .reached id (.chapter chapter) => (s.reaching id (.chapter chapter)).presented
  | .reached id (.ending ending) =>
    [.statsChanged (s.reaching id (.ending ending)).player,
      .endingReached id ending.title ending.text]
  | .returned => s.returning.presented
  | .cast chapter spell =>
    let changed := s.changing (Deed.apply s.player (.cast chapter spell))
    .statsChanged changed.player :: if s.active.isSome then [.choicesReady changed.choices] else []
  | .reset => [.statsChanged s.reset.session.player]

def scenes (s : Session) : List Event → List Notice
  | [] => []
  | event :: rest => s.scene event ++ (s.after event).scenes rest

theorem scenes_append {first : List Event} (h : Path s first t) (rest : List Event) :
    s.scenes (first ++ rest) = s.scenes first ++ t.scenes rest := by
  induction h with
  | nil s => rfl
  | cons _ _ ih =>
    rw [List.cons_append, scenes, scenes, ih, List.append_assoc]

theorem scenes_single (event : Event) : s.scenes [event] = s.scene event := by
  unfold scenes scenes
  rw [List.append_nil]

theorem filter_present (content : ActiveContent) :
    (s.present content).notices.filter Notice.isScene = (s.present content).notices := rfl

theorem filter_errors {α : Type} (l : List α) (kind : ErrorKind) (message : α → String) :
    (l.map (fun a => Notice.error kind (message a))).filter Notice.isScene = [] := by
  rw [List.filter_eq_nil_iff]
  intro notice hnotice
  obtain ⟨a, _, rfl⟩ := List.mem_map.mp hnotice
  exact Bool.false_ne_true

theorem filter_reactions {p : Notice → Bool} (h : ∀ r, p (.reaction r) = false) (l : List Reaction) :
    (l.map Notice.reaction).filter p = [] := by
  rw [List.filter_eq_nil_iff]
  intro notice hnotice
  obtain ⟨r, _, rfl⟩ := List.mem_map.mp hnotice
  rw [h r]
  exact Bool.false_ne_true

theorem scene_entering (id : String) (document : Document) :
    ({ s with pending := none }.entering id document).notices.filter Notice.isScene =
      s.scene (.reached id document) := by
  cases document with
  | chapter chapter =>
    unfold entering enterChapter malformedChoices
    dsimp only
    rw [List.filter_append, filter_errors, List.nil_append, filter_present]
    rfl
  | ending ending => rfl

theorem scene_abortLoad {α : Type} (e : SessionError) :
    (abortLoad (α := α) { s with pending := none } e).notices.filter Notice.isScene =
      s.scene .returned := by
  unfold abortLoad scene returning
  dsimp only
  cases hactive : s.active with
  | some content => rfl
  | none =>
    unfold presented
    dsimp only
    cases s.ending <;> rfl

theorem scene_takeChoice {index : Nat} {chapter : Chapter} {choice : Choice} {successor : Successor}
    (h : s.pending = none) (hchoice : s.choiceAt? index = some (chapter, choice))
    (hsuccessor : choice.successor = .ok successor) :
    (s.takeChoice index).notices.filter Notice.isScene =
      s.scene (.took chapter choice successor.id) := by
  rw [choiceAt?_eq_some] at hchoice
  obtain ⟨hchapter, content, hactive, hindex⟩ := hchoice
  obtain ⟨resolution, hresolve, hid, hplayer⟩ := Choice.resolve_of_ok s.player hsuccessor
  unfold takeChoice
  rw [hchapter, hactive]
  dsimp only
  rw [hindex]
  dsimp only
  rw [hresolve]
  dsimp only
  rw [beginLoad_of_none]
  · dsimp only
    rw [hplayer chapter, List.append_nil, List.filter_append, List.filter_append, filter_errors,
      filter_reactions (fun _ => rfl)]
    rfl
  · exact h

theorem scene_beginLoad (id : String) :
    (s.perform (.beginLoad id)).notices.filter Notice.isScene =
      s.scenes (s.hostEvents (.beginLoad id)) := by
  unfold hostEvents perform
  rw [Reply.answer_map, Reply.notices_map]
  cases hpending : s.pending with
  | some request =>
    rw [beginLoad_of_some id hpending]
    rfl
  | none =>
    rw [beginLoad_of_none id hpending]
    rfl

theorem scene_completeLoad (text : String) :
    (s.perform (.completeLoad text)).notices.filter Notice.isScene =
      s.scenes (s.hostEvents (.completeLoad text)) := by
  unfold hostEvents perform completion?
  rw [Reply.answer_map, Reply.notices_map]
  cases hpending : s.pending with
  | none =>
    rw [completeLoad_of_none text hpending]
    rfl
  | some request =>
    rw [completeLoad_of_some text hpending]
    dsimp only
    cases hdocument : Document.ofText request.kind text with
    | ok document =>
      rw [Reply.notices_map, scene_entering]
      dsimp only [Reply.answer_map, Except.map]
      rw [hdocument]
      exact (scenes_single _).symm
    | error e =>
      rw [scene_abortLoad]
      exact (scenes_single _).symm

theorem scene_failLoad (message : String) :
    (s.perform (.failLoad message)).notices.filter Notice.isScene =
      s.scenes (s.hostEvents (.failLoad message)) := by
  unfold hostEvents perform
  rw [Reply.answer_map, Reply.notices_map]
  cases hpending : s.pending with
  | none =>
    rw [failLoad_of_none message hpending]
    rfl
  | some request =>
    rw [(failLoad_of_some message hpending).1]
    unfold failLoad
    rw [hpending]
    dsimp only
    rw [Reply.notices_map, scene_abortLoad]
    exact (scenes_single _).symm

theorem scene_selectChoice (position : Nat) :
    (s.perform (.selectChoice position)).notices.filter Notice.isScene =
      s.scenes (s.hostEvents (.selectChoice position)) := by
  unfold hostEvents perform
  rw [Reply.answer_map, Reply.notices_map]
  cases s.click position with
  | refused hselect _ =>
    rw [hselect]
    rfl
  | @onward next hpending hclicked hselect =>
    rw [hselect, beginLoad_of_none next hpending]
    dsimp only [Except.map]
    rw [hclicked, beginning_none]
    rfl
  | @taken index hpending hclicked =>
    rw [selectChoice_of_clicked hclicked]
    cases taking_of_none index hpending with
    | refused htake _ =>
      rw [htake]
      rfl
    | taken hchoice hsuccessor hanswer hsession =>
      rw [hanswer, scene_takeChoice hpending hchoice hsuccessor]
      dsimp only [Except.map]
      rw [hclicked, beginning_some _ hchoice, scenes_single]
      rfl

theorem scene_pollTimers (hs : s.Coherent) (elapsed : Duration) :
    (s.perform (.pollTimers elapsed)).notices.filter Notice.isScene =
      s.scenes (s.hostEvents (.pollTimers elapsed)) := by
  unfold hostEvents perform
  rw [Reply.answer_map, Reply.notices_map]
  cases hfired : s.fired? elapsed with
  | none =>
    rw [pollTimers_of_none hfired]
    rfl
  | some index =>
    rw [pollTimers_of_some hfired]
    have hpending : (s.passing elapsed).pending = none := hs.pending_of_fired_eq_some hfired
    cases taking_of_none index hpending with
    | refused htake _ =>
      rw [htake]
      rfl
    | @taken chapter choice successor hchoice hsuccessor hanswer hsession =>
      rw [Reply.answer_map, Reply.notices_map, hanswer,
        scene_takeChoice hpending hchoice hsuccessor]
      have hplace : s.choiceAt? index = some (chapter, choice) := hchoice
      dsimp only [Except.map, Answer.ofRequest?]
      rw [hfired, beginning_some _ hplace]
      rfl

theorem filter_cast (name : String) :
    (s.cast name).notices.filter Notice.isScene =
      if (s.cast name).answer then
        .statsChanged (s.cast name).session.player ::
          if s.active.isSome then [.choicesReady (s.cast name).session.choices] else []
      else [] := by
  unfold cast
  cases hpending : s.pending with
  | some request => rfl
  | none =>
    cases hchapter : s.chapter with
    | none => rfl
    | some chapter =>
      cases houtcome : chapter.cast s.config name s.player with
      | error e =>
        simp only [houtcome]
        rfl
      | ok outcome =>
        cases hsucceeded : outcome.succeeded with
        | false => simp [houtcome, hsucceeded]
        | true =>
          cases hactive : s.active <;> simp [houtcome, hsucceeded, Notice.isScene, offer]

theorem scene_cast (name : String) :
    (s.perform (.cast name)).notices.filter Notice.isScene = s.scenes (s.hostEvents (.cast name)) := by
  have hfilter := s.filter_cast name
  unfold hostEvents perform
  rw [Reply.answer_map, Reply.notices_map]
  cases s.casting name with
  | failed hcast =>
    rw [hcast] at hfilter ⊢
    exact hfilter
  | succeeded hpending hchapter hspell hanswer hsession =>
    rw [hfilter, hanswer, hsession]
    dsimp only
    unfold casting?
    rw [hchapter]
    dsimp only
    rw [hspell, if_pos rfl, Option.map_some, Option.toList_some, scenes_single]
    rfl

/--
What a host call shows is what its events show.
-/
theorem scene_hostEvents (hs : s.Coherent) {call : Call} (h : call.isHostCall) :
    (s.perform call).notices.filter Notice.isScene = s.scenes (s.hostEvents call) := by
  cases call with
  | beginLoad id => exact scene_beginLoad id
  | completeLoad text => exact scene_completeLoad text
  | failLoad message => exact scene_failLoad message
  | selectChoice position => exact scene_selectChoice position
  | pollTimers elapsed => exact scene_pollTimers hs elapsed
  | cancelTimers => rfl
  | cast name => exact scene_cast name
  | reset => rfl
  | start | load | choose | tick => cases h

theorem scene_hostTrace (hs : s.Coherent) {calls : List Call} (h : ∀ call ∈ calls, call.isHostCall) :
    (s.notices calls).filter Notice.isScene = s.scenes (s.hostTrace calls) := by
  induction calls generalizing s with
  | nil => rfl
  | cons call rest ih =>
    have hfirst := path_hostEvents hs (h call (by simp))
    unfold notices hostTrace
    rw [List.filter_append, scenes_append hfirst, scene_hostEvents hs (h call (by simp))]
    congr 1
    apply ih (hs.path hfirst)
    intro call hcall
    exact h call (by simp [hcall])

theorem filter_wordless (l : List Notice) :
    (l.map Notice.wordless).filter Notice.isScene = l.filter Notice.isScene := by
  induction l with
  | nil => rfl
  | cons notice rest ih =>
    rw [List.map_cons, List.filter_cons, List.filter_cons, ih]
    cases notice with
    | error kind message => cases kind <;> rfl
    | variantResolved | choicesReady | statsChanged | endingReached | reaction => rfl

theorem scene_alike {α : Type} {r r' : Reply (Except SessionError α)} (h : r.Alike r') :
    r.notices.filter Notice.isScene = r'.notices.filter Notice.isScene := by
  rw [← filter_wordless, h.notices, filter_wordless]

theorem notices_append (first rest : List Call) :
    s.notices (first ++ rest) = s.notices first ++ (s.run first).notices rest := by
  induction first generalizing s with
  | nil => rfl
  | cons call first ih => rw [List.cons_append, notices, notices, ih, run_cons, List.append_assoc]

theorem notices_settle (source : ContentSource) (request : ContentRequest) :
    (s.settle source FetchError.message request).notices =
      (s.perform (source.settle request)).notices := by
  unfold settle ContentSource.settle
  cases source.fetch request.id with
  | ok text => rfl
  | error e =>
    unfold Reply.andThen perform
    dsimp only
    rw [Reply.notices_map]
    split
    · rfl
    · rw [List.append_nil]

/--
The notices of a call that loads from the source: those of the call that it begins with, then those of the load.
-/
def following (s : Session) (opening : Call) : List Notice :=
  (s.perform opening).notices ++
    match (s.perform opening).answer with
    | .ok (.request request) => ((s.perform opening).session.fetchAndComplete request).notices
    | _ => []

theorem notices_load {source : ContentSource} (id : String) (hsource : s.source = some source) :
    (s.perform (.load id)).notices = s.following (.beginLoad id) := by
  unfold following perform
  rw [Reply.notices_map, Reply.notices_map, Reply.answer_map, load_of_source id hsource]
  unfold Reply.andThen
  cases (s.beginLoad id).answer with
  | error e => exact (List.append_nil _).symm
  | ok request => rfl

theorem notices_choose {source : ContentSource} (position : Nat) (hsource : s.source = some source) :
    (s.perform (.choose position)).notices = s.following (.selectChoice position) := by
  unfold following perform
  rw [Reply.notices_map, Reply.notices_map, Reply.answer_map, choose_of_source position hsource]
  unfold Reply.andThen
  cases (s.selectChoice position).answer with
  | error e => exact (List.append_nil _).symm
  | ok request => rfl

theorem notices_tick {source : ContentSource} (elapsed : Duration) (hsource : s.source = some source) :
    (s.perform (.tick elapsed)).notices = s.following (.pollTimers elapsed) := by
  unfold following perform tick withSource
  rw [hsource, Reply.notices_map, Reply.notices_map, Reply.answer_map]
  unfold Reply.andThen
  cases (s.pollTimers elapsed).answer with
  | error e => exact (List.append_nil _).symm
  | ok answer => cases answer <;> rfl

theorem notices_of_opening? {opening call : Call} {source : ContentSource}
    (hopening : s.opening? call = some opening) (hsource : s.source = some source) :
    (s.perform call).notices = s.following opening := by
  cases call with
  | start =>
    cases hopening
    exact notices_load s.config.startChapter hsource
  | load id =>
    cases hopening
    exact notices_load id hsource
  | choose position =>
    cases hopening
    exact notices_choose position hsource
  | tick elapsed =>
    cases hopening
    exact notices_tick elapsed hsource
  | beginLoad | completeLoad | failLoad | selectChoice | pollTimers | cancelTimers | cast | reset =>
    cases hopening

theorem scene_noSource {opening call : Call} (hopening : s.opening? call = some opening)
    (hsource : s.source = none) : (s.perform call).notices.filter Notice.isScene = [] := by
  cases call with
  | start | load =>
    unfold perform start load withSource
    rw [hsource]
    rfl
  | choose =>
    unfold perform choose withSource
    rw [hsource]
    rfl
  | tick =>
    unfold perform tick withSource
    rw [hsource]
    rfl
  | beginLoad | completeLoad | failLoad | selectChoice | pollTimers | cancelTimers | cast | reset =>
    cases hopening

theorem scene_hostCalls (call : Call) :
    (s.perform call).notices.filter Notice.isScene =
      (s.notices (s.hostCalls call)).filter Notice.isScene := by
  unfold hostCalls
  cases hopening : s.opening? call with
  | none =>
    unfold notices notices
    dsimp only
    rw [List.append_nil]
  | some opening =>
    cases hsource : s.source with
    | none => exact scene_noSource hopening hsource
    | some source =>
      dsimp only
      rw [notices_of_opening? hopening hsource]
      unfold following
      cases hanswer : (s.perform opening).answer with
      | error e =>
        dsimp only
        unfold notices notices
        rfl
      | ok answer =>
        cases answer with
        | request request =>
          dsimp only
          unfold notices notices notices
          dsimp only
          rw [List.append_nil, List.filter_append, List.filter_append, ← notices_settle]
          congr 1
          exact scene_alike (alike_of_request opening hsource _ hanswer)
        | done | noRequest | count | flag =>
          unfold notices notices
          rfl

theorem scene_unfolded (calls : List Call) :
    (s.notices calls).filter Notice.isScene = (s.notices (s.unfolded calls)).filter Notice.isScene := by
  induction calls generalizing s with
  | nil => rfl
  | cons call rest ih =>
    rw [unfolded, notices_append, ← session_perform, notices, List.filter_append, List.filter_append, ih,
      scene_hostCalls]

/--
What a run shows is what the events of its trace show.
-/
theorem scene_trace (hs : s.Coherent) (calls : List Call) :
    (s.notices calls).filter Notice.isScene = s.scenes (s.trace calls) := by
  rw [scene_unfolded]
  apply scene_hostTrace hs
  intro call h
  exact isHostCall_of_mem_unfolded h

end Session

end Narrative
