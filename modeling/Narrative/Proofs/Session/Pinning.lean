import Narrative.Proofs.Chapter.Selection
import Narrative.Proofs.Session.Scene

/-!
This module contains that the content on screen is chosen once: when the load of its chapter completes, for the
progress of that moment. Until the next load completes, or the playthrough is discarded, it stays as it is.
-/

namespace Narrative

/--
Whether a call, as its answer tells, has completed a load or discarded the playthrough.
-/
def Call.concludes : Call → Except SessionError Answer → Bool
  | .completeLoad _, .ok _ => true
  | .start, .ok _ => true
  | .load _, .ok _ => true
  | .choose _, .ok _ => true
  | .tick _, .ok (.flag true) => true
  | .reset, _ => true
  | _, _ => false

def Event.lands : Event → Bool
  | .reached _ _ => true
  | .reset => true
  | _ => false

theorem Document.ofText_eq_chapter {kind : ContentKind} {text : String} {chapter : Chapter}
    (h : Document.ofText kind text = .ok (.chapter chapter)) :
    kind = .chapter ∧ Chapter.ofText text = .ok chapter := by
  unfold Document.ofText at h
  cases kind with
  | chapter =>
    dsimp only at h
    cases hread : Chapter.ofText text with
    | ok read =>
      rw [hread] at h
      cases h
      exact ⟨rfl, rfl⟩
    | error e =>
      rw [hread] at h
      cases h
  | ending =>
    dsimp only at h
    cases hread : Ending.ofText text <;> rw [hread] at h <;> cases h

theorem Reply.answer_andThen_of_ok {α β : Type} {r : Reply (Except SessionError α)}
    {next : α → Session → Reply (Except SessionError β)} {a : α} (h : r.answer = .ok a) :
    (r.andThen next).answer = (next a r.session).answer := by
  unfold andThen
  rw [h]

namespace Session

variable {s t : Session} {content : ActiveContent}

/--
No load completes over the calls, and none of them discards the playthrough.
-/
def Undisturbed (s : Session) : List Call → Prop
  | [] => True
  | call :: rest => call.concludes (s.perform call).answer = false ∧ (s.perform call).session.Undisturbed rest

theorem undisturbed_append (first rest : List Call) :
    s.Undisturbed (first ++ rest) ↔ s.Undisturbed first ∧ (s.run first).Undisturbed rest := by
  induction first generalizing s with
  | nil => simp [Undisturbed, run_nil]
  | cons call first ih =>
    rw [List.cons_append, Undisturbed, Undisturbed, ih, run_cons, and_assoc]

theorem isOk_andThen_of_request {r : Reply (Except SessionError ContentRequest)} {request : ContentRequest}
    (h : (r.map (Except.map Answer.request)).answer = .ok (.request request)) :
    (r.andThen fun request s => s.fetchAndComplete request).answer.isOk =
      (r.session.fetchAndComplete request).answer.isOk := by
  obtain ⟨_, hanswer, heq⟩ := Reply.answer_map_eq_ok.mp h
  cases heq
  rw [Reply.answer_andThen_of_ok hanswer]

/--
A call that loads from the source completes its load just if the load that it begins is completed.
-/
theorem concludes_of_opening? {call opening : Call} {source : ContentSource} {request : ContentRequest}
    (hopening : s.opening? call = some opening) (hsource : s.source = some source)
    (h : (s.perform opening).answer = .ok (.request request)) :
    call.concludes (s.perform call).answer =
      ((s.perform opening).session.fetchAndComplete request).answer.isOk := by
  cases call with
  | start =>
    cases hopening
    refine Eq.trans ?_ (isOk_andThen_of_request h)
    rw [← load_of_source _ hsource]
    show Call.start.concludes ((s.load s.config.startChapter).answer.map fun _ => .done) = _
    cases (s.load s.config.startChapter).answer <;> rfl
  | load id =>
    cases hopening
    refine Eq.trans ?_ (isOk_andThen_of_request h)
    rw [← load_of_source _ hsource]
    show (Call.load id).concludes ((s.load id).answer.map fun _ => .done) = _
    cases (s.load id).answer <;> rfl
  | choose position =>
    cases hopening
    refine Eq.trans ?_ (isOk_andThen_of_request h)
    rw [← choose_of_source _ hsource]
    show (Call.choose position).concludes ((s.choose position).answer.map fun _ => .done) = _
    cases (s.choose position).answer <;> rfl
  | tick elapsed =>
    cases hopening
    obtain ⟨found, hanswer, heq⟩ := Reply.answer_map_eq_ok.mp h
    cases found with
    | none => cases heq
    | some _ =>
    cases heq
    show (Call.tick elapsed).concludes ((s.tick elapsed).answer.map .flag) =
      ((s.pollTimers elapsed).session.fetchAndComplete request).answer.isOk
    unfold tick withSource
    rw [hsource]
    dsimp only
    rw [Reply.answer_andThen_of_ok hanswer, Reply.answer_map]
    generalize (fetchAndComplete _ _).answer = answer
    cases answer <;> rfl
  | beginLoad | completeLoad | failLoad | selectChoice | pollTimers | cancelTimers | cast | reset =>
    cases hopening

theorem concludes_completeLoad (text : String) :
    (Call.completeLoad text).concludes (s.perform (.completeLoad text)).answer = (s.completeLoad text).answer.isOk := by
  show (Call.completeLoad text).concludes ((s.completeLoad text).answer.map fun _ => .done) = _
  cases (s.completeLoad text).answer <;> rfl

theorem concludes_settle {source : ContentSource} {request : ContentRequest} (hsource : s.source = some source) :
    (source.settle request).concludes (s.perform (source.settle request)).answer =
      (s.fetchAndComplete request).answer.isOk := by
  unfold fetchAndComplete withSource ContentSource.settle
  rw [hsource]
  dsimp only
  cases source.fetch request.id with
  | ok text => exact concludes_completeLoad text
  | error e => rfl

theorem reaching_of_concludes {text : String}
    (h : (Call.completeLoad text).concludes (s.perform (.completeLoad text)).answer) :
    ∃ request document, s.pending = some request ∧ Document.ofText request.kind text = .ok document ∧
      (s.perform (.completeLoad text)).session = s.reaching request.id document := by
  rw [concludes_completeLoad] at h
  cases hpending : s.pending with
  | none =>
    rw [completeLoad_of_none text hpending] at h
    cases h
  | some request =>
    cases hdocument : Document.ofText request.kind text with
    | ok document => exact ⟨request, document, rfl, hdocument, (completeLoad_of_ok hpending hdocument).2⟩
    | error e =>
      rw [(completeLoad_of_error hpending hdocument).1] at h
      cases h

theorem not_concludes_opening {call opening : Call} (h : s.opening? call = some opening)
    (answer : Except SessionError Answer) : opening.concludes answer = false := by
  cases call <;> cases h <;> rfl

/--
A call that completes no load stands for host calls that complete none.
-/
theorem undisturbed_hostCalls {call : Call} (h : call.concludes (s.perform call).answer = false) :
    s.Undisturbed (s.hostCalls call) := by
  unfold hostCalls
  cases hopening : s.opening? call with
  | none => exact ⟨h, trivial⟩
  | some opening =>
    have hfirst := not_concludes_opening hopening (s.perform opening).answer
    cases hsource : s.source with
    | none => exact trivial
    | some source =>
      dsimp only
      split
      · next request hanswer =>
        refine ⟨hfirst, ?_, trivial⟩
        rw [concludes_settle, ← concludes_of_opening? hopening hsource hanswer, h]
        rw [source_of_request hanswer, hsource]
      · exact ⟨hfirst, trivial⟩

theorem undisturbed_unfolded {calls : List Call} (h : s.Undisturbed calls) :
    s.Undisturbed (s.unfolded calls) := by
  induction calls generalizing s with
  | nil => exact trivial
  | cons call rest ih =>
    unfold unfolded
    rw [undisturbed_append, ← session_perform]
    exact ⟨undisturbed_hostCalls h.1, ih h.2⟩

theorem concludes_of_lands {call : Call} {event : Event} (h : event ∈ s.hostEvents call)
    (hlands : event.lands) : call.concludes (s.perform call).answer := by
  cases brings_of_mem h with
  | reached text id document =>
    unfold hostEvents at h
    cases hanswer : (s.perform (.completeLoad text)).answer with
    | ok => rfl
    | error e =>
      rw [hanswer] at h
      cases e <;> simp at h
  | reset => rfl
  | began | clicked | fired | returned | passed | dropped | cast => cases hlands

theorem not_lands_of_undisturbed {calls : List Call} (h : s.Undisturbed calls) :
    ∀ event ∈ s.trace calls, event.lands = false := by
  unfold trace
  replace h := undisturbed_unfolded h
  generalize s.unfolded calls = calls at h
  induction calls generalizing s with
  | nil => exact List.forall_mem_nil _
  | cons call rest ih =>
    intro event hmem
    rcases List.mem_append.mp hmem with hmem | hmem
    · apply Bool.eq_false_iff.mpr
      intro hlands
      have hconcludes := concludes_of_lands hmem hlands
      rw [h.1] at hconcludes
      cases hconcludes
    · exact ih h.2 event hmem

/--
The content on screen, and the chapter that it is of, are the same.
-/
structure Keeps (s t : Session) : Prop where
  chapter_eq : t.chapter = s.chapter
  active_eq : t.active = s.active

theorem keeps_after {event : Event} (h : event.lands = false) : s.Keeps (s.after event) := by
  cases event with
  | passed | dropped | began | took => exact ⟨rfl, rfl⟩
  | returned =>
    show s.Keeps s.returning
    rw [returning_frame]
    exact ⟨rfl, rfl⟩
  | cast chapter spell =>
    show s.Keeps (s.changing (Deed.apply s.player (.cast chapter spell)))
    rw [changing_frame]
    exact ⟨rfl, rfl⟩
  | reached | reset => cases h

theorem content_of_mem_scene {event : Event} (h : event.lands = false)
    (hmem : .variantResolved content ∈ s.scene event) : s.active = some content := by
  unfold scene at hmem
  cases event with
  | returned =>
    dsimp only at hmem
    unfold presented at hmem
    rw [active_returning] at hmem
    cases hactive : s.active with
    | none =>
      rw [hactive] at hmem
      cases hmem
    | some shown =>
      rw [hactive] at hmem
      rcases List.mem_cons.mp hmem with heq | hmem
      · cases heq
        rfl
      · simp at hmem
  | cast =>
    dsimp only at hmem
    split at hmem <;> simp at hmem
  | passed | dropped | began | took => simp at hmem
  | reached | reset => cases h

theorem Path.keeps {events : List Event} (h : Path s events t) (hevents : ∀ event ∈ events, event.lands = false) :
    s.Keeps t := by
  induction h with
  | nil s => exact ⟨rfl, rfl⟩
  | @cons s t event rest _ _ ih =>
    rw [List.forall_mem_cons] at hevents
    have hfirst := s.keeps_after hevents.1
    have hrest := ih hevents.2
    exact ⟨hrest.chapter_eq.trans hfirst.chapter_eq, hrest.active_eq.trans hfirst.active_eq⟩

theorem Path.content_of_mem_scenes {events : List Event} (h : Path s events t)
    (hevents : ∀ event ∈ events, event.lands = false) (hmem : .variantResolved content ∈ s.scenes events) :
    s.active = some content := by
  induction h with
  | nil => cases hmem
  | @cons s t event rest _ _ ih =>
    rw [List.forall_mem_cons] at hevents
    rcases List.mem_append.mp hmem with hmem | hmem
    · exact content_of_mem_scene hevents.1 hmem
    · rw [← (s.keeps_after hevents.1).active_eq]
      exact ih hevents.2 hmem

theorem Coherent.keeps_run (hs : s.Coherent) {calls : List Call} (h : s.Undisturbed calls) :
    s.Keeps (s.run calls) :=
  (path_trace hs calls).keeps (not_lands_of_undisturbed h)

theorem Coherent.content_of_mem_notices (hs : s.Coherent) {calls : List Call} (h : s.Undisturbed calls)
    (hmem : .variantResolved content ∈ s.notices calls) : s.active = some content := by
  have hscene : .variantResolved content ∈ (s.notices calls).filter Notice.isScene :=
    List.mem_filter.mpr ⟨hmem, rfl⟩
  rw [scene_trace hs] at hscene
  exact (path_trace hs calls).content_of_mem_scenes (not_lands_of_undisturbed h) hscene

/--
The load of a chapter that is the last to complete over the calls of a host.
-/
structure Landing (s : Session) (calls : List Call) where
  before : List Call
  text : String
  later : List Call
  request : ContentRequest
  chapter : Chapter
  calls_eq : calls = before ++ .completeLoad text :: later
  pending_eq : (s.run before).pending = some request
  kind_eq : request.kind = .chapter
  chapter_eq : Chapter.ofText text = .ok chapter
  undisturbed : ((s.run before).perform (.completeLoad text)).session.Undisturbed later

namespace Landing

variable {call : Call} {calls : List Call}

/--
The progress at the moment that the load completes.
-/
def player (landing : Landing s calls) : Player :=
  (s.run landing.before).player

/--
What is on screen stems from the load: it is what the chapter has for the progress of that moment.
-/
structure Shows (landing : Landing s calls) (t : Session) : Prop where
  chapter_eq : t.chapter = some landing.chapter
  active_eq : t.active = some (.ofChapter landing.chapter landing.player)

theorem Shows.of_keeps {landing : Landing s calls} {u : Session} (h : landing.Shows t) (hkeeps : t.Keeps u) :
    landing.Shows u where
  chapter_eq := hkeeps.chapter_eq.trans h.chapter_eq
  active_eq := hkeeps.active_eq.trans h.active_eq

def cons (landing : Landing (s.perform call).session calls) : Landing s (call :: calls) :=
  { landing with
    before := call :: landing.before
    calls_eq := congrArg (call :: ·) landing.calls_eq
    pending_eq := landing.pending_eq
    undisturbed := landing.undisturbed }

theorem exists_of_concludes (hhost : call.isHostCall) (hconcludes : call.concludes (s.perform call).answer)
    (hactive : (s.perform call).session.active.isSome) (hlater : (s.perform call).session.Undisturbed calls) :
    ∃ landing : Landing s (call :: calls), landing.Shows (s.perform call).session := by
  cases call with
  | completeLoad text =>
    obtain ⟨request, document, hpending, hdocument, hsession⟩ := reaching_of_concludes hconcludes
    rw [hsession] at hactive ⊢
    cases document with
    | ending => cases hactive
    | chapter chapter =>
      obtain ⟨hkind, hchapter⟩ := Document.ofText_eq_chapter hdocument
      exact ⟨⟨[], text, calls, request, chapter, rfl, hpending, hkind, hchapter, hlater⟩, rfl, rfl⟩
  | reset => cases hactive
  | beginLoad | failLoad | selectChoice | pollTimers | cancelTimers | cast => cases hconcludes
  | start | load | choose | tick => cases hhost

end Landing

theorem Coherent.landing_or_undisturbed (hs : s.Coherent) {calls : List Call}
    (hhost : ∀ call ∈ calls, call.isHostCall) (hactive : (s.run calls).active.isSome) :
    (∃ landing : Landing s calls, landing.Shows (s.run calls)) ∨ s.Undisturbed calls := by
  -- The last load of the rest is the last of all; where the rest has none, the first call may bring it.
  induction calls generalizing s with
  | nil => exact .inr trivial
  | cons call rest ih =>
    rw [List.forall_mem_cons] at hhost
    rw [run_cons] at hactive ⊢
    have hnext : (s.perform call).session.Coherent := hs.run [call]
    rcases ih hnext hhost.2 hactive with ⟨landing, hshows⟩ | hrest
    · exact .inl ⟨landing.cons, hshows.chapter_eq, hshows.active_eq⟩
    · cases hconcludes : call.concludes (s.perform call).answer with
      | false => exact .inr ⟨hconcludes, hrest⟩
      | true =>
        have hkeeps := hnext.keeps_run hrest
        rw [hkeeps.active_eq] at hactive
        obtain ⟨landing, hshows⟩ := Landing.exists_of_concludes hhost.1 hconcludes hactive hrest
        exact .inl ⟨landing, hshows.of_keeps hkeeps⟩

/--
The content on screen is pinned. A chapter is active just if its content is; both stem from the last completed load,
and stay on screen until the next, however often the content is announced again.
-/
structure Pinned (first : Session) (calls : List Call) : Prop where
  active_iff : (first.run calls).active.isSome ↔ (first.run calls).chapter.isSome
  landed : ∀ content, (first.run calls).active = some content →
    ∃ landing : Landing first (first.unfolded calls),
      (first.run calls).chapter = some landing.chapter ∧
      content = .ofChapter landing.chapter landing.player ∧
      content.Presents landing.text landing.chapter landing.player
  kept : ∀ later, (first.run calls).Undisturbed later →
    (first.run (calls ++ later)).chapter = (first.run calls).chapter ∧
      (first.run (calls ++ later)).active = (first.run calls).active
  announced : ∀ later, (first.run calls).Undisturbed later → ∀ content,
    .variantResolved content ∈ (first.run calls).notices later → (first.run calls).active = some content

theorem pinned_run (config : Config) (source : Option ContentSource) (player : Option Player) (calls : List Call) :
    (Session.new config source player).Pinned calls := by
  have hnew := coherent_new config source player
  have hs := hnew.run calls
  refine ⟨?_, ?_, ?_, ?_⟩
  · rw [hs.isSome_chapter]
  · intro content hactive
    have hshown := hactive
    rw [← run_unfolded] at hshown ⊢
    have hlanding := hnew.landing_or_undisturbed (fun _ => isHostCall_of_mem_unfolded) (by rw [hshown]; rfl)
    rcases hlanding with ⟨landing, hshows⟩ | hundisturbed
    · obtain rfl := Option.some.inj (hshown.symm.trans hshows.active_eq)
      exact ⟨landing, hshows.chapter_eq, rfl, ActiveContent.presents_ofChapter landing.chapter_eq landing.player⟩
    · rw [(hnew.keeps_run hundisturbed).active_eq] at hshown
      cases hshown
  · intro later hlater
    have hkeeps := hs.keeps_run hlater
    rw [run_append]
    exact ⟨hkeeps.chapter_eq, hkeeps.active_eq⟩
  · intro later hlater content hmem
    exact hs.content_of_mem_notices hlater hmem

end Session

end Narrative
