import Narrative.Proofs.Session.Rejection
import Narrative.Proofs.Session.Scene

/-!
This module contains the notices that report errors. An error is reported where it comes up, and by nothing that
passes it on; the others warn of effects that are skipped and of choices that cannot be offered.
-/

namespace Narrative

def Notice.isReport : Notice → Bool
  | .error _ _ => true
  | _ => false

def SessionError.report (e : SessionError) : Notice :=
  .error e.kind e.message

/--
Whether an error of a call is its answer. To give up a load is none, and a spell that is not cast only counts as
failed.
-/
def Call.isFrank : Call → Bool
  | .failLoad _ => false
  | .cast _ => false
  | _ => true

/--
Whether an event brings no warnings.
-/
def Event.isQuiet : Event → Bool
  | .took _ _ _ => false
  | .reached _ _ => false
  | _ => true

/--
The warning of an effect that is skipped.
-/
def Effect.warning? : Effect → Option Notice
  | .invalid key reason => some (.error .invalidChoice s!"effect '{key}' skipped: {reason}")
  | _ => none

/--
The warnings of a choice that is taken: one for each of its effects that is skipped, then one for each of those of
the interactions that answer it.
-/
def Chapter.warnings (chapter : Chapter) (choice : Choice) : List Notice :=
  (choice.effects ++ chapter.answers choice).filterMap Effect.warning?

/--
The warnings of content that is entered under an id: one for each choice that cannot be offered.
-/
def ActiveContent.warnings (id : String) (content : ActiveContent) : List Notice :=
  content.choices.zipIdx.filterMap fun (choice, index) =>
    if choice.isWellFormed then
      none
    else
      some (.error .invalidChoice s!"chapter '{id}': choice #{index} is missing text or an outcome")

theorem Effect.map_skipped (effects : List Effect) :
    (skipped effects).map (fun skipped => .error .invalidChoice skipped.message) =
      effects.filterMap warning? := by
  unfold skipped
  rw [List.map_filterMap]
  congr 1
  funext effect
  cases effect <;> rfl

theorem Session.malformedChoices_eq_warnings (id : String) (content : ActiveContent) :
    malformedChoices id content = content.warnings id := by
  unfold malformedChoices ActiveContent.warnings
  rw [← List.filterMap_eq_map, List.filterMap_filter]
  congr 1
  funext entry
  by_cases hwf : entry.1.isWellFormed <;> simp [hwf]

/--
What warnings are about is a choice.
-/
def Notice.IsWarning (notice : Notice) : Prop :=
  ∃ message, notice = .error .invalidChoice message

theorem Chapter.isWarning_of_mem {chapter : Chapter} {choice : Choice} {notice : Notice}
    (h : notice ∈ chapter.warnings choice) : notice.IsWarning := by
  obtain ⟨effect, _, hwarning⟩ := List.mem_filterMap.mp h
  cases effect <;> cases hwarning
  exact ⟨_, rfl⟩

theorem ActiveContent.isWarning_of_mem {id : String} {content : ActiveContent} {notice : Notice}
    (h : notice ∈ content.warnings id) : notice.IsWarning := by
  obtain ⟨entry, _, hwarning⟩ := List.mem_filterMap.mp h
  dsimp only at hwarning
  split at hwarning <;> cases hwarning
  exact ⟨_, rfl⟩

theorem Notice.filter_isReport {notices : List Notice} (h : ∀ notice ∈ notices, notice.IsWarning) :
    notices.filter isReport = notices := by
  rw [List.filter_eq_self]
  intro notice hmem
  obtain ⟨_, rfl⟩ := h notice hmem
  rfl

namespace Reply

variable {α β : Type}

def reports (r : Reply α) : List Notice :=
  r.notices.filter Notice.isReport

/--
The report of the error that a reply answers with, if it does.
-/
def complaint (r : Reply (Except SessionError α)) : List Notice :=
  match r.answer with
  | .ok _ => []
  | .error e => [e.report]

/--
The reply reports warnings, then the error that it answers with.
-/
def Tells (r : Reply (Except SessionError α)) (warnings : List Notice) : Prop :=
  r.reports = warnings ++ r.complaint

variable {r : Reply (Except SessionError α)} {warnings : List Notice}

theorem complaint_of_ok {a : α} (h : r.answer = .ok a) : r.complaint = [] := by
  unfold complaint
  rw [h]

theorem complaint_of_error {e : SessionError} (h : r.answer = .error e) : r.complaint = [e.report] := by
  unfold complaint
  rw [h]

theorem complaint_congr {r' : Reply (Except SessionError β)}
    (h : ∀ e, r.answer = .error e ↔ r'.answer = .error e) : r.complaint = r'.complaint := by
  cases hanswer : r.answer with
  | error e => rw [complaint_of_error hanswer, complaint_of_error ((h e).mp hanswer)]
  | ok a =>
    cases hanswer' : r'.answer with
    | error e =>
      rw [(h e).mpr hanswer'] at hanswer
      cases hanswer
    | ok b => rw [complaint_of_ok hanswer, complaint_of_ok hanswer']

theorem reports_map (f : α → β) (r : Reply α) : (r.map f).reports = r.reports := rfl

theorem Tells.map (h : r.Tells warnings) (f : α → β) : (r.map (Except.map f)).Tells warnings := by
  unfold Tells at h ⊢
  rw [reports_map, h]
  congr 1
  exact complaint_congr (fun _ => answer_map_eq_error.symm)

theorem Tells.of_ok {a : α} (h : r.Tells warnings) (hanswer : r.answer = .ok a) :
    r.reports = warnings := by
  unfold Tells at h
  rw [h, complaint_of_ok hanswer, List.append_nil]

theorem Tells.of_error {e : SessionError} (h : r.Tells warnings) (hanswer : r.answer = .error e) :
    r.reports = warnings ++ [e.report] := by
  unfold Tells at h
  rw [h, complaint_of_error hanswer]

end Reply

namespace Session

variable {s t : Session}

/--
The warnings that an event brings: those of a choice that is taken, and of the choices of a chapter that is reached.
-/
def caution (s : Session) : Event → List Notice
  | .took chapter choice _ => chapter.warnings choice
  | .reached id (.chapter chapter) => (ActiveContent.ofChapter chapter s.player).warnings id
  | _ => []

def cautions (s : Session) : List Event → List Notice
  | [] => []
  | event :: rest => s.caution event ++ (s.after event).cautions rest

theorem cautions_append {first : List Event} (h : Path s first t) (rest : List Event) :
    s.cautions (first ++ rest) = s.cautions first ++ t.cautions rest := by
  induction h with
  | nil s => rfl
  | cons _ _ ih => rw [List.cons_append, cautions, cautions, ih, List.append_assoc]

theorem cautions_single (event : Event) : s.cautions [event] = s.caution event := by
  unfold cautions cautions
  rw [List.append_nil]

theorem isWarning_of_mem_cautions {events : List Event} {notice : Notice}
    (h : notice ∈ s.cautions events) : notice.IsWarning := by
  induction events generalizing s with
  | nil => cases h
  | cons event rest ih =>
    unfold cautions at h
    rcases List.mem_append.mp h with h | h
    · unfold caution at h
      split at h
      · exact Chapter.isWarning_of_mem h
      · exact ActiveContent.isWarning_of_mem h
      · cases h
    · exact ih h

theorem cautions_of_quiet {events : List Event} (h : ∀ event ∈ events, event.isQuiet) :
    s.cautions events = [] := by
  induction events generalizing s with
  | nil => rfl
  | cons event rest ih =>
    have hevent := h event List.mem_cons_self
    have hrest : ∀ event ∈ rest, event.isQuiet := fun event hmem => h event (List.mem_cons_of_mem _ hmem)
    unfold cautions
    rw [ih hrest, List.append_nil]
    cases event with
    | took | reached => cases hevent
    | passed | dropped | began | returned | cast | reset => rfl

theorem reports_entering (id : String) (document : Document) :
    ({ s with pending := none }.entering id document).reports = s.caution (.reached id document) := by
  cases document with
  | chapter chapter =>
    unfold Reply.reports entering enterChapter
    dsimp only
    rw [malformedChoices_eq_warnings, List.filter_append,
      Notice.filter_isReport (fun _ => ActiveContent.isWarning_of_mem)]
    exact List.append_nil _
  | ending ending => rfl

theorem tells_abortLoad {α : Type} (s : Session) (e : SessionError) :
    (abortLoad (α := α) s e).Tells [] := by
  unfold Reply.Tells Reply.reports abortLoad
  dsimp only
  split <;> rfl

theorem tells_beginLoad (s : Session) (id : String) :
    (s.beginLoad id).Tells (s.cautions (s.hostEvents (.beginLoad id))) := by
  unfold hostEvents perform
  rw [Reply.answer_map]
  cases hpending : s.pending with
  | some request =>
    rw [beginLoad_of_some id hpending]
    rfl
  | none =>
    rw [beginLoad_of_none id hpending]
    rfl

theorem tells_completeLoad (s : Session) (text : String) :
    (s.completeLoad text).Tells (s.cautions (s.hostEvents (.completeLoad text))) := by
  unfold hostEvents perform completion?
  rw [Reply.answer_map]
  cases hpending : s.pending with
  | none =>
    rw [completeLoad_of_none text hpending]
    rfl
  | some request =>
    rw [completeLoad_of_some text hpending]
    dsimp only
    cases hdocument : Document.ofText request.kind text with
    | ok document =>
      unfold Reply.Tells
      dsimp only [Reply.answer_map, Except.map]
      rw [Reply.reports_map, reports_entering, hdocument, Reply.complaint_of_ok rfl, List.append_nil]
      exact (cautions_single _).symm
    | error e => exact tells_abortLoad { s with pending := none } _

theorem tells_takeChoice {index : Nat} {chapter : Chapter} {choice : Choice} {successor : Successor}
    (h : s.pending = none) (hchoice : s.choiceAt? index = some (chapter, choice))
    (hsuccessor : choice.successor = .ok successor) :
    (s.takeChoice index).Tells (chapter.warnings choice) := by
  rw [choiceAt?_eq_some] at hchoice
  obtain ⟨hchapter, content, hactive, hindex⟩ := hchoice
  obtain ⟨resolution, hresolve, _, _⟩ := Choice.resolve_of_ok s.player hsuccessor
  unfold takeChoice
  rw [hchapter, hactive]
  dsimp only
  rw [hindex]
  dsimp only
  rw [hresolve]
  dsimp only
  rw [beginLoad_of_none]
  · have hwarnings : (resolution.skipped ++ Effect.skipped (chapter.reactionEffects choice)).map
        (fun skipped => .error .invalidChoice skipped.message) = chapter.warnings choice := by
      unfold Chapter.warnings
      rw [(Choice.of_resolve hresolve).2.2, chapter.reactionEffects_eq_answers, List.map_append,
        Effect.map_skipped, Effect.map_skipped, List.filterMap_append]
    unfold Reply.Tells Reply.reports Reply.complaint
    dsimp only
    rw [hwarnings, List.append_nil, List.append_nil, List.filter_append, List.filter_append,
      Notice.filter_isReport (fun _ => Chapter.isWarning_of_mem), filter_reactions (fun _ => rfl),
      List.append_nil]
    exact List.append_nil _
  · exact h

theorem tells_selectChoice (s : Session) (position : Nat) :
    (s.selectChoice position).Tells (s.cautions (s.hostEvents (.selectChoice position))) := by
  unfold hostEvents perform
  rw [Reply.answer_map]
  cases s.click position with
  | refused hselect _ =>
    rw [hselect]
    rfl
  | @onward next hpending hclicked hselect =>
    rw [hselect, beginLoad_of_none next hpending]
    dsimp only [Except.map]
    rw [hclicked, beginning_none]
    rfl
  | @taken index hpending hclicked =>
    rw [selectChoice_of_clicked hclicked]
    cases taking_of_none index hpending with
    | refused htake _ =>
      rw [htake]
      rfl
    | taken hchoice hsuccessor hanswer _ =>
      rw [hanswer]
      dsimp only [Except.map]
      rw [hclicked, beginning_some _ hchoice, cautions_single]
      exact tells_takeChoice hpending hchoice hsuccessor

theorem Coherent.tells_pollTimers (hs : s.Coherent) (elapsed : Duration) :
    (s.pollTimers elapsed).Tells (s.cautions (s.hostEvents (.pollTimers elapsed))) := by
  unfold hostEvents perform
  rw [Reply.answer_map]
  cases hfired : s.fired? elapsed with
  | none =>
    rw [pollTimers_of_none hfired]
    rfl
  | some index =>
    rw [pollTimers_of_some hfired]
    have hpending : (s.passing elapsed).pending = none := hs.pending_of_fired_eq_some hfired
    cases taking_of_none index hpending with
    | refused htake _ =>
      rw [htake]
      rfl
    | @taken chapter choice _ hchoice hsuccessor hanswer _ =>
      have htells := (tells_takeChoice hpending hchoice hsuccessor).map some
      have hplace : s.choiceAt? index = some (chapter, choice) := hchoice
      rw [Reply.answer_map, hanswer]
      dsimp only [Except.map, Answer.ofRequest?]
      rw [hfired, beginning_some _ hplace]
      unfold cautions
      rw [cautions_single]
      exact htells

/--
The causes for which a spell is not cast at all.
-/
def castError? (s : Session) (name : String) : Option SessionError :=
  match s.pending, s.chapter with
  | some request, _ => some (.busy .castSpell request.id)
  | none, none => some .noActiveChapter
  | none, some chapter =>
    match chapter.cast s.config name s.player with
    | .error e => some (.magic e)
    | .ok _ => none

theorem reports_cast (s : Session) (name : String) :
    (s.cast name).reports = ((s.castError? name).map SessionError.report).toList := by
  unfold cast castError?
  cases hpending : s.pending with
  | some request => rfl
  | none =>
    cases hchapter : s.chapter with
    | none => rfl
    | some chapter =>
      dsimp only
      cases chapter.cast s.config name s.player with
      | error e => rfl
      | ok outcome =>
        dsimp only
        split
        · split <;> rfl
        · rfl

theorem answer_of_castError? {name : String} (h : (s.castError? name).isSome) :
    (s.cast name).answer = false := by
  unfold castError? at h
  unfold cast
  cases hpending : s.pending with
  | some request => rfl
  | none =>
    cases hchapter : s.chapter with
    | none => rfl
    | some chapter =>
      rw [hpending, hchapter] at h
      dsimp only at h ⊢
      cases houtcome : chapter.cast s.config name s.player with
      | error e => rfl
      | ok outcome =>
        rw [houtcome] at h
        cases h

theorem reports_failLoad {request : ContentRequest} (message : String)
    (hpending : s.pending = some request) :
    (s.failLoad message).reports = [(SessionError.loadFailed request.id message).report] := by
  unfold failLoad
  rw [hpending]
  exact tells_abortLoad (α := Unit) { s with pending := none } (.loadFailed request.id message)

theorem Coherent.tells_hostCall (hs : s.Coherent) {call : Call} (hhost : call.isHostCall)
    (hfrank : call.isFrank) : (s.perform call).Tells (s.cautions (s.hostEvents call)) := by
  cases call with
  | beginLoad id => exact (s.tells_beginLoad id).map _
  | completeLoad text => exact (s.tells_completeLoad text).map _
  | selectChoice position => exact (s.tells_selectChoice position).map _
  | pollTimers elapsed => exact (hs.tells_pollTimers elapsed).map _
  | cancelTimers => rfl
  | reset => rfl
  | failLoad | cast => cases hfrank
  | start | load | choose | tick => cases hhost

/--
A load from the source warns of what the call warns of by which a host would have settled it.
-/
theorem tells_fetchAndComplete {source : ContentSource} {request pending : ContentRequest}
    (hsource : s.source = some source) (hpending : s.pending = some pending) :
    (s.fetchAndComplete request).Tells (s.cautions (s.hostEvents (source.settle request))) := by
  unfold fetchAndComplete withSource ContentSource.settle
  rw [hsource]
  dsimp only
  cases source.fetch request.id with
  | ok text => exact s.tells_completeLoad text
  | error e =>
    have hevents : s.hostEvents (.failLoad e.message) = [.returned] := by
      unfold hostEvents perform
      rw [Reply.answer_map, (failLoad_of_some e.message hpending).1]
      rfl
    dsimp only
    rw [hevents]
    exact tells_abortLoad _ (.fetch e)

theorem tells_noSource {opening call : Call} (hopening : s.opening? call = some opening)
    (hsource : s.source = none) : (s.perform call).Tells [] := by
  cases call with
  | start | load =>
    unfold perform start load withSource
    rw [hsource]
    rfl
  | choose =>
    unfold perform choose withSource
    rw [hsource]
    rfl
  | tick =>
    unfold perform tick withSource
    rw [hsource]
    rfl
  | beginLoad | completeLoad | failLoad | selectChoice | pollTimers | cancelTimers | cast | reset =>
    cases hopening

theorem isFrank_of_opening? {opening call : Call} (h : s.opening? call = some opening) :
    opening.isFrank := by
  cases call <;> cases h <;> rfl

theorem reports_of_request {opening call : Call} {source : ContentSource} {request : ContentRequest}
    (hopening : s.opening? call = some opening) (hsource : s.source = some source)
    (h : (s.perform opening).answer = .ok (.request request)) :
    (s.perform call).reports =
      (s.perform opening).reports ++ ((s.perform opening).session.fetchAndComplete request).reports := by
  unfold Reply.reports
  rw [notices_of_opening? hopening hsource]
  unfold following
  rw [h, List.filter_append]

theorem reports_of_no_request {opening call : Call} {source : ContentSource}
    (hopening : s.opening? call = some opening) (hsource : s.source = some source)
    (h : ¬∃ request, (s.perform opening).answer = .ok (.request request)) :
    (s.perform call).reports = (s.perform opening).reports := by
  unfold Reply.reports
  rw [notices_of_opening? hopening hsource]
  unfold following
  split
  · next request hanswer => exact absurd ⟨request, hanswer⟩ h
  · rw [List.append_nil]

/--
A call that loads from the source passes errors on without reporting them again.
-/
theorem Coherent.tells_of_opening? (hs : s.Coherent) {opening call : Call}
    (hopening : s.opening? call = some opening) : (s.perform call).Tells (s.cautions (s.trace [call])) := by
  have hhost := isHostCall_of_opening? hopening
  have hfirst := hs.tells_hostCall hhost (isFrank_of_opening? hopening)
  cases hsource : s.source with
  | none =>
    rw [trace_of_noSource hopening hsource]
    exact tells_noSource hopening hsource
  | some source =>
    by_cases hrequest : ∃ request, (s.perform opening).answer = .ok (.request request)
    · obtain ⟨request, hrequest⟩ := hrequest
      have hload : ((s.perform opening).session.fetchAndComplete request).Tells
          ((s.perform opening).session.cautions
            ((s.perform opening).session.hostEvents (source.settle request))) := by
        apply tells_fetchAndComplete
        · rw [source_of_request hrequest, hsource]
        · exact pending_of_request hrequest
      have hcomplaint : (s.perform call).complaint =
          ((s.perform opening).session.fetchAndComplete request).complaint := by
        apply Reply.complaint_congr
        intro e
        rw [perform_error_iff hopening hsource]
        constructor
        · rintro (herror | ⟨hagain, herror⟩)
          · rw [hrequest] at herror
            cases herror
          · rw [hrequest] at hagain
            cases hagain
            exact herror
        · exact .loading hrequest
      unfold Reply.Tells
      rw [reports_of_request hopening hsource hrequest, trace_of_request hopening hsource hrequest,
        cautions_append (path_hostEvents hs hhost), hfirst.of_ok hrequest, List.append_assoc, hload,
        hcomplaint]
    · have hcomplaint : (s.perform call).complaint = (s.perform opening).complaint := by
        apply Reply.complaint_congr
        intro e
        rw [perform_error_iff hopening hsource]
        constructor
        · rintro (herror | ⟨hanswer, _⟩)
          · exact herror
          · exact absurd ⟨_, hanswer⟩ hrequest
        · exact .opening
      unfold Reply.Tells
      rw [reports_of_no_request hopening hsource hrequest,
        trace_of_no_request hopening hsource hrequest, hfirst, hcomplaint]

theorem Coherent.tells (hs : s.Coherent) {call : Call} (hfrank : call.isFrank) :
    (s.perform call).Tells (s.cautions (s.trace [call])) := by
  cases hopening : s.opening? call with
  | none =>
    have hhost := isHostCall_of_opening?_eq_none hopening
    rw [trace_of_isHostCall hhost]
    exact hs.tells_hostCall hhost hfrank
  | some opening => exact hs.tells_of_opening? hopening

theorem isQuiet_of_error {call : Call} {e : SessionError} (h : (s.perform call).answer = .error e) :
    ∀ event ∈ s.hostEvents call, event.isQuiet := by
  unfold hostEvents
  rw [h]
  cases call with
  | completeLoad text => cases e <;> simp [Event.isQuiet]
  | _ => simp [Event.isQuiet]

/--
The errors for which a load fails after it has begun come without warnings, apart from those of the choice that
led to it.
-/
theorem isQuiet_of_fetchAndComplete {source : ContentSource} {request : ContentRequest} {e : SessionError}
    (hsource : s.source = some source) (h : (s.fetchAndComplete request).answer = .error e) :
    ∀ event ∈ s.hostEvents (source.settle request), event.isQuiet := by
  unfold fetchAndComplete withSource at h
  rw [hsource] at h
  unfold ContentSource.settle
  dsimp only at h
  cases hfetch : source.fetch request.id with
  | ok text =>
    rw [hfetch] at h
    exact isQuiet_of_error (Reply.answer_map_eq_error.mpr h)
  | error cause =>
    intro event hmem
    cases brings_of_mem hmem <;> rfl

/--
What a call reports of errors: the one that it answers with, once and last, and warnings before it. Where it
answers with none, it only warns. To give up a load reports that it failed, and a spell reports why it is not cast.
-/
structure Candid (s : Session) : Prop where
  failed : ∀ call e, (s.perform call).answer = .error e →
    (s.perform call).reports = s.cautions (s.trace [call]) ++ [e.report] ∧
      e.report ∉ s.cautions (s.trace [call]) ∧ ∀ id document, .reached id document ∉ s.trace [call]
  succeeded : ∀ call answer, (s.perform call).answer = .ok answer → call.isFrank →
    (s.perform call).reports = s.cautions (s.trace [call])
  gaveUp : ∀ message answer, (s.perform (.failLoad message)).answer = .ok answer →
    ∃ request, s.pending = some request ∧
      (s.perform (.failLoad message)).reports = [(SessionError.loadFailed request.id message).report]
  uncast : ∀ name e, s.castError? name = some e →
    (s.cast name).answer = false ∧ (s.cast name).reports = [e.report]
  cast : ∀ name, s.castError? name = none → (s.cast name).reports = []

theorem Coherent.failed_hostCall (hs : s.Coherent) {call : Call} {e : SessionError}
    (hhost : call.isHostCall) (h : (s.perform call).answer = .error e) :
    (s.perform call).reports = [e.report] := by
  by_cases hfrank : call.isFrank
  · have htells := (hs.tells_hostCall hhost hfrank).of_error h
    rw [cautions_of_quiet (isQuiet_of_error h)] at htells
    exact htells
  · cases call with
    | failLoad message =>
      have hanswer := Reply.answer_map_eq_error.mp h
      have hpending : s.pending = none := by
        cases hpending : s.pending with
        | none => rfl
        | some request =>
          rw [(failLoad_of_some message hpending).1] at hanswer
          cases hanswer
      show (s.failLoad message).reports = [e.report]
      rw [failLoad_of_none message hpending] at hanswer ⊢
      cases hanswer
      rfl
    | cast name => cases h
    | beginLoad | completeLoad | selectChoice | pollTimers | cancelTimers | start | load | choose | tick
    | reset => exact absurd rfl hfrank

theorem failed_of_opening? {opening call : Call} {e : SessionError}
    (hopening : s.opening? call = some opening) (h : (s.perform call).answer = .error e) :
    e.report ∉ s.cautions (s.trace [call]) ∧ ∀ id document, .reached id document ∉ s.trace [call] := by
  have hhost := isHostCall_of_opening? hopening
  cases hsource : s.source with
  | none =>
    rw [trace_of_noSource hopening hsource]
    exact ⟨nofun, nofun⟩
  | some source =>
    cases perform_error hopening hsource h with
    | opening hanswer =>
      have hquiet := isQuiet_of_error hanswer
      have hno : ¬∃ request, (s.perform opening).answer = .ok (.request request) := by
        rw [hanswer]
        nofun
      rw [trace_of_no_request hopening hsource hno, cautions_of_quiet hquiet]
      refine ⟨nofun, ?_⟩
      intro id document hmem
      cases hquiet _ hmem
    | @loading request hrequest hanswer =>
      have hafter := source_of_request hrequest
      rw [hsource] at hafter
      have hpending := pending_of_request hrequest
      have hkind : e.kind.isRejection = false := by
        apply isRejection_of_fetchAndComplete hafter _ hanswer
        rw [hpending]
        rfl
      constructor
      · -- The warnings are those of the choice, whose kind is another one.
        intro hmem
        obtain ⟨message, hreport⟩ := isWarning_of_mem_cautions hmem
        injection hreport with hinvalid _
        rw [hinvalid] at hkind
        cases hkind
      · rw [trace_of_request hopening hsource hrequest]
        intro id document hmem
        rcases List.mem_append.mp hmem with hmem | hmem
        · cases brings_of_mem hmem
          cases call <;> cases hopening
        · cases isQuiet_of_fetchAndComplete hafter hanswer _ hmem

theorem Coherent.candid (hs : s.Coherent) : s.Candid where
  failed := by
    intro call e h
    cases hopening : s.opening? call with
    | none =>
      have hhost := isHostCall_of_opening?_eq_none hopening
      have hquiet := isQuiet_of_error h
      rw [trace_of_isHostCall hhost, cautions_of_quiet hquiet]
      refine ⟨hs.failed_hostCall hhost h, nofun, ?_⟩
      intro id document hmem
      cases hquiet _ hmem
    | some opening => exact ⟨(hs.tells_of_opening? hopening).of_error h, failed_of_opening? hopening h⟩
  succeeded := fun _ _ hanswer hfrank => (hs.tells hfrank).of_ok hanswer
  gaveUp := by
    intro message answer h
    cases hpending : s.pending with
    | none =>
      obtain ⟨_, hanswer, _⟩ := Reply.answer_map_eq_ok.mp h
      rw [failLoad_of_none message hpending] at hanswer
      cases hanswer
    | some request => exact ⟨request, rfl, reports_failLoad message hpending⟩
  uncast := by
    intro name e h
    rw [reports_cast, h]
    exact ⟨answer_of_castError? (by rw [h]; rfl), rfl⟩
  cast := by
    intro name h
    rw [reports_cast, h]
    rfl

/--
In every session that calls can lead to, whatever goes wrong is reported exactly once.
-/
theorem candid_run (config : Config) (source : Option ContentSource) (player : Option Player)
    (calls : List Call) : ((Session.new config source player).run calls).Candid :=
  ((coherent_new config source player).run calls).candid

end Session

end Narrative
