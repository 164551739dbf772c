import Narrative.Proofs.Session.Trace

/-!
This module contains the agreement of the two ways of driving a session. A host that has the source at hand and
fetches documents itself ends where the calls that load from the source end, and whoever presents the story is
told the same.
-/

namespace Narrative

/--
A notice without the wording of a failure to fetch, which the host chooses.
-/
def Notice.wordless : Notice → Notice
  | .error .contentFetch _ => .error .contentFetch ""
  | notice => notice

namespace Reply

variable {α β : Type}

/--
Replies that agree on everything but the wording of failures: on the answer up to the kind of an error, on the
session, and on the notices.
-/
structure Alike (r r' : Reply (Except SessionError α)) : Prop where
  answer : r.answer.mapError SessionError.kind = r'.answer.mapError SessionError.kind
  session : r.session = r'.session
  notices : r.notices.map Notice.wordless = r'.notices.map Notice.wordless

theorem Alike.refl (r : Reply (Except SessionError α)) : r.Alike r := ⟨rfl, rfl, rfl⟩

theorem mapError_map {ε ε' : Type} (f : α → β) (g : ε → ε') (x : Except ε α) :
    (x.map f).mapError g = (x.mapError g).map f := by
  cases x <;> rfl

theorem Alike.map {r r' : Reply (Except SessionError α)} (h : r.Alike r') (f : α → β) :
    (r.map (Except.map f)).Alike (r'.map (Except.map f)) where
  answer := by rw [answer_map, answer_map, mapError_map, mapError_map, h.answer]
  session := h.session
  notices := h.notices

theorem Alike.andThen (r : Reply (Except SessionError α))
    {next next' : α → Session → Reply (Except SessionError β)}
    (h : ∀ a, r.answer = .ok a → (next a r.session).Alike (next' a r.session)) :
    (r.andThen next).Alike (r.andThen next') := by
  unfold Reply.andThen
  cases hanswer : r.answer with
  | error e => exact .refl _
  | ok a =>
    have hnext := h a hanswer
    refine ⟨hnext.answer, hnext.session, ?_⟩
    dsimp only
    rw [List.map_append, List.map_append, hnext.notices]

end Reply

namespace Session

variable {s : Session}

/--
What a host does with a request: it completes the load with the document that the source has, or gives it up in
words of its own. To the host a load that it gives up has failed.
-/
def settle (source : ContentSource) (wording : FetchError → String) (request : ContentRequest)
    (s : Session) : Reply (Except SessionError Unit) :=
  match source.fetch request.id with
  | .ok text => s.completeLoad text
  | .error e =>
    (s.failLoad (wording e)).andThen fun _ s =>
      ⟨.error (.loadFailed request.id (wording e)), s, []⟩

/--
The errors for which a load is given up differ in nothing but their kind and wording.
-/
theorem alike_abortLoad {α : Type} {e e' : SessionError} (h : e.kind = .contentFetch)
    (h' : e'.kind = .contentFetch) : (abortLoad (α := α) s e).Alike (s.abortLoad e') where
  answer := by
    unfold abortLoad Except.mapError
    dsimp only
    rw [h, h']
  session := rfl
  notices := by
    unfold abortLoad
    dsimp only
    rw [List.map_cons, List.map_cons, h, h']
    rfl

theorem alike_fetchAndComplete {source : ContentSource} {request : ContentRequest}
    (hsource : s.source = some source) (hpending : s.pending = some request)
    (wording : FetchError → String) :
    (s.fetchAndComplete request).Alike (s.settle source wording request) := by
  unfold fetchAndComplete withSource settle
  rw [hsource]
  dsimp only
  cases source.fetch request.id with
  | ok text => exact .refl _
  | error e =>
    have habort : Reply.Alike (α := Unit) ({ s with pending := none }.abortLoad (.fetch e))
        ({ s with pending := none }.abortLoad (.loadFailed request.id (wording e))) :=
      alike_abortLoad rfl rfl
    unfold failLoad Reply.andThen Reply.map
    rw [hpending, ← hsource]
    refine ⟨rfl, habort.session, ?_⟩
    dsimp only
    rw [List.append_nil, habort.notices]

/--
A call that begins a load goes on alike, whoever fetches the document.
-/
theorem alike_of_request {source : ContentSource} {request : ContentRequest} (opening : Call)
    (hsource : s.source = some source) (wording : FetchError → String)
    (h : (s.perform opening).answer = .ok (.request request)) :
    ((s.perform opening).session.fetchAndComplete request).Alike
      ((s.perform opening).session.settle source wording request) := by
  apply alike_fetchAndComplete
  · rw [source_of_request h, hsource]
  · exact pending_of_request h

theorem alike_load {source : ContentSource} (id : String) (hsource : s.source = some source)
    (wording : FetchError → String) :
    (s.load id).Alike ((s.beginLoad id).andThen (settle source wording)) := by
  rw [load_of_source id hsource]
  apply Reply.Alike.andThen
  intro request hrequest
  apply alike_of_request (.beginLoad id) hsource
  exact Reply.answer_map_eq_ok.mpr ⟨request, hrequest, rfl⟩

theorem alike_choose {source : ContentSource} (position : Nat) (hsource : s.source = some source)
    (wording : FetchError → String) :
    (s.choose position).Alike
      ((s.selectChoice position).andThen (settle source wording)) := by
  rw [choose_of_source position hsource]
  apply Reply.Alike.andThen
  intro request hrequest
  apply alike_of_request (.selectChoice position) hsource
  exact Reply.answer_map_eq_ok.mpr ⟨request, hrequest, rfl⟩

/--
What a host does after time has passed: it settles the request of a choice that was taken, if there was one.
-/
def settleAny (source : ContentSource) (wording : FetchError → String) :
    Option ContentRequest → Session → Reply (Except SessionError Bool)
  | some request, s => (s.settle source wording request).map (Except.map (fun _ => true))
  | none, s => ⟨.ok false, s, []⟩

theorem alike_tick {source : ContentSource} (elapsed : Duration) (hsource : s.source = some source)
    (wording : FetchError → String) :
    (s.tick elapsed).Alike ((s.pollTimers elapsed).andThen (settleAny source wording)) := by
  unfold tick withSource
  rw [hsource]
  dsimp only
  apply Reply.Alike.andThen
  intro answer hanswer
  cases answer with
  | none => exact .refl _
  | some request =>
    apply Reply.Alike.map
    apply alike_of_request (.pollTimers elapsed) hsource
    exact Reply.answer_map_eq_ok.mpr ⟨some request, hanswer, rfl⟩

theorem source_after (s : Session) (event : Event) : (s.after event).source = s.source := by
  cases event with
  | reached id document => cases document <;> rfl
  | returned =>
    show s.returning.source = s.source
    rw [returning_frame]
  | cast chapter spell =>
    show (s.changing _).source = s.source
    rw [changing_frame]
  | passed | dropped | began | took | reset => rfl

theorem Coherent.source_run (hs : s.Coherent) (calls : List Call) : (s.run calls).source = s.source := by
  apply (path_trace hs calls).preserves (fun t => t.source = s.source)
  · intro t event ht _
    rw [source_after, ht]
  · rfl

/--
A session does the same whether its calls load from the source, or a host begins the loads and settles them.
-/
structure EitherWay (s : Session) (source : ContentSource) (wording : FetchError → String) : Prop where
  started : s.start.Alike ((s.beginLoad s.config.startChapter).andThen (settle source wording))
  loaded : ∀ id, (s.load id).Alike ((s.beginLoad id).andThen (settle source wording))
  chosen : ∀ position,
    (s.choose position).Alike ((s.selectChoice position).andThen (settle source wording))
  ticked : ∀ elapsed,
    (s.tick elapsed).Alike ((s.pollTimers elapsed).andThen (settleAny source wording))

/--
In every session with a source that calls can lead to, the two ways of driving it agree, whatever words the host
has for a document that cannot be had.
-/
theorem eitherWay_run (config : Config) (source : ContentSource) (player : Option Player)
    (calls : List Call) (wording : FetchError → String) :
    ((Session.new config (some source) player).run calls).EitherWay source wording := by
  have hsource : ((Session.new config (some source) player).run calls).source = some source :=
    (coherent_new config (some source) player).source_run calls
  exact {
    started := alike_load _ hsource wording
    loaded := fun id => alike_load id hsource wording
    chosen := fun position => alike_choose position hsource wording
    ticked := fun elapsed => alike_tick elapsed hsource wording
  }

end Session

end Narrative
