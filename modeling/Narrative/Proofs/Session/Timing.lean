import Narrative.Proofs.Session.Operation

/-!
This module contains sessions that differ in nothing but their timers. What an operation answers, the notices that it
sends and whatever else it leaves do not depend on the timers, as long as time does not pass.
-/

namespace Narrative

/--
A change that timers undergo one by one, and those that are armed after it in the same way.
-/
structure Timers.Uniform (f : Timers → Timers) : Prop where
  clear : ∀ t, f t.clear = (f t).clear
  arm : ∀ t choice after, f (t.arm choice after) = (f t).arm choice after
  length : ∀ t, (f t).pending.length = t.pending.length

namespace Session

def retimed (s : Session) (f : Timers → Timers) : Session :=
  { s with timers := f s.timers }

end Session

namespace Reply

variable {α β : Type} {f : Timers → Timers}

def retimed (r : Reply α) (f : Timers → Timers) : Reply α :=
  ⟨r.answer, r.session.retimed f, r.notices⟩

theorem andThen_retimed {r : Reply (Except SessionError α)}
    {next : α → Session → Reply (Except SessionError β)}
    (h : ∀ a s, next a (s.retimed f) = (next a s).retimed f) :
    (r.retimed f).andThen next = (r.andThen next).retimed f := by
  unfold andThen retimed
  dsimp only
  cases r.answer with
  | error e => rfl
  | ok a =>
    dsimp only
    rw [h a r.session]
    rfl

end Reply

namespace Session

variable {s : Session} {f : Timers → Timers}

theorem beginLoad_retimed (hclear : ∀ t, f t.clear = (f t).clear) (s : Session) (id : String) :
    (s.retimed f).beginLoad id = (s.beginLoad id).retimed f := by
  cases hpending : s.pending with
  | some request =>
    rw [beginLoad_of_some id hpending, beginLoad_of_some]
    · rfl
    · exact hpending
  | none =>
    rw [beginLoad_of_none id hpending, beginLoad_of_none]
    · unfold Reply.retimed loading retimed
      dsimp only
      rw [hclear]
    · exact hpending

theorem takeChoice_retimed (hclear : ∀ t, f t.clear = (f t).clear) (s : Session) (index : Nat) :
    (s.retimed f).takeChoice index = (s.takeChoice index).retimed f := by
  unfold takeChoice retimed
  dsimp only
  split
  · next chapter content hchapter hactive =>
    cases content.choices[index]? with
    | none => rfl
    | some choice =>
      dsimp only
      cases choice.resolve s.player with
      | error e => rfl
      | ok resolution =>
        dsimp only
        have hbegin := beginLoad_retimed hclear
          { s with
            player := Effect.applyAll (chapter.reactionEffects choice) resolution.player
            timers := s.timers.clear }
          resolution.successor.id
        unfold Session.retimed at hbegin
        dsimp only at hbegin
        rw [← hclear, hbegin]
        generalize beginLoad _ resolution.successor.id = begun
        unfold Reply.retimed
        dsimp only
        split <;> rfl
  · rfl

theorem selectChoice_retimed (hclear : ∀ t, f t.clear = (f t).clear) (s : Session) (position : Nat) :
    (s.retimed f).selectChoice position = (s.selectChoice position).retimed f := by
  have hpending : (s.retimed f).pending = s.pending := rfl
  have hphase : (s.retimed f).phase = s.phase := rfl
  have hchoices : (s.retimed f).choices = s.choices := rfl
  unfold selectChoice
  rw [hpending, hphase, hchoices]
  split
  · rfl
  · split
    · rfl
    · split
      · rfl
      · split
        · split
          · exact beginLoad_retimed hclear s _
          · exact takeChoice_retimed hclear s _
        · rfl

theorem pollTimers_retimed (hclear : ∀ t, f t.clear = (f t).clear) {elapsed : Duration}
    (hadvance : (f s.timers).advance elapsed =
      ((s.timers.advance elapsed).1, f (s.timers.advance elapsed).2)) :
    (s.retimed f).pollTimers elapsed = (s.pollTimers elapsed).retimed f := by
  have hfired : (s.retimed f).fired? elapsed = s.fired? elapsed := by
    show ((f s.timers).advance elapsed).1.find? s.isOpen = (s.timers.advance elapsed).1.find? s.isOpen
    rw [hadvance]
  have hpassing : (s.retimed f).passing elapsed = (s.passing elapsed).retimed f := by
    unfold passing retimed
    dsimp only
    rw [hadvance]
  cases hindex : s.fired? elapsed with
  | none =>
    rw [hindex] at hfired
    rw [pollTimers_of_none hindex, pollTimers_of_none hfired, hpassing]
    rfl
  | some index =>
    rw [hindex] at hfired
    rw [pollTimers_of_some hindex, pollTimers_of_some hfired, hpassing, takeChoice_retimed hclear]
    rfl

theorem foldl_armView_uniform (hf : Timers.Uniform f) (views : List ChoiceView) (timers : Timers) :
    views.foldl armView (f timers) = f (views.foldl armView timers) := by
  induction views generalizing timers with
  | nil => rfl
  | cons view rest ih =>
    have hview : armView (f timers) view = f (armView timers view) := by
      unfold armView
      split
      · exact (hf.arm _ _ _).symm
      · rfl
    rw [List.foldl_cons, List.foldl_cons, hview, ih]

theorem present_retimed (hf : Timers.Uniform f) (s : Session) (content : ActiveContent) :
    (s.retimed f).present content = (s.present content).retimed f := by
  have htimers := foldl_armView_uniform hf (content.views s.config s.player) s.timers
  unfold present armTimers offer Reply.retimed retimed
  dsimp only
  rw [htimers]

theorem entering_retimed (hf : Timers.Uniform f) (s : Session) (id : String) (document : Document) :
    (s.retimed f).entering id document = (s.entering id document).retimed f := by
  cases document with
  | chapter chapter =>
    unfold entering enterChapter
    dsimp only
    have hpresent := present_retimed hf
      { s with
        rollback := none
        player := { s.player with currentChapter := id }
        chapter := some chapter
        active := some (ActiveContent.ofChapter chapter s.player)
        ending := none }
      (ActiveContent.ofChapter chapter s.player)
    unfold Session.retimed at hpresent ⊢
    dsimp only at hpresent ⊢
    rw [hpresent]
    rfl
  | ending ending => rfl

theorem abortLoad_retimed {α : Type} (hf : Timers.Uniform f) (s : Session) (e : SessionError) :
    (s.retimed f).abortLoad (α := α) e = (s.abortLoad e).retimed f := by
  unfold abortLoad retimed
  dsimp only
  split
  · next content hactive =>
    have hpresent := present_retimed hf
      { s with player := s.rollback.getD s.player, rollback := none } content
    unfold Session.retimed at hpresent
    dsimp only at hpresent
    rw [hpresent]
    rfl
  · rfl
  · rfl

theorem completeLoad_retimed (hf : Timers.Uniform f) (s : Session) (text : String) :
    (s.retimed f).completeLoad text = (s.completeLoad text).retimed f := by
  have hsame : (s.retimed f).pending = s.pending := rfl
  cases hpending : s.pending with
  | none =>
    rw [hpending] at hsame
    rw [completeLoad_of_none text hpending, completeLoad_of_none text hsame]
    rfl
  | some request =>
    rw [hpending] at hsame
    rw [completeLoad_of_some text hpending, completeLoad_of_some text hsame]
    cases Document.ofText request.kind text with
    | ok document =>
      dsimp only
      have hentering := entering_retimed hf { s with pending := none } request.id document
      unfold Session.retimed at hentering ⊢
      dsimp only at hentering ⊢
      rw [hentering]
      rfl
    | error e => exact abortLoad_retimed hf { s with pending := none } _

theorem failLoad_retimed (hf : Timers.Uniform f) (s : Session) (message : String) :
    (s.retimed f).failLoad message = (s.failLoad message).retimed f := by
  unfold failLoad
  have hpending : (s.retimed f).pending = s.pending := rfl
  rw [hpending]
  split
  · rfl
  · next request _ =>
    dsimp only
    have habort := abortLoad_retimed (α := Unit) hf { s with pending := none }
      (.loadFailed request.id message)
    unfold Session.retimed at habort ⊢
    dsimp only at habort ⊢
    rw [habort]
    rfl

theorem cast_retimed (s : Session) (name : String) :
    (s.retimed f).cast name = (s.cast name).retimed f := by
  unfold cast retimed
  dsimp only
  split
  · rfl
  · split
    · rfl
    · next chapter _ =>
      cases chapter.cast s.config name s.player with
      | error e => rfl
      | ok outcome =>
        dsimp only
        split
        · split <;> rfl
        · rfl

theorem cancelTimers_retimed (hf : Timers.Uniform f) (s : Session) :
    (s.retimed f).cancelTimers = s.cancelTimers.retimed f := by
  unfold cancelTimers Timers.cancelAll Reply.retimed retimed
  dsimp only
  rw [hf.length, hf.clear]

theorem reset_retimed (hclear : ∀ t, f t.clear = (f t).clear) (s : Session) :
    (s.retimed f).reset = s.reset.retimed f := by
  unfold reset Reply.retimed retimed
  dsimp only
  rw [hclear]

theorem withSource_retimed {α : Type} {next next' : ContentSource → Reply (Except SessionError α)}
    (h : ∀ source, s.source = some source → next' source = (next source).retimed f) :
    (s.retimed f).withSource next' = (s.withSource next).retimed f := by
  unfold withSource
  have hsame : (s.retimed f).source = s.source := rfl
  rw [hsame]
  cases hsource : s.source with
  | none => rfl
  | some source => exact h source hsource

theorem fetchAndComplete_retimed (hf : Timers.Uniform f) (s : Session) (request : ContentRequest) :
    (s.retimed f).fetchAndComplete request = (s.fetchAndComplete request).retimed f := by
  apply withSource_retimed
  intro source _
  cases source.fetch request.id with
  | ok text => exact completeLoad_retimed hf s text
  | error e => exact abortLoad_retimed hf { s with pending := none } _

theorem load_retimed (hf : Timers.Uniform f) (s : Session) (id : String) :
    (s.retimed f).load id = (s.load id).retimed f := by
  apply withSource_retimed
  intro _ _
  rw [beginLoad_retimed hf.clear]
  apply Reply.andThen_retimed
  intro request s
  exact fetchAndComplete_retimed hf s request

theorem choose_retimed (hf : Timers.Uniform f) (s : Session) (position : Nat) :
    (s.retimed f).choose position = (s.choose position).retimed f := by
  apply withSource_retimed
  intro _ _
  rw [selectChoice_retimed hf.clear]
  apply Reply.andThen_retimed
  intro request s
  exact fetchAndComplete_retimed hf s request

theorem tick_retimed (hf : Timers.Uniform f) {elapsed : Duration}
    (hadvance : s.source.isSome → (f s.timers).advance elapsed =
      ((s.timers.advance elapsed).1, f (s.timers.advance elapsed).2)) :
    (s.retimed f).tick elapsed = (s.tick elapsed).retimed f := by
  apply withSource_retimed
  intro source hsource
  rw [pollTimers_retimed hf.clear]
  · apply Reply.andThen_retimed
    intro answer s
    cases answer with
    | none => rfl
    | some request =>
      dsimp only
      rw [fetchAndComplete_retimed hf]
      rfl
  · apply hadvance
    rw [hsource]
    rfl

/--
The calls that move the clock, and by how much. Without a source a call to it is refused before that.
-/
def elapsing? (s : Session) : Call → Option Duration
  | .pollTimers elapsed => some elapsed
  | .tick elapsed => if s.source.isSome then some elapsed else none
  | _ => none

/--
A call does the same whatever the timers are, unless it lets time pass and other timers fall due.
-/
theorem perform_retimed (hf : Timers.Uniform f) {call : Call}
    (hadvance : ∀ elapsed, s.elapsing? call = some elapsed → (f s.timers).advance elapsed =
      ((s.timers.advance elapsed).1, f (s.timers.advance elapsed).2)) :
    (s.retimed f).perform call = (s.perform call).retimed f := by
  unfold perform
  cases call with
  | beginLoad id =>
    dsimp only
    rw [beginLoad_retimed hf.clear]
    rfl
  | completeLoad text =>
    dsimp only
    rw [completeLoad_retimed hf]
    rfl
  | failLoad message =>
    dsimp only
    rw [failLoad_retimed hf]
    rfl
  | selectChoice position =>
    dsimp only
    rw [selectChoice_retimed hf.clear]
    rfl
  | pollTimers elapsed =>
    dsimp only
    rw [pollTimers_retimed hf.clear (hadvance elapsed rfl)]
    rfl
  | cancelTimers =>
    dsimp only
    rw [cancelTimers_retimed hf]
    rfl
  | start =>
    dsimp only
    have hstart : (s.retimed f).start = s.start.retimed f := load_retimed hf s _
    rw [hstart]
    rfl
  | load id =>
    dsimp only
    rw [load_retimed hf]
    rfl
  | choose position =>
    dsimp only
    rw [choose_retimed hf]
    rfl
  | tick elapsed =>
    dsimp only
    rw [tick_retimed hf (fun hsource => hadvance elapsed (if_pos hsource))]
    rfl
  | cast name =>
    dsimp only
    rw [cast_retimed]
    rfl
  | reset =>
    dsimp only
    rw [reset_retimed hf.clear]
    rfl

end Session

end Narrative
