import Narrative.Proofs.Deed
import Narrative.Session.Call

/-!
This module contains what the operations of a session give, case by case: the session after each of them as
an update of the fields that it changes, and the causes for which it is refused.
-/

namespace Narrative

inductive Document where
  | chapter (chapter : Chapter)
  | ending (ending : Ending)

def Document.ofText (kind : ContentKind) (text : String) : Except DocumentError Document :=
  match kind with
  | .chapter => (Chapter.ofText text).map .chapter
  | .ending => (Ending.ofText text).map .ending

/--
The timer that a presented choice starts with at a time, if it is an authored one with a timeout.
-/
def ChoiceView.timerAt? (view : ChoiceView) (now : Duration) : Option Timer :=
  match view.slot, view.timeout with
  | .authored index, some after => some ⟨index, now + after⟩
  | _, _ => none

namespace Reply

variable {α β : Type}

@[simp]
theorem session_map (f : α → β) (r : Reply α) : (r.map f).session = r.session := rfl

@[simp]
theorem answer_map (f : α → β) (r : Reply α) : (r.map f).answer = f r.answer := rfl

@[simp]
theorem notices_map (f : α → β) (r : Reply α) : (r.map f).notices = r.notices := rfl

theorem answer_map_eq_ok {f : α → β} {r : Reply (Except SessionError α)} {b : β} :
    (r.map (Except.map f)).answer = .ok b ↔ ∃ a, r.answer = .ok a ∧ f a = b := by
  rw [answer_map]
  cases r.answer with
  | error e => simp [Except.map]
  | ok a => simp [Except.map]

theorem answer_map_eq_error {f : α → β} {r : Reply (Except SessionError α)} {e : SessionError} :
    (r.map (Except.map f)).answer = .error e ↔ r.answer = .error e := by
  rw [answer_map]
  cases r.answer with
  | error e => simp [Except.map]
  | ok a => simp [Except.map]

theorem answer_andThen_eq_error {r : Reply (Except SessionError α)} {e : SessionError}
    {next : α → Session → Reply (Except SessionError β)} :
    (r.andThen next).answer = .error e ↔
      r.answer = .error e ∨ ∃ a, r.answer = .ok a ∧ (next a r.session).answer = .error e := by
  unfold andThen
  cases r.answer with
  | error e => simp
  | ok a => simp

end Reply

namespace Session

variable {s : Session}

/--
The progress without the choice whose successor is loading.
-/
def settled (s : Session) : Player :=
  s.rollback.getD s.player

def loading (s : Session) (id : String) : Session :=
  { s with timers := s.timers.clear, pending := some (.ofId id), phase := .loading }

def taking (s : Session) (chapter : Chapter) (choice : Choice) (id : String) : Session :=
  { s.loading id with
    player := Deed.apply s.player (.take chapter choice)
    rollback := some s.player }

def presenting (s : Session) (content : ActiveContent) : Session :=
  let views := content.views s.config s.player
  { s with
    choices := views
    phase := .choicesVisible
    timers :=
      { s.timers with pending := s.timers.pending ++ views.filterMap (·.timerAt? s.timers.now) } }

def reaching (s : Session) (id : String) : Document → Session
  | .chapter chapter =>
    let content := ActiveContent.ofChapter chapter s.player
    { s with
      pending := none
      rollback := none
      player := { s.player with currentChapter := id }
      chapter := some chapter
      active := some content
      ending := none : Session }.presenting content
  | .ending ending =>
    { s with
      pending := none
      rollback := none
      player := { s.player.unlockEnding id with currentChapter := id }
      chapter := none
      active := none
      ending := some ending
      choices := []
      phase := .ended }

/--
The session that has given up a load.
-/
def returning (s : Session) : Session :=
  let undone := { s with pending := none, player := s.settled, rollback := none }
  match s.active with
  | some content => undone.presenting content
  | none => { undone with phase := if s.ending.isSome then .ended else .idle }

def changing (s : Session) (p : Player) : Session :=
  let changed := { s with player := p }
  match s.active with
  | some content => changed.offer content
  | none => changed

def passing (s : Session) (elapsed : Duration) : Session :=
  { s with timers := (s.timers.advance elapsed).2 }

/--
The choice at a place of the content on screen, with its chapter.
-/
def choiceAt? (s : Session) (index : Nat) : Option (Chapter × Choice) :=
  match s.chapter, s.active with
  | some chapter, some content => content.choices[index]?.map (chapter, ·)
  | _, _ => none

/--
The place of the choice that a click at a position takes.
-/
def clicked? (s : Session) (position : Nat) : Option Nat :=
  match s.pending, s.phase, s.choices[position]? with
  | none, .choicesVisible, some ⟨.authored index, _, true, _⟩ => some index
  | _, _, _ => none

/--
The place of the choice that is taken on its own when time passes.
-/
def fired? (s : Session) (elapsed : Duration) : Option Nat :=
  (s.timers.advance elapsed).1.find? s.isOpen

theorem foldl_armView (views : List ChoiceView) (timers : Timers) :
    views.foldl armView timers =
      { timers with pending := timers.pending ++ views.filterMap (·.timerAt? timers.now) } := by
  induction views generalizing timers with
  | nil => simp
  | cons view rest ih =>
    -- Arming leaves the clock alone, so every deadline is counted from the same time.
    rw [List.foldl_cons, ih]
    cases hslot : view.slot with
    | «continue» next => simp [armView, ChoiceView.timerAt?, hslot]
    | authored index =>
      cases htimeout : view.timeout with
      | none => simp [armView, ChoiceView.timerAt?, hslot, htimeout]
      | some after => simp [armView, ChoiceView.timerAt?, Timers.arm, hslot, htimeout]

theorem session_present (content : ActiveContent) (h : s.pending = none) :
    (s.present content).session = s.presenting content := by
  unfold present armTimers offer presenting
  dsimp
  rw [foldl_armView, h]
  rfl

theorem session_abortLoad {α : Type} (e : SessionError) :
    (abortLoad (α := α) { s with pending := none } e).session = s.returning := by
  unfold abortLoad returning settled
  dsimp
  cases hactive : s.active with
  | some content =>
    dsimp
    rw [session_present]
    rfl
  | none => cases s.ending <;> rfl

/--
Giving up a load goes back to the settled progress; beyond that only what is on screen moves.
-/
theorem returning_frame (s : Session) :
    s.returning =
      { s with
        player := s.settled
        rollback := none
        pending := none
        choices := s.returning.choices
        phase := s.returning.phase
        timers := s.returning.timers } := by
  unfold returning
  dsimp only
  cases s.active <;> rfl

theorem changing_frame (s : Session) (p : Player) :
    s.changing p =
      { s with player := p, choices := (s.changing p).choices, phase := (s.changing p).phase } := by
  unfold changing
  dsimp only
  cases s.active <;> rfl

theorem player_returning (s : Session) : s.returning.player = s.settled := by
  rw [returning_frame]

theorem rollback_returning (s : Session) : s.returning.rollback = none := by
  rw [returning_frame]

theorem active_returning (s : Session) : s.returning.active = s.active := by
  rw [returning_frame]

theorem ending_returning (s : Session) : s.returning.ending = s.ending := by
  rw [returning_frame]

theorem player_changing (s : Session) (p : Player) : (s.changing p).player = p := by
  rw [changing_frame]

theorem rollback_changing (s : Session) (p : Player) : (s.changing p).rollback = s.rollback := by
  rw [changing_frame]

theorem beginLoad_of_some {request : ContentRequest} (id : String) (h : s.pending = some request) :
    s.beginLoad id = s.report (.loadInProgress id request.id) := by
  unfold beginLoad
  rw [h]

theorem beginLoad_of_none (id : String) (h : s.pending = none) :
    s.beginLoad id = ⟨.ok (.ofId id), s.loading id, []⟩ := by
  unfold beginLoad
  rw [h]
  rfl

theorem changing_of_active {content : ActiveContent} (p : Player) (h : s.pending = none)
    (hactive : s.active = some content) :
    s.changing p =
      { s with player := p, choices := content.views s.config p, phase := .choicesVisible } := by
  unfold changing offer
  rw [hactive]
  dsimp
  rw [h]
  rfl

theorem session_enterChapter {request : ContentRequest} (chapter : Chapter) :
    ({ s with pending := none }.enterChapter request.id chapter).session =
      s.reaching request.id (.chapter chapter) := by
  unfold enterChapter reaching
  dsimp
  rw [session_present]
  rfl

theorem completeLoad_of_none (text : String) (h : s.pending = none) :
    s.completeLoad text = s.report .notLoading := by
  unfold completeLoad
  rw [h]

def entering (s : Session) (id : String) : Document → Reply Unit
  | .chapter chapter => s.enterChapter id chapter
  | .ending ending => s.enterEnding id ending

theorem session_entering {request : ContentRequest} (document : Document) :
    ({ s with pending := none }.entering request.id document).session =
      s.reaching request.id document := by
  cases document with
  | chapter chapter => exact session_enterChapter chapter
  | ending ending => rfl

/--
A document that can be read is entered, whichever kind it is of; with any other the load is given up.
-/
theorem completeLoad_of_some {request : ContentRequest} (text : String)
    (h : s.pending = some request) :
    s.completeLoad text =
      match Document.ofText request.kind text with
      | .ok document => ({ s with pending := none }.entering request.id document).map .ok
      | .error e => { s with pending := none }.abortLoad (.document request.id e) := by
  unfold completeLoad Document.ofText
  rw [h]
  dsimp
  cases request.kind with
  | chapter => cases Chapter.ofText text <;> rfl
  | ending => cases Ending.ofText text <;> rfl

theorem completeLoad_of_ok {request : ContentRequest} {text : String} {document : Document}
    (h : s.pending = some request) (hdocument : Document.ofText request.kind text = .ok document) :
    (s.completeLoad text).answer = .ok () ∧
      (s.completeLoad text).session = s.reaching request.id document := by
  rw [completeLoad_of_some text h, hdocument]
  exact ⟨rfl, session_entering document⟩

theorem completeLoad_of_error {request : ContentRequest} {text : String} {e : DocumentError}
    (h : s.pending = some request) (hdocument : Document.ofText request.kind text = .error e) :
    (s.completeLoad text).answer = .error (.document request.id e) ∧
      (s.completeLoad text).session = s.returning := by
  rw [completeLoad_of_some text h, hdocument]
  exact ⟨rfl, session_abortLoad _⟩

theorem failLoad_of_none (message : String) (h : s.pending = none) :
    s.failLoad message = s.report .notLoading := by
  unfold failLoad
  rw [h]

theorem failLoad_of_some {request : ContentRequest} (message : String)
    (h : s.pending = some request) :
    (s.failLoad message).answer = .ok () ∧ (s.failLoad message).session = s.returning := by
  unfold failLoad
  rw [h]
  exact ⟨rfl, session_abortLoad (α := Unit) (.loadFailed request.id message)⟩

theorem choiceAt?_eq_some {index : Nat} {chapter : Chapter} {choice : Choice} :
    s.choiceAt? index = some (chapter, choice) ↔
      s.chapter = some chapter ∧
        ∃ content, s.active = some content ∧ content.choices[index]? = some choice := by
  unfold choiceAt?
  cases s.chapter with
  | none => simp
  | some chapter =>
    cases s.active with
    | none => simp
    | some content =>
      dsimp only
      rw [Option.map_eq_some_iff]
      constructor
      · rintro ⟨choice, hindex, heq⟩
        cases heq
        exact ⟨rfl, content, rfl, hindex⟩
      · rintro ⟨hchapter, shown, hshown, hindex⟩
        cases hchapter
        cases hshown
        exact ⟨choice, hindex, rfl⟩

theorem takeChoice_of_ok {index : Nat} {chapter : Chapter} {choice : Choice} {successor : Successor}
    (h : s.pending = none) (hchoice : s.choiceAt? index = some (chapter, choice))
    (hsuccessor : choice.successor = .ok successor) :
    (s.takeChoice index).answer = .ok (.ofId successor.id) ∧
      (s.takeChoice index).session = s.taking chapter choice successor.id := by
  rw [choiceAt?_eq_some] at hchoice
  obtain ⟨hchapter, content, hactive, hindex⟩ := hchoice
  obtain ⟨resolution, hresolve, hid, hplayer⟩ := Choice.resolve_of_ok s.player hsuccessor
  unfold takeChoice
  rw [hchapter, hactive]
  dsimp
  rw [hindex]
  dsimp
  rw [hresolve]
  dsimp
  -- The branch that undoes the choice is never reached: nothing else is being loaded.
  rw [beginLoad_of_none, hid]
  · refine ⟨rfl, ?_⟩
    simp only [taking, loading, ← hplayer chapter, hchapter, hactive]
    rfl
  · exact h

theorem takeChoice_of_error {index : Nat} {chapter : Chapter} {choice : Choice} {e : ResolveError}
    (hchoice : s.choiceAt? index = some (chapter, choice)) (hsuccessor : choice.successor = .error e) :
    s.takeChoice index = s.report (.invalidChoice e) := by
  rw [choiceAt?_eq_some] at hchoice
  obtain ⟨hchapter, content, hactive, hindex⟩ := hchoice
  unfold takeChoice
  rw [hchapter, hactive]
  dsimp
  rw [hindex]
  dsimp
  rw [Choice.resolve_of_error s.player hsuccessor]

inductive Untakable (index : Nat) : SessionError → Prop where
  | noActiveChapter : Untakable index .noActiveChapter
  | outOfRange : Untakable index (.choiceOutOfRange index)
  | noSuccessor (e : ResolveError) : Untakable index (.invalidChoice e)

theorem takeChoice_of_none {index : Nat} (hchoice : s.choiceAt? index = none) :
    ∃ e, s.takeChoice index = s.report e ∧ Untakable index e := by
  unfold takeChoice
  cases hchapter : s.chapter with
  | none => exact ⟨_, rfl, .noActiveChapter⟩
  | some chapter =>
    cases hactive : s.active with
    | none => exact ⟨_, rfl, .noActiveChapter⟩
    | some content =>
      dsimp
      cases hindex : content.choices[index]? with
      | none => exact ⟨_, rfl, .outOfRange⟩
      | some choice =>
        have hsome := choiceAt?_eq_some.mpr ⟨hchapter, content, hactive, hindex⟩
        rw [hchoice] at hsome
        cases hsome

theorem takeChoice_of_some {request : ContentRequest} (index : Nat)
    (h : s.pending = some request) : ∃ e, (s.takeChoice index).answer = .error e := by
  unfold takeChoice
  split
  · split
    · exact ⟨_, rfl⟩
    · split
      · exact ⟨_, rfl⟩
      · dsimp
        rw [beginLoad_of_some]
        · exact ⟨_, rfl⟩
        · exact h
  · exact ⟨_, rfl⟩

/--
What becomes of a choice: it is refused without a trace, or taken.
-/
inductive Taking (s : Session) (index : Nat) : Prop where
  | refused {e : SessionError} (htake : s.takeChoice index = s.report e) (hcause : Untakable index e)
  | taken {chapter : Chapter} {choice : Choice} {successor : Successor}
      (hchoice : s.choiceAt? index = some (chapter, choice))
      (hsuccessor : choice.successor = .ok successor)
      (hanswer : (s.takeChoice index).answer = .ok (.ofId successor.id))
      (hsession : (s.takeChoice index).session = s.taking chapter choice successor.id)

theorem taking_of_none (index : Nat) (h : s.pending = none) : s.Taking index := by
  cases hchoice : s.choiceAt? index with
  | none =>
    obtain ⟨e, htake, hcause⟩ := takeChoice_of_none hchoice
    exact .refused htake hcause
  | some found =>
    obtain ⟨chapter, choice⟩ := found
    cases hsuccessor : choice.successor with
    | error e => exact .refused (takeChoice_of_error hchoice hsuccessor) (.noSuccessor e)
    | ok successor =>
      obtain ⟨hanswer, hsession⟩ := takeChoice_of_ok h hchoice hsuccessor
      exact .taken hchoice hsuccessor hanswer hsession

theorem clicked?_eq_some {position index : Nat} :
    s.clicked? position = some index ↔ s.pending = none ∧ s.phase = .choicesVisible ∧
      ∃ view, s.choices[position]? = some view ∧ view.slot = .authored index ∧
        view.enabled = true := by
  unfold clicked?
  constructor
  · intro h
    split at h
    · next i text timeout hpending hphase hview =>
      cases h
      exact ⟨hpending, hphase, _, hview, rfl, rfl⟩
    · cases h
  · rintro ⟨hpending, hphase, ⟨slot, text, enabled, timeout⟩, hview, hslot, henabled⟩
    dsimp at hslot henabled
    subst hslot henabled
    rw [hpending, hphase, hview]

theorem selectChoice_of_clicked {position index : Nat} (h : s.clicked? position = some index) :
    s.selectChoice position = s.takeChoice index := by
  rw [clicked?_eq_some] at h
  obtain ⟨hpending, hphase, view, hview, hslot, henabled⟩ := h
  unfold selectChoice
  rw [hpending]
  simp [hphase, hview, henabled, hslot]

theorem selectChoice_of_phase (position : Nat) (h : s.phase ≠ .choicesVisible) :
    ∃ e, s.selectChoice position = s.report e := by
  unfold selectChoice
  split
  · exact ⟨_, rfl⟩
  · rw [if_pos h]
    exact ⟨_, rfl⟩

inductive Unclickable (s : Session) (position : Nat) : SessionError → Prop where
  | busy {request : ContentRequest} (hpending : s.pending = some request) :
      Unclickable s position (.busy .takeChoice request.id)
  | noChoices (hphase : s.phase ≠ .choicesVisible) : Unclickable s position .noChoices
  | outOfRange (hview : s.choices[position]? = none) :
      Unclickable s position (.choiceOutOfRange position)
  | disabled {view : ChoiceView} (hview : s.choices[position]? = some view)
      (hdisabled : view.enabled = false) : Unclickable s position (.choiceDisabled position)

/--
What becomes of a click: it is refused without a trace, goes on where no choice is presented, or takes a choice.
-/
inductive Click (s : Session) (position : Nat) : Prop where
  | refused {e : SessionError} (hselect : s.selectChoice position = s.report e)
      (hcause : s.Unclickable position e)
  | onward {next : String} (hpending : s.pending = none) (hclicked : s.clicked? position = none)
      (hselect : s.selectChoice position = s.beginLoad next)
  | taken {index : Nat} (hpending : s.pending = none) (hclicked : s.clicked? position = some index)

theorem click (s : Session) (position : Nat) : s.Click position := by
  cases hclicked : s.clicked? position with
  | some index =>
    have hpending := (clicked?_eq_some.mp hclicked).1
    exact .taken hpending hclicked
  | none =>
    cases hpending : s.pending with
    | some request =>
      have hselect : s.selectChoice position = s.report (.busy .takeChoice request.id) := by
        unfold selectChoice
        rw [hpending]
      exact .refused hselect (.busy hpending)
    | none =>
      by_cases hphase : s.phase = .choicesVisible
      · cases hview : s.choices[position]? with
        | none =>
          have hselect : s.selectChoice position = s.report (.choiceOutOfRange position) := by
            unfold selectChoice
            simp [hpending, hphase, hview]
          exact .refused hselect (.outOfRange hview)
        | some view =>
          cases henabled : view.enabled with
          | false =>
            have hselect : s.selectChoice position = s.report (.choiceDisabled position) := by
              unfold selectChoice
              simp [hpending, hphase, hview, henabled]
            exact .refused hselect (.disabled hview henabled)
          | true =>
            cases hslot : view.slot with
            | «continue» next =>
              have hselect : s.selectChoice position = s.beginLoad next := by
                unfold selectChoice
                simp [hpending, hphase, hview, henabled, hslot]
              exact .onward hpending hclicked hselect
            | authored index =>
              have hsome : s.clicked? position = some index := by
                rw [clicked?_eq_some]
                exact ⟨hpending, hphase, view, hview, hslot, henabled⟩
              exact .taken hpending hsome
      · have hselect : s.selectChoice position = s.report .noChoices := by
          unfold selectChoice
          simp [hpending, hphase]
        exact .refused hselect (.noChoices hphase)

theorem pollTimers_of_none {elapsed : Duration} (h : s.fired? elapsed = none) :
    s.pollTimers elapsed = ⟨.ok none, s.passing elapsed, []⟩ := by
  unfold fired? at h
  unfold pollTimers
  dsimp
  have hfind : (s.timers.advance elapsed).1.find? (s.passing elapsed).isOpen = none := h
  unfold passing at hfind
  rw [hfind]
  rfl

theorem pollTimers_of_some {elapsed : Duration} {index : Nat} (h : s.fired? elapsed = some index) :
    s.pollTimers elapsed = ((s.passing elapsed).takeChoice index).map (Except.map some) := by
  unfold fired? at h
  unfold pollTimers
  dsimp
  have hfind : (s.timers.advance elapsed).1.find? (s.passing elapsed).isOpen = some index := h
  unfold passing at hfind
  rw [hfind]
  rfl

theorem fired?_eq_none {elapsed : Duration} (h : s.timers.pending = []) :
    s.fired? elapsed = none := by
  unfold fired? Timers.advance Timers.dueAt
  rw [h]
  simp

/--
What becomes of a spell: it is refused or fails without a trace, or changes the progress.
-/
inductive Casting (s : Session) (name : String) : Prop where
  | failed {notices : List Notice} (hcast : s.cast name = ⟨false, s, notices⟩)
  | succeeded {chapter : Chapter} {spell : Spell} (hpending : s.pending = none)
      (hchapter : s.chapter = some chapter) (hspell : chapter.spells.get? name = some spell)
      (hanswer : (s.cast name).answer = true)
      (hsession : (s.cast name).session = s.changing (Deed.apply s.player (.cast chapter spell)))

theorem casting (s : Session) (name : String) : s.Casting name := by
  cases hpending : s.pending with
  | some request =>
    apply Casting.failed
    unfold cast
    rw [hpending]
    rfl
  | none =>
    cases hchapter : s.chapter with
    | none =>
      apply Casting.failed
      unfold cast
      rw [hpending, hchapter]
      rfl
    | some chapter =>
      cases houtcome : chapter.cast s.config name s.player with
      | error e =>
        apply Casting.failed
        unfold cast
        simp only [hpending, hchapter, houtcome]
        rfl
      | ok outcome =>
        cases hsucceeded : outcome.succeeded with
        | false =>
          have hcast : s.cast name = ⟨false, s, []⟩ := by
            unfold cast
            simp [hpending, hchapter, houtcome, hsucceeded]
          exact .failed hcast
        | true =>
          obtain ⟨spell, _, hspell, _, _, _, hplayer⟩ := Chapter.cast_of_ok houtcome
          rw [if_pos hsucceeded] at hplayer
          apply Casting.succeeded hpending hchapter hspell
          · unfold cast
            cases s.active <;> simp [hpending, hchapter, houtcome, hsucceeded]
          · unfold cast changing
            cases s.active <;> simp [hpending, hchapter, houtcome, hsucceeded, hplayer]

end Session

end Narrative
