import Narrative.Proofs.Session.Trace

/-!
This module contains the history of a playthrough. A choice changes the progress before its successor is loaded,
and is undone if the load fails; the history holds it back until the load is completed. The progress is at any
time what the history tells.
-/

namespace Narrative

/--
The history of a playthrough: the progress at its outset, the deeds since then, and the deed that counts once
the pending load is completed.
-/
structure Ledger where
  outset : Player
  deeds : List Deed
  tentative : Option Deed

namespace Ledger

/--
The history after an event. Only the completion of a load, a spell and a reset have a part in it.
-/
def note (config : Config) (ledger : Ledger) : Event → Ledger
  | .passed _ => ledger
  | .dropped => ledger
  | .began _ => ledger
  | .took chapter choice _ => { ledger with tentative := some (.take chapter choice) }
  | .reached id _ =>
    { ledger with
      deeds := ledger.deeds ++ ledger.tentative.toList ++ [.reach id]
      tentative := none }
  | .returned => { ledger with tentative := none }
  | .cast chapter spell => { ledger with deeds := ledger.deeds ++ [.cast chapter spell] }
  | .reset => ⟨config.initialPlayer, [], none⟩

def replay (ledger : Ledger) : Player :=
  ledger.deeds.foldl Deed.apply ledger.outset

theorem replay_snoc (ledger : Ledger) (deeds : List Deed) (tentative : Option Deed) :
    replay ⟨ledger.outset, ledger.deeds ++ deeds, tentative⟩ =
      deeds.foldl Deed.apply ledger.replay := by
  unfold replay
  rw [List.foldl_append]

end Ledger

namespace Session

variable {s t : Session} {ledger : Ledger}

def history (s : Session) (calls : List Call) : Ledger :=
  (s.trace calls).foldl (Ledger.note s.config) ⟨s.player, [], none⟩

/--
The history tells the progress: without the choice whose successor is loading, and with it.
-/
structure Follows (s : Session) (ledger : Ledger) : Prop where
  settled_eq : s.settled = ledger.replay
  player_eq : s.player = ledger.tentative.toList.foldl Deed.apply ledger.replay
  tentative_eq : s.rollback = none → ledger.tentative = none

theorem config_after (s : Session) (event : Event) : (s.after event).config = s.config := by
  cases event with
  | reached id document => cases document <;> rfl
  | returned =>
    show s.returning.config = s.config
    rw [returning_frame]
  | cast chapter spell =>
    show (s.changing _).config = s.config
    rw [changing_frame]
  | passed | dropped | began | took | reset => rfl

theorem player_reaching {request : ContentRequest} {text : String} {document : Document}
    (hrequest : request = .ofId request.id)
    (hdocument : Document.ofText request.kind text = .ok document) :
    (s.reaching request.id document).player = Deed.apply s.player (.reach request.id) := by
  have hkind : request.kind = ContentKind.ofId request.id := congrArg ContentRequest.kind hrequest
  rw [hkind] at hdocument
  cases document with
  | chapter chapter =>
    cases hof : ContentKind.ofId request.id with
    | chapter =>
      rw [Deed.apply_reach_chapter _ hof]
      rfl
    | ending =>
      rw [hof] at hdocument
      unfold Document.ofText at hdocument
      dsimp at hdocument
      cases htext : Ending.ofText text <;> rw [htext] at hdocument <;> cases hdocument
  | ending ending =>
    cases hof : ContentKind.ofId request.id with
    | ending =>
      rw [Deed.apply_reach_ending _ hof]
      rfl
    | chapter =>
      rw [hof] at hdocument
      unfold Document.ofText at hdocument
      dsimp at hdocument
      cases htext : Chapter.ofText text <;> rw [htext] at hdocument <;> cases hdocument

theorem rollback_reaching (s : Session) (id : String) (document : Document) :
    (s.reaching id document).rollback = none := by
  cases document <;> rfl

namespace Follows

theorem of_settled (hrollback : s.rollback = none) (htentative : ledger.tentative = none)
    (h : s.player = ledger.replay) : s.Follows ledger where
  settled_eq := by
    unfold settled
    rw [hrollback]
    exact h
  player_eq := by
    rw [htentative]
    exact h
  tentative_eq := fun _ => htentative

theorem player_eq_replay (h : s.Follows ledger) (hrollback : s.rollback = none) :
    s.player = ledger.replay := by
  have hplayer := h.player_eq
  rw [h.tentative_eq hrollback] at hplayer
  exact hplayer

theorem took (h : s.Follows ledger) (hrollback : s.rollback = none) (chapter : Chapter)
    (choice : Choice) (id : String) :
    (s.taking chapter choice id).Follows (ledger.note s.config (.took chapter choice id)) where
  -- The progress that is put aside is all that counts so far.
  settled_eq := h.player_eq_replay hrollback
  player_eq := by
    show Deed.apply s.player (.take chapter choice) = Deed.apply ledger.replay (.take chapter choice)
    rw [h.player_eq_replay hrollback]
  tentative_eq := nofun

theorem reached (h : s.Follows ledger) {id : String} {document : Document}
    (hplayer : (s.reaching id document).player = Deed.apply s.player (.reach id)) :
    (s.reaching id document).Follows (ledger.note s.config (.reached id document)) := by
  apply of_settled
  · exact rollback_reaching s id document
  · rfl
  · unfold Ledger.note
    dsimp only
    rw [hplayer, h.player_eq, List.append_assoc, Ledger.replay_snoc, List.foldl_append]
    rfl

theorem returned (h : s.Follows ledger) :
    s.returning.Follows (ledger.note s.config .returned) := by
  apply of_settled
  · exact rollback_returning s
  · rfl
  · rw [player_returning, h.settled_eq]
    rfl

theorem cast (h : s.Follows ledger) (hrollback : s.rollback = none) (chapter : Chapter)
    (spell : Spell) :
    (s.after (.cast chapter spell)).Follows (ledger.note s.config (.cast chapter spell)) := by
  apply of_settled
  · unfold Session.after
    dsimp only
    rw [rollback_changing, hrollback]
  · exact h.tentative_eq hrollback
  · unfold Session.after Ledger.note
    dsimp only
    rw [player_changing, Ledger.replay_snoc, h.player_eq_replay hrollback]
    rfl

theorem after (h : s.Follows ledger) (hs : s.Coherent) {event : Event} (hoccurs : s.Occurs event) :
    (s.after event).Follows (ledger.note s.config event) := by
  cases hoccurs with
  | passed elapsed => exact ⟨h.settled_eq, h.player_eq, h.tentative_eq⟩
  | dropped => exact ⟨h.settled_eq, h.player_eq, h.tentative_eq⟩
  | began id hpending => exact ⟨h.settled_eq, h.player_eq, h.tentative_eq⟩
  | took hpending hchoice hsuccessor =>
    exact h.took (hs.rollback_eq_none hpending) _ _ _
  | reached hpending hdocument =>
    exact h.reached (player_reaching (hs.request_eq _ hpending) hdocument)
  | returned hpending => exact h.returned
  | cast hpending hchapter hspell => exact h.cast (hs.rollback_eq_none hpending) _ _
  | reset => exact of_settled rfl rfl rfl

theorem path {events : List Event} (h : s.Follows ledger) (hs : s.Coherent)
    (hpath : Path s events t) : t.Follows (events.foldl (Ledger.note s.config) ledger) := by
  induction hpath generalizing ledger with
  | nil s => exact h
  | cons hoccurs _ ih =>
    have hrest := ih (h.after hs hoccurs) (hs.after hoccurs)
    -- A reset means the same all along, as the configuration never changes.
    rw [config_after] at hrest
    exact hrest

end Follows

/--
While nothing is loading, the progress is the replay of the history: of the deeds that count, each of them
once and in order.
-/
theorem player_eq_replay_run (config : Config) (source : Option ContentSource) (player : Option Player)
    (calls : List Call) (h : ((Session.new config source player).run calls).pending = none) :
    ((Session.new config source player).run calls).player =
      ((Session.new config source player).history calls).replay := by
  have hs := coherent_new config source player
  have hfollows : (Session.new config source player).Follows
      ⟨(Session.new config source player).player, [], none⟩ :=
    .of_settled rfl rfl rfl
  have hrun := hfollows.path hs (path_trace hs calls)
  exact hrun.player_eq_replay ((hs.run calls).rollback_eq_none h)

/--
A chapter with one choice, which earns gold and leads to an ending.
-/
def crossroads : String :=
  "\x7b\"id\": \"crossroads\", \"text\": \"Two roads.\", \"background\": \"heath\", \"choices\": [\x7b" ++
    "\"text\": \"Go home.\", \"next\": \"ending_home\", \"effects\": \x7b\"gold\": 2\x7d\x7d]\x7d"

def home : String :=
  "\x7b\"id\": \"ending_home\", \"title\": \"Home\", \"text\": \"The end.\", \"background\": \"hearth\"\x7d"

/--
A chapter whose choice is of an arc: one of its characters answers with gold, the other waits for another arc.
-/
def harbor : String :=
  "\x7b\"id\":\"harbor\",\"text\":\"\",\"background\":\"\",\"choices\":[\x7b\"text\":\"Sail.\"," ++
    "\"next\":\"ending_home\",\"arc\":\"mercy\",\"effects\":\x7b\"gold\":2\x7d\x7d]," ++
    "\"dynamic_elements\":\x7b\"character_interactions\":\x7b" ++
    "\"zara\":\x7b\"on_select\":\x7b\"trigger_arc\":\"mercy\",\"effects\":\x7b\"gold\":3\x7d\x7d\x7d," ++
    "\"abel\":\x7b\"on_select\":\x7b\"trigger_arc\":\"wrath\",\"effects\":\x7b\"gold\":4\x7d\x7d\x7d\x7d\x7d\x7d"

/--
The choice counts once although it is taken twice, as the ending is only loaded the second time.
-/
theorem player_eq_replay_run_harbor :
    let s := Session.new .builtin none none
    let calls : List Call := [.beginLoad "harbor", .completeLoad harbor, .selectChoice 0, .failLoad "offline",
      .selectChoice 0, .completeLoad home]
    (s.run calls).pending = none ∧ (s.run calls).phase = .ended ∧ (s.run calls).player.stat "gold" = 15 ∧
      (s.run calls).player.endings = ["ending_home"] ∧ (s.history calls).deeds.length = 3 ∧
      (s.run calls).player = (s.history calls).replay := by
  intro s calls
  have h : (s.run calls).pending = none ∧ (s.run calls).phase = .ended ∧
      (s.run calls).player.stat "gold" = 15 ∧ (s.run calls).player.endings = ["ending_home"] ∧
      (s.history calls).deeds.length = 3 := by
    decide +kernel
  exact ⟨h.1, h.2.1, h.2.2.1, h.2.2.2.1, h.2.2.2.2, player_eq_replay_run .builtin none none calls h.1⟩

end Session

end Narrative
