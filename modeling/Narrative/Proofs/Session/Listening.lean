import Narrative.Proofs.Session.Consistency
import Narrative.Proofs.Session.Ledger
import Narrative.Proofs.Session.Scene

/-!
This module contains hosts that only listen. The last notice of each sort tells the progress, the content on screen
with its choices, and the ending, whatever calls have been made.
-/

namespace Narrative

namespace Notice

def player? : Notice → Option Player
  | .statsChanged player => some player
  | _ => none

def views? : Notice → Option (List ChoiceView)
  | .choicesReady views => some views
  | _ => none

def content? : Notice → Option ActiveContent
  | .variantResolved content => some content
  | _ => none

def ending? : Notice → Option (String × String × String)
  | .endingReached id title text => some (id, title, text)
  | _ => none

theorem unsorted {notice : Notice} (h : notice.isScene = false) :
    notice.player? = none ∧ notice.views? = none ∧ notice.content? = none ∧ notice.ending? = none := by
  cases notice with
  | error | reaction => exact ⟨rfl, rfl, rfl, rfl⟩
  | variantResolved | choicesReady | statsChanged | endingReached => cases h

/--
What the last of the notices of a sort carries.
-/
def last? {α : Type} (sort : Notice → Option α) (notices : List Notice) : Option α :=
  (notices.filterMap sort).getLast?

theorem last?_append {α : Type} (sort : Notice → Option α) (first rest : List Notice) :
    last? sort (first ++ rest) = (last? sort rest).or (last? sort first) := by
  unfold last?
  rw [List.filterMap_append, List.getLast?_append]

theorem last?_filter {α : Type} {sort : Notice → Option α}
    (h : ∀ notice, notice.isScene = false → sort notice = none) (notices : List Notice) :
    last? sort (notices.filter isScene) = last? sort notices := by
  unfold last?
  rw [List.filterMap_filter]
  congr 2
  funext notice
  cases hscene : notice.isScene with
  | false => exact (h notice hscene).symm
  | true => rfl

end Notice

namespace Session

open Notice (last?)

variable {s t : Session} {first : Player} {heard : List Notice}

/--
A host that has heard the notices since a session had the given progress is in sync with it.
-/
structure InSync (first : Player) (s : Session) (heard : List Notice) : Prop where
  player : ∀ p, last? Notice.player? heard = some p → p = s.player
  unheard : last? Notice.player? heard = none → s.player = first
  choicesVisible : s.phase = .choicesVisible →
    last? Notice.views? heard = some s.choices ∧
      ∃ content, s.active = some content ∧ last? Notice.content? heard = some content
  ended : s.phase = .ended → ∃ ending, s.ending = some ending ∧
    last? Notice.ending? heard = some (s.player.currentChapter, ending.title, ending.text)

/--
The invariant behind it: an ending is remembered even while something else is loading.
-/
structure Told (first : Player) (s : Session) (heard : List Notice) : Prop where
  player_eq : (last? Notice.player? heard).getD first = s.player
  views_eq : s.phase = .choicesVisible → last? Notice.views? heard = some s.choices
  content_eq : s.phase = .choicesVisible → last? Notice.content? heard = s.active
  ending_eq : ∀ ending, s.ending = some ending →
    last? Notice.ending? heard = some (s.player.currentChapter, ending.title, ending.text)

theorem told_new (config : Config) (source : Option ContentSource) (player : Option Player) :
    (Session.new config source player).Told (Session.new config source player).player [] where
  player_eq := rfl
  views_eq := nofun
  content_eq := nofun
  ending_eq := nofun

namespace Told

/--
Errors and reactions do not matter.
-/
theorem of_filter (h : s.Told first (heard.filter Notice.isScene)) : s.Told first heard where
  player_eq := by rw [← h.player_eq, Notice.last?_filter (fun _ hscene => (Notice.unsorted hscene).1)]
  views_eq := by
    intro hphase
    rw [← h.views_eq hphase, Notice.last?_filter (fun _ hscene => (Notice.unsorted hscene).2.1)]
  content_eq := by
    intro hphase
    rw [← h.content_eq hphase, Notice.last?_filter (fun _ hscene => (Notice.unsorted hscene).2.2.1)]
  ending_eq := by
    intro ending hending
    rw [← h.ending_eq ending hending,
      Notice.last?_filter (fun _ hscene => (Notice.unsorted hscene).2.2.2)]

theorem inSync (h : s.Told first heard) (hs : s.Coherent) : s.InSync first heard where
  player := by
    intro p hp
    have hplayer := h.player_eq
    rw [hp] at hplayer
    exact hplayer
  unheard := by
    intro hnone
    have hplayer := h.player_eq
    rw [hnone] at hplayer
    exact hplayer.symm
  choicesVisible := by
    intro hphase
    cases hs.shows hphase with
    | @choicesVisible content hpending hactive =>
      refine ⟨h.views_eq hphase, content, hactive, ?_⟩
      rw [h.content_eq hphase, hactive]
  ended := by
    intro hphase
    cases hs.shows hphase with
    | @ended ending hpending hactive hending => exact ⟨ending, hending, h.ending_eq ending hending⟩

theorem silence (h : s.Told first heard) (hplayer : t.player = s.player)
    (hphase : t.phase ≠ .choicesVisible) (hending : t.ending = s.ending) : t.Told first heard where
  player_eq := by rw [hplayer, h.player_eq]
  views_eq := fun hvisible => absurd hvisible hphase
  content_eq := fun hvisible => absurd hvisible hphase
  ending_eq := by
    rw [hending, hplayer]
    exact h.ending_eq

theorem presented {content : ActiveContent} (hactive : s.active = some content)
    (hending : s.ending = none) : s.Told first (heard ++ s.presented) := by
  have hlast : s.presented =
      [.variantResolved content, .choicesReady s.choices, .statsChanged s.player] := by
    unfold Session.presented
    rw [hactive]
  rw [hlast]
  exact {
    player_eq := by
      rw [Notice.last?_append]
      rfl
    views_eq := by
      intro _
      rw [Notice.last?_append]
      rfl
    content_eq := by
      intro _
      rw [Notice.last?_append, hactive]
      rfl
    ending_eq := by
      rw [hending]
      nofun
  }

theorem took (hs : s.Coherent) {chapter : Chapter} {choice : Choice}
    {index : Nat} (id : String) (hchoice : s.choiceAt? index = some (chapter, choice)) :
    (s.taking chapter choice id).Told first (heard ++ s.scene (.took chapter choice id)) where
  player_eq := by
    rw [Notice.last?_append]
    rfl
  views_eq := nofun
  content_eq := nofun
  ending_eq := by
    obtain ⟨_, content, hactive, _⟩ := choiceAt?_eq_some.mp hchoice
    have hending : (s.taking chapter choice id).ending = none := hs.ending_eq_none (by rw [hactive]; rfl)
    rw [hending]
    nofun

theorem reached (request : ContentRequest) (document : Document) :
    (s.reaching request.id document).Told first (heard ++ s.scene (.reached request.id document)) := by
  cases document with
  | chapter chapter => exact presented rfl rfl
  | ending ending =>
    exact {
      player_eq := by
        rw [Notice.last?_append]
        rfl
      views_eq := nofun
      content_eq := nofun
      ending_eq := by
        intro shown hshown
        cases hshown
        rw [Notice.last?_append]
        rfl
    }

theorem returned (h : s.Told first heard) (hs : s.Coherent) :
    s.returning.Told first (heard ++ s.scene .returned) := by
  cases hactive : s.active with
  | some content =>
    apply presented
    · rw [active_returning, hactive]
    · rw [ending_returning, hs.ending_eq_none]
      rw [hactive]
      rfl
  | none =>
    -- Nothing is presented anew, as no choice can have led here.
    have hrollback : s.rollback = none := by
      cases hrollback : s.rollback with
      | none => rfl
      | some p =>
        have hsome := (hs.isSome_rollback (by rw [hrollback]; rfl)).2
        rw [hactive] at hsome
        cases hsome
    have hscene : s.scene .returned = [] := by
      unfold scene Session.presented
      rw [active_returning, hactive]
    rw [hscene, List.append_nil]
    apply h.silence
    · rw [player_returning]
      unfold settled
      rw [hrollback]
      rfl
    · unfold returning
      rw [hactive]
      dsimp only
      split <;> nofun
    · exact ending_returning s

theorem cast (h : s.Told first heard) (hs : s.Coherent) (hpending : s.pending = none)
    {chapter : Chapter} (hchapter : s.chapter = some chapter) (spell : Spell) :
    (s.after (.cast chapter spell)).Told first (heard ++ s.scene (.cast chapter spell)) := by
  have hsome : s.active.isSome := by
    rw [← hs.isSome_chapter, hchapter]
    rfl
  obtain ⟨content, hactive⟩ := Option.isSome_iff_exists.mp hsome
  have hphase : s.phase = .choicesVisible := by
    rw [hs.phase_eq]
    unfold screen
    rw [hpending, hactive]
  unfold Session.after scene
  dsimp only
  rw [if_pos hsome, changing_of_active _ hpending hactive]
  exact {
    player_eq := by
      rw [Notice.last?_append]
      rfl
    views_eq := by
      intro _
      rw [Notice.last?_append]
      rfl
    content_eq := by
      intro _
      rw [Notice.last?_append]
      exact h.content_eq hphase
    ending_eq := by
      have hending := hs.ending_eq_none hsome
      intro ending hsome
      rw [hending] at hsome
      cases hsome
  }

theorem after (h : s.Told first heard) (hs : s.Coherent) {event : Event} (hoccurs : s.Occurs event) :
    (s.after event).Told first (heard ++ s.scene event) := by
  cases hoccurs with
  | passed elapsed =>
    rw [scene, List.append_nil]
    exact ⟨h.player_eq, h.views_eq, h.content_eq, h.ending_eq⟩
  | dropped =>
    rw [scene, List.append_nil]
    exact ⟨h.player_eq, h.views_eq, h.content_eq, h.ending_eq⟩
  | began id hpending =>
    rw [scene, List.append_nil]
    exact h.silence rfl nofun rfl
  | took hpending hchoice hsuccessor => exact took hs _ hchoice
  | reached hpending hdocument => exact reached _ _
  | returned hpending => exact h.returned hs
  | cast hpending hchapter hspell => exact h.cast hs hpending hchapter _
  | reset =>
    exact {
      player_eq := by
        rw [Notice.last?_append]
        rfl
      views_eq := nofun
      content_eq := nofun
      ending_eq := nofun
    }

theorem path {events : List Event} (h : s.Told first heard) (hs : s.Coherent)
    (hpath : Path s events t) : t.Told first (heard ++ s.scenes events) := by
  induction hpath generalizing heard with
  | nil s =>
    rw [scenes, List.append_nil]
    exact h
  | cons hoccurs _ ih =>
    rw [scenes, ← List.append_assoc]
    exact ih (h.after hs hoccurs) (hs.after hoccurs)

end Told

/--
A host that hears the notices of a run is in sync with the session after it.
-/
theorem inSync_run (config : Config) (source : Option ContentSource) (player : Option Player)
    (calls : List Call) :
    let first := Session.new config source player
    (first.run calls).InSync first.player (first.notices calls) := by
  intro first
  have hs : first.Coherent := coherent_new config source player
  have htold := (told_new config source player).path hs (path_trace hs calls)
  rw [List.nil_append, ← scene_trace hs] at htold
  exact htold.of_filter.inSync (hs.run calls)

end Session

end Narrative
