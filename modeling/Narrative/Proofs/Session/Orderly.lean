import Narrative.Proofs.Progress
import Narrative.Proofs.Session.Ledger

/-!
This module contains the order of the progress over whole runs: it stays well formed, keeps its stats until a reset
replaces them, and endings are only added between resets.
-/

namespace Narrative.Session

variable {s t : Session} {first : Player}

/--
The progress has come of a first one, and a choice whose successor is loading has only changed it.
-/
structure Grown (first : Player) (s : Session) : Prop where
  settled : first.Onward s.settled
  tentative : s.settled.Changes s.player

namespace Grown

theorem of_player (hrollback : s.rollback = none) (h : first.Onward s.player) : s.Grown first := by
  have hsettled : s.settled = s.player := by
    unfold Session.settled
    rw [hrollback]
    rfl
  constructor
  · rw [hsettled]
    exact h
  · rw [hsettled]
    exact .refl s.player

theorem player (h : s.Grown first) : first.Onward s.player :=
  h.settled.trans h.tentative.onward

theorem taking (h : s.Grown first) (chapter : Chapter) (choice : Choice) (id : String) :
    (s.taking chapter choice id).Grown first where
  -- The progress that is put aside is the one before the choice.
  settled := h.player
  tentative := .take s.player chapter choice

theorem after (h : s.Grown first) (hs : s.Coherent) {event : Event} (hoccurs : s.Occurs event)
    (hreset : event ≠ .reset) : (s.after event).Grown first := by
  cases hoccurs with
  | passed elapsed => exact ⟨h.settled, h.tentative⟩
  | dropped => exact ⟨h.settled, h.tentative⟩
  | began id hpending => exact ⟨h.settled, h.tentative⟩
  | took hpending hchoice hsuccessor => exact h.taking _ _ _
  | @reached request text document hpending hdocument =>
    apply of_player
    · exact rollback_reaching s request.id document
    · show first.Onward (s.reaching request.id document).player
      rw [player_reaching (hs.request_eq request hpending) hdocument]
      exact h.player.trans (.reach s.player request.id)
  | returned hpending =>
    apply of_player
    · exact rollback_returning s
    · show first.Onward s.returning.player
      rw [player_returning]
      exact h.settled
  | @cast name chapter spell hpending hchapter hspell =>
    apply of_player
    · show (s.changing _).rollback = none
      rw [rollback_changing, hs.rollback_eq_none hpending]
    · show first.Onward (s.changing _).player
      rw [player_changing]
      exact h.player.trans (Player.Changes.cast s.player chapter spell).onward
  | reset => exact absurd rfl hreset

theorem path {events : List Event} (h : s.Grown first) (hs : s.Coherent) (hpath : Path s events t)
    (hreset : .reset ∉ events) : t.Grown first := by
  induction hpath with
  | nil s => exact h
  | @cons s t event rest hoccurs _ ih =>
    rw [List.mem_cons, not_or] at hreset
    exact ih (h.after hs hoccurs (Ne.symm hreset.1)) (hs.after hoccurs) hreset.2

/--
After the last reset the progress has come of that of the configuration.
-/
theorem path_reset {events : List Event} (hs : s.Coherent) (hpath : Path s events t)
    (hreset : .reset ∈ events) : t.Grown s.config.initialPlayer := by
  induction hpath with
  | nil s => cases hreset
  | @cons s t event rest hoccurs hrest ih =>
    have hafter := hs.after hoccurs
    by_cases hlater : .reset ∈ rest
    · have hgrown := ih hafter hlater
      rw [config_after] at hgrown
      exact hgrown
    · rcases List.mem_cons.mp hreset with rfl | hmem
      · have hfresh : (s.after .reset).Grown s.config.initialPlayer := of_player rfl (.refl _)
        exact hfresh.path hafter hrest hlater
      · exact absurd hmem hlater

theorem self (h : s.Grown first) : s.Grown s.settled := ⟨.refl s.settled, h.tentative⟩

/--
Endings are not touched by a choice whose successor is loading, so they stay also when it is undone.
-/
theorem endings_prefix (h : s.Grown first) (ht : t.Grown s.settled) :
    s.player.endings <+: t.player.endings := by
  rw [h.tentative.endings_eq, ht.tentative.endings_eq]
  exact ht.settled.endings_prefix

end Grown

theorem Grown.run (h : s.Grown first) (hs : s.Coherent) {calls : List Call} (hreset : .reset ∉ calls) :
    (s.run calls).Grown first :=
  h.path hs (path_trace hs calls) (fun hmem => hreset (reset_mem_trace.mp hmem))

/--
The progress after calls is in order: it is well formed, it has the stats of the progress that the playthrough
started with, and later calls only add endings to it until one of them is a reset.
-/
structure Orderly (first : Session) (calls : List Call) : Prop where
  wellFormed : (first.run calls).player.WellFormed
  inRange : ∀ name value, (first.run calls).player.stats.get? name = some value →
    0 ≤ value ∧ (name = "health" → value ≤ 100) ∧ (name = "sanity" ∨ name = "fate" → value ≤ 10)
  hasStat_eq : .reset ∉ calls →
    ∀ name, (first.run calls).player.hasStat name = first.player.hasStat name
  hasStat_reset : .reset ∈ calls →
    ∀ name, (first.run calls).player.hasStat name = first.config.initialPlayer.hasStat name
  endings_prefix : ∀ later, .reset ∉ later →
    (first.run calls).player.endings <+: (first.run (calls ++ later)).player.endings

theorem Grown.orderly {start : Session} {calls : List Call} (hs : start.Coherent)
    (hstart : start.player.WellFormed) (hgrown : start.Grown start.player) : start.Orderly calls := by
  have hreset : .reset ∈ calls → (start.run calls).Grown start.config.initialPlayer := fun hmem =>
    path_reset hs (path_trace hs calls) (reset_mem_trace.mpr hmem)
  obtain ⟨outset, houtset, hrun⟩ :
      ∃ outset : Player, outset.WellFormed ∧ (start.run calls).Grown outset := by
    by_cases hmem : .reset ∈ calls
    · exact ⟨_, Config.wellFormed_initialPlayer start.config, hreset hmem⟩
    · exact ⟨_, hstart, hgrown.run hs hmem⟩
  have hwf := hrun.player.wellFormed houtset
  exact {
    wellFormed := hwf
    inRange := fun name value hvalue => StatRange.contains_ofStat.mp (hwf.inRange name value hvalue)
    hasStat_eq := fun hmem => (hgrown.run hs hmem).player.hasStat_eq
    hasStat_reset := fun hmem => (hreset hmem).player.hasStat_eq
    endings_prefix := by
      intro later hlater
      rw [run_append]
      exact hrun.endings_prefix (hrun.self.run (hs.run calls) hlater)
  }

/--
A session that starts well formed stays in order, in particular one that starts with the progress of its
configuration.
-/
theorem orderly_run (config : Config) (source : Option ContentSource) (player : Option Player)
    (h : ∀ p, player = some p → p.WellFormed) (calls : List Call) :
    (Session.new config source player).Orderly calls := by
  have hs := coherent_new config source player
  have hstart : (Session.new config source player).player.WellFormed := by
    cases player with
    | none => exact config.wellFormed_initialPlayer
    | some p => exact h p rfl
  exact Grown.orderly hs hstart (.of_player rfl (.refl _))

/--
A player who has been home before comes there again: the ending is not recorded twice.
-/
theorem orderly_run_crossroads :
    let returned := { Player.fresh with endings := ["ending_home"] }
    let s := Session.new .builtin none (some returned)
    let calls : List Call := [.beginLoad "crossroads", .completeLoad crossroads, .selectChoice 0,
      .completeLoad home]
    returned.WellFormed ∧ (s.run calls).player.endings = ["ending_home"] ∧ s.Orderly calls := by
  intro returned s calls
  have hwf : returned.WellFormed :=
    { Player.wellFormed_fresh with endings := List.pairwise_singleton _ "ending_home" }
  have hendings : (s.run calls).player.endings = ["ending_home"] := by decide +kernel
  refine ⟨hwf, hendings, orderly_run .builtin none (some returned) ?_ calls⟩
  rintro p ⟨⟩
  exact hwf

end Narrative.Session
