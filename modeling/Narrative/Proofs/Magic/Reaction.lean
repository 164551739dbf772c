import Narrative.Proofs.Chapter.Faction
import Narrative.Proofs.Condition.Order
import Narrative.Proofs.Condition.Renaming
import Narrative.Proofs.Condition.Required

/-!
This module contains when factions react, told from the conditions that the text of a chapter writes for them: which
conditions read the player's moral, and what becomes of a strategy that states no condition.
-/

namespace Narrative

open Condition (EntrySatisfied ReadBothWays Refused ofJson ofRequired renameEntry)

namespace Chapter

section

variable {chapter : Chapter} {faction : String} {p : Player}

theorem isSome_provoke?_iff : (chapter.provoke? faction p).isSome ↔
    ∃ strategy, chapter.strategy? faction = some strategy ∧ strategy.condition.holds (strategyBindings p) p := by
  unfold provoke? Strategy.react?
  cases chapter.strategy? faction with
  | none => simp
  | some strategy => simp

/--
A faction that does not react leaves the progress as it is.
-/
theorem applySpellEffect_of_not_isSome (h : ¬(chapter.provoke? faction p).isSome) (action : Option String) :
    chapter.applySpellEffect p (.factionReaction faction action) = p := by
  unfold applySpellEffect
  dsimp only
  rw [Option.not_isSome_iff_eq_none.mp h, Option.getD_none]

theorem isSome_provoke?_of_ofText {text : String} {field : String → Option Json}
    (h : Chapter.ofText text = .ok chapter) (hwritten : Decoder.writtenStrategy? text faction = some field) :
    (chapter.provoke? faction p).isSome ↔ (Decoder.requirement (field "if")).holds (strategyBindings p) p := by
  have hrel := Decoder.rel_writtenStrategy? h faction
  rw [hwritten] at hrel
  rw [isSome_provoke?_iff]
  generalize chapter.strategy? faction = found at hrel
  cases hrel with
  | @some _ strategy hwrites =>
    rw [← hwrites.condition]
    simp

end

/--
When a faction reacts whose strategy is written with a condition. In the expressions of the condition `player_moral` is
read as `moral`. A clause of an object does not follow: with that key it is about a stat `player_moral` of its own.
-/
structure ReadsMoral (chapter : Chapter) (faction : String) (written : Json) : Prop where
  isSome_iff : ∀ p, (chapter.provoke? faction p).isSome ↔
    EntrySatisfied .empty p (renameEntry "player_moral" "moral" written)
  unchanged : ∀ p, ¬EntrySatisfied .empty p (renameEntry "player_moral" "moral" written) →
    ∀ action, chapter.applySpellEffect p (.factionReaction faction action) = p

theorem readsMoral_ofText {text faction : String} {chapter : Chapter} {field : String → Option Json} {written : Json}
    (h : Chapter.ofText text = .ok chapter) (hwritten : Decoder.writtenStrategy? text faction = some field)
    (hif : field "if" = some written) : chapter.ReadsMoral faction written := by
  have hmoral : (Operand.name "moral").WellFormed := by
    simp [Operand.WellFormed, IsName, IsNameLetter]
  have hreacts : ∀ p, (chapter.provoke? faction p).isSome ↔
      EntrySatisfied .empty p (renameEntry "player_moral" "moral" written) := by
    intro p
    rw [isSome_provoke?_of_ofText h hwritten, hif]
    exact (Condition.holds_ofRequired written).trans (Condition.entrySatisfied_insert hmoral p written)
  refine ⟨hreacts, ?_⟩
  intro p hnot action
  exact applySpellEffect_of_not_isSome (mt (hreacts p).mp hnot) action

/--
A chapter with a cult whose strategy has the given condition.
-/
def shrine (rule : String) : String :=
  "\x7b\"id\":\"shrine\",\"text\":\"\",\"background\":\"\",\"faction_ai\":\x7b\"cult\":\x7b\"strategy\":\x7b\"if\":" ++
    rule ++ ",\"then\":[\"send_zealots\"]\x7d\x7d\x7d\x7d"

theorem readsMoral_ofText_shrine : ∃ chapter field written,
    Chapter.ofText (shrine "\"player_moral>60\"") = .ok chapter ∧
      Decoder.writtenStrategy? (shrine "\"player_moral>60\"") "cult" = some field ∧ field "if" = some written ∧
      written.string? = some "player_moral>60" ∧ chapter.ReadsMoral "cult" written := by
  have hfacts : ((Chapter.ofText (shrine "\"player_moral>60\"")).toOption.bind fun _ =>
      (Decoder.writtenStrategy? (shrine "\"player_moral>60\"") "cult").bind fun field =>
        (field "if").bind Json.string?) = some "player_moral>60" := by
    decide +kernel
  simp only [Option.bind_eq_some_iff, Decoder.toOption_eq_some_iff] at hfacts
  obtain ⟨chapter, h, field, hfield, written, hif, hstring⟩ := hfacts
  exact ⟨chapter, field, written, h, hfield, hif, hstring, readsMoral_ofText h hfield hif⟩

theorem not_readsMoral_shrine :
    ¬∀ (text faction : String) (chapter : Chapter) (field : String → Option Json) (written : Json) (p : Player),
      Chapter.ofText text = .ok chapter → Decoder.writtenStrategy? text faction = some field →
      field "if" = some written →
      ((chapter.provoke? faction p).isSome ↔
        EntrySatisfied (strategyBindings p) { p with stats := p.stats.insert "player_moral" (p.stat "moral") }
          written) := by
  intro hall
  let rule := "\x7b\"player_moral\":60\x7d"
  let p := Player.fresh.adjust "moral" 20
  let bound := { p with stats := p.stats.insert "player_moral" (p.stat "moral") }
  have hfacts : ((Chapter.ofText (shrine rule)).toOption.bind fun chapter =>
      (Decoder.writtenStrategy? (shrine rule) "cult").bind fun field => (field "if").map fun written =>
        ((chapter.provoke? "cult" p).isSome, (ofRequired written).holds (strategyBindings p) bound)) =
          some (false, true) := by
    decide +kernel
  simp only [Option.bind_eq_some_iff, Option.map_eq_some_iff, Decoder.toOption_eq_some_iff, Prod.mk.injEq] at hfacts
  obtain ⟨chapter, h, field, hfield, written, hif, hsilent, hholds⟩ := hfacts
  have hreacts := (hall (shrine rule) "cult" chapter field written p h hfield hif).mpr
    ((Condition.holds_ofRequired written).mp hholds)
  rw [hsilent] at hreacts
  cases hreacts

/--
What becomes of a strategy by the value that is written as its condition, if one is. A strategy without one, with `null`
or with a blank text never reacts. One with an empty object always does.
-/
structure HeedsStatement (chapter : Chapter) (faction : String) (written : Option Json) : Prop where
  silent : (∀ v, written = some v → v ≠ .object [] ∧ ofJson v = .always) → ∀ p,
    (chapter.provoke? faction p).isSome = false ∧
      ∀ action, chapter.applySpellEffect p (.factionReaction faction action) = p
  emptyObject : written = some (.object []) → ∀ p, (chapter.provoke? faction p).isSome
  stated : ∀ v, written = some v → ofJson v ≠ .always → ∀ p,
    (chapter.provoke? faction p).isSome ↔ (ofJson v).holds (strategyBindings p) p

theorem heedsStatement_ofText {text faction : String} {chapter : Chapter} {field : String → Option Json}
    (h : Chapter.ofText text = .ok chapter) (hwritten : Decoder.writtenStrategy? text faction = some field) :
    chapter.HeedsStatement faction (field "if") where
  silent hif p := by
    have hrefused : Refused (Decoder.requirement (field "if")) := by
      cases hfield : field "if" with
      | none => exact Condition.refused_malformed _
      | some v =>
        obtain ⟨hobject, halways⟩ := hif v hfield
        exact Condition.refused_ofRequired halways hobject
    have hnot : ¬(chapter.provoke? faction p).isSome := by
      rw [isSome_provoke?_of_ofText h hwritten, hrefused.not_holds]
      nofun
    exact ⟨Bool.eq_false_iff.mpr hnot, applySpellEffect_of_not_isSome hnot⟩
  emptyObject hif p := by
    rw [isSome_provoke?_of_ofText h hwritten, hif]
    rfl
  stated v hif hne p := by
    rw [isSome_provoke?_of_ofText h hwritten, hif, ← Condition.ofRequired_eq_ofJson hne]
    rfl

/--
How conditions that have to be stated are read, and what that means for the factions of a chapter.
-/
theorem readBothWays_ofText {text : String} {chapter : Chapter} (h : Chapter.ofText text = .ok chapter) :
    (∀ v, ReadBothWays v) ∧ ∀ faction field, Decoder.writtenStrategy? text faction = some field →
      chapter.HeedsStatement faction (field "if") :=
  ⟨Condition.readBothWays, fun _ _ hwritten => heedsStatement_ofText h hwritten⟩

theorem readBothWays_ofText_shrine : ∃ chapter field, Chapter.ofText (shrine "null") = .ok chapter ∧
    Decoder.writtenStrategy? (shrine "null") "cult" = some field ∧ (field "if").isSome ∧
    (∀ v, ReadBothWays v) ∧ chapter.HeedsStatement "cult" (field "if") := by
  have hfacts : ((Chapter.ofText (shrine "null")).toOption.bind fun _ =>
      (Decoder.writtenStrategy? (shrine "null") "cult").map fun field => (field "if").isSome) = some true := by
    decide +kernel
  simp only [Option.bind_eq_some_iff, Option.map_eq_some_iff, Decoder.toOption_eq_some_iff] at hfacts
  obtain ⟨chapter, h, field, hfield, hif⟩ := hfacts
  obtain ⟨hread, hheeds⟩ := readBothWays_ofText h
  exact ⟨chapter, field, h, hfield, hif, hread, hheeds "cult" field hfield⟩

theorem not_refused_shrine :
    ¬∀ (text faction : String) (chapter : Chapter) (field : String → Option Json) (v : Json) (p : Player),
      Chapter.ofText text = .ok chapter → Decoder.writtenStrategy? text faction = some field →
      field "if" = some v → ofJson v = .always → (chapter.provoke? faction p).isSome = false := by
  intro hall
  let rule := "\x7b\x7d"
  have hfacts : ((Chapter.ofText (shrine rule)).toOption.bind fun chapter =>
      (Decoder.writtenStrategy? (shrine rule) "cult").bind fun field => (field "if").map fun v =>
        ((chapter.provoke? "cult" .fresh).isSome, (ofJson v).isAlways)) = some (true, true) := by
    decide +kernel
  simp only [Option.bind_eq_some_iff, Option.map_eq_some_iff, Decoder.toOption_eq_some_iff, Prod.mk.injEq] at hfacts
  obtain ⟨chapter, h, field, hfield, v, hif, hreacts, halways⟩ := hfacts
  have hsilent := hall (shrine rule) "cult" chapter field v .fresh h hfield hif (Condition.isAlways_iff.mp halways)
  rw [hreacts] at hsilent
  cases hsilent

end Chapter

end Narrative
