import Narrative.Config.Reader
import Narrative.Proofs.Chapter.Faction
import Narrative.Proofs.Decimal.Double
import Narrative.Proofs.Deed
import Narrative.Proofs.Table

/-!
This module contains what decides whether a cast succeeds. Beside a power above the threshold that is a power which is
no number: configurations accept such a strength of a ley line, and an infinite one, of which a missing skill makes one.
-/

namespace Narrative

theorem Config.not_strength_neg {text : String} {config : Config} {element : String} {line : LeyLine}
    (h : Config.ofText text = .ok config) (hline : config.leyLines.get? element = some line) : ¬line.strength < 0 := by
  unfold Config.ofText at h
  split at h
  · cases h
  · next read hread =>
    split at h
    · cases h
    · next hchecked =>
      obtain rfl := Except.ok.inj h
      unfold Config.negativeLine? at hchecked
      rw [Option.map_eq_none_iff, List.find?_eq_none] at hchecked
      have hmem := (Table.lookup_eq_some_iff read.leyLines.nodup_names).mp hline
      simpa using hchecked _ hmem

/--
What a cast that finds its spell and its ley line comes to. It succeeds with a power above the threshold, and also where
the two cannot be compared; only a cast that succeeds changes anything.
-/
structure CastOutcome.DecidedBy (outcome : CastOutcome) (spell : Spell) (line : LeyLine) (p : Player) : Prop where
  power_eq : outcome.power = line.strength * Decimal.ofInt (p.stat spell.skill).toInt
  succeeded_iff : outcome.succeeded ↔
    spell.threshold < outcome.power ∨ outcome.power = .nan ∨ spell.threshold = .nan
  power_eq_nan_iff : outcome.power = .nan ↔
    line.strength = .nan ∨ (line.strength = .inf ∧ p.stat spell.skill = 0)
  unchanged : outcome.succeeded = false → outcome.player = p

open Decoder (toOption_eq_some_iff)

namespace Chapter

variable {chapter : Chapter} {config : Config} {name : String} {p : Player} {outcome : CastOutcome}

theorem decidedBy_cast {text : String} (hconfig : Config.ofText text = .ok config)
    (h : chapter.cast config name p = .ok outcome) :
    ∃ spell line, chapter.spells.get? name = some spell ∧ config.leyLines.get? spell.element = some line ∧
      outcome.DecidedBy spell line p := by
  obtain ⟨spell, line, hspell, hline, hpower, hsucceeded, hplayer⟩ := cast_of_ok h
  refine ⟨spell, line, hspell, hline, hpower, ?_, ?_, ?_⟩
  · rw [hsucceeded, Decimal.not_le_iff]
  · have hneg := Config.not_strength_neg hconfig hline
    have hinf : line.strength.isInf ↔ line.strength = .inf := by
      constructor
      · exact fun hinf => Decimal.eq_inf_of_isInf hinf hneg
      · intro heq
        rw [heq]
        rfl
    rw [hpower, Decimal.mul_ofInt_eq_nan_iff, hinf]
  · intro hfailed
    rw [hplayer, hfailed]
    rfl

/--
A chapter with a spell that takes a power of more than ten.
-/
def crypt : String :=
  "\x7b\"id\":\"crypt\",\"text\":\"\",\"background\":\"\",\"spells\":" ++
    "\x7b\"hex\":\x7b\"element\":\"void\",\"skill\":\"insight\",\"threshold\":10\x7d\x7d\x7d"

/--
The configuration with one ley line, of the given strength.
-/
def voidOf (strength : String) : String :=
  "(ley_lines:\x7b\"void\":(strength:" ++ strength ++ ")\x7d)"

theorem decidedBy_cast_crypt : ∃ config chapter outcome spell line, Config.ofText (voidOf "inf") = .ok config ∧
    Chapter.ofText crypt = .ok chapter ∧ chapter.cast config "hex" .fresh = .ok outcome ∧
    chapter.spells.get? "hex" = some spell ∧ config.leyLines.get? spell.element = some line ∧
    outcome.DecidedBy spell line .fresh := by
  have hsucceeded : ((Config.ofText (voidOf "inf")).toOption.bind fun config =>
      (Chapter.ofText crypt).toOption.bind fun chapter =>
        (chapter.cast config "hex" .fresh).toOption.map (·.succeeded)) = some true := by
    decide +kernel
  simp only [Option.bind_eq_some_iff, Option.map_eq_some_iff, toOption_eq_some_iff] at hsucceeded
  obtain ⟨config, hconfig, chapter, hchapter, outcome, houtcome, -⟩ := hsucceeded
  obtain ⟨spell, line, hspell, hline, hdecided⟩ := decidedBy_cast hconfig houtcome
  exact ⟨config, chapter, outcome, spell, line, hconfig, hchapter, houtcome, hspell, hline, hdecided⟩

theorem not_above_crypt :
    ¬∀ (text : String) (config : Config) (chapter : Chapter) (name : String) (p : Player) (outcome : CastOutcome)
      (spell : Spell), Config.ofText text = .ok config → chapter.cast config name p = .ok outcome →
        chapter.spells.get? name = some spell → (outcome.succeeded ↔ spell.threshold < outcome.power) := by
  intro hall
  have hfacts : ((Config.ofText (voidOf "NaN")).toOption.bind fun config =>
      (Chapter.ofText crypt).toOption.bind fun chapter =>
        (chapter.cast config "hex" .fresh).toOption.bind fun outcome =>
          (chapter.spells.get? "hex").map fun spell =>
            (outcome.succeeded, decide (spell.threshold < outcome.power))) = some (true, false) := by
    decide +kernel
  simp only [Option.bind_eq_some_iff, Option.map_eq_some_iff, toOption_eq_some_iff, Prod.mk.injEq,
    decide_eq_false_iff_not] at hfacts
  obtain ⟨config, hconfig, chapter, -, outcome, houtcome, spell, hspell, hsucceeded, hnot⟩ := hfacts
  exact hnot ((hall _ config chapter "hex" .fresh outcome spell hconfig houtcome hspell).mp hsucceeded)

end Chapter

end Narrative
