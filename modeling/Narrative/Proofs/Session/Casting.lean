import Narrative.Proofs.Session.Rejection

/-!
This module contains when spells take hold. Their power alone decides that: what a spell requires is shown where the
spells are listed, and a player who casts it all the same is not stopped.
-/

namespace Narrative

/--
Whether a spell is strong enough: it has a ley line, and the power is not at most the threshold.
-/
def Spell.Overpowers (spell : Spell) (config : Config) (p : Player) : Prop :=
  ∃ line, config.leyLines.get? spell.element = some line ∧
    ¬line.strength * Decimal.ofInt (p.stat spell.skill).toInt ≤ spell.threshold

namespace Chapter

variable {chapter : Chapter} {config : Config} {name : String} {p : Player}

theorem succeeded_cast_iff :
    (∃ outcome, chapter.cast config name p = .ok outcome ∧ outcome.succeeded = true) ↔
      ∃ spell, chapter.spells.get? name = some spell ∧ spell.Overpowers config p := by
  unfold cast Spell.Overpowers
  cases chapter.spells.get? name with
  | none => simp
  | some spell =>
    cases hline : config.leyLines.get? spell.element with
    | none => simp [hline]
    | some line =>
      by_cases hweak : line.strength * Decimal.ofInt (p.stat spell.skill).toInt ≤ spell.threshold
      · simp [hline, hweak]
      · simp [hline, hweak]

/--
A spell of the chapter is listed once, with whether its requirement is met.
-/
theorem filter_spellOptions {spell : Spell} (h : chapter.spells.get? name = some spell) :
    (chapter.spellOptions p).filter (·.key == name) =
      [⟨name, spell.name.getD name, spell.requires.met p⟩] := by
  unfold spellOptions
  have hentries := Table.filter_of_lookup chapter.spells.sorted h
  rw [List.filter_map]
  unfold Function.comp
  rw [hentries]
  rfl

end Chapter

namespace Session

variable {s : Session}

theorem answer_cast_iff {name : String} : (s.cast name).answer = true ↔
    s.pending = none ∧ ∃ chapter outcome, s.chapter = some chapter ∧
      chapter.cast s.config name s.player = .ok outcome ∧ outcome.succeeded = true := by
  unfold cast
  cases s.pending with
  | some request => simp [cast.refuse]
  | none =>
    cases s.chapter with
    | none => simp [cast.refuse]
    | some chapter =>
      cases houtcome : chapter.cast s.config name s.player with
      | error e => simp [cast.refuse, houtcome]
      | ok outcome =>
        cases hsucceeded : outcome.succeeded with
        | false => simp [houtcome, hsucceeded]
        | true => cases hactive : s.active <;> simp [houtcome, hsucceeded]

/--
What a cast comes to. It succeeds just when nothing is loading and the spell of the presented chapter is strong enough;
then the spell is listed, whether or not as available. A cast that does not succeed changes nothing.
-/
structure CastsByPower (s : Session) (name : String) : Prop where
  answer_iff : (s.cast name).answer = true ↔
    s.pending = none ∧ ∃ chapter spell, s.chapter = some chapter ∧
      chapter.spells.get? name = some spell ∧ spell.Overpowers s.config s.player
  listed : (s.cast name).answer = true →
    ∃ chapter spell, s.chapter = some chapter ∧ chapter.spells.get? name = some spell ∧
      s.spellOptions.filter (·.key == name) =
        [⟨name, spell.name.getD name, spell.requires.met s.player⟩]
  unchanged : (s.cast name).answer = false → (s.cast name).session = s

theorem castsByPower (s : Session) (name : String) : s.CastsByPower name := by
  have hiff : (s.cast name).answer = true ↔
      s.pending = none ∧ ∃ chapter spell, s.chapter = some chapter ∧
        chapter.spells.get? name = some spell ∧ spell.Overpowers s.config s.player := by
    rw [answer_cast_iff]
    constructor
    · rintro ⟨hpending, chapter, outcome, hchapter, hcast⟩
      obtain ⟨spell, hspell, hpower⟩ := Chapter.succeeded_cast_iff.mp ⟨outcome, hcast⟩
      exact ⟨hpending, chapter, spell, hchapter, hspell, hpower⟩
    · rintro ⟨hpending, chapter, spell, hchapter, hspell, hpower⟩
      obtain ⟨outcome, hcast⟩ := Chapter.succeeded_cast_iff.mpr ⟨spell, hspell, hpower⟩
      exact ⟨hpending, chapter, outcome, hchapter, hcast⟩
  refine ⟨hiff, ?_, cast_failed⟩
  intro h
  obtain ⟨_, chapter, spell, hchapter, hspell, _⟩ := hiff.mp h
  refine ⟨chapter, spell, hchapter, hspell, ?_⟩
  unfold spellOptions
  rw [hchapter]
  exact Chapter.filter_spellOptions hspell

/--
In every session that calls can lead to, a spell takes hold by its power, if nothing is loading.
-/
theorem castsByPower_run (config : Config) (source : Option ContentSource) (player : Option Player)
    (calls : List Call) (name : String) :
    ((Session.new config source player).run calls).CastsByPower name :=
  castsByPower _ name

/--
A chapter with a spell that requires what nobody starts with.
-/
def altar : String :=
  "\x7b\"id\": \"altar\", \"text\": \"Cold stone.\", \"background\": \"crypt\", \"spells\": \x7b\"rite\": \x7b" ++
    "\"element\": \"blood\", \"skill\": \"willpower\", \"threshold\": 1, " ++
    "\"requires\": \x7b\"inventory\": \"dagger\"\x7d, \"effects\": [\x7b" ++
    "\"type\": \"stat_change\", \"target\": \"gold\", \"value\": 5\x7d]\x7d\x7d\x7d"

theorem not_available_altar :
    ¬∀ (config : Config) (source : Option ContentSource) (player : Option Player) (calls : List Call)
      (name : String), (((Session.new config source player).run calls).cast name).answer = true →
        ∃ option ∈ ((Session.new config source player).run calls).spellOptions,
          option.key = name ∧ option.available = true := by
  intro hall
  have hfacts : ∀ s, s = (Session.new .builtin none none).run [.beginLoad "altar", .completeLoad altar] →
      (s.cast "rite").answer = true ∧ s.spellOptions = [⟨"rite", "rite", false⟩] := by
    rintro s rfl
    decide +kernel
  obtain ⟨hanswer, hoptions⟩ := hfacts _ rfl
  obtain ⟨option, hmem, _, havailable⟩ := hall .builtin none none _ "rite" hanswer
  rw [hoptions, List.mem_singleton] at hmem
  rw [hmem] at havailable
  cases havailable

end Session

end Narrative
