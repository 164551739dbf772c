import Narrative.Content.Basic
import Narrative.Magic
import Narrative.Proofs.Reaction
import Narrative.Resolve

/-!
This module contains what a playthrough does to the player's progress, taken apart from the session in which
it happens: choices are carried out, documents are reached, spells are cast. The lemmas say that resolving a
choice, unlocking an ending and casting a spell do just that.
-/

namespace Narrative

/--
The chapter that a choice reveals: the one it names, unless it leads somewhere else.
-/
def Choice.revealed? (choice : Choice) : Option String :=
  match choice.next with
  | none => choice.reveal
  | some next => if next = revealMark then choice.reveal else none

def Successor.revealed? : Successor → Option String
  | .reveal id => some id
  | _ => none

inductive Deed where
  | take (chapter : Chapter) (choice : Choice)
  | reach (id : String)
  | cast (chapter : Chapter) (spell : Spell)

/--
The progress after a deed. A choice has its effects, then its reveal, then the effects of the interactions
that answer it; a document that is reached becomes the current one, and an ending, known by the start of its id,
is recorded when it is reached first; a spell has its effects.
-/
def Deed.apply (p : Player) : Deed → Player
  | .take chapter choice =>
    let changed := Effect.applyAll choice.effects p
    let revealed :=
      match choice.revealed? with
      | some id => changed.reveal id
      | none => changed
    Effect.applyAll (chapter.answers choice) revealed
  | .reach id =>
    { p with
      currentChapter := id
      endings :=
        if "ending_".toList <+: id.toList ∧ ¬p.isUnlocked id then p.endings ++ [id] else p.endings }
  | .cast chapter spell => spell.effects.foldl chapter.applySpellEffect p

theorem Choice.revealed?_of_ok {choice : Choice} {successor : Successor}
    (h : choice.successor = .ok successor) :
    choice.revealed? = successor.revealed? := by
  cases hnext : choice.next with
  | none =>
    cases hreveal : choice.reveal with
    | none => simp [Choice.successor, hnext, hreveal] at h
    | some target =>
      simp only [Choice.successor, hnext, hreveal] at h
      cases h
      simp [Choice.revealed?, Successor.revealed?, hnext, hreveal]
  | some next =>
    by_cases hmark : next = revealMark
    · cases hreveal : choice.reveal with
      | none => simp [Choice.successor, hnext, hreveal, hmark] at h
      | some target =>
        simp only [Choice.successor, hnext, hreveal, hmark, if_true] at h
        cases h
        simp [Choice.revealed?, Successor.revealed?, hnext, hreveal, hmark]
    · simp only [Choice.successor, hnext, hmark, if_false] at h
      cases h
      simp only [Choice.revealed?, hnext, hmark, if_false]
      unfold Successor.ofId
      split <;> rfl

theorem Choice.resolve_of_error {choice : Choice} {e : ResolveError} (p : Player)
    (h : choice.successor = .error e) : choice.resolve p = .error e := by
  unfold Choice.resolve
  rw [h]

theorem Choice.resolve_of_ok {choice : Choice} {successor : Successor} (p : Player)
    (h : choice.successor = .ok successor) :
    ∃ resolution, choice.resolve p = .ok resolution ∧ resolution.successor = successor ∧
      ∀ chapter : Chapter, Effect.applyAll (chapter.reactionEffects choice) resolution.player =
        Deed.apply p (.take chapter choice) := by
  unfold Choice.resolve
  rw [h]
  refine ⟨_, rfl, rfl, ?_⟩
  intro chapter
  simp only [Deed.apply, revealed?_of_ok h, Chapter.reactionEffects_eq_answers]
  cases successor <;> rfl

theorem Choice.resolve_eq_error_iff {choice : Choice} {p : Player} {e : ResolveError} :
    choice.resolve p = .error e ↔ choice.successor = .error e := by
  constructor
  · intro h
    unfold Choice.resolve at h
    split at h
    · next hsuccessor =>
      cases h
      exact hsuccessor
    · cases h
  · exact resolve_of_error p

/--
A choice that is carried out has its effects, and then its reveal; the entries that are no effects are skipped.
-/
theorem Choice.of_resolve {choice : Choice} {p : Player} {resolution : Resolution}
    (h : choice.resolve p = .ok resolution) :
    choice.successor = .ok resolution.successor ∧
      resolution.player =
        (match resolution.successor.revealed? with
        | some id => (Effect.applyAll choice.effects p).reveal id
        | none => Effect.applyAll choice.effects p) ∧
      resolution.skipped = Effect.skipped choice.effects := by
  unfold Choice.resolve at h
  split at h
  · cases h
  · next successor hsuccessor =>
    cases h
    refine ⟨hsuccessor, ?_, rfl⟩
    cases successor <;> rfl

theorem isEndingId_iff {id : String} : isEndingId id ↔ "ending_".toList <+: id.toList := by
  unfold isEndingId Text.startsIn endingMark
  exact List.isPrefixOf_iff_prefix

theorem ContentKind.ofId_eq_chapter {id : String} :
    ContentKind.ofId id = .chapter ↔ ¬"ending_".toList <+: id.toList := by
  unfold ContentKind.ofId
  rw [← isEndingId_iff]
  split <;> simp_all

theorem ContentKind.ofId_eq_ending {id : String} :
    ContentKind.ofId id = .ending ↔ "ending_".toList <+: id.toList := by
  unfold ContentKind.ofId
  rw [← isEndingId_iff]
  split <;> simp_all

theorem Deed.apply_reach_chapter (p : Player) {id : String} (h : ContentKind.ofId id = .chapter) :
    Deed.apply p (.reach id) = { p with currentChapter := id } := by
  rw [ContentKind.ofId_eq_chapter] at h
  unfold Deed.apply
  dsimp only
  rw [if_neg (fun hboth => h hboth.1)]

theorem Deed.apply_reach_ending (p : Player) {id : String} (h : ContentKind.ofId id = .ending) :
    Deed.apply p (.reach id) = { p.unlockEnding id with currentChapter := id } := by
  rw [ContentKind.ofId_eq_ending] at h
  unfold Deed.apply Player.unlockEnding Player.appendNew Player.isUnlocked
  dsimp only
  by_cases hheld : p.endings.contains id
  · rw [if_pos hheld, if_neg (fun hboth => hboth.2 hheld)]
  · rw [if_neg hheld, if_pos ⟨h, hheld⟩]

/--
A cast that is not refused finds its spell and the ley line of the spell, and compares the power with the threshold.
-/
theorem Chapter.cast_of_ok {chapter : Chapter} {config : Config} {name : String} {p : Player}
    {outcome : CastOutcome} (h : chapter.cast config name p = .ok outcome) :
    ∃ spell line, chapter.spells.get? name = some spell ∧ config.leyLines.get? spell.element = some line ∧
      outcome.power = line.strength * Decimal.ofInt (p.stat spell.skill).toInt ∧
      (outcome.succeeded ↔ ¬outcome.power ≤ spell.threshold) ∧
      outcome.player = if outcome.succeeded then Deed.apply p (.cast chapter spell) else p := by
  unfold Chapter.cast at h
  split at h
  · cases h
  · next spell hspell =>
    split at h
    · cases h
    · next line hline =>
      refine ⟨spell, line, hspell, hline, ?_⟩
      dsimp only at h
      split at h
      · next hweak =>
        cases h
        exact ⟨rfl, by simpa using hweak, rfl⟩
      · next hstrong =>
        cases h
        exact ⟨rfl, by simpa using hstrong, rfl⟩

end Narrative
