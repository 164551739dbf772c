import Narrative.Proofs.Deed
import Narrative.Proofs.Effect.Outcome

/-!
This module contains what a cast may touch. Only stats change, and only those that the player has. The effects of the
spell take place in turn, so a faction judges the progress that the effects before its reaction have left.
-/

namespace Narrative

namespace Player

variable {p q r : Player}

/--
Nothing but the values of stats differs.
-/
structure OnlyStats (p q : Player) : Prop where
  currentChapter_eq : q.currentChapter = p.currentChapter
  inventory_eq : q.inventory = p.inventory
  revealed_eq : q.revealed = p.revealed
  endings_eq : q.endings = p.endings
  statuses_eq : q.statuses = p.statuses
  hasStat_eq : ∀ name, q.hasStat name = p.hasStat name

theorem OnlyStats.refl (p : Player) : p.OnlyStats p :=
  ⟨rfl, rfl, rfl, rfl, rfl, fun _ => rfl⟩

theorem OnlyStats.trans (hpq : p.OnlyStats q) (hqr : q.OnlyStats r) : p.OnlyStats r where
  currentChapter_eq := hqr.currentChapter_eq.trans hpq.currentChapter_eq
  inventory_eq := hqr.inventory_eq.trans hpq.inventory_eq
  revealed_eq := hqr.revealed_eq.trans hpq.revealed_eq
  endings_eq := hqr.endings_eq.trans hpq.endings_eq
  statuses_eq := hqr.statuses_eq.trans hpq.statuses_eq
  hasStat_eq name := (hqr.hasStat_eq name).trans (hpq.hasStat_eq name)

theorem OnlyStats.eq_of_stats_eq (hq : p.OnlyStats q) (hr : p.OnlyStats r) (h : q.stats = r.stats) : q = r := by
  ext1
  · rw [hq.currentChapter_eq, hr.currentChapter_eq]
  · rw [hq.inventory_eq, hr.inventory_eq]
  · rw [hq.revealed_eq, hr.revealed_eq]
  · rw [hq.endings_eq, hr.endings_eq]
  · rw [hq.statuses_eq, hr.statuses_eq]
  · exact h

theorem OnlyStats.get?_eq_none {name : String} (h : p.OnlyStats q) (hmissing : p.stats.get? name = none) :
    q.stats.get? name = none := by
  have hhas := h.hasStat_eq name
  unfold hasStat Table.contains at hhas
  rw [hmissing] at hhas
  exact Option.isNone_iff_eq_none.mp (Option.isSome_eq_false_iff.mp hhas)

theorem onlyStats_adjust (p : Player) (name : String) (delta : Int64) : p.OnlyStats (p.adjust name delta) := by
  have hasStat_eq := p.hasStat_adjust name delta
  unfold adjust at hasStat_eq ⊢
  split at hasStat_eq
  · exact ⟨rfl, rfl, rfl, rfl, rfl, hasStat_eq⟩
  · exact .refl p

/--
A stat is moved by an amount: to the value of its range nearest to the exact sum, if the player has the stat.
-/
structure Moves (p : Player) (name : String) (delta : Int64) (q : Player) : Prop where
  onlyStats : p.OnlyStats q
  moved : ∀ held, p.stats.get? name = some held → ∃ n, q.stats.get? name = some n ∧
    n.toInt = (StatRange.ofStat name).nearest (held.toInt + delta.toInt)
  others : ∀ other, other ≠ name → q.stats.get? other = p.stats.get? other

theorem moves_adjust (p : Player) (name : String) (delta : Int64) : p.Moves name delta (p.adjust name delta) where
  onlyStats := p.onlyStats_adjust name delta
  moved held hheld := by
    refine ⟨_, ?_, (StatRange.ofStat name).toInt_clamp_saturatingAdd held delta⟩
    rw [Effect.get?_adjust, hheld, if_pos rfl]
    rfl
  others other hother := by
    rw [Effect.get?_adjust, if_neg hother, Effect.map_moved_none]

theorem Moves.unique {name : String} {delta : Int64} (hq : p.Moves name delta q) (hr : p.Moves name delta r) :
    q = r := by
  apply hq.onlyStats.eq_of_stats_eq hr.onlyStats
  ext1 other
  by_cases hother : other = name
  · subst hother
    cases hheld : p.stats.get? other with
    | none => rw [hq.onlyStats.get?_eq_none hheld, hr.onlyStats.get?_eq_none hheld]
    | some held =>
      obtain ⟨n, hn, hvalue⟩ := hq.moved held hheld
      obtain ⟨m, hm, hvalue'⟩ := hr.moved held hheld
      rw [hn, hm, Int64.toInt_inj.mp (hvalue.trans hvalue'.symm)]
  · rw [hq.others other hother, hr.others other hother]

theorem moves_iff {name : String} {delta : Int64} : p.Moves name delta q ↔ q = p.adjust name delta := by
  constructor
  · exact fun h => h.unique (p.moves_adjust name delta)
  · rintro rfl
    exact p.moves_adjust name delta

/--
Steps are taken one after the other, each on the progress that the one before has left.
-/
inductive InTurn {α : Type} (step : α → Player → Player → Prop) : List α → Player → Player → Prop where
  | nil (p : Player) : InTurn step [] p p
  | cons {a : α} {rest : List α} {p q r : Player} (hstep : step a p q) (hrest : InTurn step rest q r) :
      InTurn step (a :: rest) p r

/--
Steps that always have one outcome are taken in turn by a fold.
-/
theorem inTurn_iff {α : Type} {step : α → Player → Player → Prop} {f : Player → α → Player}
    (h : ∀ a p q, step a p q ↔ q = f p a) {l : List α} : InTurn step l p q ↔ q = l.foldl f p := by
  induction l generalizing p with
  | nil =>
    constructor
    · rintro ⟨⟩
      rfl
    · rintro rfl
      exact .nil _
  | cons a rest ih =>
    rw [List.foldl_cons]
    constructor
    · rintro ⟨⟩
      next hstep hrest =>
        rw [← (h a _ _).mp hstep]
        exact ih.mp hrest
    · intro hq
      exact .cons ((h a _ _).mpr rfl) (ih.mpr hq)

theorem InTurn.onlyStats {α : Type} {step : α → Player → Player → Prop} {l : List α}
    (h : InTurn step l p q) (hstep : ∀ a p q, step a p q → p.OnlyStats q) : p.OnlyStats q := by
  induction h with
  | nil p => exact .refl p
  | cons h _ ih => exact (hstep _ _ _ h).trans ih

end Player

namespace FactionResponse

/--
What a response does. One that is not recognized does nothing.
-/
inductive Does : FactionResponse → Player → Player → Prop where
  | sendZealots {p q : Player} (h : p.Moves "church_hostility" 10 q) : Does .sendZealots p q
  | burnForest {p q : Player} (h : p.Moves "lira_trust" (-5) q) : Does .burnForest p q
  | unrecognized (token : String) (p : Player) : Does (.unrecognized token) p p

theorem does_iff (response : FactionResponse) (p q : Player) : response.Does p q ↔ q = apply p response := by
  constructor
  · intro h
    cases h with
    | sendZealots h | burnForest h => exact Player.moves_iff.mp h
    | unrecognized => rfl
  · rintro rfl
    cases response with
    | sendZealots => exact .sendZealots (p.moves_adjust _ _)
    | burnForest => exact .burnForest (p.moves_adjust _ _)
    | unrecognized token => exact .unrecognized token p

theorem Does.onlyStats {response : FactionResponse} {p q : Player} (h : response.Does p q) : p.OnlyStats q := by
  cases h with
  | sendZealots h | burnForest h => exact h.onlyStats
  | unrecognized => exact .refl p

end FactionResponse

/--
What an effect of a spell does. A faction reacts, with its responses in turn, if the condition of its strategy holds in
the progress before the effect. An effect of a further kind does nothing.
-/
inductive SpellEffect.Does (chapter : Chapter) : SpellEffect → Player → Player → Prop where
  | statChange {stat : String} {delta : Int64} {p q : Player} (h : p.Moves stat delta q) :
      Does chapter (.statChange stat delta) p q
  | reaction {faction : String} {action : Option String} {strategy : Strategy} {p q : Player}
      (hstrategy : chapter.strategy? faction = some strategy)
      (hholds : strategy.condition.holds (strategyBindings p) p)
      (hresponses : Player.InTurn FactionResponse.Does strategy.responses p q) :
      Does chapter (.factionReaction faction action) p q
  | indifference {faction : String} {action : Option String} {p : Player}
      (h : ∀ strategy, chapter.strategy? faction = some strategy →
        ¬strategy.condition.holds (strategyBindings p) p) :
      Does chapter (.factionReaction faction action) p p
  | unknown (p : Player) : Does chapter .unknown p p

namespace Chapter

section

variable {chapter : Chapter} {faction : String} {p : Player}

theorem applySpellEffect_of_holds {strategy : Strategy} (hstrategy : chapter.strategy? faction = some strategy)
    (hholds : strategy.condition.holds (strategyBindings p) p) (action : Option String) :
    chapter.applySpellEffect p (.factionReaction faction action) =
      strategy.responses.foldl FactionResponse.apply p := by
  unfold applySpellEffect provoke? Strategy.react?
  dsimp only
  rw [hstrategy, Option.bind_some, if_pos hholds, Option.getD_some]

theorem applySpellEffect_of_not_holds
    (h : ∀ strategy, chapter.strategy? faction = some strategy → ¬strategy.condition.holds (strategyBindings p) p)
    (action : Option String) : chapter.applySpellEffect p (.factionReaction faction action) = p := by
  unfold applySpellEffect provoke? Strategy.react?
  dsimp only
  cases hstrategy : chapter.strategy? faction with
  | none => rfl
  | some strategy => rw [Option.bind_some, if_neg (h strategy hstrategy), Option.getD_none]

end

theorem does_applySpellEffect (chapter : Chapter) (p : Player) (e : SpellEffect) :
    e.Does chapter p (chapter.applySpellEffect p e) := by
  cases e with
  | statChange stat delta => exact .statChange (p.moves_adjust stat delta)
  | factionReaction faction action =>
    by_cases h : ∃ strategy, chapter.strategy? faction = some strategy ∧
        strategy.condition.holds (strategyBindings p) p
    · obtain ⟨strategy, hstrategy, hholds⟩ := h
      rw [applySpellEffect_of_holds hstrategy hholds]
      exact .reaction hstrategy hholds ((Player.inTurn_iff FactionResponse.does_iff).mpr rfl)
    · have hnot := fun strategy hstrategy hholds => h ⟨strategy, hstrategy, hholds⟩
      rw [applySpellEffect_of_not_holds hnot]
      exact .indifference hnot
  | unknown => exact .unknown p

/--
An effect has one outcome.
-/
theorem does_iff {chapter : Chapter} (e : SpellEffect) (p q : Player) :
    e.Does chapter p q ↔ q = chapter.applySpellEffect p e := by
  constructor
  · intro h
    cases h with
    | statChange h => exact Player.moves_iff.mp h
    | reaction hstrategy hholds hresponses =>
      rw [applySpellEffect_of_holds hstrategy hholds]
      exact (Player.inTurn_iff FactionResponse.does_iff).mp hresponses
    | indifference h => exact (applySpellEffect_of_not_holds h _).symm
    | unknown => rfl
  · rintro rfl
    exact does_applySpellEffect chapter p e

theorem onlyStats_of_does {chapter : Chapter} {e : SpellEffect} {p q : Player} (h : e.Does chapter p q) :
    p.OnlyStats q := by
  cases h with
  | statChange h => exact h.onlyStats
  | reaction _ _ hresponses => exact hresponses.onlyStats fun _ _ _ => FactionResponse.Does.onlyStats
  | indifference | unknown => exact .refl p

/--
The progress after a cast. A cast that is refused leaves it as it is.
-/
def afterCast (chapter : Chapter) (config : Config) (name : String) (p : Player) : Player :=
  match chapter.cast config name p with
  | .ok outcome => outcome.player
  | .error _ => p

section

variable {chapter : Chapter} {config : Config} {name : String} {p : Player}

theorem afterCast_of_failed
    (h : ∀ outcome, chapter.cast config name p = .ok outcome → outcome.succeeded = false) :
    chapter.afterCast config name p = p := by
  unfold afterCast
  cases houtcome : chapter.cast config name p with
  | error e => rfl
  | ok outcome =>
    obtain ⟨_, _, _, _, _, _, hplayer⟩ := cast_of_ok houtcome
    rw [h outcome houtcome] at hplayer
    exact hplayer

theorem inTurn_afterCast {outcome : CastOutcome} (h : chapter.cast config name p = .ok outcome)
    (hsucceeded : outcome.succeeded = true) :
    ∃ spell, chapter.spells.get? name = some spell ∧
      ∀ q, Player.InTurn (SpellEffect.Does chapter) spell.effects p q ↔ q = chapter.afterCast config name p := by
  obtain ⟨spell, _, hspell, _, _, _, hplayer⟩ := cast_of_ok h
  rw [hsucceeded, if_pos rfl] at hplayer
  refine ⟨spell, hspell, fun q => ?_⟩
  rw [afterCast, h]
  dsimp only
  rw [hplayer]
  exact Player.inTurn_iff does_iff

end

/--
What a cast may touch. One that is refused or fails changes nothing, and one that succeeds has the effects of the spell
in turn. Other than the values of stats nothing is ever changed.
-/
structure CastTouches (chapter : Chapter) (config : Config) (name : String) (p : Player) : Prop where
  onlyStats : p.OnlyStats (chapter.afterCast config name p)
  failed : (∀ outcome, chapter.cast config name p = .ok outcome → outcome.succeeded = false) →
    chapter.afterCast config name p = p
  succeeded : ∀ outcome, chapter.cast config name p = .ok outcome → outcome.succeeded = true →
    ∃ spell, chapter.spells.get? name = some spell ∧
      ∀ q, Player.InTurn (SpellEffect.Does chapter) spell.effects p q ↔ q = chapter.afterCast config name p

theorem castTouches (chapter : Chapter) (config : Config) (name : String) (p : Player) :
    chapter.CastTouches config name p where
  onlyStats := by
    by_cases h : ∃ outcome, chapter.cast config name p = .ok outcome ∧ outcome.succeeded = true
    · obtain ⟨outcome, houtcome, hsucceeded⟩ := h
      obtain ⟨spell, _, hturn⟩ := inTurn_afterCast houtcome hsucceeded
      exact ((hturn _).mpr rfl).onlyStats fun _ _ _ => onlyStats_of_does
    · rw [afterCast_of_failed]
      · exact .refl p
      · exact fun outcome houtcome => Bool.eq_false_iff.mpr fun hsucceeded => h ⟨outcome, houtcome, hsucceeded⟩
  failed := afterCast_of_failed
  succeeded _ := inTurn_afterCast

end Chapter

end Narrative
