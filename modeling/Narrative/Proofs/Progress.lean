import Narrative.Config.Basic
import Narrative.Proofs.Deed

/-!
This module contains what keeps the player's progress in order. Whatever is done changes stats only within their
ranges, keeps lists free of repetitions, takes no stat away and adds none, and never takes back an ending.
-/

namespace Narrative

theorem Table.forall_insert {α : Type} {P : String → α → Prop} {t : Table α} {name : String} {value : α}
    (h : ∀ other held, t.get? other = some held → P other held) (hvalue : P name value) :
    ∀ other held, (t.insert name value).get? other = some held → P other held := by
  intro other held hheld
  rw [get?_insert] at hheld
  split at hheld
  · next hother =>
    cases hheld
    rw [hother]
    exact hvalue
  · exact h other held hheld

theorem Table.forall_ofList {α : Type} {P : String → α → Prop} {entries : List (String × α)}
    (h : ∀ entry ∈ entries, P entry.1 entry.2) :
    ∀ name value, (ofList entries).get? name = some value → P name value := by
  unfold ofList
  have hempty : ∀ name value, (empty : Table α).get? name = some value → P name value := nofun
  generalize (empty : Table α) = t at hempty ⊢
  induction entries generalizing t with
  | nil => exact hempty
  | cons entry rest ih =>
    apply ih
    · intro other hother
      exact h other (List.mem_cons_of_mem _ hother)
    · exact forall_insert hempty (h entry List.mem_cons_self)

namespace StatRange

variable {range : StatRange} {name : String} {value : Int64}

def Contains (range : StatRange) (value : Int64) : Prop :=
  range.least ≤ value ∧ ∀ greatest, range.greatest = some greatest → value ≤ greatest

theorem contains_ofStat :
    (ofStat name).Contains value ↔ 0 ≤ value ∧ (name = "health" → value ≤ 100) ∧
      (name = "sanity" ∨ name = "fate" → value ≤ 10) := by
  unfold ofStat Contains
  split
  · next hname =>
    subst hname
    simp
  · next hname =>
    split
    · next hgauge => simp [hname, hgauge]
    · next hgauge => simp [hname, hgauge]

theorem least_le_max (least value : Int64) : least ≤ max value least := by
  show least ≤ if value ≤ least then least else value
  split
  · exact Int64.le_rfl
  · next hvalue => exact Std.le_of_not_ge hvalue

theorem contains_clamp (value : Int64)
    (h : ∀ greatest, range.greatest = some greatest → range.least ≤ greatest) :
    range.Contains (range.clamp value) := by
  have hfloored := least_le_max range.least value
  unfold clamp Contains
  cases hgreatest : range.greatest with
  | none => exact ⟨hfloored, nofun⟩
  | some greatest =>
    refine ⟨Std.le_min_iff.mpr ⟨hfloored, h greatest hgreatest⟩, ?_⟩
    intro bound hbound
    cases hbound
    exact Std.min_le_right

theorem least_le_greatest (name : String) :
    ∀ greatest, (ofStat name).greatest = some greatest → (ofStat name).least ≤ greatest := by
  unfold ofStat
  split
  · rintro _ ⟨⟩
    decide
  · split
    · rintro _ ⟨⟩
      decide
    · nofun

end StatRange

namespace Player

variable {p q r : Player}

theorem nodup_appendNew {entries : List String} (h : entries.Nodup) (entry : String) :
    (appendNew entries entry).Nodup := by
  unfold appendNew
  split
  · exact h
  · next hnew =>
    rw [List.contains_iff_mem] at hnew
    rw [List.nodup_append]
    refine ⟨h, List.pairwise_singleton _ entry, ?_⟩
    rintro a ha b hb rfl
    rw [List.mem_singleton] at hb
    subst hb
    exact hnew ha

theorem prefix_appendNew (entries : List String) (entry : String) :
    entries <+: appendNew entries entry := by
  unfold appendNew
  split
  · exact List.prefix_rfl
  · exact List.prefix_append entries [entry]

structure WellFormed (p : Player) : Prop where
  inRange : ∀ name value, p.stats.get? name = some value → (StatRange.ofStat name).Contains value
  inventory : p.inventory.Nodup
  revealed : p.revealed.Nodup
  endings : p.endings.Nodup

theorem WellFormed.setStat (h : p.WellFormed) (name : String) (value : Int64) :
    (p.setStat name value).WellFormed := by
  have hclamp := StatRange.contains_clamp value (StatRange.least_le_greatest name)
  exact { h with inRange := Table.forall_insert h.inRange hclamp }

/--
Progress that only differs in what every deed may change: it is as well formed as before, and has the same stats
and the same endings.
-/
structure Changes (p q : Player) : Prop where
  wellFormed : p.WellFormed → q.WellFormed
  hasStat_eq : ∀ name, q.hasStat name = p.hasStat name
  endings_eq : q.endings = p.endings

namespace Changes

theorem refl (p : Player) : p.Changes p := ⟨id, fun _ => rfl, rfl⟩

theorem trans (hpq : p.Changes q) (hqr : q.Changes r) : p.Changes r where
  wellFormed := fun h => hqr.wellFormed (hpq.wellFormed h)
  hasStat_eq := fun name => by rw [hqr.hasStat_eq, hpq.hasStat_eq]
  endings_eq := by rw [hqr.endings_eq, hpq.endings_eq]

theorem foldl {α : Type} {step : Player → α → Player} (hstep : ∀ p a, Changes p (step p a))
    (l : List α) (p : Player) : p.Changes (l.foldl step p) := by
  induction l generalizing p with
  | nil => exact refl p
  | cons a rest ih => exact (hstep p a).trans (ih (step p a))

theorem adjust (p : Player) (name : String) (delta : Int64) : p.Changes (p.adjust name delta) where
  wellFormed := by
    intro h
    unfold Player.adjust
    split
    · exact h.setStat name _
    · exact h
  hasStat_eq := p.hasStat_adjust name delta
  endings_eq := by
    unfold Player.adjust
    split <;> rfl

theorem setStatus (p : Player) (key value : String) : p.Changes (p.setStatus key value) where
  wellFormed := fun h => ⟨h.inRange, h.inventory, h.revealed, h.endings⟩
  hasStat_eq := fun _ => rfl
  endings_eq := rfl

theorem addItems (p : Player) (items : List String) : p.Changes (p.addItems items) where
  wellFormed := by
    intro h
    refine { h with inventory := ?_ }
    unfold Player.addItems
    dsimp only
    have hinventory := h.inventory
    generalize p.inventory = held at hinventory ⊢
    induction items generalizing held with
    | nil => exact hinventory
    | cons item rest ih => exact ih _ (nodup_appendNew hinventory item)
  hasStat_eq := fun _ => rfl
  endings_eq := rfl

theorem removeItems (p : Player) (items : List String) : p.Changes (p.removeItems items) where
  wellFormed := fun h => { h with inventory := h.inventory.filter _ }
  hasStat_eq := fun _ => rfl
  endings_eq := rfl

theorem reveal (p : Player) (chapter : String) : p.Changes (p.reveal chapter) where
  wellFormed := fun h => { h with revealed := nodup_appendNew h.revealed chapter }
  hasStat_eq := fun _ => rfl
  endings_eq := rfl

theorem effect (p : Player) (effect : Effect) : p.Changes (effect.apply p) := by
  cases effect with
  | adjust stat delta => exact adjust p stat delta
  | addItems items => exact addItems p items
  | removeItems items => exact removeItems p items
  | setStatus key value => exact setStatus p key value
  | invalid key reason => exact refl p

theorem applyAll (effects : List Effect) (p : Player) : p.Changes (Effect.applyAll effects p) :=
  foldl effect effects p

theorem response (p : Player) (response : FactionResponse) : p.Changes (response.apply p) := by
  cases response with
  | sendZealots => exact adjust p _ _
  | burnForest => exact adjust p _ _
  | unrecognized token => exact refl p

theorem spellEffect (chapter : Chapter) (p : Player) (effect : SpellEffect) :
    p.Changes (chapter.applySpellEffect p effect) := by
  cases effect with
  | statChange stat delta => exact adjust p stat delta
  | unknown => exact refl p
  | factionReaction faction action =>
    unfold Chapter.applySpellEffect Chapter.provoke?
    dsimp only
    cases chapter.strategy? faction with
    | none => exact refl p
    | some strategy =>
      rw [Option.bind_some]
      unfold Strategy.react?
      split
      · exact foldl response strategy.responses p
      · exact refl p

theorem take (p : Player) (chapter : Chapter) (choice : Choice) :
    p.Changes (Deed.apply p (.take chapter choice)) := by
  unfold Deed.apply
  dsimp only
  have hchanged := applyAll choice.effects p
  cases choice.revealed? with
  | none => exact hchanged.trans (applyAll _ _)
  | some id => exact (hchanged.trans (reveal _ id)).trans (applyAll _ _)

theorem cast (p : Player) (chapter : Chapter) (spell : Spell) :
    p.Changes (Deed.apply p (.cast chapter spell)) :=
  foldl (spellEffect chapter) spell.effects p

end Changes

/--
Progress that may come of other progress: as well formed, with the same stats, and with all endings still there.
-/
structure Onward (p q : Player) : Prop where
  wellFormed : p.WellFormed → q.WellFormed
  hasStat_eq : ∀ name, q.hasStat name = p.hasStat name
  endings_prefix : p.endings <+: q.endings

theorem Changes.onward (h : p.Changes q) : p.Onward q where
  wellFormed := h.wellFormed
  hasStat_eq := h.hasStat_eq
  endings_prefix := ⟨[], by rw [List.append_nil, h.endings_eq]⟩

namespace Onward

theorem refl (p : Player) : p.Onward p := (Changes.refl p).onward

theorem trans (hpq : p.Onward q) (hqr : q.Onward r) : p.Onward r where
  wellFormed := fun h => hqr.wellFormed (hpq.wellFormed h)
  hasStat_eq := fun name => by rw [hqr.hasStat_eq, hpq.hasStat_eq]
  endings_prefix := hpq.endings_prefix.trans hqr.endings_prefix

theorem reach (p : Player) (id : String) : p.Onward (Deed.apply p (.reach id)) := by
  cases hkind : ContentKind.ofId id with
  | ending =>
    rw [Deed.apply_reach_ending p hkind]
    exact {
      wellFormed := fun h => { h with endings := nodup_appendNew h.endings id }
      hasStat_eq := fun _ => rfl
      endings_prefix := prefix_appendNew p.endings id
    }
  | chapter =>
    rw [Deed.apply_reach_chapter p hkind]
    exact ⟨fun h => ⟨h.inRange, h.inventory, h.revealed, h.endings⟩, fun _ => rfl, List.prefix_rfl⟩

end Onward

theorem wellFormed_fresh : fresh.WellFormed where
  inRange := by
    apply Table.forall_ofList (P := fun name value => (StatRange.ofStat name).Contains value)
    intro entry hentry
    rw [StatRange.contains_ofStat]
    revert entry
    decide
  inventory := .nil
  revealed := .nil
  endings := .nil

theorem wellFormed_freshWith (overrides : Table Int64) : (freshWith overrides).WellFormed := by
  unfold freshWith
  have hfresh := wellFormed_fresh
  generalize fresh = p at hfresh ⊢
  induction overrides.entries generalizing p with
  | nil => exact hfresh
  | cons entry rest ih => exact ih _ (hfresh.setStat entry.1 entry.2)

end Player

/--
Every playthrough starts well formed, whatever stats its configuration sets or adds.
-/
theorem Config.wellFormed_initialPlayer (config : Config) : config.initialPlayer.WellFormed :=
  have h := Player.wellFormed_freshWith config.initialStats
  ⟨h.inRange, h.inventory, h.revealed, h.endings⟩

end Narrative
