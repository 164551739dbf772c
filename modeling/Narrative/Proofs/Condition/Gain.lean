import Narrative.Proofs.Player.Inventory
import Narrative.Proofs.Progress
import Narrative.Proofs.Views

/-!
This module contains what more items and more revealed chapters do to a condition. Where nothing has to be missing, a
gain never locks what was open; where nothing has to be there, a gain never opens what was locked. A condition is
decided by its leaves, so both follow from what a gain does to a single leaf.
-/

namespace Narrative

namespace Player

/--
The other progress has the same stats and statuses, and no item and no revealed chapter less.
-/
structure Gains (p q : Player) : Prop where
  stats_eq : q.stats = p.stats
  statuses_eq : q.statuses = p.statuses
  inventory_subset : ∀ item ∈ p.inventory, item ∈ q.inventory
  revealed_subset : ∀ chapter ∈ p.revealed, chapter ∈ q.revealed

theorem gains_addItems (p : Player) (items : List String) : p.Gains (p.addItems items) where
  stats_eq := rfl
  statuses_eq := rfl
  inventory_subset := by
    obtain ⟨taken, hfold, -⟩ := Inventory.exists_foldl_appendNew p.inventory items
    intro item hitem
    show item ∈ items.foldl appendNew p.inventory
    rw [hfold]
    exact List.mem_append_left taken hitem
  revealed_subset _ hchapter := hchapter

theorem gains_reveal (p : Player) (chapter : String) : p.Gains (p.reveal chapter) where
  stats_eq := rfl
  statuses_eq := rfl
  inventory_subset _ hitem := hitem
  revealed_subset _ hother := (prefix_appendNew p.revealed chapter).subset hother

namespace Gains

variable {p q : Player}

theorem stat_eq (h : p.Gains q) (name : String) : q.stat name = p.stat name := by
  unfold stat
  rw [h.stats_eq]

theorem status?_eq (h : p.Gains q) (key : String) : q.status? key = p.status? key := by
  unfold status?
  rw [h.statuses_eq]

theorem hasItem (h : p.Gains q) {item : String} (hitem : p.hasItem item) : q.hasItem item :=
  List.contains_iff_mem.mpr (h.inventory_subset item (List.contains_iff_mem.mp hitem))

theorem isRevealed (h : p.Gains q) {chapter : String} (hchapter : p.isRevealed chapter) : q.isRevealed chapter :=
  List.contains_iff_mem.mpr (h.revealed_subset chapter (List.contains_iff_mem.mp hchapter))

end Gains

end Player

namespace Condition

/--
A node of the tree of a condition: the condition itself, or a node of one of its parts.
-/
inductive Node (node : Condition) : Condition → Prop where
  | root : Node node node
  | all {part : Condition} {parts : List Condition} (hmem : part ∈ parts) (h : Node node part) :
      Node node (.all parts)
  | any {part : Condition} {parts : List Condition} (hmem : part ∈ parts) (h : Node node part) :
      Node node (.any parts)

/--
No node of the condition requires that an item or a chapter is missing.
-/
structure Positive (c : Condition) : Prop where
  lacksItems : ∀ items, ¬Node (.lacksItems items) c
  notRevealed : ∀ chapters, ¬Node (.notRevealed chapters) c

/--
No node of the condition requires that an item or a chapter is there.
-/
structure Negative (c : Condition) : Prop where
  hasItems : ∀ items, ¬Node (.hasItems items) c
  revealed : ∀ chapters, ¬Node (.revealed chapters) c

theorem Node.trans {leaf node c : Condition} (hleaf : Node leaf node) (h : Node node c) : Node leaf c := by
  induction h with
  | root => exact hleaf
  | all hmem _ ih => exact .all hmem ih
  | any hmem _ ih => exact .any hmem ih

theorem Positive.node {node c : Condition} (h : c.Positive) (hnode : Node node c) : node.Positive where
  lacksItems items hitems := h.lacksItems items (hitems.trans hnode)
  notRevealed chapters hchapters := h.notRevealed chapters (hchapters.trans hnode)

theorem Negative.node {node c : Condition} (h : c.Negative) (hnode : Node node c) : node.Negative where
  hasItems items hitems := h.hasItems items (hitems.trans hnode)
  revealed chapters hchapters := h.revealed chapters (hchapters.trans hnode)

def isGroup : Condition → Bool
  | .all _ | .any _ => true
  | _ => false

section

variable {b : Bindings} {p q : Player}

/--
A condition goes over from one progress to another if each of its leaves does.
-/
theorem holds_of_leaves (c : Condition) :
    (∀ leaf, Node leaf c → leaf.isGroup = false → leaf.holds b p → leaf.holds b q) → c.holds b p → c.holds b q := by
  cases c with
  | all parts =>
    intro h hc
    rw [holds, allHold_eq_all, List.all_eq_true] at hc ⊢
    intro part hmem
    exact holds_of_leaves part (fun leaf hleaf => h leaf (.all hmem hleaf)) (hc part hmem)
  | any parts =>
    intro h hc
    rw [holds, anyHolds_eq_any, List.any_eq_true] at hc ⊢
    obtain ⟨part, hmem, hpart⟩ := hc
    exact ⟨part, hmem, holds_of_leaves part (fun leaf hleaf => h leaf (.any hmem hleaf)) hpart⟩
  | always | expr | compare | status | hasItems | lacksItems | revealed | notRevealed | malformed =>
    exact fun h => h _ .root rfl
termination_by sizeOf c
decreasing_by
  all_goals
    have hlt := List.sizeOf_lt_of_mem hmem
    simp only [all.sizeOf_spec, any.sizeOf_spec]
    omega

theorem holds_expr_of_gains (h : p.Gains q) (e : Expr) : (expr e).holds b q = (expr e).holds b p := by
  have hvalue : e.left.value b q = e.left.value b p := by
    cases e.left with
    | literal n => rfl
    | name s => rw [Operand.value, Operand.value, h.stat_eq]
  rw [holds, holds, Expr.holds, Expr.holds, hvalue]

theorem holds_status_of_gains (h : p.Gains q) (key : String) (expected : Expected) :
    (status key expected).holds b q = (status key expected).holds b p := by
  cases expected with
  | number n => rw [holds, holds, h.stat_eq]
  | text s => rw [holds, holds, h.status?_eq]

/--
A leaf that does not ask for something missing goes over to a progress with more, and one that does not ask for
something there comes back from it.
-/
theorem holds_leaf_of_gains (h : p.Gains q) {leaf : Condition} (hleaf : leaf.isGroup = false) :
    (leaf.Positive → leaf.holds b p → leaf.holds b q) ∧ (leaf.Negative → leaf.holds b q → leaf.holds b p) := by
  cases leaf with
  | all | any => cases hleaf
  | always | malformed => simp only [holds, imp_self, implies_true, and_self]
  | expr e => simp only [holds_expr_of_gains h, imp_self, implies_true, and_self]
  | compare stat op value => simp only [holds, h.stat_eq, imp_self, implies_true, and_self]
  | status key expected => simp only [holds_status_of_gains h, imp_self, implies_true, and_self]
  | hasItems items =>
    refine ⟨fun _ hp => ?_, fun hnegative => absurd .root (hnegative.hasItems items)⟩
    rw [holds, Player.hasAllItems, List.all_eq_true] at hp ⊢
    exact fun item hitem => h.hasItem (hp item hitem)
  | revealed chapters =>
    refine ⟨fun _ hp => ?_, fun hnegative => absurd .root (hnegative.revealed chapters)⟩
    rw [holds, List.all_eq_true] at hp ⊢
    exact fun chapter hchapter => h.isRevealed (hp chapter hchapter)
  | lacksItems items =>
    refine ⟨fun hpositive => absurd .root (hpositive.lacksItems items), fun _ hq => ?_⟩
    rw [holds, Player.hasAnyItem, Bool.not_eq_true', List.any_eq_false] at hq ⊢
    exact fun item hitem => mt h.hasItem (hq item hitem)
  | notRevealed chapters =>
    refine ⟨fun hpositive => absurd .root (hpositive.notRevealed chapters), fun _ hq => ?_⟩
    rw [holds, Bool.not_eq_true', List.any_eq_false] at hq ⊢
    exact fun chapter hchapter => mt h.isRevealed (hq chapter hchapter)

theorem holds_of_gains {c : Condition} (hc : c.Positive) (h : p.Gains q) : c.holds b p → c.holds b q :=
  holds_of_leaves c (fun _ hnode hleaf => (holds_leaf_of_gains h hleaf).1 (hc.node hnode))

theorem holds_before_gains {c : Condition} (hc : c.Negative) (h : p.Gains q) : c.holds b q → c.holds b p :=
  holds_of_leaves c (fun _ hnode hleaf => (holds_leaf_of_gains h hleaf).2 (hc.node hnode))

end

/--
What gains do to a condition. Where nothing has to be missing, it still holds after any gain: items taken up, a chapter
revealed, or both any number of times; and a choice that requires it stays on offer. Where nothing has to be there, it
is the other way round: a condition that holds after a gain has held before.
-/
structure UnderGains (c : Condition) : Prop where
  kept : c.Positive → ∀ b p q, p.Gains q → c.holds b p → c.holds b q
  addItems : c.Positive → ∀ b p items, c.holds b p → c.holds b (p.addItems items)
  reveal : c.Positive → ∀ b p chapter, c.holds b p → c.holds b (p.reveal chapter)
  offered : c.Positive → ∀ p q, p.Gains q → ∀ (choice : Choice) (index : Nat) (view : ChoiceView),
    choice.requires = c → choice.view? p index = some view → view.enabled → choice.view? q index = some view
  before : c.Negative → ∀ b p q, p.Gains q → c.holds b q → c.holds b p
  before_addItems : c.Negative → ∀ b p items, c.holds b (p.addItems items) → c.holds b p
  before_reveal : c.Negative → ∀ b p chapter, c.holds b (p.reveal chapter) → c.holds b p

theorem underGains (c : Condition) : c.UnderGains where
  kept hc _ _ _ h := holds_of_gains hc h
  addItems hc _ p items := holds_of_gains hc (p.gains_addItems items)
  reveal hc _ p chapter := holds_of_gains hc (p.gains_reveal chapter)
  offered := by
    rintro hc p q h choice index view rfl hview henabled
    obtain ⟨hwf, -, rfl⟩ := Choice.view?_eq_some.mp hview
    have hq : choice.requires.met q := holds_of_gains hc h henabled
    refine Choice.view?_eq_some.mpr ⟨hwf, .inl hq, ?_⟩
    dsimp only at henabled ⊢
    rw [henabled, hq]
  before hc _ _ _ h := holds_before_gains hc h
  before_addItems hc _ p items := holds_before_gains hc (p.gains_addItems items)
  before_reveal hc _ p chapter := holds_before_gains hc (p.gains_reveal chapter)

end Condition

end Narrative
