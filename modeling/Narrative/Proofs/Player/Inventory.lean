import Mathlib.Data.List.Basic
import Mathlib.Data.List.Induction
import Narrative.Proofs.Effect.Entry

/-!
This module contains the inventory as an ordered set: what a history of taking up and giving away items leaves, told
from the history alone. Whether an item is held is decided by the last entry that lists it, and where it stands by the
entry with which it came to stay.
-/

namespace Narrative

open Effect (Stocking)

namespace Effect.Stocking

/--
The items that an entry lists, to take them up or to give them away.
-/
def items : Stocking → List String
  | .add items => items
  | .remove items => items

def removes : Stocking → String → Bool
  | .add _, _ => false
  | .remove items, item => items.contains item

end Effect.Stocking

namespace Player

def stock (p : Player) : Stocking → Player
  | .add items => p.addItems items
  | .remove items => p.removeItems items

/--
The progress after a history of entries, one after the other.
-/
def stockAll (p : Player) (history : List Stocking) : Player :=
  history.foldl stock p

theorem inventory_stockAll (p : Player) (history : List Stocking) :
    (p.stockAll history).inventory = history.foldl Stocking.apply p.inventory := by
  unfold stockAll
  induction history generalizing p with
  | nil => rfl
  | cons entry rest ih =>
    rw [List.foldl_cons, List.foldl_cons, ih]
    cases entry <;> rfl

end Player

namespace Inventory

/--
Whether a history leaves an item in the inventory: the last entry that lists it takes it up, or no entry lists it and it
was there at the start.
-/
inductive Held (start : List String) (history : List Stocking) (item : String) : Prop where
  | added {before after : List Stocking} {items : List String} (hhistory : history = before ++ .add items :: after)
      (hitem : item ∈ items) (hlast : ∀ entry ∈ after, item ∉ entry.items) : Held start history item
  | kept (hitem : item ∈ start) (hunlisted : ∀ entry ∈ history, item ∉ entry.items) : Held start history item

/--
A moment of a history: at the start, or during the entry of a number counted from one. Within it items come one by one.
-/
structure Moment where
  entry : Nat
  place : Nat

def Moment.Before (m n : Moment) : Prop :=
  m.entry < n.entry ∨ m.entry = n.entry ∧ m.place < n.place

/--
The moment since which an item has been there without a break: the start, or the first mention in an entry that takes it
up while it is not held.
-/
inductive Since (start : List String) (history : List Stocking) (item : String) : Moment → Prop where
  | start (hitem : item ∈ start) (hkept : ∀ entry ∈ history, entry.removes item = false) :
      Since start history item ⟨0, start.idxOf item⟩
  | added {before after : List Stocking} {items : List String} (hhistory : history = before ++ .add items :: after)
      (hitem : item ∈ items) (hnew : ¬Held start before item) (hkept : ∀ entry ∈ after, entry.removes item = false) :
      Since start history item ⟨before.length + 1, items.idxOf item⟩

variable {start : List String} {history before after : List Stocking} {items : List String} {item : String}
  {m n : Moment}

/--
An entry of a longer history is the last one, or is an entry of the history before it.
-/
theorem append_singleton_eq_iff {entry other : Stocking} : history ++ [entry] = before ++ other :: after ↔
    (history = before ∧ entry = other ∧ after = []) ∨
      ∃ rest, after = rest ++ [entry] ∧ history = before ++ other :: rest := by
  constructor
  · intro h
    rcases List.eq_nil_or_concat' after with rfl | ⟨rest, last, rfl⟩
    · have hsplit := List.append_inj' h rfl
      exact .inl ⟨hsplit.1, List.singleton_inj.mp hsplit.2, rfl⟩
    · rw [← List.cons_append, ← List.append_assoc] at h
      have hsplit := List.append_inj' h rfl
      exact .inr ⟨rest, by rw [List.singleton_inj.mp hsplit.2], hsplit.1⟩
  · rintro (⟨rfl, rfl, rfl⟩ | ⟨rest, rfl, rfl⟩)
    · rfl
    · rw [List.append_assoc, List.cons_append]

theorem held_append_singleton {entry : Stocking} : Held start (history ++ [entry]) item ↔
    (∃ items, entry = .add items ∧ item ∈ items) ∨ item ∉ entry.items ∧ Held start history item := by
  constructor
  · intro h
    cases h with
    | @added before after items hhistory hitem hlast =>
      rcases append_singleton_eq_iff.mp hhistory with ⟨_, hentry, _⟩ | ⟨rest, rfl, hrest⟩
      · exact .inl ⟨items, hentry, hitem⟩
      · rw [List.forall_mem_append, List.forall_mem_singleton] at hlast
        exact .inr ⟨hlast.2, .added hrest hitem hlast.1⟩
    | kept hitem hunlisted =>
      rw [List.forall_mem_append, List.forall_mem_singleton] at hunlisted
      exact .inr ⟨hunlisted.2, .kept hitem hunlisted.1⟩
  · rintro (⟨items, rfl, hitem⟩ | ⟨hlast, h⟩)
    · exact .added rfl hitem nofun
    · cases h with
      | added hhistory hitem hafter =>
        exact .added (append_singleton_eq_iff.mpr (.inr ⟨_, rfl, hhistory⟩)) hitem
          (List.forall_mem_append.mpr ⟨hafter, List.forall_mem_singleton.mpr hlast⟩)
      | kept hitem hunlisted =>
        exact .kept hitem (List.forall_mem_append.mpr ⟨hunlisted, List.forall_mem_singleton.mpr hlast⟩)

theorem since_append_singleton {entry : Stocking} : Since start (history ++ [entry]) item m ↔
    (∃ items, entry = .add items ∧ item ∈ items ∧ ¬Held start history item ∧
      m = ⟨history.length + 1, items.idxOf item⟩) ∨
      entry.removes item = false ∧ Since start history item m := by
  constructor
  · intro h
    cases h with
    | start hitem hkept =>
      rw [List.forall_mem_append, List.forall_mem_singleton] at hkept
      exact .inr ⟨hkept.2, .start hitem hkept.1⟩
    | @added before after items hhistory hitem hnew hkept =>
      rcases append_singleton_eq_iff.mp hhistory with ⟨rfl, hentry, _⟩ | ⟨rest, rfl, hrest⟩
      · exact .inl ⟨items, hentry, hitem, hnew, rfl⟩
      · rw [List.forall_mem_append, List.forall_mem_singleton] at hkept
        exact .inr ⟨hkept.2, .added hrest hitem hnew hkept.1⟩
  · rintro (⟨items, rfl, hitem, hnew, rfl⟩ | ⟨hlast, h⟩)
    · exact .added rfl hitem hnew nofun
    · cases h with
      | start hitem hkept =>
        exact .start hitem (List.forall_mem_append.mpr ⟨hkept, List.forall_mem_singleton.mpr hlast⟩)
      | added hhistory hitem hnew hkept =>
        exact .added (append_singleton_eq_iff.mpr (.inr ⟨_, rfl, hhistory⟩)) hitem hnew
          (List.forall_mem_append.mpr ⟨hkept, List.forall_mem_singleton.mpr hlast⟩)

theorem held_nil : Held start [] item ↔ item ∈ start := by
  constructor
  · intro h
    cases h with
    | added hhistory => simp at hhistory
    | kept hitem => exact hitem
  · intro hitem
    exact .kept hitem nofun

theorem since_nil : Since start [] item m ↔ item ∈ start ∧ m = ⟨0, start.idxOf item⟩ := by
  constructor
  · intro h
    cases h with
    | start hitem => exact ⟨hitem, rfl⟩
    | added hhistory => simp at hhistory
  · rintro ⟨hitem, rfl⟩
    exact .start hitem nofun

/--
What stays held was held: an entry that does not give an item away leaves it held.
-/
theorem held_of_not_removes {entry : Stocking} (h : Held start history item) (hentry : entry.removes item = false) :
    Held start (history ++ [entry]) item := by
  rw [held_append_singleton]
  cases entry with
  | add items =>
    by_cases hitem : item ∈ items
    · exact .inl ⟨items, rfl, hitem⟩
    · exact .inr ⟨hitem, h⟩
  | remove items =>
    have hitem : item ∉ items := by simpa [Stocking.removes] using hentry
    exact .inr ⟨hitem, h⟩

theorem Since.held (h : Since start history item m) : Held start history item := by
  induction history using List.reverseRecOn generalizing m with
  | nil => exact held_nil.mpr (since_nil.mp h).1
  | append_singleton history entry ih =>
    rcases since_append_singleton.mp h with ⟨items, hentry, hitem, _⟩ | ⟨hentry, hbefore⟩
    · exact held_append_singleton.mpr (.inl ⟨items, hentry, hitem⟩)
    · exact held_of_not_removes (ih hbefore) hentry

theorem Since.unique (hm : Since start history item m) (hn : Since start history item n) : m = n := by
  induction history using List.reverseRecOn generalizing m n with
  | nil => rw [(since_nil.mp hm).2, (since_nil.mp hn).2]
  | append_singleton history entry ih =>
    -- An item is taken up only while it is not held, so it does not come a second time.
    rcases since_append_singleton.mp hm with ⟨items, rfl, _, hnew, rfl⟩ | ⟨_, hm⟩
    · rcases since_append_singleton.mp hn with ⟨_, hentry, _, _, rfl⟩ | ⟨_, hn⟩
      · cases hentry
        rfl
      · exact absurd hn.held hnew
    · rcases since_append_singleton.mp hn with ⟨_, _, _, hnew, _⟩ | ⟨_, hn⟩
      · exact absurd hm.held hnew
      · exact ih hm hn

theorem Since.entry_le (h : Since start history item m) : m.entry ≤ history.length := by
  cases h with
  | start => exact Nat.zero_le _
  | @added before after _ hhistory =>
    rw [hhistory, List.length_append, List.length_cons]
    show before.length + 1 ≤ before.length + (after.length + 1)
    omega

theorem Held.exists_since (h : Held start history item) : ∃ m, Since start history item m := by
  induction history using List.reverseRecOn with
  | nil => exact ⟨_, since_nil.mpr ⟨held_nil.mp h, rfl⟩⟩
  | append_singleton history entry ih =>
    by_cases hheld : Held start history item
    · obtain ⟨m, hm⟩ := ih hheld
      refine ⟨m, since_append_singleton.mpr (.inr ⟨?_, hm⟩)⟩
      cases entry with
      | add items => rfl
      | remove items =>
        rcases held_append_singleton.mp h with ⟨_, hentry, _⟩ | ⟨hitem, _⟩
        · cases hentry
        · simpa [Stocking.removes, Stocking.items] using hitem
    · rcases held_append_singleton.mp h with ⟨items, hentry, hitem⟩ | ⟨_, hbefore⟩
      · exact ⟨_, since_append_singleton.mpr (.inl ⟨items, hentry, hitem, hheld, rfl⟩)⟩
      · exact absurd hbefore hheld

/--
Taking up items appends those that are not held, in the order in which the items first mention them.
-/
theorem exists_foldl_appendNew (held items : List String) : ∃ taken, items.foldl Player.appendNew held = held ++ taken ∧
    (∀ item, item ∈ taken ↔ item ∈ items ∧ item ∉ held) ∧
      taken.Pairwise (fun a b => items.idxOf a < items.idxOf b) := by
  induction items using List.reverseRecOn with
  | nil => exact ⟨[], by simp⟩
  | append_singleton items item ih =>
    obtain ⟨taken, hfold, hmem, hsorted⟩ := ih
    rw [List.foldl_append, hfold, List.foldl_cons, List.foldl_nil]
    have hitems : ∀ a ∈ taken, (items ++ [item]).idxOf a = items.idxOf a :=
      fun a ha => List.idxOf_append_of_mem ((hmem a).mp ha).1
    have hsorted : taken.Pairwise (fun a b => (items ++ [item]).idxOf a < (items ++ [item]).idxOf b) :=
      hsorted.imp_of_mem fun ha hb hlt => by rwa [hitems _ ha, hitems _ hb]
    unfold Player.appendNew
    split
    · next hold =>
      rw [List.contains_iff_mem, List.mem_append] at hold
      refine ⟨taken, rfl, ?_, hsorted⟩
      intro other
      rw [hmem, List.mem_append, List.mem_singleton]
      constructor
      · rintro ⟨hother, hnew⟩
        exact ⟨.inl hother, hnew⟩
      · rintro ⟨hother | rfl, hnew⟩
        · exact ⟨hother, hnew⟩
        · exact (hmem other).mp (hold.resolve_left hnew)
    · next hfresh =>
      rw [List.contains_iff_mem, List.mem_append, not_or, hmem, not_and_not_right] at hfresh
      have hnew : item ∉ items := fun hitem => hfresh.1 (hfresh.2 hitem)
      refine ⟨taken ++ [item], List.append_assoc _ _ _, ?_, ?_⟩
      · intro other
        rw [List.mem_append, hmem, List.mem_append, List.mem_singleton]
        constructor
        · rintro (⟨hother, hother'⟩ | rfl)
          · exact ⟨.inl hother, hother'⟩
          · exact ⟨.inr rfl, hfresh.1⟩
        · rintro ⟨hother | rfl, hother'⟩
          · exact .inl ⟨hother, hother'⟩
          · exact .inr rfl
      · rw [List.pairwise_append]
        refine ⟨hsorted, List.pairwise_singleton _ _, ?_⟩
        intro a ha b hb
        rw [List.mem_singleton.mp hb, hitems a ha, List.idxOf_append_of_notMem hnew]
        have hlt := List.idxOf_lt_length_of_mem ((hmem a).mp ha).1
        omega

theorem mem_foldl_apply : item ∈ history.foldl Stocking.apply start ↔ Held start history item := by
  induction history using List.reverseRecOn with
  | nil => exact held_nil.symm
  | append_singleton history entry ih =>
    rw [List.foldl_append, List.foldl_cons, List.foldl_nil, held_append_singleton, ← ih]
    generalize history.foldl Stocking.apply start = held
    cases entry with
    | add items =>
      obtain ⟨taken, hfold, hmem, _⟩ := exists_foldl_appendNew held items
      show item ∈ items.foldl Player.appendNew held ↔ _
      rw [hfold, List.mem_append, hmem]
      simp only [Stocking.add.injEq, exists_eq_left', Stocking.items]
      tauto
    | remove items =>
      simp [Stocking.apply, Stocking.items, and_comm]

/--
An entry that takes items up appends those that are not held, since that entry.
-/
theorem exists_foldl_apply_add (start : List String) (history : List Stocking) (items : List String) :
    ∃ taken,
      (history ++ [Stocking.add items]).foldl Stocking.apply start = history.foldl Stocking.apply start ++ taken ∧
      (∀ a ∈ taken, Since start (history ++ [.add items]) a ⟨history.length + 1, items.idxOf a⟩) ∧
        taken.Pairwise (fun a b => items.idxOf a < items.idxOf b) := by
  obtain ⟨taken, hfold, hmem, hsorted⟩ := exists_foldl_appendNew (history.foldl Stocking.apply start) items
  rw [List.foldl_append, List.foldl_cons, List.foldl_nil]
  refine ⟨taken, hfold, ?_, hsorted⟩
  intro a ha
  obtain ⟨hitem, hnew⟩ := (hmem a).mp ha
  exact since_append_singleton.mpr (.inl ⟨items, rfl, hitem, mt mem_foldl_apply.mpr hnew, rfl⟩)

theorem foldl_apply_remove (start : List String) (history : List Stocking) (items : List String) :
    (history ++ [Stocking.remove items]).foldl Stocking.apply start =
      (history.foldl Stocking.apply start).filter (fun item => !(Stocking.remove items).removes item) := by
  rw [List.foldl_append]
  rfl

/--
The order of the inventory: each item came to stay before those that stand behind it.
-/
def Ascending (start : List String) (history : List Stocking) (held : List String) : Prop :=
  held.Pairwise (fun a b => ∃ m n, Since start history a m ∧ Since start history b n ∧ m.Before n)

theorem ascending_nil (h : start.Nodup) : Ascending start [] start := by
  unfold Ascending
  rw [List.pairwise_iff_getElem]
  intro i j hi hj hlt
  refine ⟨⟨0, i⟩, ⟨0, j⟩, ?_, ?_, .inr ⟨rfl, hlt⟩⟩
  · exact since_nil.mpr ⟨List.getElem_mem hi, by rw [h.idxOf_getElem i hi]⟩
  · exact since_nil.mpr ⟨List.getElem_mem hj, by rw [h.idxOf_getElem j hj]⟩

theorem Ascending.append_singleton {held : List String} {entry : Stocking} (h : Ascending start history held)
    (hentry : ∀ item ∈ held, entry.removes item = false) : Ascending start (history ++ [entry]) held := by
  apply List.Pairwise.imp_of_mem _ h
  rintro a b ha hb ⟨m, n, hm, hn, hbefore⟩
  exact ⟨m, n, since_append_singleton.mpr (.inr ⟨hentry a ha, hm⟩),
    since_append_singleton.mpr (.inr ⟨hentry b hb, hn⟩), hbefore⟩

theorem ascending_foldl_apply (h : start.Nodup) (history : List Stocking) :
    Ascending start history (history.foldl Stocking.apply start) := by
  induction history using List.reverseRecOn with
  | nil => exact ascending_nil h
  | append_singleton history entry ih =>
    cases entry with
    | add items =>
      obtain ⟨taken, hfold, hsince, hsorted⟩ := exists_foldl_apply_add start history items
      rw [hfold]
      refine List.pairwise_append.mpr ⟨ih.append_singleton (fun _ _ => rfl), ?_, ?_⟩
      · apply List.Pairwise.imp_of_mem _ hsorted
        intro a b ha hb hlt
        exact ⟨_, _, hsince a ha, hsince b hb, .inr ⟨rfl, hlt⟩⟩
      · intro a ha b hb
        obtain ⟨m, hm⟩ := (mem_foldl_apply.mp ha).exists_since
        refine ⟨m, _, since_append_singleton.mpr (.inr ⟨rfl, hm⟩), hsince b hb, .inl ?_⟩
        exact Nat.lt_succ_of_le hm.entry_le
    | remove items =>
      rw [foldl_apply_remove]
      apply Ascending.append_singleton
      · exact List.Pairwise.filter _ ih
      · intro item hitem
        exact Bool.not_eq_true' _ ▸ (List.mem_filter.mp hitem).2

theorem Ascending.nodup {held : List String} (h : Ascending start history held) : held.Nodup := by
  apply List.Pairwise.imp _ h
  rintro a b ⟨m, n, hm, hn, hbefore⟩ rfl
  rw [hm.unique hn] at hbefore
  unfold Moment.Before at hbefore
  omega

/--
What was held at some point and has not been given away since comes first, in its old order. Behind it is what came to
stay after that point.
-/
theorem exists_foldl_apply_append (start : List String) (before after : List Stocking) :
    ∃ taken, (before ++ after).foldl Stocking.apply start =
        (before.foldl Stocking.apply start).filter (fun item => !after.any (·.removes item)) ++ taken ∧
      ∀ item ∈ taken, ∃ m, Since start (before ++ after) item m ∧ before.length < m.entry := by
  induction after using List.reverseRecOn with
  | nil => exact ⟨[], by simp⟩
  | append_singleton after entry ih =>
    obtain ⟨taken, hfold, hsince⟩ := ih
    rw [← List.append_assoc]
    cases entry with
    | add items =>
      obtain ⟨added, hadd, hadded, _⟩ := exists_foldl_apply_add start (before ++ after) items
      refine ⟨taken ++ added, ?_, ?_⟩
      · rw [hadd, hfold, List.append_assoc]
        simp [Stocking.removes]
      · rw [List.forall_mem_append]
        constructor
        · intro item hitem
          obtain ⟨m, hm, hlt⟩ := hsince item hitem
          exact ⟨m, since_append_singleton.mpr (.inr ⟨rfl, hm⟩), hlt⟩
        · intro item hitem
          refine ⟨_, hadded item hitem, ?_⟩
          rw [List.length_append]
          exact Nat.lt_succ_of_le (Nat.le_add_right _ _)
    | remove items =>
      refine ⟨taken.filter (fun item => !(Stocking.remove items).removes item), ?_, ?_⟩
      · rw [foldl_apply_remove, hfold, List.filter_append, List.filter_filter]
        simp only [List.any_append, List.any_cons, List.any_nil, Bool.or_false, Bool.not_or, Bool.and_comm]
      · intro item hitem
        obtain ⟨hitem, hkept⟩ := List.mem_filter.mp hitem
        obtain ⟨m, hm, hlt⟩ := hsince item hitem
        rw [Bool.not_eq_true'] at hkept
        exact ⟨m, since_append_singleton.mpr (.inr ⟨hkept, hm⟩), hlt⟩

end Inventory

namespace Player

open Inventory

/--
The inventory after a history is an ordered set. An item is in it if the last entry that lists it takes it up, or if no
entry lists it and it was there at the start; it is there once. Items stand in the order in which they came to stay.
What has stayed from some point on keeps its order in front of what has come since, and what one entry takes up stands
in the order in which the entry first lists it. Questions for several items are answered from the same set.
-/
structure KeepsOrder (p : Player) (history : List Stocking) : Prop where
  hasItem_iff : ∀ item, (p.stockAll history).hasItem item ↔ Held p.inventory history item
  nodup : (p.stockAll history).inventory.Nodup
  since : ∀ item, Held p.inventory history item → ∃ m, Since p.inventory history item m
  unique : ∀ item m n, Since p.inventory history item m → Since p.inventory history item n → m = n
  ascending : (p.stockAll history).inventory.Pairwise (fun a b =>
    ∃ m n, Since p.inventory history a m ∧ Since p.inventory history b n ∧ m.Before n)
  survivors : ∀ before after, history = before ++ after →
    ∃ taken, (p.stockAll history).inventory =
        (p.stockAll before).inventory.filter (fun item => !after.any (·.removes item)) ++ taken ∧
      ∀ item ∈ taken, ∃ m, Since p.inventory history item m ∧ before.length < m.entry
  hasAllItems_iff : ∀ items, (p.stockAll history).hasAllItems items ↔ ∀ item ∈ items, Held p.inventory history item
  hasAnyItem_iff : ∀ items, (p.stockAll history).hasAnyItem items ↔ ∃ item ∈ items, Held p.inventory history item

variable {p : Player} {history : List Stocking}

theorem hasItem_stockAll {item : String} : (p.stockAll history).hasItem item ↔ Held p.inventory history item := by
  rw [hasItem, List.contains_iff_mem, inventory_stockAll, mem_foldl_apply]

theorem keepsOrder_stockAll (h : p.inventory.Nodup) (history : List Stocking) : p.KeepsOrder history where
  hasItem_iff _ := hasItem_stockAll
  nodup := by
    rw [inventory_stockAll]
    exact (ascending_foldl_apply h history).nodup
  since _ hheld := hheld.exists_since
  unique _ _ _ hm hn := hm.unique hn
  ascending := by
    rw [inventory_stockAll]
    exact ascending_foldl_apply h history
  survivors := by
    rintro before after rfl
    rw [inventory_stockAll, inventory_stockAll]
    exact exists_foldl_apply_append p.inventory before after
  hasAllItems_iff items := by
    rw [hasAllItems, List.all_eq_true]
    exact forall₂_congr (fun _ _ => hasItem_stockAll)
  hasAnyItem_iff items := by
    rw [hasAnyItem, List.any_eq_true]
    exact exists_congr (fun _ => and_congr_right (fun _ => hasItem_stockAll))

/--
A player who carries something already.
-/
def hiker : Player :=
  { fresh with inventory := ["rope", "map"] }

/--
A history in which an item is listed twice in an entry, one is taken up that is held, and one comes back.
-/
def trek : List Stocking :=
  [.add ["lamp", "rope", "lamp"], .remove ["rope", "key"], .add ["key", "map", "rope"]]

theorem keepsOrder_stockAll_hiker : hiker.inventory.Nodup ∧ hiker.KeepsOrder trek :=
  ⟨by decide, keepsOrder_stockAll (by decide) trek⟩

example : (((fresh.addItems ["lamp", "rope", "lamp"]).removeItems ["lamp", "key"]).addItems
    ["key", "rope", "lamp"]).inventory = ["rope", "key", "lamp"] := by
  decide

end Player

end Narrative
