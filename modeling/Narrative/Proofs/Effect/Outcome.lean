import Narrative.Proofs.Effect.Entry
import Narrative.Proofs.Table
import Mathlib.Data.List.Basic

/-!
This module contains what an object of effects does to the player's progress. Under distinct keys the entries do not get
in each other's way, but for those of the inventory, which take their turns.
-/

namespace Narrative

/--
The integer of the range nearest to the given one, which need not be a 64 bit word. A range without an upper end goes
up to the greatest word.
-/
def StatRange.nearest (range : StatRange) (n : Int) : Int :=
  min (max n range.least.toInt) (range.greatest.getD Int64.maxValue).toInt

theorem toInt_max (a b : Int64) : (max a b).toInt = max a.toInt b.toInt := by
  show (if a ≤ b then b else a).toInt = if a.toInt ≤ b.toInt then b.toInt else a.toInt
  rw [apply_ite Int64.toInt]
  simp only [Int64.le_iff_toInt_le]

theorem toInt_min (a b : Int64) : (min a b).toInt = min a.toInt b.toInt := by
  show (if a ≤ b then a else b).toInt = if a.toInt ≤ b.toInt then a.toInt else b.toInt
  rw [apply_ite Int64.toInt]
  simp only [Int64.le_iff_toInt_le]

theorem toInt_saturatingAdd (a b : Int64) :
    (saturatingAdd a b).toInt = max (min (a.toInt + b.toInt) Int64.maxValue.toInt) Int64.minValue.toInt := by
  unfold saturatingAdd Int64.ofIntClamp
  split
  · next hlo =>
    split
    · next hhi => rw [Int64.toInt_ofIntLE, Int.min_eq_left hhi, Int.max_eq_left hlo]
    · next hhi =>
      rw [Int.min_eq_right (Int.le_of_lt (Int.not_le.mp hhi)), Int.max_eq_left (by decide)]
  · next hlo =>
    rw [Int.max_eq_right]
    exact Int.le_trans (Int.min_le_left _ _) (Int.le_of_lt (Int.not_le.mp hlo))

/--
No sum is too large or too small: a stat takes the value of its range nearest to the exact sum.
-/
theorem StatRange.toInt_clamp_saturatingAdd (range : StatRange) (a b : Int64) :
    (range.clamp (saturatingAdd a b)).toInt = range.nearest (a.toInt + b.toInt) := by
  have hleast := range.least.le_toInt
  have hleast' := range.least.toInt_lt
  have hmin := Int64.toInt_minValue
  have hmax := Int64.toInt_maxValue
  unfold clamp nearest
  cases range.greatest with
  | none =>
    rw [toInt_max, toInt_saturatingAdd, Option.getD_none]
    omega
  | some greatest =>
    have hgreatest := greatest.le_toInt
    have hgreatest' := greatest.toInt_lt
    rw [toInt_min, toInt_max, toInt_saturatingAdd, Option.getD_some]
    omega

attribute [ext] Player

namespace Effect

/--
What a change makes of a stat that the player has.
-/
def moved (name : String) (delta : Option Int64) (held : Int64) : Int64 :=
  match delta with
  | some delta => (StatRange.ofStat name).clamp (saturatingAdd held delta)
  | none => held

theorem map_moved_none (name : String) (held : Option Int64) : held.map (moved name none) = held := by
  cases held <;> rfl

theorem get?_adjust (p : Player) (key name : String) (delta : Int64) :
    (p.adjust key delta).stats.get? name =
      (p.stats.get? name).map (moved name (if name = key then some delta else none)) := by
  unfold Player.adjust
  cases hheld : p.stats.get? key with
  | none =>
    dsimp only
    split
    · next hname =>
      rw [hname, hheld]
      rfl
    · rw [map_moved_none]
  | some held =>
    dsimp only [Player.setStat]
    rw [Table.get?_insert]
    split
    · next hname =>
      rw [hname, hheld]
      rfl
    · rw [map_moved_none]

namespace Meaning

variable {key : String} {value : Json} {e : Effect}

theorem stats_apply (h : Meaning key value e) (p : Player) (name : String) :
    (e.apply p).stats.get? name =
      (p.stats.get? name).map (moved name (if name = key then change? key value else none)) := by
  cases h with
  | @stocks s _ _ hchanges _ =>
    rw [hchanges, ite_self, map_moved_none]
    cases s <;> rfl
  | assigns _ _ hchanges _ =>
    rw [hchanges, ite_self, map_moved_none]
    rfl
  | changes _ _ hchanges _ =>
    rw [hchanges]
    exact get?_adjust p key name _
  | invalid _ _ hchanges _ =>
    rw [hchanges, ite_self, map_moved_none]
    rfl

theorem statuses_apply (h : Meaning key value e) (p : Player) (name : String) :
    (e.apply p).statuses.get? name =
      (if name = key then assignment? key value else none).or (p.statuses.get? name) := by
  cases h with
  | @stocks s _ hassigns _ _ =>
    rw [hassigns, ite_self]
    cases s <;> rfl
  | assigns _ hassigns _ _ =>
    rw [hassigns]
    show (p.statuses.insert key _).get? name = _
    rw [Table.get?_insert]
    split <;> rfl
  | changes _ hassigns _ _ =>
    rw [hassigns, ite_self]
    unfold Effect.apply Player.adjust
    dsimp only
    split <;> rfl
  | invalid _ hassigns _ _ =>
    rw [hassigns, ite_self]
    rfl

theorem inventory_apply (h : Meaning key value e) (p : Player) :
    (e.apply p).inventory = (stocking? key value).toList.foldl Stocking.apply p.inventory := by
  cases h with
  | @stocks s hstocks _ _ _ =>
    rw [hstocks]
    cases s <;> rfl
  | assigns hstocks _ _ _ =>
    rw [hstocks]
    rfl
  | changes hstocks _ _ _ =>
    rw [hstocks]
    unfold Effect.apply Player.adjust
    dsimp only
    split <;> rfl
  | invalid hstocks _ _ _ =>
    rw [hstocks]
    rfl

theorem skipped?_eq (h : Meaning key value e) : e.skipped? = (objection? key value).map (Skipped.mk key) := by
  cases h with
  | @stocks s _ _ _ hobjection =>
    rw [hobjection]
    cases s <;> rfl
  | assigns _ _ _ hobjection =>
    rw [hobjection]
    rfl
  | changes _ _ _ hobjection =>
    rw [hobjection]
    rfl
  | invalid _ _ _ hobjection =>
    rw [hobjection]
    rfl

theorem isSome_objection? (h : Meaning key value e) : (objection? key value).isSome ↔
    stocking? key value = none ∧ assignment? key value = none ∧ change? key value = none := by
  cases h with
  | stocks hstocks _ _ hobjection => simp [hstocks, hobjection]
  | assigns _ hassigns _ hobjection => simp [hassigns, hobjection]
  | changes _ _ hchanges hobjection => simp [hchanges, hobjection]
  | invalid hstocks hassigns hchanges hobjection => simp [hstocks, hassigns, hchanges, hobjection]

end Meaning

theorem frame_apply (e : Effect) (p : Player) :
    (e.apply p).currentChapter = p.currentChapter ∧ (e.apply p).revealed = p.revealed ∧
      (e.apply p).endings = p.endings := by
  cases e with
  | adjust stat delta =>
    unfold apply Player.adjust
    dsimp only
    split <;> exact ⟨rfl, rfl, rfl⟩
  | addItems | removeItems | setStatus | invalid => exact ⟨rfl, rfl, rfl⟩

theorem frame_applyAll (effects : List Effect) (p : Player) :
    (applyAll effects p).currentChapter = p.currentChapter ∧ (applyAll effects p).revealed = p.revealed ∧
      (applyAll effects p).endings = p.endings := by
  induction effects generalizing p with
  | nil => exact ⟨rfl, rfl, rfl⟩
  | cons e rest ih =>
    obtain ⟨hchapter, hrevealed, hendings⟩ := ih (e.apply p)
    obtain ⟨hchapter', hrevealed', hendings'⟩ := frame_apply e p
    exact ⟨hchapter.trans hchapter', hrevealed.trans hrevealed', hendings.trans hendings'⟩

section

variable {fields : List (String × Json)}

theorem stats_applyAll (h : (fields.map (·.1)).Nodup) (p : Player) (name : String) :
    (applyAll (ofJson (.object fields)) p).stats.get? name =
      (p.stats.get? name).map (moved name ((fields.lookup name).bind (change? name))) := by
  induction fields generalizing p with
  | nil => exact (map_moved_none name _).symm
  | cons field rest ih =>
    obtain ⟨key, value⟩ := field
    rw [List.map_cons, List.nodup_cons] at h
    have hstep := (meaning_ofEntry key value).stats_apply p name
    show (applyAll (ofJson (.object rest)) ((ofEntry key value).apply p)).stats.get? name = _
    rw [ih h.2, hstep, Table.lookup_entry]
    by_cases hname : name = key
    · subst hname
      rw [if_pos rfl, if_pos rfl, Table.lookup_eq_none_iff.mpr h.1, Option.bind_none, map_moved_none, Option.bind_some]
    · rw [if_neg hname, if_neg hname, map_moved_none]

theorem statuses_applyAll (h : (fields.map (·.1)).Nodup) (p : Player) (name : String) :
    (applyAll (ofJson (.object fields)) p).statuses.get? name =
      ((fields.lookup name).bind (assignment? name)).or (p.statuses.get? name) := by
  induction fields generalizing p with
  | nil => rfl
  | cons field rest ih =>
    obtain ⟨key, value⟩ := field
    rw [List.map_cons, List.nodup_cons] at h
    have hstep := (meaning_ofEntry key value).statuses_apply p name
    show (applyAll (ofJson (.object rest)) ((ofEntry key value).apply p)).statuses.get? name = _
    rw [ih h.2, hstep, Table.lookup_entry]
    by_cases hname : name = key
    · subst hname
      rw [if_pos rfl, if_pos rfl, Table.lookup_eq_none_iff.mpr h.1, Option.bind_none, Option.none_or, Option.bind_some]
    · rw [if_neg hname, if_neg hname, Option.none_or]

theorem inventory_applyAll (fields : List (String × Json)) (p : Player) :
    (applyAll (ofJson (.object fields)) p).inventory =
      (fields.filterMap (fun (key, value) => stocking? key value)).foldl Stocking.apply p.inventory := by
  induction fields generalizing p with
  | nil => rfl
  | cons field rest ih =>
    obtain ⟨key, value⟩ := field
    have hstep := (meaning_ofEntry key value).inventory_apply p
    show (applyAll (ofJson (.object rest)) ((ofEntry key value).apply p)).inventory = _
    rw [ih, hstep, List.filterMap_cons]
    dsimp only
    cases stocking? key value <;> rfl

theorem skipped_ofJson (fields : List (String × Json)) :
    skipped (ofJson (.object fields)) =
      fields.filterMap (fun (key, value) => (objection? key value).map (Skipped.mk key)) := by
  show (fields.map (fun (key, value) => ofEntry key value)).filterMap skipped? = _
  rw [List.filterMap_map]
  apply List.filterMap_congr
  rintro ⟨key, value⟩ -
  exact (meaning_ofEntry key value).skipped?_eq

end

def isInventoryEntry (entry : String × Json) : Bool :=
  inventoryKeys.contains entry.1

/--
Only the entries of the inventory, in their order, make up what is done to it.
-/
theorem filterMap_stocking? (fields : List (String × Json)) :
    (fields.filter isInventoryEntry).filterMap (fun (key, value) => stocking? key value) =
      fields.filterMap (fun (key, value) => stocking? key value) := by
  rw [List.filterMap_filter]
  apply List.filterMap_congr
  rintro ⟨key, value⟩ -
  dsimp only
  split
  · rfl
  · next hkey =>
    rw [isInventoryEntry, List.contains_iff_mem] at hkey
    exact (stocking?_eq_none hkey).symm

/--
The entries of the inventory are the only ones whose order matters.
-/
theorem applyAll_of_perm {fields others : List (String × Json)} (h : (fields.map (·.1)).Nodup)
    (hperm : fields.Perm others) (hinventory : fields.filter isInventoryEntry = others.filter isInventoryEntry)
    (p : Player) : applyAll (ofJson (.object others)) p = applyAll (ofJson (.object fields)) p := by
  have hothers : (others.map (·.1)).Nodup := (hperm.map (·.1)).nodup_iff.mp h
  obtain ⟨hchapter, hrevealed, hendings⟩ := frame_applyAll (ofJson (.object fields)) p
  obtain ⟨hchapter', hrevealed', hendings'⟩ := frame_applyAll (ofJson (.object others)) p
  apply Player.ext
  · rw [hchapter', hchapter]
  · rw [inventory_applyAll, inventory_applyAll, ← filterMap_stocking? others, ← hinventory, filterMap_stocking?]
  · rw [hrevealed', hrevealed]
  · rw [hendings', hendings]
  · ext1 name
    rw [statuses_applyAll hothers, statuses_applyAll h, Table.lookup_of_perm hperm h]
  · ext1 name
    rw [stats_applyAll hothers, stats_applyAll h, Table.lookup_of_perm hperm h]

/--
What an object of effects does to the progress, entry by entry. A stat that the player has goes to the value of its
range nearest to the exact sum, a status becomes the assigned text, the entries of the inventory take their turns,
and nothing else changes. The notices are of the entries that do nothing.
-/
structure Outcome (fields : List (String × Json)) (p q : Player) (notices : List Skipped) : Prop where
  stat : ∀ name held, p.stats.get? name = some held → ∃ after, q.stats.get? name = some after ∧
    after.toInt =
      match (fields.lookup name).bind (change? name) with
      | some delta => (StatRange.ofStat name).nearest (held.toInt + delta.toInt)
      | none => held.toInt
  missing : ∀ name, p.stats.get? name = none → q.stats.get? name = none
  status : ∀ key, q.status? key = ((fields.lookup key).bind (assignment? key)).or (p.status? key)
  inventory : q.inventory =
    ((fields.filter isInventoryEntry).filterMap (fun (key, value) => stocking? key value)).foldl Stocking.apply
      p.inventory
  currentChapter : q.currentChapter = p.currentChapter
  revealed : q.revealed = p.revealed
  endings : q.endings = p.endings
  notices : notices = fields.filterMap (fun (key, value) => (objection? key value).map (Skipped.mk key))
  idle : ∀ key value, (objection? key value).isSome ↔
    stocking? key value = none ∧ assignment? key value = none ∧ change? key value = none
  order : ∀ others, fields.Perm others → fields.filter isInventoryEntry = others.filter isInventoryEntry →
    applyAll (ofJson (.object others)) p = q

theorem outcome_ofJson {fields : List (String × Json)} (h : (fields.map (·.1)).Nodup) (p : Player) :
    Outcome fields p (applyAll (ofJson (.object fields)) p) (skipped (ofJson (.object fields))) where
  stat := by
    intro name held hheld
    refine ⟨moved name ((fields.lookup name).bind (change? name)) held, ?_, ?_⟩
    · rw [stats_applyAll h, hheld, Option.map_some]
    · cases (fields.lookup name).bind (change? name) with
      | none => rfl
      | some delta => exact StatRange.toInt_clamp_saturatingAdd _ held delta
  missing := by
    intro name hmissing
    rw [stats_applyAll h, hmissing, Option.map_none]
  status := statuses_applyAll h p
  inventory := by rw [filterMap_stocking?, inventory_applyAll]
  currentChapter := (frame_applyAll _ p).1
  revealed := (frame_applyAll _ p).2.1
  endings := (frame_applyAll _ p).2.2
  notices := skipped_ofJson fields
  idle key value := (meaning_ofEntry key value).isSome_objection?
  order _ hperm hinventory := applyAll_of_perm h hperm hinventory p

/--
A sum that fits no word, a status with a number, and items of which one is no id.
-/
def hoard : List (String × Json) :=
  [("gold", .number (.int 9223372036854775807)), ("health", .number (.int (-300))),
    ("quest_status", .string "open"), ("luck_status", .number (.int 3)),
    ("inventory_add", .array [.string "rope", .array [.string "map"]]),
    ("inventory", .object [("action", .string "remove"), ("items", .array [.string "rope", .number (.int 7)])]),
    ("inventory_remove", .string "map")]

theorem outcome_ofJson_hoard :
    (hoard.map (·.1)).Nodup ∧
      Outcome hoard .fresh (applyAll (ofJson (.object hoard)) .fresh) (skipped (ofJson (.object hoard))) :=
  ⟨by decide, outcome_ofJson (by decide) .fresh⟩

example : (applyAll (ofJson (.object hoard)) .fresh).inventory = ["rope"] := by
  decide

end Effect

end Narrative
