import Narrative.Player.Flat
import Narrative.Config.Basic
import Narrative.Proofs.Json.RoundTrip
import Narrative.Proofs.Session.Orderly
import Narrative.Proofs.Table

/-!
This module contains that the flat text of a player's progress can be read back just if no stat goes by the name of
one of the other fields. The statuses and the stats may be written in any order.
-/

namespace Narrative

namespace Player

open Json (Readable)

variable {p : Player} {statuses : List (String × String)} {stats : List (String × Int64)} {name : String}

def statusFields (statuses : List (String × String)) : List (String × Json) :=
  statuses.map (fun (key, value) => (key, .string value))

def statFields (stats : List (String × Int64)) : List (String × Json) :=
  stats.map (fun (name, value) => (name, .number (.int value.toInt)))

def namedFields (p : Player) (statuses : List (String × String)) : List (String × Json) :=
  [("currentChapter", .string p.currentChapter), ("inventory", listJson p.inventory),
    ("revealedChapters", listJson p.revealed), ("endings_unlocked", listJson p.endings),
    ("statuses", .object (statusFields statuses))]

/--
The flat form with the statuses and the stats in the given order.
-/
def flat (p : Player) (statuses : List (String × String)) (stats : List (String × Int64)) : Json :=
  .object (p.namedFields statuses ++ statFields stats)

/--
The texts of the progress, one for each order of its statuses and its stats.
-/
def IsFlatText (p : Player) (text : String) : Prop :=
  ∃ statuses stats, statuses.Perm p.statuses.entries ∧ stats.Perm p.stats.entries ∧
    text = (p.flat statuses stats).text

theorem isFlatText_toText (p : Player) : p.IsFlatText p.toText :=
  ⟨_, _, .refl _, .refl _, rfl⟩

theorem readable_listJson {room : Nat} (texts : List String) : Readable (room + 1) (listJson texts) := by
  apply Readable.array
  intro item hitem
  obtain ⟨text, -, rfl⟩ := List.mem_map.mp hitem
  exact .string text

theorem readable_flat {room : Nat} (p : Player) (statuses : List (String × String)) (stats : List (String × Int64)) :
    Readable (room + 2) (p.flat statuses stats) := by
  apply Readable.object
  rw [List.forall_mem_append]
  constructor
  · unfold namedFields
    simp only [List.forall_mem_cons]
    refine ⟨.string _, readable_listJson _, readable_listJson _, readable_listJson _, ?_, List.forall_mem_nil _⟩
    apply Readable.object
    intro field hfield
    obtain ⟨status, -, rfl⟩ := List.mem_map.mp hfield
    exact .string status.2
  · intro field hfield
    obtain ⟨stat, -, rfl⟩ := List.mem_map.mp hfield
    exact .int64 stat.2

theorem mapM_map {α β : Type} {write : α → β} {read : β → Option α} (h : ∀ a, read (write a) = some a)
    (l : List α) : (l.map write).mapM read = some l := by
  induction l with
  | nil => rfl
  | cons a rest ih =>
    rw [List.map_cons, List.mapM_cons, h, ih]
    rfl

theorem texts?_listJson (texts : List String) : texts? (listJson texts) = some texts := by
  show (texts.map Json.string).mapM Json.string? = some texts
  apply mapM_map
  intro text
  rfl

theorem readFields?_statusFields (statuses : List (String × String)) :
    readFields? Json.string? (statusFields statuses) = some statuses := by
  unfold readFields? statusFields
  apply mapM_map
  intro status
  rfl

theorem readFields?_statFields (stats : List (String × Int64)) :
    readFields? Json.int64? (statFields stats) = some stats := by
  unfold readFields? statFields
  apply mapM_map
  intro stat
  show (Text.word? stat.2.toInt).map (stat.1, ·) = some stat
  rw [Text.word?_toInt]
  rfl

theorem names_statFields : (statFields stats).map (·.1) = stats.map (·.1) := by
  unfold statFields
  rw [List.map_map]
  rfl

/--
A named field can be read unless it is given a second time.
-/
theorem named?_append {front back : List (String × Json)} {value : Json}
    (hfront : front.filter (·.1 == name) = [(name, value)]) :
    named? name (front ++ back) = if name ∈ back.map (·.1) then none else some (some value) := by
  unfold named?
  rw [List.filter_append, hfront]
  cases hback : back.filter (·.1 == name) with
  | nil =>
    rw [if_neg]
    · rfl
    · intro hmem
      obtain ⟨field, hfield, rfl⟩ := List.mem_map.mp hmem
      rw [List.filter_eq_nil_iff] at hback
      exact hback field hfield (beq_self_eq_true _)
  | cons field rest =>
    have hfield : field ∈ back.filter (·.1 == name) := by simp [hback]
    obtain ⟨hmem, heq⟩ := List.mem_filter.mp hfield
    rw [if_pos]
    · rfl
    · exact List.mem_map.mpr ⟨field, hmem, eq_of_beq heq⟩

theorem named?_flat {value : Json} (hfront : (p.namedFields statuses).filter (·.1 == name) = [(name, value)])
    (h : name ∉ stats.map (·.1)) : named? name (p.namedFields statuses ++ statFields stats) = some (some value) := by
  rw [named?_append hfront, names_statFields, if_neg h]

theorem optional?_of_named? {α : Type} {fields : List (String × Json)} {value : Json} {read : Json → Option α}
    {absent : α} (h : named? name fields = some (some value)) : optional? name fields read absent = read value := by
  unfold optional?
  rw [h]
  rfl

theorem stats?_flat (h : ∀ name ∈ flatNames, name ∉ stats.map (·.1)) :
    stats? (p.namedFields statuses ++ statFields stats) = some (.ofList stats) := by
  have hkept : (statFields stats).filter (fun field => !flatNames.contains field.1) = statFields stats := by
    rw [List.filter_eq_self]
    intro field hfield
    rw [Bool.not_eq_true', List.contains_eq_mem, decide_eq_false_iff_not]
    intro hname
    apply h _ hname
    rw [← names_statFields]
    exact List.mem_map_of_mem hfield
  have hothers : (p.namedFields statuses ++ statFields stats).filter (fun field => !flatNames.contains field.1) =
      statFields stats := by
    rw [List.filter_append, hkept]
    rfl
  show (readFields? Json.int64? ((p.namedFields statuses ++ statFields stats).filter
    (fun field => !flatNames.contains field.1))).map Table.ofList = _
  rw [hothers, readFields?_statFields]
  rfl

/--
Without a stat of such a name, the flat form is read as the progress.
-/
theorem ofJson?_flat (hstatuses : statuses.Perm p.statuses.entries) (hstats : stats.Perm p.stats.entries)
    (h : ∀ name ∈ flatNames, name ∉ stats.map (·.1)) : ofJson? (p.flat statuses stats) = some p := by
  have hread : statuses? (.object (statusFields statuses)) = some p.statuses := by
    show (readFields? Json.string? (statusFields statuses)).map Table.ofList = _
    rw [readFields?_statusFields, Option.map_some, Table.ofList_of_perm hstatuses]
  unfold ofJson? flat
  dsimp only
  rw [named?_flat rfl (h "currentChapter" (by decide)),
    optional?_of_named? (named?_flat rfl (h "inventory" (by decide))),
    optional?_of_named? (named?_flat rfl (h "revealedChapters" (by decide))),
    optional?_of_named? (named?_flat rfl (h "endings_unlocked" (by decide))),
    optional?_of_named? (named?_flat rfl (h "statuses" (by decide))), stats?_flat h, texts?_listJson, texts?_listJson,
    texts?_listJson, hread, Table.ofList_of_perm hstats]
  rfl

theorem mem_flatNames : name ∈ flatNames ↔ name = "currentChapter" ∨ name = "inventory" ∨
    name = "revealedChapters" ∨ name = "endings_unlocked" ∨ name = "statuses" := by
  unfold flatNames
  simp only [List.mem_cons, List.not_mem_nil, or_false]

theorem exists_namedField (p : Player) (statuses : List (String × String)) (h : name ∈ flatNames) :
    ∃ value, (p.namedFields statuses).filter (·.1 == name) = [(name, value)] := by
  rcases mem_flatNames.mp h with rfl | rfl | rfl | rfl | rfl
  all_goals exact ⟨_, rfl⟩

theorem named?_of_optional? {α : Type} {fields : List (String × Json)} {read : Json → Option α} {absent a : α}
    (h : optional? name fields read absent = some a) : named? name fields ≠ none := by
  intro hnone
  unfold optional? at h
  rw [hnone] at h
  cases h

theorem named?_of_ofJson? {fields : List (String × Json)} {q : Player} (h : ofJson? (.object fields) = some q) :
    ∀ name ∈ flatNames, named? name fields ≠ none := by
  unfold ofJson? at h
  simp only [Option.bind_eq_bind, Option.bind_eq_some_iff] at h
  obtain ⟨current, hcurrent, h⟩ := h
  cases current with
  | none => cases h
  | some current =>
  simp only [Option.bind_eq_some_iff] at h
  obtain ⟨_, _, _, hinventory, _, hrevealed, _, hendings, _, hstatuses, _⟩ := h
  intro name hname
  rcases mem_flatNames.mp hname with rfl | rfl | rfl | rfl | rfl
  · rw [hcurrent]
    nofun
  · exact named?_of_optional? hinventory
  · exact named?_of_optional? hrevealed
  · exact named?_of_optional? hendings
  · exact named?_of_optional? hstatuses

/--
A stat of such a name makes the flat form unreadable.
-/
theorem ofJson?_flat_eq_none (hname : name ∈ flatNames) (h : name ∈ stats.map (·.1)) :
    ofJson? (p.flat statuses stats) = none := by
  rw [Option.eq_none_iff_forall_ne_some]
  intro q hread
  obtain ⟨value, hvalue⟩ := exists_namedField p statuses hname
  apply named?_of_ofJson? hread name hname
  rw [named?_append hvalue, names_statFields, if_pos h]

theorem ofText?_flat (p : Player) (statuses : List (String × String)) (stats : List (String × Int64)) :
    ofText? (p.flat statuses stats).text = ofJson? (p.flat statuses stats) := by
  unfold ofText?
  rw [Json.parseFields?_text (readable_flat p statuses stats), Option.bind_some]

theorem hasStat_iff : p.hasStat name ↔ name ∈ p.stats.entries.map (·.1) := by
  unfold hasStat Table.contains Table.get?
  rw [Option.isSome_iff_ne_none, ne_eq, Table.lookup_eq_none_iff, not_not]

theorem hasStat_setStat (p : Player) (other : String) (value : Int64) :
    (p.setStat other value).hasStat name ↔ name = other ∨ p.hasStat name := by
  unfold hasStat setStat Table.contains
  rw [Table.get?_insert]
  by_cases h : name = other
  · simp [h]
  · simp [h]

theorem hasStat_foldl_setStat (entries : List (String × Int64)) (p : Player) :
    (entries.foldl (fun p (name, value) => p.setStat name value) p).hasStat name ↔
      name ∈ entries.map (·.1) ∨ p.hasStat name := by
  induction entries generalizing p with
  | nil => simp
  | cons entry rest ih =>
    rw [List.foldl_cons, ih, hasStat_setStat, List.map_cons, List.mem_cons, or_left_comm, or_assoc]

/--
A stat that the configuration gives is one that the progress starts with.
-/
theorem hasStat_initialPlayer {config : Config} (h : config.initialStats.contains name) :
    config.initialPlayer.hasStat name := by
  apply (hasStat_foldl_setStat config.initialStats.entries fresh).mpr
  left
  unfold Table.contains Table.get? at h
  rw [Option.isSome_iff_ne_none, ne_eq, Table.lookup_eq_none_iff, not_not] at h
  exact h

theorem IsFlatText.ofText?_eq_some {text : String} (htext : p.IsFlatText text)
    (h : ∀ name ∈ flatNames, ¬p.hasStat name) : ofText? text = some p := by
  obtain ⟨statuses, stats, hstatuses, hstats, rfl⟩ := htext
  rw [ofText?_flat, ofJson?_flat hstatuses hstats]
  intro name hname
  rw [(hstats.map (·.1)).mem_iff, ← hasStat_iff]
  exact h name hname

theorem IsFlatText.ofText?_eq_none {text : String} (htext : p.IsFlatText text) (hname : name ∈ flatNames)
    (h : p.hasStat name) : ofText? text = none := by
  obtain ⟨statuses, stats, -, hstats, rfl⟩ := htext
  rw [hasStat_iff, ← (hstats.map (·.1)).mem_iff] at h
  rw [ofText?_flat, ofJson?_flat_eq_none hname h]

/--
The texts of the progress are read as the progress just if no stat goes by the name of another field, and otherwise
are refused.
-/
structure RoundTrips (p : Player) : Prop where
  written : p.IsFlatText p.toText
  read_iff : ∀ text, p.IsFlatText text → (ofText? text = some p ↔ ∀ name ∈ flatNames, ¬p.hasStat name)
  refused : ∀ text, p.IsFlatText text → ∀ name ∈ flatNames, p.hasStat name → ofText? text = none

theorem roundTrips (p : Player) : p.RoundTrips where
  written := p.isFlatText_toText
  read_iff := by
    intro text htext
    constructor
    · intro hread name hname hstat
      rw [htext.ofText?_eq_none hname hstat] at hread
      cases hread
    · exact htext.ofText?_eq_some
  refused := fun text htext name => htext.ofText?_eq_none

end Player

namespace Session

/--
A configuration that gives a stat the name of another field keeps the progress of its playthroughs from being read
back.
-/
theorem ofText?_eq_none_of_configured (config : Config) (source : Option ContentSource) (calls : List Call)
    {name : String} (hname : name ∈ Player.flatNames) (h : config.initialStats.contains name) {text : String}
    (htext : ((Session.new config source none).run calls).player.IsFlatText text) : Player.ofText? text = none := by
  have horderly : (Session.new config source none).Orderly calls := by
    apply Grown.orderly (coherent_new config source none)
    · exact config.wellFormed_initialPlayer
    · exact .of_player rfl (.refl _)
  apply htext.ofText?_eq_none hname
  by_cases hreset : .reset ∈ calls
  · rw [horderly.hasStat_reset hreset]
    exact Player.hasStat_initialPlayer h
  · rw [horderly.hasStat_eq hreset]
    exact Player.hasStat_initialPlayer h

end Session

/--
Whatever the progress, its flat text can be read back just if no stat goes by a taken name. Playthroughs come to such
progress through the stats of their configuration.
-/
theorem Player.flat_roundTrip : (∀ p : Player, p.RoundTrips) ∧
    ∀ (config : Config) (source : Option ContentSource) (calls : List Call),
      ∀ name ∈ flatNames, config.initialStats.contains name →
        ∀ text, ((Session.new config source none).run calls).player.IsFlatText text → ofText? text = none :=
  ⟨roundTrips, fun config source calls _ hname hconfig _ htext =>
    Session.ofText?_eq_none_of_configured config source calls hname hconfig htext⟩

end Narrative
