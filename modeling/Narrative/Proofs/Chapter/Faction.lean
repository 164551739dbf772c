import Narrative.Magic
import Narrative.Proofs.Chapter.Edit
import Narrative.Proofs.Chapter.Selection

/-!
This module contains the strategies of factions, told from the text of a chapter: a faction has one just when the text
writes one, with the condition and the responses that are written there.
-/

namespace Narrative.Decoder

theorem toOption_eq_some_iff {α ε : Type} {result : Except ε α} {a : α} :
    result.toOption = some a ↔ result = .ok a := by
  cases result <;> simp [Except.toOption]

/--
The value that an object has under a name.
-/
def member? (name : String) : Json → Option Json
  | .object fields => fields.lookup name
  | _ => none

/--
The fields of the strategy that is written in a faction.
-/
def strategyFields? (j : Json) : Option (String → Option Json) := do
  let field ← record? ["strategy"] j
  record? ["if", "then"] (← field "strategy")

/--
The fields of the strategy that the text of a chapter writes for a faction.
-/
def writtenStrategy? (text faction : String) : Option (String → Option Json) := do
  let factions ← member? "faction_ai" (← Json.parse? text)
  strategyFields? (← member? faction factions)

/--
The condition of a strategy, which never holds if none is written.
-/
def requirement (value : Option Json) : Condition :=
  (value.map Condition.ofRequired).getD (.malformed "strategy has no 'if' condition")

/--
A strategy is decoded from these fields.
-/
structure Writes (field : String → Option Json) (strategy : Strategy) : Prop where
  condition : strategy.condition = requirement (field "if")
  responses : withDefault? [] (list? response?) (field "then") = some strategy.responses

theorem rel_strategyFields? {j : Json} {found : Option Strategy} (h : faction? j = some found) :
    Option.Rel Writes (strategyFields? j) found := by
  simp only [faction?, Option.bind_eq_bind, Option.bind_eq_some_iff] at h
  obtain ⟨field, hfield, h⟩ := h
  simp only [strategyFields?, hfield, Option.bind_eq_bind, Option.bind_some]
  cases hstrategy : field "strategy" with
  | none =>
    rw [hstrategy] at h
    obtain rfl := Option.some.inj h
    exact .none
  | some value =>
    rw [hstrategy, withDefault?] at h
    rw [Option.bind_some]
    by_cases hnull : value = .null
    · subst hnull
      obtain rfl := Option.some.inj h
      exact .none
    · rw [nullable?_of_ne_null hnull, Option.map_eq_some_iff] at h
      obtain ⟨strategy, h, rfl⟩ := h
      simp only [strategy?, Option.bind_eq_bind, Option.bind_eq_some_iff, Option.pure_def, Option.some.injEq] at h
      obtain ⟨inner, hinner, responses, hresponses, rfl⟩ := h
      rw [hinner]
      exact .some ⟨rfl, hresponses⟩

theorem rel_lookup_of_entries? {α : Type} {read : Json → Option α} {fields : List (String × Json)}
    {entries : List (String × α)} (h : entries? read (.object fields) = some entries) (name : String) :
    Option.Rel (fun value a => read value = some a) (fields.lookup name) (entries.lookup name) := by
  simp only [entries?] at h
  induction fields generalizing entries with
  | nil =>
    cases h
    exact .none
  | cons field rest ih =>
    obtain ⟨other, value⟩ := field
    rw [List.mapM_cons] at h
    obtain ⟨entry, hentry, h⟩ := Option.bind_eq_some_iff.mp h
    obtain ⟨others, hothers, h⟩ := Option.bind_eq_some_iff.mp h
    obtain ⟨a, hread, rfl⟩ := Option.map_eq_some_iff.mp hentry
    cases h
    rw [Table.lookup_entry, Table.lookup_entry]
    split
    · exact .some hread
    · exact ih hothers

theorem factions_of_chapter? {fields : List (String × Json)} {chapter : Chapter} (h : chapter? fields = some chapter) :
    withDefault? .empty (fun j => (entries? faction? j).map .ofList) (fields.lookup "faction_ai") =
      some chapter.factions := by
  unfold chapter? at h
  simp only [Option.bind_eq_bind, Option.bind_eq_some_iff, Option.pure_def, Option.some.injEq] at h
  obtain ⟨_, _, _, _, _, _, _, _, _, _, _, _, _, _, factions, hfactions, _, _, _, _, _, _, rfl⟩ := h
  exact hfactions

/--
The factions of a chapter have the strategies that its text writes.
-/
theorem rel_writtenStrategy? {text : String} {chapter : Chapter} (h : Chapter.ofText text = .ok chapter)
    (faction : String) : Option.Rel Writes (writtenStrategy? text faction) (chapter.strategy? faction) := by
  obtain ⟨fields, hparse, hread⟩ := fields_of_ofText h
  have hfactions := factions_of_chapter? hread
  simp only [writtenStrategy?, hparse, member?, Option.bind_eq_bind, Option.bind_some]
  unfold Chapter.strategy?
  cases hlookup : fields.lookup "faction_ai" with
  | none =>
    rw [hlookup] at hfactions
    rw [← Option.some.inj hfactions]
    exact .none
  | some value =>
    rw [hlookup, withDefault?] at hfactions
    obtain ⟨entries, hentries, heq⟩ := Option.map_eq_some_iff.mp hfactions
    cases value with
    | object written =>
      have hnames : (entries.map (·.1)).Nodup := by
        cases (Json.distinctKeys_of_parse? hparse).of_lookup hlookup with
        | object hnames => rwa [names_of_entries? hentries]
      rw [← heq, Table.get?_ofList hnames]
      rw [Option.bind_some]
      dsimp only
      have hrel := rel_lookup_of_entries? hentries faction
      generalize written.lookup faction = j at hrel
      generalize entries.lookup faction = found at hrel
      cases hrel with
      | none => exact .none
      | some hfound => exact rel_strategyFields? hfound
    | null | bool | number | string | array => cases hentries

end Narrative.Decoder
