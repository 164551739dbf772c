import Narrative.Proofs.Condition.Meaning

/-!
This module contains what the clauses of an object are read as: tests of the progress without expressions in them, or
all of several such tests, but never the condition that always holds.
-/

namespace Narrative.Condition

/--
A single test of the progress, or what could not be understood.
-/
inductive IsTest : Condition → Prop where
  | compare (stat : String) (op : Comparison) (value : Int64) : IsTest (.compare stat op value)
  | status (key : String) (expected : Expected) : IsTest (.status key expected)
  | hasItems (items : List String) : IsTest (.hasItems items)
  | lacksItems (items : List String) : IsTest (.lacksItems items)
  | revealed (chapters : List String) : IsTest (.revealed chapters)
  | notRevealed (chapters : List String) : IsTest (.notRevealed chapters)
  | malformed (reason : String) : IsTest (.malformed reason)

inductive IsClause : Condition → Prop where
  | test {c : Condition} (h : IsTest c) : IsClause c
  | all {tests : List Condition} (h : ∀ c ∈ tests, IsTest c) : IsClause (.all tests)

theorem IsClause.ne_always {c : Condition} (h : IsClause c) : c ≠ .always := by
  rintro rfl
  cases h with
  | test h => cases h

section

variable {key : String} {v : Json}

theorem isClause_conjunction {tests : List Condition} (hne : tests ≠ []) (h : ∀ c ∈ tests, IsTest c) :
    IsClause (conjunction tests) := by
  unfold conjunction
  split
  · exact absurd rfl hne
  · exact .test (h _ (List.mem_singleton.mpr rfl))
  · exact .all h

theorem isTest_ofIds {make : List String → Condition} (hmake : ∀ found, IsTest (make found)) :
    IsTest (ofIds make key v) := by
  unfold ofIds
  split
  · exact hmake _
  · exact .malformed _

theorem isTest_ofStatus : IsTest (ofStatus key v) := by
  unfold ofStatus
  split
  · exact .status _ _
  · split
    · exact .status _ _
    · exact .malformed _
  · exact .malformed _

theorem isTest_ofOperator {symbol : String} : IsTest (ofOperator key symbol v) := by
  unfold ofOperator
  split
  · exact .malformed _
  · split
    · exact .compare _ _ _
    · exact .malformed _

theorem isClause_ofOperators {entries : List (String × Json)} : IsClause (ofOperators key entries) := by
  unfold ofOperators
  split
  · exact .test (.malformed _)
  · next hne =>
    apply isClause_conjunction
    · simpa using hne
    · intro c hc
      obtain ⟨entry, -, rfl⟩ := List.mem_map.mp hc
      exact isTest_ofOperator

theorem isTest_ofShorthand {s : String} : IsTest (ofShorthand key s) := by
  unfold ofShorthand
  split
  · exact .compare _ _ _
  · exact .malformed _

theorem isClause_ofStat : IsClause (ofStat key v) := by
  unfold ofStat
  split
  · exact isClause_ofOperators
  · split
    · exact .test (.compare _ _ _)
    · exact .test (.malformed _)
  · split
    · exact .test (.compare _ _ _)
    · exact .test (.malformed _)
  · exact .test (.malformed _)

theorem isClause_ofPlain : IsClause (ofPlain key v) := by
  unfold ofPlain
  split
  · exact .test (isTest_ofIds .hasItems)
  · exact .test (isTest_ofIds .lacksItems)
  · exact .test (isTest_ofIds .revealed)
  · exact .test (isTest_ofIds .notRevealed)
  · exact isClause_ofStat

theorem isClause_ofClause (key : String) (v : Json) : IsClause (ofClause key v) := by
  unfold ofClause
  split
  · exact .test isTest_ofStatus
  · split
    · split
      · exact .test isTest_ofShorthand
      · exact isClause_ofPlain
    · exact isClause_ofPlain

end

/--
An object is its alternatives, if it has any, and otherwise all of its clauses.
-/
theorem ofEntry_object (fields : List (String × Json)) :
    ofEntry (.object fields) =
      ((fields.lookup "any").map ofAlternatives).getD (conjunction (fields.map (fun (key, v) => ofField key v))) := by
  rw [ofEntry, ofAny_eq_map, ofClauses_eq_map]
  split
  · next h => rw [h, Option.getD_some]
  · next h => rw [h, Option.getD_none]

end Narrative.Condition
