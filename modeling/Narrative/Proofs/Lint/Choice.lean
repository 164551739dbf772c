import Narrative.Proofs.Effect.Outcome
import Narrative.Proofs.Lint.Navigation
import Std.Data.String.ToNat

/-!
This module contains that the linter and the session agree on where a choice leads. What the linter finds at the place
of a choice says whether the choice can be taken, and which document is asked for when it is.
-/

namespace Narrative

/--
Where a choice leads, by its `next` and the chapter that it reveals. It may be nowhere, for two reasons.
-/
inductive Choice.Leads (choice : Choice) : Except ResolveError Successor → Prop where
  | named {next : String} (hnext : choice.next = some next) (hmark : next ≠ revealMark) :
      Leads choice (.ok (.ofId next))
  | revealed {target : String} (hnext : choice.next = none ∨ choice.next = some revealMark)
      (hreveal : choice.reveal = some target) : Leads choice (.ok (.reveal target))
  | nowhere (hnext : choice.next = none) (hreveal : choice.reveal = none) :
      Leads choice (.error (.noSuccessor choice.text))
  | unnamed (hnext : choice.next = some revealMark) (hreveal : choice.reveal = none) :
      Leads choice (.error (.revealWithoutTarget choice.text))

theorem Choice.leads_successor (choice : Choice) : choice.Leads choice.successor := by
  unfold successor
  split
  · next next hnext =>
    split
    · next hmark =>
      subst hmark
      cases hreveal : choice.reveal with
      | some target => exact .revealed (.inr hnext) hreveal
      | none => exact .unnamed hnext hreveal
    · next hmark => exact .named hnext hmark
  · next hnext hreveal => exact .revealed (.inl hnext) hreveal
  · next hnext hreveal => exact .nowhere hnext hreveal

namespace Effect

def isInvalid : Effect → Bool
  | .invalid _ _ => true
  | _ => false

/--
The entry that a notice is about.
-/
def ofSkipped (w : Skipped) : Effect :=
  .invalid w.key w.reason

theorem map_ofSkipped (effects : List Effect) : (skipped effects).map ofSkipped = effects.filter isInvalid := by
  unfold skipped
  rw [List.map_filterMap, ← List.filterMap_eq_filter]
  apply List.filterMap_congr
  intro effect _
  cases effect <;> rfl

end Effect

namespace Lint

variable {ids : List String} {label place : String} {before after : List Choice} {choice : Choice} {defect : Defect}

/--
The defect for which a choice leads nowhere.
-/
def defectOf : ResolveError → Defect
  | .noSuccessor _ => .noSuccessor
  | .revealWithoutTarget _ => .revealWithoutTarget

/--
What the linter has to say about where a choice leads.
-/
def successorDefects (ids : List String) : Except ResolveError Successor → List Defect
  | .error e => [defectOf e]
  | .ok successor => if ids.contains successor.id then [] else [.unknownDocument successor.id]

theorem successorFindings_some (id : String) : successorFindings ids place (some id) =
    (if ids.contains id then [] else [Defect.unknownDocument id]).map (Finding.mk place) := by
  unfold successorFindings
  dsimp only
  split <;> rfl

/--
The linter finds out by its own cases where a choice leads, and comes to the same as the choice does.
-/
theorem findings_successor (ids : List String) (place : String) (choice : Choice) :
    (if choice.next.isNone && choice.reveal.isNone then [⟨place, .noSuccessor⟩] else []) ++
        targetFindings ids place choice =
      (successorDefects ids choice.successor).map (Finding.mk place) := by
  have hleads := choice.leads_successor
  generalize choice.successor = outcome at hleads
  unfold targetFindings successorDefects
  cases hleads with
  | @named next hnext hmark =>
    rw [hnext]
    dsimp only
    rw [if_neg hmark, Successor.id_ofId]
    exact successorFindings_some next
  | revealed hnext hreveal =>
    rw [hreveal]
    rcases hnext with hnext | hnext
    · rw [hnext]
      exact successorFindings_some _
    · rw [hnext]
      exact successorFindings_some _
  | nowhere hnext hreveal =>
    rw [hnext, hreveal]
    rfl
  | unnamed hnext hreveal =>
    rw [hnext, hreveal]
    rfl

/--
The linter finds the defect in a list of choices, at the place of the choice with the given index.
-/
def Reports (ids : List String) (label : String) (choices : List Choice) (index : Nat) (defect : Defect) : Prop :=
  ⟨s!"{label} #{index}", defect⟩ ∈ choicesFindings ids label choices

theorem place_inj {i j : Nat} : s!"{label} #{i}" = s!"{label} #{j}" ↔ i = j := by
  constructor
  · intro h
    exact Nat.repr_injective ((String.append_right_inj _).mp h)
  · rintro rfl
    rfl

/--
A defect in where a choice leads.
-/
inductive Defect.OfSuccessor : Defect → Prop where
  | noSuccessor : OfSuccessor .noSuccessor
  | revealWithoutTarget : OfSuccessor .revealWithoutTarget
  | unknownDocument (id : String) : OfSuccessor (.unknownDocument id)

/--
The other checks of a choice do not find such a defect, not even at another place.
-/
theorem mem_choiceFindings (h : defect.OfSuccessor) {other : String} :
    ⟨other, defect⟩ ∈ choiceFindings ids place choice ↔
      other = place ∧ defect ∈ successorDefects ids choice.successor := by
  have hincomplete :
      ⟨other, defect⟩ ∉ if choice.isWellFormed then [] else [(⟨place, .incomplete⟩ : Finding)] := by
    cases h <;> split <;> simp
  have hcondition (what : String) (c : Condition) : ⟨other, defect⟩ ∉ conditionFindings what c := by
    cases h <;> simp [conditionFindings]
  have heffect (effects : List Effect) : ⟨other, defect⟩ ∉ effectFindings place effects := by
    cases h <;> simp [effectFindings]
  unfold choiceFindings
  rw [List.append_assoc (if choice.isWellFormed then [] else _), findings_successor, List.mem_append, List.mem_append,
    List.mem_append, or_iff_left (heffect _), or_iff_left (hcondition _ _), or_iff_right hincomplete, List.mem_map]
  simp only [Finding.mk.injEq]
  constructor
  · rintro ⟨_, hmem, rfl, rfl⟩
    exact ⟨rfl, hmem⟩
  · rintro ⟨rfl, hmem⟩
    exact ⟨defect, hmem, rfl, rfl⟩

theorem reports_iff (h : defect.OfSuccessor) : Reports ids label (before ++ choice :: after) before.length defect ↔
    defect ∈ successorDefects ids choice.successor := by
  have hchoice : (before ++ choice :: after)[before.length]? = some choice := by simp
  unfold Reports choicesFindings
  rw [List.mem_flatMap]
  constructor
  · rintro ⟨⟨other, index⟩, hmem, hfinding⟩
    obtain ⟨hplace, hdefect⟩ := (mem_choiceFindings h).mp hfinding
    rw [List.mem_zipIdx_iff_getElem?, ← place_inj.mp hplace, hchoice] at hmem
    cases hmem
    exact hdefect
  · intro hdefect
    exact ⟨(choice, before.length), List.mem_zipIdx_iff_getElem?.mpr hchoice, (mem_choiceFindings h).mpr ⟨rfl, hdefect⟩⟩

theorem ofSuccessor_defectOf (e : ResolveError) : (defectOf e).OfSuccessor := by
  cases e with
  | noSuccessor => exact .noSuccessor
  | revealWithoutTarget => exact .revealWithoutTarget

theorem exists_error_iff {outcome : Except ResolveError Successor} : (∃ e, outcome = .error e) ↔
    .noSuccessor ∈ successorDefects ids outcome ∨ .revealWithoutTarget ∈ successorDefects ids outcome := by
  unfold successorDefects
  cases outcome with
  | error e => cases e <;> simp [defectOf]
  | ok successor =>
    dsimp only
    split <;> simp

theorem unknownDocument_mem_iff {successor : Successor} {id : String} :
    .unknownDocument id ∈ successorDefects ids (.ok successor) ↔ id = successor.id ∧ successor.id ∉ ids := by
  unfold successorDefects
  dsimp only
  split
  · next h => simp [List.contains_iff_mem.mp h]
  · next h =>
    rw [List.contains_iff_mem] at h
    simp [h]

/--
Taking a choice is all or nothing, and the linter knows which. It reports that the choice has no successor, or reveals a
chapter without naming one, just where taking it fails; then nothing has happened. A choice that is taken has all its
effects, after which a revealed chapter is recorded once. The notices are of the entries that are no effects, and the
linter misses the document just where it does not know the id.
-/
structure ResolvesAsReported (reports : Defect → Prop) (ids : List String) (choice : Choice) (p : Player) : Prop where
  fails : (∃ e, choice.resolve p = .error e) ↔ reports .noSuccessor ∨ reports .revealWithoutTarget
  cause : ∀ e, choice.resolve p = .error e → reports (defectOf e)
  untouched : ∀ (s : Session) (index : Nat) (chapter : Chapter) (e : ResolveError),
    s.choiceAt? index = some (chapter, choice) → s.player = p → choice.resolve p = .error e →
      (s.takeChoice index).session = s
  kept : ∀ r, choice.resolve p = .ok r → (∀ id, r.successor ≠ .reveal id) →
    r.player = Effect.applyAll choice.effects p
  recorded : ∀ r id, choice.resolve p = .ok r → r.successor = .reveal id →
    r.player = { Effect.applyAll choice.effects p with
      revealed := if id ∈ p.revealed then p.revealed else p.revealed ++ [id] }
  notices : ∀ r, choice.resolve p = .ok r → r.skipped.map Effect.ofSkipped = choice.effects.filter Effect.isInvalid
  unknown : ∀ r, choice.resolve p = .ok r → ∀ id,
    reports (.unknownDocument id) ↔ id = r.successor.id ∧ r.successor.id ∉ ids

theorem resolvesAsReported (ids : List String) (label : String) (before after : List Choice) (choice : Choice)
    (p : Player) :
    ResolvesAsReported (Reports ids label (before ++ choice :: after) before.length) ids choice p where
  fails := by
    rw [reports_iff .noSuccessor, reports_iff .revealWithoutTarget]
    simp only [Choice.resolve_eq_error_iff]
    exact exists_error_iff
  cause := by
    intro e herror
    rw [reports_iff (ofSuccessor_defectOf e), Choice.resolve_eq_error_iff.mp herror]
    exact List.mem_singleton_self _
  untouched := by
    rintro s index chapter e hchoice rfl herror
    rw [Session.takeChoice_of_error hchoice (Choice.resolve_eq_error_iff.mp herror)]
    rfl
  kept := by
    intro r hresolve hsuccessor
    rw [(Choice.of_resolve hresolve).2.1]
    cases hkind : r.successor with
    | reveal id => exact absurd hkind (hsuccessor id)
    | chapter id => rfl
    | ending id => rfl
  recorded := by
    intro r id hresolve hsuccessor
    rw [(Choice.of_resolve hresolve).2.1, hsuccessor]
    dsimp only [Successor.revealed?]
    unfold Player.reveal Player.appendNew
    rw [(Effect.frame_applyAll choice.effects p).2.1]
    simp only [List.contains_iff_mem]
  notices := by
    intro r hresolve
    rw [(Choice.of_resolve hresolve).2.2]
    exact Effect.map_ofSkipped choice.effects
  unknown := by
    intro r hresolve id
    rw [reports_iff (.unknownDocument id), (Choice.of_resolve hresolve).1]
    exact unknownDocument_mem_iff

end Lint

end Narrative
