import Narrative.Proofs.Chapter.Faction
import Narrative.Proofs.Condition.Repair
import Narrative.Proofs.Lint.Choice
import Narrative.Proofs.Text.Numeral

/-!
This module contains what the linter finds with a choice, by the place where the choice stands. A variant's choices are
checked like the chapter's own, but for the characters that they name.
-/

namespace Narrative

open Text

/--
Where a choice of a chapter stands: in the list of a variant, or in the chapter's own.
-/
structure Site where
  variant : Option Nat
  index : Nat
  deriving DecidableEq, Repr

namespace Chapter

variable {chapter : Chapter}

def choicesOf (chapter : Chapter) : Option Nat → List Choice
  | none => chapter.choices
  | some v => (chapter.variants[v]?.bind Variant.choices).getD []

def choiceAt? (chapter : Chapter) (site : Site) : Option Choice :=
  (chapter.choicesOf site.variant)[site.index]?

theorem choicesOf_some {variant : Variant} {v : Nat} (h : chapter.variants[v]? = some variant) :
    chapter.choicesOf (some v) = variant.choices.getD [] := by
  rw [choicesOf, h, Option.bind_some]

/--
The choices that are presented of a chapter are all from one list: that of the variant that applies, or the chapter's
own.
-/
theorem exists_choicesOf (chapter : Chapter) (p : Player) :
    ∃ v, (v = none ∨ v = (ActiveContent.ofChapter chapter p).variant) ∧
      (ActiveContent.ofChapter chapter p).choices = chapter.choicesOf v := by
  unfold ActiveContent.ofChapter
  split
  · next variant index hfind =>
    have hvariant := List.mem_zipIdx_iff_getElem?.mp (List.mem_of_find?_eq_some hfind)
    -- A variant without choices of its own leaves the chapter's in place.
    cases hchoices : variant.choices with
    | none => exact ⟨none, .inl rfl, by rw [ActiveContent.overlay, hchoices]; rfl⟩
    | some choices =>
      refine ⟨some index, .inr rfl, ?_⟩
      rw [choicesOf_some hvariant, ActiveContent.overlay, hchoices]
      rfl
  · exact ⟨none, .inl rfl, rfl⟩

end Chapter

namespace Lint

/--
What is wrong with a choice, whatever chapter it belongs to.
-/
inductive Defective (ids : List String) (choice : Choice) : Defect → Prop where
  | incomplete (h : choice.isWellFormed = false) : Defective ids choice .incomplete
  | nowhere {e : ResolveError} (h : choice.successor = .error e) : Defective ids choice (defectOf e)
  | unknownDocument {successor : Successor} (h : choice.successor = .ok successor) (hid : successor.id ∉ ids) :
      Defective ids choice (.unknownDocument successor.id)
  | malformedCondition {reason : String} (h : choice.requires.Reports reason) :
      Defective ids choice (.malformedCondition reason)
  | invalidEffect {key reason : String} (h : .invalid key reason ∈ choice.effects) :
      Defective ids choice (.invalidEffect s!"'{key}': {reason}")

/--
What is wrong with a choice in a chapter that does not list the characters which the choice names.
-/
inductive Unlisted (chapter : Chapter) (choice : Choice) : Defect → Prop where
  | unlistedCharacter {id : String} (h : id ∈ choice.characters)
      (hunlisted : ∀ character ∈ chapter.characters, character.id ≠ id) :
      Unlisted chapter choice (.unlistedCharacter id)

/--
The label of a list of choices.
-/
def listLabel : Option Nat → String
  | none => "choice"
  | some v => s!"variant #{v} choice"

def siteLabel (site : Site) : String :=
  s!"{listLabel site.variant} #{site.index}"

/--
The part of a choice that a defect is in, behind the label of the choice. It is empty for the choice as a whole.
-/
def Defect.part : Defect → String
  | .malformedCondition _ => " requires"
  | _ => ""

def findingAt (site : Site) (defect : Defect) : Finding :=
  ⟨siteLabel site ++ defect.part, defect⟩

/--
The linter finds the defect in a chapter, at the place of the choice that stands at the site.
-/
def Finds (ids : List String) (config : Config) (chapter : Chapter) (site : Site) (defect : Defect) : Prop :=
  findingAt site defect ∈ chapterFindings ids config chapter

section

variable {ids : List String} {place other : String} {choice : Choice} {defect : Defect}

/--
What is wrong with a choice, in the order in which the linter finds it.
-/
def choiceDefects (ids : List String) (choice : Choice) : List Defect :=
  (if choice.isWellFormed then [] else [.incomplete]) ++ successorDefects ids choice.successor ++
    choice.requires.problems.map .malformedCondition ++ (Effect.problems choice.effects).map .invalidEffect

theorem mem_successorDefects : defect ∈ successorDefects ids choice.successor ↔
    (∃ e, choice.successor = .error e ∧ defect = defectOf e) ∨
      ∃ successor, choice.successor = .ok successor ∧ successor.id ∉ ids ∧ defect = .unknownDocument successor.id := by
  unfold successorDefects
  cases choice.successor with
  | error e => simp
  | ok successor => simp

theorem mem_problems {effects : List Effect} {problem : String} : problem ∈ Effect.problems effects ↔
    ∃ key reason, .invalid key reason ∈ effects ∧ problem = s!"'{key}': {reason}" := by
  unfold Effect.problems Effect.skipped
  rw [List.map_filterMap, List.mem_filterMap]
  constructor
  · rintro ⟨effect, hmem, hproblem⟩
    cases effect with
    | invalid key reason =>
      cases hproblem
      exact ⟨key, reason, hmem, rfl⟩
    | adjust | addItems | removeItems | setStatus => cases hproblem
  · rintro ⟨key, reason, hmem, rfl⟩
    exact ⟨.invalid key reason, hmem, rfl⟩

theorem mem_choiceDefects : defect ∈ choiceDefects ids choice ↔ Defective ids choice defect := by
  unfold choiceDefects
  simp only [List.mem_append, List.mem_map, mem_successorDefects, Condition.mem_problems, mem_problems]
  constructor
  · rintro (((h | ⟨e, h, rfl⟩ | ⟨successor, h, hid, rfl⟩) | ⟨reason, h, rfl⟩) | ⟨_, ⟨key, reason, h, rfl⟩, rfl⟩)
    · split at h
      · cases h
      · next hincomplete =>
        rw [List.mem_singleton.mp h]
        exact .incomplete (Bool.not_eq_true _ ▸ hincomplete)
    · exact .nowhere h
    · exact .unknownDocument h hid
    · exact .malformedCondition h
    · exact .invalidEffect h
  · intro h
    cases h with
    | incomplete h => exact .inl (.inl (.inl (by simp [h])))
    | nowhere h => exact .inl (.inl (.inr (.inl ⟨_, h, rfl⟩)))
    | unknownDocument h hid => exact .inl (.inl (.inr (.inr ⟨_, h, hid, rfl⟩)))
    | malformedCondition h => exact .inl (.inr ⟨_, h, rfl⟩)
    | invalidEffect h => exact .inr ⟨_, ⟨_, _, h, rfl⟩, rfl⟩

theorem part_of_mem_successorDefects (h : defect ∈ successorDefects ids choice.successor) : defect.part = "" := by
  rcases mem_successorDefects.mp h with ⟨e, -, rfl⟩ | ⟨_, -, -, rfl⟩
  · cases e <;> rfl
  · rfl

theorem choiceFindings_eq (ids : List String) (place : String) (choice : Choice) :
    choiceFindings ids place choice = (choiceDefects ids choice).map fun defect => ⟨place ++ defect.part, defect⟩ := by
  have hincomplete : (if choice.isWellFormed then [] else [Defect.incomplete]).map
      (fun defect => (⟨place ++ defect.part, defect⟩ : Finding)) =
        if choice.isWellFormed then [] else [⟨place, .incomplete⟩] := by
    split <;> simp [Defect.part]
  have hsuccessor : (successorDefects ids choice.successor).map
      (fun defect => (⟨place ++ defect.part, defect⟩ : Finding)) =
        (successorDefects ids choice.successor).map (Finding.mk place) := by
    apply List.map_congr_left
    intro defect h
    rw [part_of_mem_successorDefects h, String.append_empty]
  unfold choiceFindings choiceDefects
  rw [List.append_assoc (if choice.isWellFormed then [] else _), findings_successor, ← hsuccessor, ← hincomplete]
  simp only [List.map_append, List.map_map, conditionFindings, effectFindings]
  simp only [Function.comp_def, Defect.part, String.append_empty]
  rfl

theorem mem_choiceFindings_iff : ⟨other, defect⟩ ∈ choiceFindings ids place choice ↔
    other = place ++ defect.part ∧ Defective ids choice defect := by
  rw [choiceFindings_eq, List.mem_map, ← mem_choiceDefects]
  simp only [Finding.mk.injEq]
  constructor
  · rintro ⟨_, hmem, rfl, rfl⟩
    exact ⟨rfl, hmem⟩
  · rintro ⟨rfl, hmem⟩
    exact ⟨defect, hmem, rfl, rfl⟩

theorem mem_choicesFindings_iff {list : Option Nat} {choices : List Choice} :
    ⟨place, defect⟩ ∈ choicesFindings ids (listLabel list) choices ↔
      ∃ (index : Nat) (choice : Choice), choices[index]? = some choice ∧
        place = siteLabel ⟨list, index⟩ ++ defect.part ∧ Defective ids choice defect := by
  unfold choicesFindings
  simp only [List.mem_flatMap, List.mem_zipIdx_iff_getElem?, Prod.exists, mem_choiceFindings_iff]
  rw [exists_comm]
  rfl

end

/--
The places of all findings begin with the character. It tells the parts of a chapter apart.
-/
def Begin (c : Char) (findings : List Finding) : Prop :=
  ∀ finding ∈ findings, finding.place.toList.head? = some c

section

variable {ids : List String} {config : Config} {chapter : Chapter} {c d : Char} {place : String} {finding : Finding}

theorem head?_append {front : String} (h : front.toList.head? = some c) (back : String) :
    (front ++ back).toList.head? = some c := by
  rw [String.toList_append, List.head?_append, h]
  rfl

theorem Begin.not_mem {findings : List Finding} (h : Begin c findings) (hplace : finding.place.toList.head? = some d)
    (hne : c ≠ d) : finding ∉ findings := by
  intro hmem
  rw [h finding hmem] at hplace
  exact hne (Option.some.inj hplace)

theorem begin_append {a b : List Finding} : Begin c (a ++ b) ↔ Begin c a ∧ Begin c b :=
  List.forall_mem_append

theorem begin_flatMap {α : Type} {l : List α} {f : α → List Finding} (h : ∀ a ∈ l, Begin c (f a)) :
    Begin c (l.flatMap f) := by
  intro finding hfinding
  obtain ⟨a, ha, hfinding⟩ := List.mem_flatMap.mp hfinding
  exact h a ha finding hfinding

theorem begin_map {α : Type} (hplace : place.toList.head? = some c) (l : List α) (f : α → Defect) :
    Begin c (l.map fun a => ⟨place, f a⟩) := by
  intro finding hfinding
  obtain ⟨a, -, rfl⟩ := List.mem_map.mp hfinding
  exact hplace

theorem begin_singleton (hplace : place.toList.head? = some c) (defect : Defect) : Begin c [⟨place, defect⟩] :=
  List.forall_mem_singleton.mpr hplace

theorem place_of_mem_conditionFindings {condition : Condition} (h : finding ∈ conditionFindings place condition) :
    finding.place = place := by
  obtain ⟨_, -, rfl⟩ := List.mem_map.mp h
  rfl

theorem place_of_mem_successorFindings {id : Option String} (h : finding ∈ successorFindings ids place id) :
    finding.place = place := by
  cases id with
  | none => cases h
  | some id =>
    rw [successorFindings_some] at h
    obtain ⟨_, -, rfl⟩ := List.mem_map.mp h
    rfl

theorem begin_successorFindings (hplace : place.toList.head? = some c) (ids : List String) (id : Option String) :
    Begin c (successorFindings ids place id) := by
  intro finding hfinding
  rwa [place_of_mem_successorFindings hfinding]

theorem begin_choicesFindings {list : Option Nat} (hlabel : (listLabel list).toList.head? = some c) (ids : List String)
    (choices : List Choice) : Begin c (choicesFindings ids (listLabel list) choices) := by
  rintro ⟨place, defect⟩ hfinding
  obtain ⟨index, _, _, rfl, _⟩ := mem_choicesFindings_iff.mp hfinding
  exact head?_append (head?_append (head?_append hlabel _) _) _

theorem variantFindings_eq (ids : List String) (variant : Variant) (index : Nat) :
    variantFindings ids variant index =
      conditionFindings s!"variant #{index} trigger" variant.trigger.condition ++
        choicesFindings ids (listLabel (some index)) (variant.choices.getD []) ++
        successorFindings ids s!"variant #{index} default_next" variant.defaultNext := rfl

theorem begin_variantFindings (ids : List String) (variant : Variant) (index : Nat) :
    Begin 'v' (variantFindings ids variant index) := by
  rw [variantFindings_eq, begin_append, begin_append]
  refine ⟨⟨begin_map ?_ _ _, begin_choicesFindings ?_ ids _⟩, begin_successorFindings ?_ ids _⟩
  all_goals exact head?_append (head?_append rfl _) _

theorem begin_spellFindings (chapter : Chapter) (config : Config) (name : String) (spell : Spell) :
    Begin 's' (spellFindings chapter config name spell) := by
  have hplace : (s!"spell '{name}'").toList.head? = some 's' := head?_append (head?_append rfl _) _
  unfold spellFindings
  rw [begin_append, begin_append]
  refine ⟨⟨?_, begin_map (head?_append hplace _) _ _⟩, begin_flatMap ?_⟩
  · split
    · exact nofun
    · exact begin_singleton hplace _
  · intro effect _
    unfold spellEffectFindings
    split
    · split
      · exact nofun
      · exact begin_singleton hplace _
    · exact begin_singleton hplace _
    · exact nofun

theorem begin_factionFindings (name : String) (strategy : Option Strategy) :
    Begin 'f' (factionFindings name strategy) := by
  have hplace : (s!"faction '{name}'").toList.head? = some 'f' := head?_append (head?_append rfl _) _
  cases strategy with
  | none => exact nofun
  | some strategy =>
    unfold factionFindings
    rw [begin_append]
    refine ⟨begin_map (head?_append hplace _) _ _, ?_⟩
    intro finding hfinding
    obtain ⟨response, -, hresponse⟩ := List.mem_filterMap.mp hfinding
    cases response with
    | unrecognized token =>
      cases hresponse
      exact hplace
    | sendZealots => cases hresponse
    | burnForest => cases hresponse

theorem begin_interactionFindings (chapter : Chapter) : Begin '\'' (interactionFindings chapter) := by
  apply begin_flatMap
  rintro ⟨character, interaction⟩ _
  cases interaction with
  | none => exact nofun
  | some interaction => exact begin_map (head?_append (head?_append rfl _) _) _ _

theorem begin_characterFindings (chapter : Chapter) : Begin 'c' (characterFindings chapter) := by
  apply begin_flatMap
  rintro ⟨choice, index⟩ _
  exact begin_map (head?_append rfl _) _ _

def variantsFindings (ids : List String) (chapter : Chapter) : List Finding :=
  chapter.variants.zipIdx.flatMap fun (variant, index) => variantFindings ids variant index

theorem begin_variantsFindings (ids : List String) (chapter : Chapter) : Begin 'v' (variantsFindings ids chapter) :=
  begin_flatMap fun (variant, index) _ => begin_variantFindings ids variant index

/--
Where a place begins like that of a choice, the finding is from one of the parts of the chapter that are about choices.
-/
theorem mem_chapterFindings_iff (hplace : finding.place.toList.head? = some c) (hc : c = 'c' ∨ c = 'v') :
    finding ∈ chapterFindings ids config chapter ↔
      (finding ∈ choicesFindings ids (listLabel none) chapter.choices ∨ finding ∈ variantsFindings ids chapter) ∨
        finding ∈ characterFindings chapter := by
  have hother {d : Char} {findings : List Finding} (h : Begin d findings) (hd : d ≠ 'c' ∧ d ≠ 'v') :
      finding ∉ findings := by
    apply h.not_mem hplace
    rcases hc with rfl | rfl
    · exact hd.1
    · exact hd.2
  have hnext : Begin 'd' (successorFindings ids "default_next" chapter.defaultNext) := begin_successorFindings rfl ids _
  have hspells : Begin 's'
      (chapter.spells.entries.flatMap fun entry => spellFindings chapter config entry.1 entry.2) :=
    begin_flatMap fun entry _ => begin_spellFindings chapter config entry.1 entry.2
  have hfactions : Begin 'f' (chapter.factions.entries.flatMap fun entry => factionFindings entry.1 entry.2) :=
    begin_flatMap fun entry _ => begin_factionFindings entry.1 entry.2
  unfold chapterFindings
  simp only [List.mem_append]
  constructor
  · rintro ((((((h | h) | h) | h) | h) | h) | h)
    · exact absurd h (hother hnext (by decide))
    · exact .inl (.inl h)
    · exact .inl (.inr h)
    · exact absurd h (hother hspells (by decide))
    · exact absurd h (hother hfactions (by decide))
    · exact .inr h
    · exact absurd h (hother (begin_interactionFindings chapter) (by decide))
  · rintro ((h | h) | h)
    · exact .inl (.inl (.inl (.inl (.inl (.inr h)))))
    · exact .inl (.inl (.inl (.inl (.inr h))))
    · exact .inl (.inr h)

end

section

variable {ids : List String} {config : Config} {chapter : Chapter} {defect : Defect} {index v w : Nat} {a b : String}

/--
The number of a variant ends where its place goes on with something else than a digit.
-/
theorem variant_inj (ha : Stops Char.isDigit a.toList) (hb : Stops Char.isDigit b.toList)
    (h : "variant #" ++ (toString v ++ a) = "variant #" ++ (toString w ++ b)) : v = w ∧ a = b := by
  have hdigits (n : Nat) : ∀ c ∈ (toString n).toList, c.isDigit := by
    intro c hc
    rw [Nat.toString_eq_repr, Nat.toList_repr] at hc
    exact Nat.isDigit_of_mem_toDigits (by decide) (by decide) hc
  have hrest := congrArg String.toList ((String.append_right_inj _).mp h)
  rw [String.toList_append, String.toList_append] at hrest
  obtain ⟨hnumber, hrest⟩ := append_inj_of_stops (hdigits v) ha (hdigits w) hb hrest
  exact ⟨Nat.repr_injective (String.toList_inj.mp hnumber), String.toList_inj.mp hrest⟩

theorem index_of_place {list : Option Nat} {i j : Nat} {part : String}
    (h : siteLabel ⟨list, i⟩ ++ part = siteLabel ⟨list, j⟩ ++ part) : i = j :=
  place_inj.mp ((String.append_left_inj _).mp h)

theorem mem_choicesFindings_site {list : Option Nat} {choices : List Choice} :
    findingAt ⟨list, index⟩ defect ∈ choicesFindings ids (listLabel list) choices ↔
      ∃ choice, choices[index]? = some choice ∧ Defective ids choice defect := by
  unfold findingAt
  rw [mem_choicesFindings_iff]
  constructor
  · rintro ⟨other, choice, hchoice, hplace, h⟩
    obtain rfl := index_of_place hplace
    exact ⟨choice, hchoice, h⟩
  · rintro ⟨choice, hchoice, h⟩
    exact ⟨index, choice, hchoice, rfl, h⟩

theorem mem_characterFindings_site :
    findingAt ⟨none, index⟩ defect ∈ characterFindings chapter ↔
      ∃ choice, chapter.choices[index]? = some choice ∧ Unlisted chapter choice defect := by
  have hplace (i : Nat) (id : String) :
      siteLabel ⟨none, i⟩ ++ (Defect.unlistedCharacter id).part = s!"choice #{i}" := by
    show siteLabel ⟨none, i⟩ ++ "" = _
    rw [String.append_empty]
    rfl
  unfold characterFindings findingAt
  simp only [List.mem_flatMap, List.mem_zipIdx_iff_getElem?, Prod.exists, List.mem_map, List.mem_filter,
    Finding.mk.injEq, Bool.not_eq_true', List.any_eq_false, beq_iff_eq]
  constructor
  · rintro ⟨choice, other, hchoice, id, ⟨hid, hunlisted⟩, hother, rfl⟩
    rw [← hplace other id] at hother
    obtain rfl := index_of_place hother
    exact ⟨choice, hchoice, .unlistedCharacter hid hunlisted⟩
  · rintro ⟨choice, hchoice, h⟩
    cases h with
    | unlistedCharacter hid hunlisted => exact ⟨choice, index, hchoice, _, ⟨hid, hunlisted⟩, (hplace index _).symm, rfl⟩

theorem finds_own_iff : Finds ids config chapter ⟨none, index⟩ defect ↔
    ∃ choice, chapter.choices[index]? = some choice ∧
      (Defective ids choice defect ∨ Unlisted chapter choice defect) := by
  have hplace : (findingAt ⟨none, index⟩ defect).place.toList.head? = some 'c' := by
    show ("choice" ++ " #" ++ toString index ++ defect.part).toList.head? = some 'c'
    exact head?_append (head?_append (head?_append rfl _) _) _
  have hvariants : findingAt ⟨none, index⟩ defect ∉ variantsFindings ids chapter :=
    (begin_variantsFindings ids chapter).not_mem hplace (by decide)
  unfold Finds
  rw [mem_chapterFindings_iff hplace (.inl rfl), or_iff_left hvariants, mem_characterFindings_site,
    mem_choicesFindings_site]
  simp only [and_or_left, exists_or]

theorem siteLabel_variant_append (v index : Nat) (part : String) :
    siteLabel ⟨some v, index⟩ ++ part =
      "variant #" ++ (toString v ++ (" choice" ++ (" #" ++ (toString index ++ part)))) := by
  show "variant #" ++ toString v ++ " choice" ++ " #" ++ toString index ++ part = _
  simp only [String.append_assoc]

theorem stops_choice (rest : String) : Stops Char.isDigit (" choice" ++ rest).toList := by
  rw [String.toList_append]
  exact stops_cons.mpr rfl

theorem variant_of_place {other : Nat} {part : String}
    (h : siteLabel ⟨some v, index⟩ ++ part = siteLabel ⟨some w, other⟩ ++ part) : v = w := by
  rw [siteLabel_variant_append, siteLabel_variant_append] at h
  exact (variant_inj (stops_choice _) (stops_choice _) h).1

/--
The places of a variant's other parts do not go on as those of its choices do.
-/
theorem place_ne_of_suffix (suffix : String) (hstops : Stops Char.isDigit suffix.toList)
    (hsuffix : suffix.toList[1]? ≠ some 'c') :
    (findingAt ⟨some v, index⟩ defect).place ≠ "variant #" ++ toString w ++ suffix := by
  intro h
  rw [findingAt, siteLabel_variant_append, String.append_assoc] at h
  rw [← (variant_inj (stops_choice _) hstops h).2, String.toList_append] at hsuffix
  exact hsuffix rfl

/--
A finding at the place of a choice of a variant is from that list of choices.
-/
theorem mem_variantFindings_site {variant : Variant} :
    findingAt ⟨some v, index⟩ defect ∈ variantFindings ids variant w ↔
      v = w ∧ ∃ choice, (variant.choices.getD [])[index]? = some choice ∧ Defective ids choice defect := by
  have htrigger : findingAt ⟨some v, index⟩ defect ∉
      conditionFindings s!"variant #{w} trigger" variant.trigger.condition :=
    fun h => place_ne_of_suffix " trigger" (stops_cons.mpr rfl) (by decide) (place_of_mem_conditionFindings h)
  have hnext : findingAt ⟨some v, index⟩ defect ∉
      successorFindings ids s!"variant #{w} default_next" variant.defaultNext :=
    fun h => place_ne_of_suffix " default_next" (stops_cons.mpr rfl) (by decide) (place_of_mem_successorFindings h)
  rw [variantFindings_eq, List.mem_append, List.mem_append, or_iff_left hnext, or_iff_right htrigger]
  constructor
  · intro h
    -- Another variant's choices have its number in their places.
    obtain ⟨other, choice, hchoice, hplace, hdefective⟩ := mem_choicesFindings_iff.mp h
    obtain rfl := variant_of_place hplace
    obtain rfl := index_of_place hplace
    exact ⟨rfl, choice, hchoice, hdefective⟩
  · rintro ⟨rfl, h⟩
    exact mem_choicesFindings_site.mpr h

theorem finds_variant_iff : Finds ids config chapter ⟨some v, index⟩ defect ↔
    ∃ choice, (chapter.choicesOf (some v))[index]? = some choice ∧ Defective ids choice defect := by
  have hplace : (findingAt ⟨some v, index⟩ defect).place.toList.head? = some 'v' := by
    rw [findingAt, siteLabel_variant_append]
    exact head?_append rfl _
  have hchoices : findingAt ⟨some v, index⟩ defect ∉ choicesFindings ids (listLabel none) chapter.choices :=
    (begin_choicesFindings rfl ids _).not_mem hplace (by decide)
  have hcharacters : findingAt ⟨some v, index⟩ defect ∉ characterFindings chapter :=
    (begin_characterFindings chapter).not_mem hplace (by decide)
  unfold Finds
  rw [mem_chapterFindings_iff hplace (.inr rfl), or_iff_left hcharacters, or_iff_right hchoices]
  unfold variantsFindings
  simp only [List.mem_flatMap, List.mem_zipIdx_iff_getElem?, Prod.exists, mem_variantFindings_site]
  constructor
  · rintro ⟨variant, w, hvariant, rfl, h⟩
    rwa [Chapter.choicesOf_some hvariant]
  · rintro ⟨choice, hchoice, h⟩
    cases hvariant : chapter.variants[v]? with
    | none =>
      rw [Chapter.choicesOf, hvariant] at hchoice
      exact absurd hchoice (by simp)
    | some variant =>
      rw [Chapter.choicesOf_some hvariant] at hchoice
      exact ⟨variant, v, hvariant, rfl, choice, hchoice, h⟩

theorem finds_iff {site : Site} : Finds ids config chapter site defect ↔
    ∃ choice, chapter.choiceAt? site = some choice ∧
      (Defective ids choice defect ∨ site.variant = none ∧ Unlisted chapter choice defect) := by
  obtain ⟨list, index⟩ := site
  unfold Chapter.choiceAt?
  cases list with
  | none =>
    simp only [true_and]
    exact finds_own_iff
  | some v =>
    simp only [reduceCtorEq, false_and, or_false]
    exact finds_variant_iff

theorem not_defective_unlistedCharacter {choice : Choice} {id : String} :
    ¬Defective ids choice (.unlistedCharacter id) := by
  intro h
  generalize hdefect : Defect.unlistedCharacter id = defect at h
  cases h with
  | @nowhere e h => cases e <;> cases hdefect
  | _ => cases hdefect

end

/--
What the linter finds with a choice does not depend on where the choice stands, but for the characters that it names.
These are only checked in the chapter's own list. Every choice that is presented stands somewhere, and is checked there.
-/
structure Covers (ids : List String) : Prop where
  finds_iff : ∀ config chapter site choice defect, chapter.choiceAt? site = some choice →
    (Finds ids config chapter site defect ↔
      Defective ids choice defect ∨ site.variant = none ∧ Unlisted chapter choice defect)
  alike : ∀ config chapter site config' chapter' site' choice defect, chapter.choiceAt? site = some choice →
    chapter'.choiceAt? site' = some choice → (∀ id, defect ≠ .unlistedCharacter id) →
      (Finds ids config chapter site defect ↔ Finds ids config' chapter' site' defect)
  unseen : ∀ config chapter v index id, ¬Finds ids config chapter ⟨some v, index⟩ (.unlistedCharacter id)
  presented : ∀ config chapter p, ∃ list, (list = none ∨ list = (ActiveContent.ofChapter chapter p).variant) ∧
    ∀ index choice, (ActiveContent.ofChapter chapter p).choices[index]? = some choice →
      chapter.choiceAt? ⟨list, index⟩ = some choice ∧
        ∀ defect, Defective ids choice defect → Finds ids config chapter ⟨list, index⟩ defect

theorem covers (ids : List String) : Covers ids where
  finds_iff config chapter site choice defect hchoice := by
    rw [Lint.finds_iff, hchoice]
    simp only [Option.some.injEq, exists_eq_left']
  alike config chapter site config' chapter' site' choice defect hchoice hchoice' hlisted := by
    have hunlisted (c : Chapter) : ¬Unlisted c choice defect := by
      rintro ⟨_, _⟩
      exact hlisted _ rfl
    rw [Lint.finds_iff, Lint.finds_iff, hchoice, hchoice']
    simp only [Option.some.injEq, exists_eq_left', hunlisted, and_false, or_false]
  unseen config chapter v index id := by
    rw [finds_variant_iff]
    rintro ⟨_, _, hdefective⟩
    exact not_defective_unlistedCharacter hdefective
  presented config chapter p := by
    obtain ⟨list, hlist, hchoices⟩ := chapter.exists_choicesOf p
    refine ⟨list, hlist, ?_⟩
    intro index choice hchoice
    rw [hchoices] at hchoice
    exact ⟨hchoice, fun defect hdefective => Lint.finds_iff.mpr ⟨choice, hchoice, .inl hdefective⟩⟩

/--
A chapter whose only choice is that of a variant.
-/
def inn : String :=
  "\x7b\"id\": \"inn\", \"text\": \"Warm.\", \"background\": \"hearth\", \"variants\": [\x7b" ++
    "\"trigger\": \x7b\"default\": true\x7d, \"choices\": [\x7b\"text\": \"Stay.\", \"next\": \"inn\", " ++
    "\"characters\": [\"kyle\"]\x7d]\x7d]\x7d"

/--
Were that choice the chapter's own, the linter would miss the character that it names. As it is, it finds nothing.
-/
theorem not_alike_inn :
    ¬∀ (ids : List String) (config : Config) (text : String) (chapter : Chapter) (v index : Nat) (defect : Defect),
      Chapter.ofText text = .ok chapter →
      Finds ids config { chapter with choices := chapter.choicesOf (some v) } ⟨none, index⟩ defect →
      Finds ids config chapter ⟨some v, index⟩ defect := by
  intro hall
  let own (chapter : Chapter) : Chapter := { chapter with choices := chapter.choicesOf (some 0) }
  have hfacts : ((Chapter.ofText inn).toOption.map fun chapter =>
      (chapterFindings ["inn"] .builtin (own chapter), chapterFindings ["inn"] .builtin chapter)) =
        some ([findingAt ⟨none, 0⟩ (.unlistedCharacter "kyle")], []) := by
    decide +kernel
  simp only [Option.map_eq_some_iff, Decoder.toOption_eq_some_iff, Prod.mk.injEq] at hfacts
  obtain ⟨chapter, htext, hown, hnothing⟩ := hfacts
  have hfinds : Finds ["inn"] .builtin (own chapter) ⟨none, 0⟩ (.unlistedCharacter "kyle") := by
    rw [Finds, hown]
    exact List.mem_singleton_self _
  have hfound := hall ["inn"] .builtin inn chapter 0 0 (.unlistedCharacter "kyle") htext hfinds
  rw [Finds, hnothing] at hfound
  cases hfound

end Lint

end Narrative
