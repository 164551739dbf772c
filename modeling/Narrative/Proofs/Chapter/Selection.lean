import Narrative.Proofs.Chapter.Trigger
import Narrative.Resolve

/-!
This module contains the selection of a variant, told from the text of a chapter: the first variant whose trigger the
player matches is laid over the chapter's own content. How the fields of conditions and triggers are ordered has no
part in it.
-/

namespace Narrative

open Json (Reordered DistinctKeys)

/--
The fields that a variant states are presented; those that it leaves out are the chapter's.
-/
structure ActiveContent.Overlays (content : ActiveContent) (chapter : Chapter) (index : Nat)
    (variant : Variant) : Prop where
  chapterId_eq : content.chapterId = chapter.id
  variant_eq : content.variant = some index
  title : ∀ title, variant.title = some title → content.title = some title
  title_omitted : variant.title = none → content.title = chapter.title
  text : ∀ text, variant.text = some text → content.text = text
  text_omitted : variant.text = none → content.text = chapter.text
  background : ∀ background, variant.background = some background → content.background = background
  background_omitted : variant.background = none → content.background = chapter.background
  choices : ∀ choices, variant.choices = some choices → content.choices = choices
  choices_omitted : variant.choices = none → content.choices = chapter.choices
  defaultNext : ∀ next, variant.defaultNext = some next → content.defaultNext = some next
  defaultNext_omitted : variant.defaultNext = none → content.defaultNext = chapter.defaultNext

namespace Decoder

/--
The trigger that is written in a variant, which may be an object or the list of its values.
-/
def writtenTrigger : Json → Option Json
  | .object fields => fields.lookup "trigger"
  | .array values => values.head?
  | _ => none

/--
The triggers that are written in the text of a chapter, one for each variant.
-/
def writtenTriggers (text : String) : List (Option Json) :=
  match Json.parse? text with
  | some (.object fields) =>
    match fields.lookup "variants" with
    | some (.array items) => items.map writtenTrigger
    | _ => []
  | _ => []

theorem variants_of_chapter? {fields : List (String × Json)} {chapter : Chapter}
    (h : chapter? fields = some chapter) :
    withDefault? [] (list? variant?) (fields.lookup "variants") = some chapter.variants := by
  unfold chapter? at h
  simp only [Option.bind_eq_bind, Option.bind_eq_some_iff, Option.pure_def, Option.some.injEq] at h
  obtain ⟨_, _, _, _, _, _, _, _, _, _, variants, hvariants, _, _, _, _, _, _, _, _, _, _, rfl⟩ := h
  exact hvariants

theorem trigger_of_variant? {j : Json} {variant : Variant} (h : variant? j = some variant) :
    variant.trigger = triggerOf (writtenTrigger j) := by
  unfold variant? at h
  simp only [Option.bind_eq_bind, Option.bind_eq_some_iff, Option.pure_def, Option.some.injEq] at h
  obtain ⟨field, hfield, _, _, _, _, _, _, _, _, _, _, rfl⟩ := h
  unfold record? at hfield
  split at hfield
  · obtain rfl := Option.some.inj hfield
    rfl
  · next values =>
    split at hfield
    · obtain rfl := Option.some.inj hfield
      cases values <;> rfl
    · cases hfield
  · cases hfield

theorem map_of_mapM {α β γ : Type} {read : α → Option β} {f : β → γ} {g : α → γ} {items : List α} {found : List β}
    (h : items.mapM read = some found) (hread : ∀ item b, read item = some b → f b = g item) :
    found.map f = items.map g := by
  induction items generalizing found with
  | nil =>
    cases h
    rfl
  | cons item rest ih =>
    rw [List.mapM_cons] at h
    simp only [Option.bind_eq_bind, Option.bind_eq_some_iff, Option.pure_def, Option.some.injEq] at h
    obtain ⟨b, hitem, others, hrest, rfl⟩ := h
    rw [List.map_cons, List.map_cons, hread item b hitem, ih hrest]

theorem fields_of_ofText {text : String} {chapter : Chapter} (h : Chapter.ofText text = .ok chapter) :
    ∃ fields, Json.parse? text = some (.object fields) ∧ chapter? fields = some chapter := by
  unfold Chapter.ofText ofText at h
  split at h
  · next j hparse =>
    unfold document at h
    split at h
    · next fields =>
      split at h
      · split at h
        · next hread =>
          obtain rfl := Except.ok.inj h
          exact ⟨fields, hparse, hread⟩
        · cases h
      · cases h
    · cases h
  · cases h

theorem triggers_of_ofText {text : String} {chapter : Chapter} (h : Chapter.ofText text = .ok chapter) :
    chapter.variants.map (·.trigger) = (writtenTriggers text).map triggerOf := by
  obtain ⟨fields, hparse, hread⟩ := fields_of_ofText h
  have hvariants := variants_of_chapter? hread
  unfold writtenTriggers
  rw [hparse]
  dsimp only
  cases hlookup : fields.lookup "variants" with
  | none =>
    rw [hlookup] at hvariants
    rw [← Option.some.inj hvariants]
    rfl
  | some value =>
    rw [hlookup] at hvariants
    cases value with
    | array items =>
      dsimp only
      rw [List.map_map]
      exact map_of_mapM hvariants (fun _ _ => trigger_of_variant?)
    | null | bool | number | string | object => cases hvariants

theorem distinctKeys_writtenTrigger {j written : Json} (h : j.DistinctKeys)
    (hwritten : writtenTrigger j = some written) : written.DistinctKeys := by
  unfold writtenTrigger at hwritten
  cases h with
  | object _ hfields =>
    dsimp only at hwritten
    exact hfields _ (Condition.mem_of_lookup hwritten)
  | array hitems =>
    exact hitems _ (List.mem_of_mem_head? hwritten)
  | null | bool | number | string => cases hwritten

theorem distinctKeys_of_mem_writtenTriggers {text : String} {written : Json}
    (h : some written ∈ writtenTriggers text) : written.DistinctKeys := by
  unfold writtenTriggers at h
  split at h
  · next fields hparse =>
    split at h
    · next items hlookup =>
      cases Json.distinctKeys_of_parse? hparse with
      | object _ hfields =>
      obtain ⟨item, hitem, hwritten⟩ := List.mem_map.mp h
      cases hfields _ (Condition.mem_of_lookup hlookup) with
      | array hitems => exact distinctKeys_writtenTrigger (hitems item hitem) hwritten
    · cases h
  · cases h

theorem isMatch_triggerOf {p : Player} {written : Option Json} (h : ∀ v, written = some v → v.DistinctKeys) :
    (triggerOf written).isMatch p ↔ Trigger.Matches p written := by
  cases written with
  | none => exact iff_of_true rfl trivial
  | some v => exact isMatch_trigger (h v rfl)

/--
A chapter has a variant for every trigger written in its text, which applies to the players that match the trigger.
-/
theorem rel_variants_of_ofText {text : String} {chapter : Chapter} (h : Chapter.ofText text = .ok chapter)
    (p : Player) (index : Nat) :
    Option.Rel (fun variant written => variant.trigger.isMatch p ↔ Trigger.Matches p written)
      chapter.variants[index]? (writtenTriggers text)[index]? := by
  have hindex := congrArg (·[index]?) (triggers_of_ofText h)
  simp only [List.getElem?_map] at hindex
  cases hvariant : chapter.variants[index]? with
  | none =>
    rw [hvariant] at hindex
    rw [Option.map_eq_none_iff.mp hindex.symm]
    exact .none
  | some variant =>
    rw [hvariant] at hindex
    obtain ⟨written, hwritten, htrigger⟩ := Option.map_eq_some_iff.mp hindex.symm
    rw [hwritten]
    apply Option.Rel.some
    dsimp only at htrigger
    rw [← htrigger]
    apply isMatch_triggerOf
    rintro v rfl
    exact distinctKeys_of_mem_writtenTriggers (List.mem_of_getElem? hwritten)

end Decoder

namespace ActiveContent

variable {chapter : Chapter} {p : Player}

theorem overlays_overlay (chapter : Chapter) (index : Nat) (variant : Variant) :
    ((base chapter).overlay index variant).Overlays chapter index variant where
  chapterId_eq := rfl
  variant_eq := rfl
  title _ h := by simp [overlay, h]
  title_omitted h := by simp [overlay, base, h]
  text _ h := by simp [overlay, h]
  text_omitted h := by simp [overlay, base, h]
  background _ h := by simp [overlay, h]
  background_omitted h := by simp [overlay, base, h]
  choices _ h := by simp [overlay, h]
  choices_omitted h := by simp [overlay, base, h]
  defaultNext _ h := by simp [overlay, h]
  defaultNext_omitted h := by simp [overlay, base, h]

/--
What is presented of a chapter, told from its text: the chapter's own content where the player matches none of the
written triggers, and otherwise the variant of the first that the player matches.
-/
inductive Presents (text : String) (chapter : Chapter) (p : Player) : ActiveContent → Prop where
  | base (h : ∀ written ∈ Decoder.writtenTriggers text, ¬Trigger.Matches p written) :
      Presents text chapter p (base chapter)
  | variant {content : ActiveContent} {index : Nat} {written : Option Json} {variant : Variant}
      (hwritten : (Decoder.writtenTriggers text)[index]? = some written)
      (hmatches : Trigger.Matches p written)
      (hfirst : ∀ earlier ∈ (Decoder.writtenTriggers text).take index, ¬Trigger.Matches p earlier)
      (hvariant : chapter.variants[index]? = some variant)
      (hcontent : content.Overlays chapter index variant) : Presents text chapter p content

theorem not_matches_of_ofText {text : String} (h : Chapter.ofText text = .ok chapter) {index : Nat}
    {written : Option Json} (hwritten : (Decoder.writtenTriggers text)[index]? = some written)
    (hvariant : ∀ variant : Variant, chapter.variants[index]? = some variant → ¬variant.trigger.isMatch p) :
    ¬Trigger.Matches p written := by
  have hrel := Decoder.rel_variants_of_ofText h p index
  rw [hwritten] at hrel
  generalize hfound : chapter.variants[index]? = found at hrel
  cases hrel with
  | some hiff => exact mt hiff.mpr (hvariant _ hfound)

/--
What is found first in a list stands at its place, and nothing before it would have been found.
-/
theorem find?_zipIdx {α : Type} {f : α → Bool} {l : List α} {a : α} {place : Nat}
    (h : l.zipIdx.find? (fun found => f found.1) = some (a, place)) :
    l[place]? = some a ∧ f a ∧ ∀ i < place, ∀ b, l[i]? = some b → ¬f b := by
  rw [List.find?_eq_some_iff_getElem] at h
  obtain ⟨hfound, index, hlt, hplace, hearlier⟩ := h
  rw [List.getElem_zipIdx] at hplace
  obtain ⟨rfl, rfl⟩ := Prod.mk.inj hplace
  rw [Nat.zero_add]
  rw [List.length_zipIdx] at hlt
  refine ⟨List.getElem?_eq_getElem hlt, hfound, ?_⟩
  intro i hi b hb
  have hnot := hearlier i hi
  rw [List.getElem_zipIdx] at hnot
  obtain ⟨_, rfl⟩ := List.getElem?_eq_some_iff.mp hb
  simpa using hnot

theorem presents_ofChapter {text : String} (h : Chapter.ofText text = .ok chapter) (p : Player) :
    Presents text chapter p (ofChapter chapter p) := by
  unfold ofChapter
  split
  · next variant index hfind =>
    obtain ⟨hvariant, happlies, hearlier⟩ := find?_zipIdx (f := fun v : Variant => v.trigger.isMatch p) hfind
    have hrel := Decoder.rel_variants_of_ofText h p index
    rw [hvariant] at hrel
    generalize hwritten : (Decoder.writtenTriggers text)[index]? = written at hrel
    cases hrel with
    | some hiff =>
    refine .variant hwritten (hiff.mp happlies) ?_ hvariant (overlays_overlay chapter index variant)
    intro earlier hmem
    obtain ⟨i, hi⟩ := List.getElem?_of_mem hmem
    rw [List.getElem?_take] at hi
    split at hi
    · next hbefore => exact not_matches_of_ofText h hi (hearlier i hbefore)
    · cases hi
  · next hfind =>
    rw [List.find?_eq_none] at hfind
    apply Presents.base
    intro written hwritten
    obtain ⟨index, hwritten⟩ := List.getElem?_of_mem hwritten
    apply not_matches_of_ofText h hwritten
    intro variant hvariant
    exact hfind (variant, index) (List.mem_zipIdx_iff_getElem?.mpr hvariant)

theorem ofChapter_of_isMatch (chapter : Chapter) {before after : List Variant} {variant : Variant}
    {t u : Trigger} (h : t.isMatch p = u.isMatch p) :
    ofChapter { chapter with variants := before ++ { variant with trigger := t } :: after } p =
      ofChapter { chapter with variants := before ++ { variant with trigger := u } :: after } p := by
  unfold ofChapter
  simp only [List.zipIdx_append, List.zipIdx_cons, List.find?_append, List.find?_cons, h]
  generalize List.find? _ before.zipIdx = found
  cases found with
  | some found => rfl
  | none => cases u.isMatch p <;> rfl

end ActiveContent

/--
Two values make up conditions that hold for the same players, and triggers under which the same content of any
chapter is presented, whether or not the second is read in place.
-/
structure Json.DecideAlike (v w : Json) : Prop where
  condition : ∀ b p, (Condition.ofJson v).holds b p = (Condition.ofJson w).holds b p
  requirement : ∀ b p, (Condition.ofRequired v).holds b p = (Condition.ofRequired w).holds b p
  trigger : ∀ p, (Decoder.trigger v).isMatch p = (Decoder.trigger w).isMatch p
  triggerInPlace : ∀ p, (Decoder.trigger v).isMatch p = (Decoder.triggerInPlace w).isMatch p
  selection : ∀ (chapter : Chapter) (before after : List Variant) (variant : Variant) (p : Player),
    ActiveContent.ofChapter
        { chapter with variants := before ++ { variant with trigger := Decoder.trigger v } :: after } p =
      ActiveContent.ofChapter
        { chapter with variants := before ++ { variant with trigger := Decoder.trigger w } :: after } p
  selectionInPlace : ∀ (chapter : Chapter) (before after : List Variant) (variant : Variant) (p : Player),
    ActiveContent.ofChapter
        { chapter with variants := before ++ { variant with trigger := Decoder.trigger v } :: after } p =
      ActiveContent.ofChapter
        { chapter with variants := before ++ { variant with trigger := Decoder.triggerInPlace w } :: after } p

/--
The order in which fields are written never changes a decision.
-/
theorem Json.decideAlike_of_reordered {v w : Json} (h : v.Reordered w) (hkeys : v.DistinctKeys) :
    v.DecideAlike w := by
  have hkeys' := DistinctKeys.of_reordered h hkeys
  have htrigger : ∀ p, (Decoder.trigger v).isMatch p = (Decoder.trigger w).isMatch p := by
    intro p
    rw [Bool.eq_iff_iff, Decoder.isMatch_trigger hkeys, Decoder.isMatch_trigger hkeys']
    exact Decoder.matches_of_reordered h hkeys
  have hplace : ∀ p, (Decoder.trigger v).isMatch p = (Decoder.triggerInPlace w).isMatch p := by
    intro p
    rw [htrigger, Bool.eq_iff_iff, Decoder.isMatch_trigger hkeys', Decoder.isMatch_triggerInPlace hkeys']
  refine ⟨?_, ?_, htrigger, hplace, ?_, ?_⟩
  · intro b p
    rw [Bool.eq_iff_iff, Condition.holds_iff_satisfied, Condition.holds_iff_satisfied]
    exact Condition.satisfied_of_reordered h hkeys
  · intro b p
    rw [Bool.eq_iff_iff, Condition.holds_ofRequired, Condition.holds_ofRequired]
    exact Condition.entrySatisfied_of_reordered v h hkeys
  · intro chapter before after variant p
    exact ActiveContent.ofChapter_of_isMatch chapter (htrigger p)
  · intro chapter before after variant p
    exact ActiveContent.ofChapter_of_isMatch chapter (hplace p)

theorem Json.decideAlike_nested :
    Json.DecideAlike
      (.object [("default", .bool false), ("gold", .object [(">=", .number (.int 3)), ("<", .number (.int 9))]),
        ("all", .array [.object [("inventory", .string "map"), ("moral", .string ">50")]])])
      (.object [("all", .array [.object [("moral", .string ">50"), ("inventory", .string "map")]]),
        ("default", .bool false), ("gold", .object [("<", .number (.int 9)), (">=", .number (.int 3))])]) := by
  apply Json.decideAlike_of_reordered
  · have hall : Reordered (.array [.object [("inventory", .string "map"), ("moral", .string ">50")]])
        (.array [.object [("moral", .string ">50"), ("inventory", .string "map")]]) :=
      .array (.cons (reordered_of_perm (.swap _ _ _)) .nil)
    refine .object (.cons _ (.refl _) (.cons _ (reordered_of_perm (.swap _ _ _)) (.cons _ hall .nil))) ?_
    exact (List.perm_append_comm : ([_, _] ++ [_]).Perm ([_] ++ [_, _]))
  · refine .object (by decide) ?_
    simp only [List.forall_mem_cons]
    refine ⟨.bool _, .object (by decide) ?_, .array ?_, List.forall_mem_nil _⟩
    · simp only [List.forall_mem_cons]
      exact ⟨.number _, .number _, List.forall_mem_nil _⟩
    · simp only [List.forall_mem_cons]
      refine ⟨.object (by decide) ?_, List.forall_mem_nil _⟩
      simp only [List.forall_mem_cons]
      exact ⟨.string _, .string _, List.forall_mem_nil _⟩

end Narrative
