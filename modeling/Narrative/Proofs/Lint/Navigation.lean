import Narrative.Proofs.Lint.Report
import Narrative.Proofs.Session.Operation
import Narrative.Proofs.Views

/-!
This module contains where a chapter can lead, and that a report without errors vouches for it: what its choices and
its ways on name is a document of the directory, and one that lies in its own store can be fetched and decoded.
-/

namespace Narrative

/--
The contents that a chapter may present: its own, and those of its variants laid over it.
-/
def Chapter.contents (chapter : Chapter) : List ActiveContent :=
  .base chapter :: chapter.variants.zipIdx.map fun (variant, index) =>
    (ActiveContent.base chapter).overlay index variant

/--
Whatever the player has done, what is presented of the chapter is one of them.
-/
theorem ActiveContent.ofChapter_mem_contents (chapter : Chapter) (p : Player) :
    ActiveContent.ofChapter chapter p ∈ chapter.contents := by
  unfold ActiveContent.ofChapter Chapter.contents
  split
  · next variant index hfind =>
    apply List.mem_cons_of_mem
    exact List.mem_map.mpr ⟨(variant, index), List.mem_of_find?_eq_some hfind, rfl⟩
  · exact List.mem_cons_self

/--
The ids that a content itself names: the successors of its choices, and where it goes on.
-/
inductive ActiveContent.Names (content : ActiveContent) : String → Prop where
  | choice {choice : Choice} {successor : Successor} (hchoice : choice ∈ content.choices)
      (hsuccessor : choice.successor = .ok successor) : Names content successor.id
  | next {next : String} (hnext : content.defaultNext = some next) : Names content next

/--
The ids that may be asked for while a content is presented: the successors of its choices, and its way on.
-/
inductive ActiveContent.Requests (content : ActiveContent) (config : Config) (p : Player) :
    String → Prop where
  | choice {choice : Choice} {resolution : Resolution} (hchoice : choice ∈ content.choices)
      (hresolve : choice.resolve p = .ok resolution) :
      Requests content config p resolution.successor.id
  | onward {view : ChoiceView} {next : String} (hview : view ∈ content.views config p)
      (hslot : view.slot = .continue next) : Requests content config p next

theorem ActiveContent.names_of_requests {content : ActiveContent} {config : Config} {p : Player}
    {next : String} (h : content.Requests config p next) :
    content.Names next ∨ next = config.fallbackChapter := by
  cases h with
  | choice hchoice hresolve => exact .inl (.choice hchoice (Choice.of_resolve hresolve).1)
  | onward hview hslot =>
    rcases next_of_view hview hslot with hnext | ⟨_, hnext⟩
    · exact .inl (.next hnext)
    · exact .inr hnext

/--
Whether a document can be fetched by its id, and is of the kind that the id stands for.
-/
def ContentDirectory.Serves (directory : ContentDirectory) (id : String) : Prop :=
  ∃ text document, directory.source.fetch id = .ok text ∧
    Document.ofText (.ofId id) text = .ok document

theorem ContentDirectory.ids_of_list {directory : ContentDirectory} {kind : ContentKind}
    {name id : String} (h : directory.files.list (directory.storePath kind) = .ok [name])
    (hid : idOfName? name = some id) : directory.ids kind = .ok [id] := by
  unfold ids
  dsimp only
  rw [h]
  cases hfind : directory.files.find (directory.storePath kind) with
  | error e =>
    unfold FileSystem.list at h
    rw [hfind] at h
    cases h
  | ok node => simp [hid]

theorem Successor.id_ofId (id : String) : (Successor.ofId id).id = id := by
  unfold ofId
  split <;> rfl

theorem ActiveContent.requests_of_next {content : ActiveContent} {config : Config} {p : Player} {next : String}
    (hnext : next ≠ revealMark) (h : content.choices.any (·.next == some next)) :
    content.Requests config p next := by
  obtain ⟨choice, hchoice, heq⟩ := List.any_eq_true.mp h
  have hsuccessor : choice.successor = .ok (.ofId next) := by
    unfold Choice.successor
    rw [beq_iff_eq.mp heq]
    exact if_neg hnext
  obtain ⟨resolution, hresolve, hresolution, _⟩ := Choice.resolve_of_ok p hsuccessor
  have hid : resolution.successor.id = next := by
    rw [hresolution, Successor.id_ofId]
  rw [← hid]
  exact .choice hchoice hresolve

namespace Lint

variable {directory : ContentDirectory} {config : Config} {ids : List String} {id place : String}

theorem mem_of_clean_successor (h : Clean (successorFindings ids place (some id))) : id ∈ ids := by
  unfold successorFindings at h
  dsimp only at h
  split at h
  · next hcontains => exact List.contains_iff_mem.mp hcontains
  · have herror := h _ List.mem_cons_self
    cases herror

/--
The linter and a session agree on where a choice leads.
-/
theorem mem_of_clean_target {choice : Choice} {successor : Successor}
    (h : Clean (targetFindings ids place choice)) (hsuccessor : choice.successor = .ok successor) :
    successor.id ∈ ids := by
  unfold targetFindings at h
  unfold Choice.successor at hsuccessor
  cases hnext : choice.next with
  | none =>
    cases hreveal : choice.reveal with
    | none =>
      rw [hnext, hreveal] at hsuccessor
      cases hsuccessor
    | some target =>
      rw [hnext, hreveal] at h hsuccessor
      cases hsuccessor
      exact mem_of_clean_successor h
  | some next =>
    rw [hnext] at h hsuccessor
    dsimp only at h hsuccessor
    by_cases hmark : next = revealMark
    · rw [if_pos hmark] at h hsuccessor
      cases hreveal : choice.reveal with
      | none =>
        rw [hreveal] at hsuccessor
        cases hsuccessor
      | some target =>
        rw [hreveal] at h hsuccessor
        cases hsuccessor
        exact mem_of_clean_successor h
    · rw [if_neg hmark] at h hsuccessor
      cases hsuccessor
      rw [Successor.id_ofId]
      exact mem_of_clean_successor h

theorem clean_target_of_choices {label : String} {choices : List Choice} {choice : Choice}
    (h : Clean (choicesFindings ids label choices)) (hchoice : choice ∈ choices) :
    ∃ place, Clean (targetFindings ids place choice) := by
  obtain ⟨index, hindex⟩ := List.mem_iff_getElem?.mp hchoice
  have hmem : (choice, index) ∈ choices.zipIdx := List.mem_zipIdx_iff_getElem?.mpr hindex
  have hclean := clean_flatMap h hmem
  unfold choiceFindings at hclean
  iterate 3 rw [clean_append] at hclean
  exact ⟨_, hclean.1.1.2⟩

theorem clean_of_chapter {chapter : Chapter} (h : Clean (chapterFindings ids config chapter)) :
    Clean (successorFindings ids "default_next" chapter.defaultNext) ∧
      Clean (choicesFindings ids "choice" chapter.choices) ∧
      Clean (chapter.variants.zipIdx.flatMap fun (variant, index) =>
        variantFindings ids variant index) := by
  unfold chapterFindings at h
  iterate 4 rw [clean_append] at h
  obtain ⟨⟨⟨⟨h, _⟩, _⟩, _⟩, _⟩ := h
  rw [clean_append, clean_append] at h
  exact ⟨h.1.1, h.1.2, h.2⟩

/--
The linter has looked at the choices and the way on of whatever the chapter may present.
-/
theorem clean_of_contents {chapter : Chapter} {content : ActiveContent}
    (h : Clean (chapterFindings ids config chapter)) (hcontent : content ∈ chapter.contents) :
    (∃ label, Clean (choicesFindings ids label content.choices)) ∧
      ∃ place, Clean (successorFindings ids place content.defaultNext) := by
  obtain ⟨hnext, hchoices, hvariants⟩ := clean_of_chapter h
  rcases List.mem_cons.mp hcontent with rfl | hcontent
  · exact ⟨⟨_, hchoices⟩, _, hnext⟩
  · obtain ⟨⟨variant, index⟩, hmem, rfl⟩ := List.mem_map.mp hcontent
    have hvariant := clean_flatMap hvariants hmem
    unfold variantFindings at hvariant
    rw [clean_append, clean_append] at hvariant
    obtain ⟨⟨_, hownChoices⟩, hownNext⟩ := hvariant
    -- What the variant leaves out is the chapter's.
    constructor
    · show ∃ label, Clean (choicesFindings ids label (variant.choices.getD chapter.choices))
      cases hown : variant.choices with
      | none => exact ⟨_, hchoices⟩
      | some choices =>
        rw [hown] at hownChoices
        exact ⟨_, hownChoices⟩
    · show ∃ place, Clean (successorFindings ids place (variant.defaultNext <|> chapter.defaultNext))
      cases hown : variant.defaultNext with
      | none => exact ⟨_, hnext⟩
      | some next =>
        rw [hown] at hownNext
        exact ⟨_, hownNext⟩

theorem mem_of_names {chapter : Chapter} {content : ActiveContent}
    (h : Clean (chapterFindings ids config chapter)) (hcontent : content ∈ chapter.contents)
    (hnames : content.Names id) : id ∈ ids := by
  obtain ⟨⟨_, hchoices⟩, _, hclean⟩ := clean_of_contents h hcontent
  cases hnames with
  | choice hchoice hsuccessor =>
    obtain ⟨_, htarget⟩ := clean_target_of_choices hchoices hchoice
    exact mem_of_clean_target htarget hsuccessor
  | next hnext =>
    rw [hnext] at hclean
    exact mem_of_clean_successor hclean

theorem serves_of_lists (h : (report directory config).errors = [])
    (hid : directory.Lists (.ofId id) id) : directory.Serves id := by
  unfold ContentDirectory.Serves ContentSource.fetch ContentDirectory.source
  dsimp only
  cases hkind : ContentKind.ofId id with
  | chapter =>
    rw [hkind] at hid
    obtain ⟨text, chapter, hread, hchapter, _⟩ := chapter_of_report (chapterReport_of_report h hid)
    refine ⟨text, .chapter chapter, hread, ?_⟩
    unfold Document.ofText
    rw [hchapter]
    rfl
  | ending =>
    rw [hkind] at hid
    obtain ⟨text, ending, hread, hending⟩ := ending_of_report (endingReport_of_report h hid)
    refine ⟨text, .ending ending, hread, ?_⟩
    unfold Document.ofText
    rw [hending]
    rfl

/--
What a report without errors says about the ways out of a chapter. The linter does not look at the chapter that the
configuration falls back to, and it does not ask in which of the two stores a document lies.
-/
theorem serves_of_report (h : (report directory config).errors = [])
    (hid : directory.Lists .chapter id) :
    ∃ text chapter, directory.read .chapter id = .ok text ∧ Chapter.ofText text = .ok chapter ∧
      ∀ content ∈ chapter.contents,
        (∀ next, content.Names next → ∃ kind, directory.Lists kind next) ∧
          ∀ p next, content.Requests config p next →
            (content.Names next ∨ next = config.fallbackChapter) ∧
              (directory.Lists (.ofId next) next → directory.Serves next) := by
  obtain ⟨text, chapter, hread, hchapter, hclean⟩ := chapter_of_report (chapterReport_of_report h hid)
  refine ⟨text, chapter, hread, hchapter, ?_⟩
  intro content hcontent
  constructor
  · intro next hnames
    exact mem_known.mp (mem_of_names hclean hcontent hnames)
  · intro p next hrequests
    exact ⟨ActiveContent.names_of_requests hrequests, serves_of_lists h⟩

/--
A chapter whose choices stay hidden from the poor.
-/
def hall : String :=
  "\x7b\"id\": \"hall\", \"text\": \"Cold.\", \"background\": \"stone\", \"choices\": [\x7b" ++
    "\"text\": \"Climb.\", \"next\": \"attic\", \"hidden\": true, \"requires\": \"gold>99\"\x7d, \x7b" ++
    "\"text\": \"Stay.\", \"next\": \"hall\", \"hidden\": true, \"requires\": \"gold>99\"\x7d]\x7d"

def attic : String :=
  "\x7b\"id\": \"attic\", \"title\": \"Up\", \"text\": \"Dust.\", \"background\": \"beams\"\x7d"

/--
A directory of that chapter and an ending that is not named like one.
-/
def lodge : ContentDirectory where
  files := ⟨.directory [("chapters", .directory [("hall.json", .file (some hall))]),
    ("endings", .directory [("attic.json", .file (some attic))])], []⟩
  root := "."

theorem chapter_hall : ∃ chapter, Chapter.ofText hall = .ok chapter ∧
    chapterFindings ["hall", "attic"] .builtin chapter = [] ∧
      ∀ next ∈ ["hall", "attic", "chapter1"],
        (ActiveContent.base chapter).Requests .builtin Config.builtin.initialPlayer next := by
  have hfacts : (Chapter.ofText hall).toOption.any fun chapter =>
      (chapterFindings ["hall", "attic"] .builtin chapter).isEmpty &&
        chapter.choices.any (·.next == some "hall") && chapter.choices.any (·.next == some "attic") &&
          ((ActiveContent.base chapter).authoredViews Config.builtin.initialPlayer).isEmpty &&
            chapter.defaultNext.isNone := by
    decide +kernel
  cases hchapter : Chapter.ofText hall with
  | error e =>
    rw [hchapter] at hfacts
    cases hfacts
  | ok chapter =>
    rw [hchapter] at hfacts
    simp only [Except.toOption, Option.any_some, Bool.and_eq_true, List.isEmpty_iff,
      Option.isNone_iff_eq_none] at hfacts
    obtain ⟨⟨⟨⟨hfindings, hhall⟩, hattic⟩, hviews⟩, hdefault⟩ := hfacts
    refine ⟨chapter, rfl, hfindings, ?_⟩
    intro next hnext
    rw [List.mem_cons, List.mem_cons, List.mem_singleton] at hnext
    rcases hnext with rfl | rfl | rfl
    · exact ActiveContent.requests_of_next (by decide) hhall
    · exact ActiveContent.requests_of_next (by decide) hattic
    · apply ActiveContent.Requests.onward
      · rw [ActiveContent.views_eq_continueView hviews]
        exact List.mem_singleton_self _
      · unfold ActiveContent.continueView ActiveContent.base
        dsimp only
        rw [hdefault]
        rfl

theorem ids_lodge : lodge.ids .chapter = .ok ["hall"] ∧ lodge.ids .ending = .ok ["attic"] :=
  ⟨ContentDirectory.ids_of_list rfl rfl, ContentDirectory.ids_of_list rfl rfl⟩

theorem lists_lodge : lodge.Lists .chapter "hall" := ⟨_, ids_lodge.1, List.mem_singleton_self _⟩

theorem errors_lodge : (report lodge .builtin).errors = [] := by
  have hchapters : listing lodge .chapter = (["hall"], .empty) := by
    unfold listing
    rw [ids_lodge.1]
  have hendings : listing lodge .ending = (["attic"], .empty) := by
    unfold listing
    rw [ids_lodge.2]
  have hknown : known lodge = ["hall", "attic"] := by
    unfold known
    rw [hchapters, hendings]
    rfl
  have hattic : (endingReport lodge "attic").errors = [] := by decide +kernel
  have hhall : (chapterReport lodge .builtin ["hall", "attic"] "hall").errors = [] := by
    obtain ⟨_, hchapter, hfindings, _⟩ := chapter_hall
    exact chapterReport_of_ok rfl hchapter hfindings
  rw [report_eq, hchapters, hendings, hknown]
  simp only [errors_append, errors_join, List.map_cons, List.map_nil, List.flatMap_cons, hhall, hattic]
  rfl

theorem serves_of_report_lodge :
    (report lodge .builtin).errors = [] ∧ lodge.Lists .chapter "hall" ∧ lodge.Serves "hall" := by
  refine ⟨errors_lodge, lists_lodge, ?_⟩
  obtain ⟨_, _, hread, hchapter, hserves⟩ := serves_of_report errors_lodge lists_lodge
  obtain ⟨_, hhall, _, hrequests⟩ := chapter_hall
  cases hread
  cases hhall.symm.trans hchapter
  exact ((hserves _ List.mem_cons_self).2 _ _ (hrequests "hall" (by decide))).2 lists_lodge

theorem not_serves_lodge :
    (report lodge .builtin).errors = [] ∧ lodge.Lists .chapter "hall" ∧
      ∃ text chapter, lodge.read .chapter "hall" = .ok text ∧ Chapter.ofText text = .ok chapter ∧
        ∃ content ∈ chapter.contents, ∃ p, ∀ next ∈ ["attic", "chapter1"],
          content.Requests .builtin p next ∧ ¬lodge.Serves next := by
  obtain ⟨chapter, hchapter, _, hrequests⟩ := chapter_hall
  refine ⟨errors_lodge, lists_lodge, hall, chapter, rfl, hchapter, .base chapter, List.mem_cons_self,
    Config.builtin.initialPlayer, ?_⟩
  intro next hnext
  refine ⟨hrequests next (List.mem_cons_of_mem _ hnext), ?_⟩
  rintro ⟨text, document, hfetch, _⟩
  have hmissing : lodge.source.fetch next = .error (.notFound .chapter next) := by
    rw [List.mem_cons, List.mem_singleton] at hnext
    rcases hnext with rfl | rfl <;> rfl
  rw [hmissing] at hfetch
  cases hfetch

end Lint

end Narrative
