import Narrative.Lint.Report

/-!
This module contains what a report without errors says about a directory: every document that it lists can be read
and decoded, and no finding in a chapter is an error.
-/

namespace Narrative

/--
Whether a directory lists a document in the store of a kind.
-/
def ContentDirectory.Lists (directory : ContentDirectory) (kind : ContentKind) (id : String) : Prop :=
  ∃ ids, directory.ids kind = .ok ids ∧ id ∈ ids

namespace Lint

variable {directory : ContentDirectory} {config : Config} {id : String}

def Clean (findings : List Finding) : Prop :=
  ∀ finding ∈ findings, finding.defect.isError = false

theorem clean_append {a b : List Finding} : Clean (a ++ b) ↔ Clean a ∧ Clean b :=
  List.forall_mem_append

theorem clean_flatMap {α : Type} {l : List α} {f : α → List Finding} (h : Clean (l.flatMap f)) {a : α}
    (ha : a ∈ l) : Clean (f a) := by
  intro finding hfinding
  exact h finding (List.mem_flatMap.mpr ⟨a, ha, hfinding⟩)

theorem errors_append (a b : Report) : (a ++ b).errors = a.errors ++ b.errors := rfl

theorem errors_join (reports : List Report) :
    (Report.join reports).errors = reports.flatMap (·.errors) := by
  induction reports with
  | nil => rfl
  | cons report rest ih =>
    rw [List.flatMap_cons, ← ih]
    rfl

/--
The ids that the chapters of a directory may lead to: those of either store.
-/
def known (directory : ContentDirectory) : List String :=
  (listing directory .chapter).1 ++ (listing directory .ending).1

theorem mem_listing {kind : ContentKind} :
    id ∈ (listing directory kind).1 ↔ directory.Lists kind id := by
  unfold listing ContentDirectory.Lists
  cases directory.ids kind with
  | error e => simp
  | ok ids => simp

theorem mem_known : id ∈ known directory ↔ ∃ kind, directory.Lists kind id := by
  unfold known
  rw [List.mem_append, mem_listing, mem_listing]
  constructor
  · rintro (h | h)
    · exact ⟨.chapter, h⟩
    · exact ⟨.ending, h⟩
  · rintro ⟨kind, h⟩
    cases kind with
    | chapter => exact .inl h
    | ending => exact .inr h

theorem document_eq_ok {α : Type} {fetched : Except FetchError String}
    {decode : String → Except DocumentError α} {place : String} {a : α} :
    document fetched decode place = .ok a ↔ ∃ text, fetched = .ok text ∧ decode text = .ok a := by
  unfold document
  constructor
  · intro h
    split at h
    · cases h
    · next text =>
      refine ⟨text, rfl, ?_⟩
      cases hdecode : decode text with
      | error e =>
        rw [hdecode] at h
        cases h
      | ok b =>
        rw [hdecode] at h
        cases h
        rfl
  · rintro ⟨text, rfl, hdecode⟩
    dsimp only
    rw [hdecode]
    rfl

theorem ending_of_report (h : (endingReport directory id).errors = []) :
    ∃ text ending, directory.read .ending id = .ok text ∧ Ending.ofText text = .ok ending := by
  unfold endingReport at h
  split at h
  · cases h
  · next ending hdocument =>
    obtain ⟨text, hread, hending⟩ := document_eq_ok.mp hdocument
    exact ⟨text, ending, hread, hending⟩

theorem chapter_of_report {ids : List String}
    (h : (chapterReport directory config ids id).errors = []) :
    ∃ text chapter, directory.read .chapter id = .ok text ∧ Chapter.ofText text = .ok chapter ∧
      Clean (chapterFindings ids config chapter) := by
  unfold chapterReport at h
  split at h
  · cases h
  · next chapter hdocument =>
    obtain ⟨text, hread, hchapter⟩ := document_eq_ok.mp hdocument
    refine ⟨text, chapter, hread, hchapter, ?_⟩
    intro finding hfinding
    dsimp only at h
    rw [List.map_eq_nil_iff, List.filter_eq_nil_iff] at h
    have herror := h finding hfinding
    simpa using herror

theorem chapterReport_of_ok {ids : List String} {text : String} {chapter : Chapter}
    (hread : directory.read .chapter id = .ok text) (hchapter : Chapter.ofText text = .ok chapter)
    (hfindings : chapterFindings ids config chapter = []) :
    (chapterReport directory config ids id).errors = [] := by
  unfold chapterReport
  rw [document_eq_ok.mpr ⟨text, hread, hchapter⟩]
  dsimp only
  rw [hfindings]
  rfl

theorem report_eq (directory : ContentDirectory) (config : Config) :
    report directory config =
      (listing directory .chapter).2 ++ (listing directory .ending).2 ++
        .join ((listing directory .ending).1.map (endingReport directory)) ++
        .join ((listing directory .chapter).1.map (chapterReport directory config (known directory))) :=
  rfl

theorem endingReport_of_report (h : (report directory config).errors = [])
    (hid : directory.Lists .ending id) : (endingReport directory id).errors = [] := by
  rw [report_eq] at h
  simp only [errors_append, errors_join, List.append_eq_nil_iff, List.flatMap_eq_nil_iff] at h
  exact h.1.2 _ (List.mem_map_of_mem (mem_listing.mpr hid))

theorem chapterReport_of_report (h : (report directory config).errors = [])
    (hid : directory.Lists .chapter id) :
    (chapterReport directory config (known directory) id).errors = [] := by
  rw [report_eq] at h
  simp only [errors_append, errors_join, List.append_eq_nil_iff, List.flatMap_eq_nil_iff] at h
  exact h.2 _ (List.mem_map_of_mem (mem_listing.mpr hid))

end Lint

end Narrative
