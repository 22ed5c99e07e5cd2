import QueryModule.Command.Run
import QueryModule.Proofs.Source.Finding
import Mathlib.Data.List.Forall2

/-!
# What is loaded

A command works on what the loaders of the generator make of a file tree: the schema, the options, a
document for each file that is found, in the order in which they are found, and the fragments of the
documents that are found at the external paths. `Loads` describes this without the order in which things
are loaded and without the log, and `load_eq_ok` says that loading succeeds if there are such inputs.
-/

namespace QueryModule.Command

open QueryModule.Config (Options)
open QueryModule.Fragment (SourcedFragment externalsOf)
open QueryModule.Generate (Inputs)

variable {t : FileTree} {a : Arguments} {paths extensions files : List String}
  {documents : List SourceDocument}

/-- The documents in the files at or below some paths. -/
def Documents (t : FileTree) (paths extensions : List String) (documents : List SourceDocument) :
    Prop :=
  ∃ files, Discovery.Finds t paths extensions files ∧
    List.Forall₂ (fun path d => (SourceDocument.load t path).result = .ok d) files documents

/-- The inputs are what a file tree has for some arguments. -/
structure Loads (t : FileTree) (a : Arguments) (i : Inputs) : Prop where
  schema : match a.schema with
    | some path => (SourceSchema.load t path).result = .ok i.schema
    | none => i.schema = .empty
  options : match a.config with
    | some path => (Options.load t path).result = .ok i.options
    | none => i.options = {}
  documents : Documents t a.documents a.fileExtensions i.documents
  externals : ∃ documents, Documents t a.externalFragments a.fileExtensions documents ∧
    i.externals = documents.flatMap externalsOf

theorem loadSchema_eq_ok {given : Option String} {schema : SourceSchema} :
    (loadSchema t given).result = .ok schema ↔ match given with
      | some path => (SourceSchema.load t path).result = .ok schema
      | none => schema = .empty := by
  cases given with
  | none =>
    show Except.ok SourceSchema.empty = Except.ok schema ↔ schema = .empty
    rw [Except.ok.injEq, eq_comm]
  | some path => exact mapError_eq_ok

theorem loadOptions_eq_ok {given : Option String} {options : Options} :
    (loadOptions t given).result = .ok options ↔ match given with
      | some path => (Options.load t path).result = .ok options
      | none => options = {} := by
  cases given with
  | none =>
    show Except.ok {} = Except.ok options ↔ options = {}
    rw [Except.ok.injEq, eq_comm]
  | some path => exact mapError_eq_ok

/-- Documents are loaded when each of the files is. -/
theorem loadDocuments_eq_ok :
    (loadDocuments t files).result = .ok documents ↔
      List.Forall₂ (fun path d => (SourceDocument.load t path).result = .ok d) files documents := by
  induction files generalizing documents with
  | nil =>
    show Except.ok [] = Except.ok documents ↔ _
    rw [Except.ok.injEq, List.nil_eq, List.forall₂_nil_left_iff]
  | cons path others ih =>
    simp only [loadDocuments, Logged.result_bind, result_mapError, Logged.result_pure, bind_eq_ok,
      mapError_eq_ok, ih, List.forall₂_cons_left_iff, Except.ok.injEq]
    constructor
    · rintro ⟨d, hd, later, hlater, rfl⟩
      exact ⟨d, later, hd, hlater, rfl⟩
    · rintro ⟨d, later, hd, hlater, rfl⟩
      exact ⟨d, hd, later, hlater, rfl⟩

/-- Where no paths are given there are no documents. -/
theorem documents_nil : Documents t [] extensions documents ↔ documents = [] := by
  constructor
  · rintro ⟨files, hfiles, hdocuments⟩
    obtain rfl := Discovery.finds_nil.mp hfiles
    exact List.forall₂_nil_left_iff.mp hdocuments
  · rintro rfl
    exact ⟨[], Discovery.finds_nil.mpr rfl, .nil⟩

/-- The documents are those in the files that are found. -/
theorem documents_iff :
    Documents t paths extensions documents ↔
      ∃ found, (Discovery.find t paths extensions).result = .ok found ∧
        (loadDocuments t found.files).result = .ok documents := by
  constructor
  · rintro ⟨files, hfiles, hdocuments⟩
    obtain ⟨skipped, hfound⟩ := Discovery.find_eq_ok.mpr hfiles
    exact ⟨⟨files, skipped⟩, hfound, loadDocuments_eq_ok.mpr hdocuments⟩
  · rintro ⟨found, hfound, hdocuments⟩
    refine ⟨found.files, Discovery.find_eq_ok.mp ⟨found.skipped, hfound⟩, ?_⟩
    exact loadDocuments_eq_ok.mp hdocuments

/-- External fragments are those of the documents that are found for them. -/
theorem loadExternals_eq_ok {externals : List SourcedFragment} :
    (loadExternals t paths extensions).result = .ok externals ↔
      ∃ documents, Documents t paths extensions documents ∧
        externals = documents.flatMap externalsOf := by
  cases paths with
  | nil =>
    show Except.ok [] = Except.ok externals ↔ _
    simp only [documents_nil, exists_eq_left, List.flatMap_nil, Except.ok.injEq]
    exact eq_comm
  | cons path others =>
    simp only [loadExternals, List.isEmpty_cons, Bool.false_eq_true, if_false, Logged.result_bind,
      result_mapError, Logged.result_note, Logged.result_pure, bind_eq_ok, mapError_eq_ok,
      documents_iff, Except.ok.injEq]
    constructor
    · rintro ⟨found, hfound, documents, hdocuments, -, -, h⟩
      exact ⟨documents, ⟨found, hfound, hdocuments⟩, h.symm⟩
    · rintro ⟨documents, ⟨found, hfound, hdocuments⟩, h⟩
      exact ⟨found, hfound, documents, hdocuments, (), trivial, h.symm⟩

/-- Loading succeeds with the inputs that there are. -/
theorem load_eq_ok {i : Inputs} :
    (∃ skipped, (load t a).result = .ok ⟨i, skipped⟩) ↔ Loads t a i := by
  simp only [load, Logged.result_bind, result_mapError, Logged.result_pure, bind_eq_ok, mapError_eq_ok,
    Except.ok.injEq, Loaded.mk.injEq]
  constructor
  · rintro ⟨skipped, schema, hschema, options, hoptions, found, hfound, documents, hdocuments,
      externals, hexternals, rfl, -⟩
    refine ⟨loadSchema_eq_ok.mp hschema, loadOptions_eq_ok.mp hoptions, ?_, ?_⟩
    · exact documents_iff.mpr ⟨found, hfound, hdocuments⟩
    · exact loadExternals_eq_ok.mp hexternals
  · rintro ⟨hschema, hoptions, hdocuments, hexternals⟩
    obtain ⟨found, hfound, hdocuments⟩ := documents_iff.mp hdocuments
    exact ⟨found.skipped, i.schema, loadSchema_eq_ok.mpr hschema, i.options,
      loadOptions_eq_ok.mpr hoptions, found, hfound, i.documents, hdocuments, i.externals,
      loadExternals_eq_ok.mpr hexternals, rfl, rfl⟩

end QueryModule.Command
