import QueryModule.Proofs.Command.Loading
import QueryModule.Proofs.FileTree.Resolving

/-!
# What a run changes

All that a command reads is read from the tree before the run, and the text of the module is complete
before the tree changes. What can still go wrong then is that the directory of the module cannot be made
or that the file cannot be written; neither touches a file. So a run either leaves all files as they are
or writes the module that the sources have and nothing else.

> `run_allOrNothing`
-/

namespace QueryModule.Command

open QueryModule.FileTree (AddsDirectories Rewrites)
open QueryModule.Generate (Inputs checkOutput)

variable {t : FileTree} {a : Arguments} {path text : String} {e : RunError} {p : Product}

/-! ## Producing the module -/

/-- A module is produced when there are inputs, the name of the output has the right extension, and the
generator makes a module of the inputs. -/
theorem produce_eq_ok :
    (∃ p, (produce t a).result = .ok p ∧ p.text = text) ↔
      ∃ i m, Loads t a i ∧ checkOutput a.output = .ok () ∧ (Generate.generate i).result = .ok m ∧
        m.render = text := by
  simp only [← load_eq_ok, produce, Logged.result_bind, Logged.result_ofExcept, result_mapError,
    Logged.result_pure, bind_eq_ok, mapError_eq_ok, Except.ok.injEq]
  constructor
  · rintro ⟨p, ⟨loaded, hload, _, houtput, m, hm, rfl⟩, htext⟩
    exact ⟨loaded.inputs, m, ⟨loaded.skipped, hload⟩, houtput, hm, htext⟩
  · rintro ⟨i, m, ⟨skipped, hload⟩, houtput, hm, htext⟩
    exact ⟨_, ⟨⟨i, skipped⟩, hload, (), houtput, m, hm, rfl⟩, htext⟩

/-- The error is one of making the directory or of writing the file. -/
def RunError.OnSaving : RunError → Prop
  | .directory _ _ => True
  | .output _ _ => True
  | _ => False

/-- Loading the schema saves nothing, so it fails for another reason. -/
theorem loadSchema_failsWith (t : FileTree) (given : Option String) :
    FailsWith (¬ RunError.OnSaving ·) (loadSchema t given).result := by
  cases given with
  | none => exact .ok _
  | some path =>
    rw [loadSchema, result_mapError]
    exact .mapError _ fun _ => id

/-- So does loading the options. -/
theorem loadOptions_failsWith (t : FileTree) (given : Option String) :
    FailsWith (¬ RunError.OnSaving ·) (loadOptions t given).result := by
  cases given with
  | none => exact .ok _
  | some path =>
    rw [loadOptions, result_mapError]
    exact .mapError _ fun _ => id

theorem loadDocuments_failsWith (t : FileTree) (files : List String) :
    FailsWith (¬ RunError.OnSaving ·) (loadDocuments t files).result := by
  induction files with
  | nil => exact .ok _
  | cons path others ih =>
    simp only [loadDocuments, Logged.result_bind, result_mapError]
    refine .bind (.mapError _ fun _ => id) fun d => ?_
    exact .bind ih fun later => .ok _

theorem loadExternals_failsWith (t : FileTree) (paths extensions : List String) :
    FailsWith (¬ RunError.OnSaving ·) (loadExternals t paths extensions).result := by
  unfold loadExternals
  split
  · exact .ok _
  · simp only [Logged.result_bind, result_mapError]
    refine .bind (.mapError _ fun _ => id) fun found => ?_
    refine .bind (loadDocuments_failsWith t found.files) fun documents => ?_
    exact .ok _

/-- Loading the inputs saves nothing, so it fails for another reason. -/
theorem load_failsWith (t : FileTree) (a : Arguments) :
    FailsWith (¬ RunError.OnSaving ·) (load t a).result := by
  simp only [load, Logged.result_bind, result_mapError]
  refine .bind (loadSchema_failsWith t a.schema) fun schema => ?_
  refine .bind (loadOptions_failsWith t a.config) fun options => ?_
  refine .bind (.mapError _ fun _ => id) fun found => ?_
  refine .bind (loadDocuments_failsWith t found.files) fun documents => ?_
  refine .bind (loadExternals_failsWith t a.externalFragments a.fileExtensions) fun externals => ?_
  exact .ok _

/-- Producing a module saves nothing, either. -/
theorem produce_failsWith (t : FileTree) (a : Arguments) :
    FailsWith (¬ RunError.OnSaving ·) (produce t a).result := by
  simp only [produce, Logged.result_bind, Logged.result_ofExcept, result_mapError]
  refine .bind (load_failsWith t a) fun loaded => ?_
  refine .bind (.mapError _ fun _ => id) fun _ => ?_
  refine .bind (.mapError _ fun _ => id) fun m => ?_
  exact .ok _

/-! ## Saving it -/

/-- Making the directory of a file adds directories at most. -/
theorem makeParent_adds (t : FileTree) (path : String) : AddsDirectories t (makeParent t path).1 := by
  unfold makeParent
  split
  · exact .refl t
  · split
    · exact .refl t
    · exact FileTree.makeDirectories_adds t _

/-- Where this fails it is while saving. -/
theorem makeParent_failsWith (t : FileTree) (path : String) :
    FailsWith RunError.OnSaving (makeParent t path).2 := by
  unfold makeParent
  split
  · exact .ok _
  · split
    · exact .ok _
    · exact .mapError _ fun _ => trivial

/-- A save that succeeds rewrites the file that its path leads to; one that fails makes directories at
most. -/
theorem save_outcome (t : FileTree) (path text : String) :
    ((save t path text).2 = .ok () ∧
        ∃ place, Rewrites t (save t path text).1 path (Text.Utf8.encode text) place) ∨
      ∃ e, (save t path text).2 = .error e ∧ e.OnSaving ∧ AddsDirectories t (save t path text).1 := by
  have hadds := makeParent_adds t path
  have hfails := makeParent_failsWith t path
  unfold save
  cases hparent : makeParent t path with
  | mk made result =>
    rw [hparent] at hadds hfails
    cases result with
    | error e => exact .inr ⟨e, rfl, hfails e rfl, hadds⟩
    | ok _ =>
      cases hwrite : made.write path (Text.Utf8.encode text) with
      | error e =>
        simp only [hwrite]
        exact .inr ⟨.output path e, rfl, trivial, hadds⟩
      | ok written =>
        simp only [hwrite]
        exact .inl ⟨trivial, FileTree.rewrites_of_write hadds hwrite⟩

/-! ## Running a command -/

/-- The run of `generate` gets as far as saving a text: what it makes of the tree, and how it ends, is
what comes of saving the text. -/
def ComesToSaving (t : FileTree) (a : Arguments) : Prop :=
  ∃ text, (run t .generate a).1 = (save t a.output text).1 ∧
    (run t .generate a).2.result.map (fun _ => ()) = (save t a.output text).2

/-- What has been produced is saved, and then `generate` ends as the saving does. -/
theorem generate_of_produced (h : (produce t a).result = .ok p) :
    (run t .generate a).1 = (save t a.output p.fileText).1 ∧
      (run t .generate a).2.result.map (fun _ => ()) = (save t a.output p.fileText).2 := by
  show (generate t a).1 = _ ∧ (generate t a).2.result.map _ = _
  unfold generate
  simp only [h]
  cases save t a.output p.fileText with
  | mk after result =>
    cases result with
    | error e => exact ⟨rfl, rfl⟩
    | ok _ => exact ⟨rfl, rfl⟩

/-- Where nothing is produced, nothing changes. -/
theorem generate_of_error (h : (produce t a).result = .error e) :
    run t .generate a = (t, ⟨(produce t a).log, .error e⟩) := by
  show generate t a = _
  simp only [generate, h]

/-- `validate` fails as production does. -/
theorem validate_of_error (h : (produce t a).result = .error e) :
    (run t .validate a).2.result = .error e := by
  show (validate t a).result = _
  simp only [validate, Logged.result_bind, h]
  rfl

/-- And it succeeds with what has been produced, which it does not save. -/
theorem validate_of_produced (h : (produce t a).result = .ok p) :
    (run t .validate a).2.result = .ok (validatedSummary p) := by
  show (validate t a).result = _
  simp only [validate, Logged.result_bind, h]
  rfl

/-- The run of `generate` gets as far as saving when there is something to save. -/
theorem comesToSaving_iff : ComesToSaving t a ↔ ∃ p, (produce t a).result = .ok p := by
  constructor
  · rintro ⟨text, -, hresult⟩
    cases hproduce : (produce t a).result with
    | ok p => exact ⟨p, rfl⟩
    | error e =>
      rw [generate_of_error hproduce] at hresult
      rcases save_outcome t a.output text with ⟨hok, -⟩ | ⟨e', herror, hsaving, -⟩
      · rw [hok] at hresult
        nomatch hresult
      · rw [herror] at hresult
        obtain rfl := Except.error.inj hresult
        exact absurd hsaving (produce_failsWith t a e hproduce)
  · rintro ⟨p, hp⟩
    exact ⟨p.fileText, generate_of_produced hp⟩

/-- A run changes all that it is to change or no file at all. `validate` changes nothing, and a
`generate` that fails leaves every file as it is. A `generate` that succeeds rewrites the one file that the
output leads to; its content is the module that is generated from what was loaded before the run, and a
line feed. `validate` succeeds when `generate` gets as far as making the directory of the output and
writing; otherwise both fail with the same error. -/
theorem run_allOrNothing (t : FileTree) (a : Arguments) :
    (run t .validate a).1 = t ∧
      (∀ e, (run t .generate a).2.result = .error e →
        ∀ place, (run t .generate a).1.file? place = t.file? place) ∧
      (∀ summary, (run t .generate a).2.result = .ok summary →
        ∃ i m place, Loads t a i ∧ (Generate.generate i).result = .ok m ∧
          Rewrites t (run t .generate a).1 a.output (Text.Utf8.encode (m.render ++ "\n")) place) ∧
      ((∃ summary, (run t .validate a).2.result = .ok summary) ↔ ComesToSaving t a) ∧
      (¬ ComesToSaving t a → ∃ e, (run t .validate a).2.result = .error e ∧
        (run t .generate a).2.result = .error e) := by
  rw [comesToSaving_iff]
  refine ⟨rfl, ?_⟩
  cases hproduce : (produce t a).result with
  | error e =>
    -- Nothing is produced: both commands end with the same error, and nothing is written.
    rw [generate_of_error hproduce, validate_of_error hproduce]
    exact ⟨fun _ _ _ => rfl, nofun, ⟨nofun, nofun⟩, fun _ => ⟨e, rfl, rfl⟩⟩
  | ok p =>
    -- Something is produced: `validate` is done, and `generate` ends as the saving does.
    obtain ⟨htree, hresult⟩ := generate_of_produced hproduce
    obtain ⟨i, m, hloads, -, hm, hrender⟩ := produce_eq_ok.mp ⟨p, hproduce, rfl⟩
    rw [htree, validate_of_produced hproduce]
    refine ⟨?_, ?_, ⟨fun _ => ⟨p, rfl⟩, fun _ => ⟨_, rfl⟩⟩, fun h => absurd ⟨p, rfl⟩ h⟩
    · intro e he
      rw [he] at hresult
      rcases save_outcome t a.output p.fileText with ⟨hok, -⟩ | ⟨e', -, -, hadds⟩
      · rw [hok] at hresult
        nomatch hresult
      · exact hadds.file?_eq
    · intro summary hsummary
      rw [hsummary] at hresult
      rcases save_outcome t a.output p.fileText with ⟨-, place, hrewrites⟩ | ⟨e', herror, -, -⟩
      · refine ⟨i, m, place, hloads, hm, ?_⟩
        rw [hrender]
        exact hrewrites
      · rw [herror] at hresult
        nomatch hresult

end QueryModule.Command
