import QueryModule.Proofs.FileTree.Walking
import QueryModule.Proofs.Source.Finding

/-!
# Every file is taken or skipped

The files that walks visit are counted once each: a file is taken when it is looked for and skipped
otherwise. The file that is given by itself moves from one side to the other, and it is the only
one that its walk visits; so nothing is lost when it does (`find_takesOrSkips`). The first error that a
walk meets is all that is reported.
-/

namespace QueryModule

/-- A walk from the path of a file meets the file and nothing else. -/
theorem FileTree.walk_of_content? {t : FileTree} {path : String} (h : (t.content? path).isSome) :
    ∃ place, t.walk path = [.ok ⟨path, place, true⟩] := by
  unfold content? at h
  split at h
  · cases h
  next place hplace =>
    split at h
    next content hentry => exact ⟨place, walk_file hplace hentry⟩
    · cases h

namespace Discovery

open QueryModule.FileTree (Visit WalkError)

variable {t : FileTree} {inputs extensions : List String} {visits : List Visit}

/-! ## Walks that fail -/

/-- The error that a step of a walk is, if it is one. -/
def stepError? : Except WalkError Visit → Option WalkError
  | .error e => some e
  | .ok _ => none

/-- The first error that the walks from some paths meet, and the path whose walk meets it. -/
def firstError? (t : FileTree) (inputs : List String) : Option DiscoveryError :=
  inputs.findSome? fun input => ((t.walk input).findSome? stepError?).map (⟨input, ·⟩)

/-- A walk with an error in it ends the survey with the first one. -/
theorem survey_eq_error {walk : List (Except WalkError Visit)} {e : WalkError}
    (h : walk.findSome? stepError? = some e) : (survey extensions walk).result = .error e := by
  induction walk with
  | nil => nomatch h
  | cons step rest ih =>
    cases step with
    | error e' =>
      obtain rfl := Option.some.inj h
      rfl
    | ok v =>
      have hrest := ih h
      simp only [survey, Logged.result_bind, Logged.result_notes, Logged.result_pure]
      show ((survey extensions rest).result >>= fun others => .ok (v :: others)) = .error e
      rw [hrest]
      rfl

theorem exists_visits {walk : List (Except WalkError Visit)} (h : walk.findSome? stepError? = none) :
    ∃ visits : List Visit, walk = visits.map .ok := by
  refine FileTree.NoErrors.exists_visits fun step hstep => ?_
  have hnone := List.findSome?_eq_none_iff.mp h step hstep
  cases step with
  | ok v => exact ⟨v, rfl⟩
  | error e => nomatch hnone

/-- So does the first error of several walks. -/
theorem surveyAll_eq_error {e : DiscoveryError} (h : firstError? t inputs = some e) :
    (surveyAll t extensions inputs).result = .error e := by
  induction inputs with
  | nil => nomatch h
  | cons input others ih =>
    simp only [surveyAll, Logged.result_bind, result_mapError, Logged.result_pure]
    show ((survey extensions (t.walk input)).result.mapError _ >>= fun first =>
      (surveyAll t extensions others).result >>= fun later => .ok (first ++ later)) = .error e
    rw [firstError?, List.findSome?_cons] at h
    cases herror : (t.walk input).findSome? stepError? with
    | some e' =>
      rw [herror] at h
      obtain rfl := Option.some.inj h
      rw [survey_eq_error herror]
      rfl
    | none =>
      rw [herror] at h
      obtain ⟨visits, hvisits⟩ := exists_visits herror
      rw [survey_eq_ok.mpr hvisits, ih h]
      rfl

theorem exists_firstError? {input : String} {e : WalkError} (hinput : input ∈ inputs)
    (he : .error e ∈ t.walk input) : ∃ first, firstError? t inputs = some first := by
  rw [← Option.isSome_iff_exists, firstError?, List.findSome?_isSome_iff]
  refine ⟨input, hinput, ?_⟩
  rw [Option.isSome_map, List.findSome?_isSome_iff]
  exact ⟨_, he, rfl⟩

/-! ## Walks that do not -/

/-- A file is given by itself and is not one that is looked for. -/
def GivenAlone (t : FileTree) (inputs extensions : List String) (input : String) : Prop :=
  inputs = [input] ∧ (t.content? input).isSome ∧ ¬ IsLookedFor extensions input

/-- A path is taken by itself when it is the only one and leads to a file. -/
theorem onlyFile?_eq_some {input : String} :
    onlyFile? t inputs = some input ↔ inputs = [input] ∧ (t.content? input).isSome := by
  unfold onlyFile?
  split
  -- A single path, which leads to a file or not.
  next given =>
    split
    next h =>
      constructor
      · intro heq
        obtain rfl := Option.some.inj heq
        exact ⟨rfl, h⟩
      · rintro ⟨heq, -⟩
        rw [List.cons.inj heq |>.1]
    next h =>
      refine ⟨nofun, ?_⟩
      rintro ⟨heq, hcontent⟩
      obtain rfl := (List.cons.inj heq).1
      exact absurd hcontent h
  -- Not a single path.
  next hne =>
    refine ⟨nofun, ?_⟩
    rintro ⟨rfl, -⟩
    exact absurd rfl (hne input)

/-- The only thing that the walk from a file that is given by itself meets is that file. -/
theorem visits_eq_of_content? {input : String} (hcontent : (t.content? input).isSome)
    (hvisits : [input].flatMap t.walk = visits.map .ok) : ∃ place, visits = [⟨input, place, true⟩] := by
  obtain ⟨place, hwalk⟩ := FileTree.walk_of_content? hcontent
  rw [List.flatMap_singleton, hwalk] at hvisits
  obtain ⟨v, rfl, hv⟩ := List.map_eq_singleton_iff.mp hvisits.symm
  exact ⟨place, congrArg ([·]) (Except.ok.inj hv)⟩

/-- Only then is anything found that is not looked for. -/
theorem orOnlyFile_of_not_givenAlone (hvisits : inputs.flatMap t.walk = visits.map .ok)
    (h : ∀ input, ¬ GivenAlone t inputs extensions input) :
    orOnlyFile t inputs (ofVisits extensions visits) = ofVisits extensions visits := by
  unfold orOnlyFile
  split
  next input hfiles honly =>
    obtain ⟨rfl, hcontent⟩ := onlyFile?_eq_some.mp honly
    obtain ⟨place, rfl⟩ := visits_eq_of_content? hcontent hvisits
    rw [files_ofVisits] at hfiles
    refine absurd ⟨rfl, hcontent, ?_⟩ (h input)
    simpa using hfiles
  · rfl

/-- A file that is given alone is taken although it is not looked for, and nothing is skipped. -/
theorem orOnlyFile_of_givenAlone {input : String} (hvisits : inputs.flatMap t.walk = visits.map .ok)
    (h : GivenAlone t inputs extensions input) :
    orOnlyFile t inputs (ofVisits extensions visits) = ⟨[input], 0⟩ := by
  obtain ⟨rfl, hcontent, hother⟩ := h
  obtain ⟨place, rfl⟩ := visits_eq_of_content? hcontent hvisits
  have honly := onlyFile?_eq_some.mpr ⟨rfl, hcontent⟩
  have hextension : hasExtension extensions input = false := by
    rw [← decide_isLookedFor, decide_eq_false hother]
  simp [orOnlyFile, ofVisits, honly, hextension]

/-- Every file that is visited is either taken or skipped. -/
theorem length_files_ofVisits (extensions : List String) (visits : List Visit) :
    (ofVisits extensions visits).files.length + (ofVisits extensions visits).skipped =
      visits.countP (·.isFile) := by
  let paths := (visits.filter (·.isFile)).map (·.path)
  calc (paths.filter (hasExtension extensions)).length + paths.countP (fun p => !hasExtension extensions p)
      = paths.countP (hasExtension extensions)
          + paths.countP (fun p => ¬ hasExtension extensions p = true) := by
        simp [← List.countP_eq_length_filter]
    _ = paths.length := (List.length_eq_countP_add_countP _).symm
    _ = visits.countP (·.isFile) := by rw [List.length_map, List.countP_eq_length_filter]

/-- When no walk meets an error, the files that are found are those that the walks visit and that are looked
for, in the order of the visits, unless a file that is not looked for is given by itself, which is then
found alone; the files that are found and those that are skipped are as many as the files that are
visited, each counted as often as it is visited. When a walk meets an error, nothing is found, and the first
error is reported with the path that the walk started from. -/
theorem find_takesOrSkips (t : FileTree) (inputs extensions : List String) :
    (∀ visits : List Visit, inputs.flatMap t.walk = visits.map .ok →
      ∃ found, (find t inputs extensions).result = .ok found ∧
        (∀ input, GivenAlone t inputs extensions input → found.files = [input]) ∧
        ((∀ input, ¬ GivenAlone t inputs extensions input) → found.files =
          (visits.filter fun v => v.isFile ∧ IsLookedFor extensions v.path).map (·.path)) ∧
        found.files.length + found.skipped = visits.countP (·.isFile)) ∧
      ∀ input ∈ inputs, ∀ e, .error e ∈ t.walk input →
        ∃ first, firstError? t inputs = some first ∧
          (find t inputs extensions).result = .error first := by
  constructor
  · intro visits hvisits
    refine ⟨orOnlyFile t inputs (ofVisits extensions visits), ?_, ?_, ?_, ?_⟩
    · rw [result_find, surveyAll_eq_ok.mpr hvisits]
      rfl
    · intro input halone
      rw [orOnlyFile_of_givenAlone hvisits halone]
    · intro hnone
      rw [orOnlyFile_of_not_givenAlone hvisits hnone, files_ofVisits]
    · -- A file that is given alone is the only one visited, and so nothing is skipped. Otherwise each
      -- visited file is taken or skipped.
      by_cases halone : ∃ input, GivenAlone t inputs extensions input
      · obtain ⟨input, halone⟩ := halone
        rw [orOnlyFile_of_givenAlone hvisits halone]
        obtain ⟨rfl, hcontent, -⟩ := halone
        obtain ⟨place, rfl⟩ := visits_eq_of_content? hcontent hvisits
        rfl
      · rw [orOnlyFile_of_not_givenAlone hvisits (not_exists.mp halone), length_files_ofVisits]
  · -- An error in any walk leads to a first one.
    intro input hinput e he
    obtain ⟨first, hfirst⟩ := exists_firstError? hinput he
    refine ⟨first, hfirst, ?_⟩
    rw [result_find, surveyAll_eq_error hfirst]
    rfl

end Discovery
end QueryModule
