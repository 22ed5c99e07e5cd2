import QueryModule.Proofs.Results
import QueryModule.Proofs.Source.Extensions

/-!
# What is found

Finding documents succeeds when no walk meets an error. Then the files are those that the walks visit and
that are looked for, in the order of the visits; if there are none, the file that is given by itself is
found (`find_eq_ok`).
-/

namespace QueryModule.Discovery

open QueryModule.FileTree (Visit WalkError)

variable {t : FileTree} {inputs extensions files : List String} {visits : List Visit}

/-- A walk is surveyed to its end when it meets no error. -/
theorem survey_eq_ok {walk : List (Except WalkError Visit)} :
    (survey extensions walk).result = .ok visits ↔ walk = visits.map .ok := by
  induction walk generalizing visits with
  | nil =>
    show Except.ok [] = Except.ok visits ↔ _
    rw [Except.ok.injEq, List.nil_eq, List.nil_eq, List.map_eq_nil_iff]
  | cons step rest ih =>
    cases step with
    | error e =>
      -- The survey ends with the error, which is no visit.
      refine ⟨nofun, fun h => ?_⟩
      obtain ⟨v, _, -, hv, -⟩ := List.map_eq_cons_iff.mp h.symm
      nomatch hv
    | ok v =>
      simp only [survey, Logged.result_bind, Logged.result_notes, Logged.result_pure]
      show ((survey extensions rest).result >>= fun others => .ok (v :: others)) = .ok visits ↔ _
      rw [bind_eq_ok]
      constructor
      · rintro ⟨others, hothers, h⟩
        rw [← Except.ok.inj h, ih.mp hothers, List.map_cons]
      · intro h
        obtain ⟨_, others, rfl, hv, hothers⟩ := List.map_eq_cons_iff.mp h.symm
        obtain rfl := Except.ok.inj hv
        exact ⟨others, ih.mpr hothers.symm, rfl⟩

/-- A survey succeeds when no walk meets an error, with what they all visit. -/
theorem surveyAll_eq_ok :
    (surveyAll t extensions inputs).result = .ok visits ↔
      inputs.flatMap t.walk = visits.map .ok := by
  induction inputs generalizing visits with
  | nil =>
    show Except.ok [] = Except.ok visits ↔ _
    rw [Except.ok.injEq, List.flatMap_nil, List.nil_eq, List.nil_eq, List.map_eq_nil_iff]
  | cons input others ih =>
    simp only [surveyAll, Logged.result_bind, result_mapError, Logged.result_pure]
    show ((survey extensions (t.walk input)).result.mapError _ >>= fun first =>
      (surveyAll t extensions others).result >>= fun later => .ok (first ++ later)) = .ok visits ↔ _
    rw [List.flatMap_cons, bind_eq_ok]
    constructor
    · rintro ⟨first, hfirst, h⟩
      obtain ⟨later, hlater, h⟩ := bind_eq_ok.mp h
      rw [← Except.ok.inj h, survey_eq_ok.mp (mapError_eq_ok.mp hfirst), ih.mp hlater, List.map_append]
    · intro h
      obtain ⟨first, later, rfl, hfirst, hlater⟩ := List.map_eq_append_iff.mp h.symm
      refine ⟨first, mapError_eq_ok.mpr (survey_eq_ok.mpr hfirst.symm), ?_⟩
      exact bind_eq_ok.mpr ⟨later, ih.mpr hlater.symm, rfl⟩

/-- What has been taken or, if that is nothing, the file that is given by itself. -/
def orOnlyFile (t : FileTree) (inputs : List String) (found : Discovery) : Discovery :=
  match found.files, onlyFile? t inputs with
  | [], some input => ⟨[input], found.skipped - 1⟩
  | _, _ => found

/-- A file that is given by itself is taken only if nothing else has been found. -/
theorem files_orOnlyFile (t : FileTree) (inputs : List String) (found : Discovery) :
    (orOnlyFile t inputs found).files =
      match found.files with
      | [] => (onlyFile? t inputs).toList
      | taken => taken := by
  unfold orOnlyFile
  cases hfiles : found.files with
  | nil =>
    cases onlyFile? t inputs with
    | none => exact hfiles
    | some input => rfl
  | cons path others => exact hfiles

theorem files_ofVisits (extensions : List String) (visits : List Visit) :
    (ofVisits extensions visits).files =
      (visits.filter fun v => v.isFile ∧ IsLookedFor extensions v.path).map (·.path) := by
  show ((visits.filter (·.isFile)).map (·.path)).filter (hasExtension extensions) = _
  rw [List.filter_map, List.filter_filter]
  simp only [Function.comp, Bool.decide_and, Bool.decide_eq_true, decide_isLookedFor, Bool.and_comm]

theorem result_find (t : FileTree) (inputs extensions : List String) :
    (find t inputs extensions).result = (surveyAll t extensions inputs).result >>= fun visits =>
      .ok (orOnlyFile t inputs (ofVisits extensions visits)) := by
  unfold find orOnlyFile
  simp only [Logged.result_bind, Logged.result_note]
  show ((surveyAll t extensions inputs).result >>= _) = _
  congr
  funext visits
  cases (ofVisits extensions visits).files with
  | nil => cases onlyFile? t inputs <;> rfl
  | cons _ _ => rfl

/-- The files at or below some paths: those that the walks visit and that are looked for, in the order of
the visits. A file that is given by itself is taken anyway. -/
def Finds (t : FileTree) (inputs extensions files : List String) : Prop :=
  ∃ visits : List Visit, inputs.flatMap t.walk = visits.map .ok ∧
    files = match (visits.filter fun v => v.isFile ∧ IsLookedFor extensions v.path).map (·.path) with
      | [] => (onlyFile? t inputs).toList
      | taken => taken

/-- A search for files finds the ones that are to be found. -/
theorem find_eq_ok :
    (∃ skipped, (find t inputs extensions).result = .ok ⟨files, skipped⟩) ↔
      Finds t inputs extensions files := by
  unfold Finds
  simp only [result_find, bind_eq_ok, surveyAll_eq_ok, ← files_ofVisits, ← files_orOnlyFile]
  constructor
  · rintro ⟨skipped, visits, hvisits, h⟩
    exact ⟨visits, hvisits, congrArg Discovery.files (Except.ok.inj h).symm⟩
  · rintro ⟨visits, hvisits, rfl⟩
    exact ⟨_, visits, hvisits, rfl⟩

/-- What is found is a matter of what is visited. -/
theorem finds_iff_of_visits (hvisits : inputs.flatMap t.walk = visits.map .ok) :
    Finds t inputs extensions files ↔
      files = match (visits.filter fun v => v.isFile ∧ IsLookedFor extensions v.path).map (·.path) with
        | [] => (onlyFile? t inputs).toList
        | taken => taken := by
  constructor
  · rintro ⟨visits', hvisits', hfiles⟩
    obtain rfl := List.map_injective_iff.mpr (fun _ _ => Except.ok.inj) (hvisits.symm.trans hvisits')
    exact hfiles
  · exact fun hfiles => ⟨visits, hvisits, hfiles⟩

/-- Where no paths are given no files are found. -/
theorem finds_nil : Finds t [] extensions files ↔ files = [] :=
  finds_iff_of_visits (show [].flatMap t.walk = [].map .ok from rfl)

end QueryModule.Discovery
