import QueryModule.Proofs.FileTree.Growing
import QueryModule.Proofs.Source.Finding

/-!
# Finding again

A file that has been added is found if it is below one of the paths and is looked for. If it is not
found, the files that are found are those that were found before, in the same order (`Finds.again`):
the walks visit what they visited, and a path that is given by itself leads to a file if it did so
before.
-/

namespace QueryModule.Discovery

open QueryModule.FileTree (Visit WellFormed AddsFile)

variable {t t' : FileTree} {place : Place} {content : List UInt8} {inputs extensions files : List String}

theorem onlyFile?_grown (h : FileTree.Grows t t') {visits : List Visit}
    (hwalks : inputs.flatMap t.walk = visits.map .ok) : onlyFile? t' inputs = onlyFile? t inputs := by
  unfold onlyFile?
  split
  next input =>
    have hok : FileTree.NoErrors (t.walk input) := by
      rw [List.flatMap_singleton] at hwalks
      exact hwalks ▸ FileTree.noErrors_map_ok visits
    obtain ⟨place, hplace⟩ := FileTree.exists_resolve_of_walk hok
    have hsame : (t'.content? input).isSome = (t.content? input).isSome := by
      unfold FileTree.content?
      rw [hplace, h.resolve hplace]
      dsimp only
      rcases FileTree.resolve_ends hplace with hdir | ⟨content, hfile⟩
      · rw [hdir, h.directory hdir]
      · obtain ⟨content', hfile'⟩ := h.file hfile
        rw [hfile, hfile']
        rfl
    rw [hsame]
  · rfl

/-- A file that is visited and looked for is found. -/
theorem exists_finds {visits : List Visit} {v : Visit} (hwalks : inputs.flatMap t.walk = visits.map .ok)
    (hv : v ∈ visits) (htaken : v.isFile ∧ IsLookedFor extensions v.path) :
    ∃ files, Finds t inputs extensions files ∧ v.path ∈ files := by
  refine ⟨_, ⟨visits, hwalks, rfl⟩, ?_⟩
  have hmem : v.path ∈ (visits.filter fun v => v.isFile ∧ IsLookedFor extensions v.path).map (·.path) :=
    List.mem_map.mpr ⟨v, List.mem_filter.mpr ⟨hv, decide_eq_true htaken⟩, rfl⟩
  split
  next hnil =>
    rw [hnil] at hmem
    nomatch hmem
  · exact hmem

/-- The same files are found when the file that has been added is not found. -/
theorem Finds.again (ht : t.WellFormed) (ht' : t'.WellFormed) (h : AddsFile t t' place content)
    (hfinds : Finds t inputs extensions files)
    (hapart : ∀ files, Finds t' inputs extensions files →
      ∀ path ∈ files, t'.resolve .follow path ≠ .ok place) :
    Finds t' inputs extensions files := by
  obtain ⟨visits, hwalks, hfiles⟩ := hfinds
  obtain ⟨visits', hwalks', hvisits⟩ := ht.walks_grown ht' h.grows hwalks
  -- A file that is taken now and was not there before is the one that has been added.
  have hknown : ∀ v ∈ visits', v.isFile ∧ IsLookedFor extensions v.path →
      (t.get? v.place).isSome := by
    intro v hv htaken
    obtain ⟨files', hfinds', hpath⟩ := exists_finds hwalks' hv htaken
    obtain ⟨input, -, hwalk⟩ := List.mem_flatMap.mp (hwalks' ▸ List.mem_map_of_mem hv)
    have hgenuine := ht'.genuine_walk hwalk
    by_contra hnone
    rcases FileTree.resolve_ends hgenuine.leads with hdir | ⟨content', hfile⟩
    · nomatch (hgenuine.kind.mpr hdir).symm.trans htaken.1
    · refine hapart files' hfinds' v.path hpath ?_
      rw [hgenuine.leads, h.eq_of_new (Option.not_isSome_iff_eq_none.mp hnone) hfile]
  have htaken : visits'.filter (fun v => v.isFile ∧ IsLookedFor extensions v.path) =
      visits.filter fun v => v.isFile ∧ IsLookedFor extensions v.path := by
    rw [← hvisits, List.filter_filter]
    refine List.filter_congr fun v hv => ?_
    by_cases htaken : v.isFile ∧ IsLookedFor extensions v.path
    · rw [hknown v hv htaken, Bool.and_true]
    · rw [decide_eq_false htaken, Bool.false_and]
  refine ⟨visits', hwalks', ?_⟩
  rw [htaken, onlyFile?_grown h.grows hwalks]
  exact hfiles

end QueryModule.Discovery
