import QueryModule.Proofs.FileTree.Resolving
import Mathlib.Data.List.Nodup

/-!
# Trees that operations make

A list of places and entries is a tree when no place is listed twice and what is listed is in a directory,
under a name that an entry can have. The tree without entries is well-formed, and making directories,
writing files and installing entries keep a tree so: a new entry comes into a directory that its path leads
to (`vacancy_eq_ok`), and what is put in the stead of an old entry is never put in that of a directory.
-/

namespace QueryModule.FileTree

variable {t t' : FileTree} {e : Ending} {links : Nat} {here place : Place} {path name : String}
  {steps : List String} {entry : Entry} {content : List UInt8}

/-- A tree as it comes about when entries are put into directories: no place is listed twice, and an
entry other than the root has a name and is in a directory. -/
structure WellFormed (t : FileTree) : Prop where
  nodup : (t.entries.map (·.1)).Nodup
  directory : ∀ {place name entry}, t.get? (place ++ [name]) = some entry →
    t.get? place = some .directory
  name : ∀ {place name entry}, t.get? (place ++ [name]) = some entry → Path.IsName name

/-- There is nothing in an empty tree but its root. -/
theorem get?_empty (place : Place) (hplace : place ≠ []) : empty.get? place = none := by
  rw [get?, if_neg hplace]
  rfl

/-- The empty tree is well-formed. -/
theorem wellFormed_empty : empty.WellFormed where
  nodup := .nil
  directory h := by
    rw [get?_empty _ (by simp)] at h
    nomatch h
  name h := by
    rw [get?_empty _ (by simp)] at h
    nomatch h

/-- What is put at a place that is taken is put in its stead, and else at the end. -/
theorem map_fst_putIn (place : Place) (entry : Entry) (entries : List (Place × Entry)) :
    (putIn place entry entries).map (·.1) =
      if place ∈ entries.map (·.1) then entries.map (·.1) else entries.map (·.1) ++ [place] := by
  induction entries with
  | nil => rfl
  | cons x rest ih =>
    obtain ⟨q, f⟩ := x
    unfold putIn
    by_cases hq : q = place
    · simp [hq]
    · have hne : place ≠ q := Ne.symm hq
      simp only [hq, if_false, List.map_cons, ih, List.mem_cons, hne, false_or]
      split <;> simp

/-- An entry can be put into a directory, and in the stead of another one unless that is a directory. -/
theorem WellFormed.put (ht : t.WellFormed) (hdir : t.get? place = some .directory)
    (hname : Path.IsName name) (hold : t.get? (place ++ [name]) ≠ some .directory) :
    (t.put (place ++ [name]) entry).WellFormed := by
  -- A directory that is there stays; so nothing loses the directory that it is in.
  have hkeep : ∀ {p}, t.get? p = some .directory →
      FileTree.get? (t.put (place ++ [name]) entry) p = some .directory := by
    intro p hp
    have hne : p ≠ place ++ [name] := by
      rintro rfl
      exact hold hp
    rw [get?_put_of_ne t entry hne, hp]
  refine ⟨?_, ?_, ?_⟩
  · show ((putIn (place ++ [name]) entry t.entries).map (·.1)).Nodup
    rw [map_fst_putIn]
    split
    next => exact ht.nodup
    next hnew =>
      rw [← List.concat_eq_append]
      exact ht.nodup.concat hnew
  · intro p n f hf
    by_cases hp : p ++ [n] = place ++ [name]
    · obtain ⟨rfl, -⟩ := List.append_inj' hp rfl
      exact hkeep hdir
    · rw [get?_put_of_ne t entry hp] at hf
      exact hkeep (ht.directory hf)
  · intro p n f hf
    by_cases hp : p ++ [n] = place ++ [name]
    · obtain ⟨-, hn⟩ := List.append_inj' hp rfl
      rw [List.singleton_inj.mp hn]
      exact hname
    · rw [get?_put_of_ne t entry hp] at hf
      exact ht.name hf

/-! ## New entries -/

/-- A new entry comes into a directory that its path leads to but for the last step. -/
theorem vacancy_eq_ok (h : t.vacancy path = .ok place) :
    ∃ front name parent, Path.steps path = front ++ [name] ∧ Path.IsName name ∧
      t.Leads .follow maxLinks [] front parent ∧ t.get? parent = some .directory ∧
      place = parent ++ [name] ∧ t.get? place = none := by
  obtain ⟨front, name, parent, hsteps, hnamed, hparent, hdir, hplace, hnone⟩ := vacancy_eq_ok_iff.mp h
  rw [resolveFrom_eq_ok (by decide)] at hparent
  have hstep := Path.mem_steps (show name ∈ Path.steps path by simp [hsteps])
  exact ⟨front, name, parent, hsteps, ⟨hstep.1, hstep.2, hnamed⟩, hparent, hdir, hplace, hnone⟩

/-- A new entry can be put where there is room for it. -/
theorem WellFormed.put_vacancy (ht : t.WellFormed) (h : t.vacancy path = .ok place) (entry : Entry) :
    (t.put place entry).WellFormed := by
  obtain ⟨front, name, parent, -, hname, -, hdir, rfl, hnone⟩ := vacancy_eq_ok h
  exact ht.put hdir hname (by rw [hnone]; nofun)

/-- Making a directory leaves the tree well-formed. -/
theorem WellFormed.makeDirectory (ht : t.WellFormed) (h : t.makeDirectory path = .ok t') :
    t'.WellFormed := by
  obtain ⟨place, hplace, h⟩ := ok_of_bind_eq_ok h
  rw [← Except.ok.inj h]
  exact ht.put_vacancy hplace .directory

theorem WellFormed.makeAll (ht : t.WellFormed) (paths : List String) : (t.makeAll paths).1.WellFormed :=
  makeAll_induction (P := WellFormed) WellFormed.makeDirectory ht paths

/-- A tree that files and links are put into is well-formed. -/
theorem WellFormed.install (ht : t.WellFormed) (h : t.install path entry = .ok t') : t'.WellFormed := by
  unfold FileTree.install at h
  obtain ⟨_, -, h⟩ := ok_of_bind_eq_ok h
  obtain ⟨place, hplace, h⟩ := ok_of_bind_eq_ok h
  rw [← Except.ok.inj h]
  exact (ht.makeAll _).put_vacancy hplace entry

/-! ## Writing -/

/-- A way along names that entries can have leads to a directory or to an entry of a directory. -/
theorem Leads.exists_parent (h : t.Leads e links here steps place) (hhere : t.Rooted here)
    (hsteps : ∀ s ∈ steps, s ≠ "" ∧ '/' ∉ s.toList) :
    t.get? place = some .directory ∨
      ∃ parent name, place = parent ++ [name] ∧ Path.IsName name ∧ t.get? parent = some .directory := by
  induction h with
  | here links here => exact .inl (hhere here List.prefix_rfl)
  | stay _ ih => exact ih hhere fun s hs => hsteps s (List.mem_cons_of_mem _ hs)
  | up _ ih => exact ih hhere.dropLast fun s hs => hsteps s (List.mem_cons_of_mem _ hs)
  | directory _ entry _ ih =>
    exact ih (hhere.concat entry) fun s hs => hsteps s (List.mem_cons_of_mem _ hs)
  | @file links here step content named entry =>
    obtain ⟨hne, hslash⟩ := hsteps step (List.mem_singleton_self _)
    exact .inr ⟨here, step, rfl, ⟨hne, hslash, named⟩, hhere here List.prefix_rfl⟩
  | @vacant links here step named entry create =>
    -- The last step is a name, and it is taken in a directory.
    obtain ⟨hne, hslash⟩ := hsteps step (List.mem_singleton_self _)
    exact .inr ⟨here, step, rfl, ⟨hne, hslash, named⟩, hhere here List.prefix_rfl⟩
  | link named entry _ ih =>
    -- The way goes on along the target, which is a path with names of its own.
    refine ih ?_ fun s hs => ?_
    · split
      · exact rooted_nil t
      · exact hhere
    · rcases List.mem_append.mp hs with hs | hs
      · exact Path.mem_steps hs
      · exact hsteps s (List.mem_cons_of_mem _ hs)

/-- A tree that a file is written to stays well-formed. -/
theorem WellFormed.write (ht : t.WellFormed) (h : t.write path content = .ok t') : t'.WellFormed := by
  obtain ⟨place, hplace, hdir, rfl⟩ := write_eq_ok h
  obtain ⟨-, hway⟩ := (resolve_eq_ok (by decide)).mp hplace
  rcases hway.exists_parent (rooted_nil t) (fun s hs => Path.mem_steps hs) with
    hdirectory | ⟨parent, name, rfl, hname, hparent⟩
  · exact absurd hdirectory hdir
  · exact ht.put hparent hname hdir

end QueryModule.FileTree
