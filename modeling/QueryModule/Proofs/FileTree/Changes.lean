import QueryModule.FileTree.Tree
import QueryModule.Proofs.Results

/-!
# What changes in a file tree

Writing a file puts one entry in its place and leaves all others alone. Making directories leaves every
entry alone that is there: what is made is made where nothing was, and so a tree in which directories
have been made, whether all of them or only the first few, still has the files that it had
(`AddsDirectories.file?_eq`).
-/

namespace QueryModule.FileTree

variable {t t' t'' : FileTree} {place p : Place} {path : String}

/-- The content of the file at a place. -/
def file? (t : FileTree) (place : Place) : Option (List UInt8) :=
  match t.get? place with
  | some (.file content) => some content
  | _ => none

/-! ## Putting an entry in its place -/

/-- What is put at a place is found there. -/
theorem lookup_putIn_self (place : Place) (e : Entry) (entries : List (Place × Entry)) :
    (putIn place e entries).lookup place = some e := by
  induction entries with
  | nil => simp [putIn]
  | cons x rest ih =>
    obtain ⟨q, _⟩ := x
    unfold putIn
    by_cases hq : q = place
    · simp [hq]
    · have hne : (place == q) = false := beq_eq_false_iff_ne.mpr (Ne.symm hq)
      simp [hq, ih, List.lookup_cons, hne]

/-- Elsewhere everything is as before. -/
theorem lookup_putIn_of_ne (e : Entry) (entries : List (Place × Entry)) (h : p ≠ place) :
    (putIn place e entries).lookup p = entries.lookup p := by
  have hne : (p == place) = false := beq_eq_false_iff_ne.mpr h
  induction entries with
  | nil => simp [putIn, List.lookup_cons, hne]
  | cons x rest ih =>
    obtain ⟨q, _⟩ := x
    unfold putIn
    by_cases hq : q = place
    · simp [hq, List.lookup_cons, hne]
    · simp [hq, ih, List.lookup_cons]

theorem get?_put_self (t : FileTree) (e : Entry) (h : place ≠ []) :
    get? (t.put place e) place = some e := by
  unfold get?
  rw [if_neg h]
  exact lookup_putIn_self place e t.entries

theorem get?_put_of_ne (t : FileTree) (e : Entry) (h : p ≠ place) :
    get? (t.put place e) p = t.get? p := by
  unfold get?
  by_cases hp : p = []
  · rw [if_pos hp, if_pos hp]
  · rw [if_neg hp, if_neg hp]
    exact lookup_putIn_of_ne e t.entries h

/-- What is no directory is not at the root. -/
theorem ne_nil_of_get?_ne (h : t.get? place ≠ some .directory) : place ≠ [] := by
  rintro rfl
  exact h rfl

/-- A file is written where its path leads, which is not a directory. -/
theorem write_eq_ok {content : List UInt8} (h : t.write path content = .ok t') :
    ∃ place, t.resolve .create path = .ok place ∧ t.get? place ≠ some .directory ∧
      t' = t.put place (.file content) := by
  obtain ⟨place, hplace, h⟩ := ok_of_bind_eq_ok h
  have hfile : t.get? place ≠ some .directory := by
    intro hdir
    rw [hdir] at h
    nomatch h
  refine ⟨place, hplace, hfile, ?_⟩
  split at h
  · nomatch h
  · exact (Except.ok.inj h).symm

/-! ## Making directories -/

/-- The second tree is the first one with directories where nothing was. -/
def AddsDirectories (t t' : FileTree) : Prop :=
  ∀ place, t'.get? place = t.get? place ∨
    t.get? place = none ∧ t'.get? place = some .directory

namespace AddsDirectories

theorem refl (t : FileTree) : AddsDirectories t t := fun _ => .inl rfl

/-- What is added in two steps is added. -/
theorem trans (h : AddsDirectories t t') (h' : AddsDirectories t' t'') : AddsDirectories t t'' := by
  intro place
  rcases h place with same | ⟨hnone, hmade⟩
  · rcases h' place with same' | ⟨hnone', hmade'⟩
    · exact .inl (same'.trans same)
    · exact .inr ⟨same ▸ hnone', hmade'⟩
  · rcases h' place with same' | ⟨hnone', -⟩
    · exact .inr ⟨hnone, same'.trans hmade⟩
    · rw [hmade] at hnone'
      nomatch hnone'

/-- The files are the same, with the same contents. -/
theorem file?_eq (h : AddsDirectories t t') (place : Place) : t'.file? place = t.file? place := by
  unfold file?
  rcases h place with same | ⟨hnone, hmade⟩
  · rw [same]
  · rw [hnone, hmade]

end AddsDirectories

/-- A new entry comes into a directory, where nothing is under the name. -/
theorem vacancy_eq_ok_iff : t.vacancy path = .ok place ↔
    ∃ front name parent, Path.steps path = front ++ [name] ∧ (name ≠ "." ∧ name ≠ "..") ∧
      t.resolveFrom .follow maxLinks [] front = .ok parent ∧ t.get? parent = some .directory ∧
      place = parent ++ [name] ∧ t.get? place = none := by
  unfold vacancy
  constructor
  · intro h
    cases hlast : (Path.steps path).getLast? with
    | none =>
      -- The path has no last step.
      simp only [hlast] at h
      nomatch h
    | some name =>
      simp only [hlast] at h
      obtain ⟨front, hsteps⟩ := List.getLast?_eq_some_iff.mp hlast
      obtain ⟨parent, hparent, h⟩ := ok_of_bind_eq_ok h
      rw [hsteps, List.dropLast_concat] at hparent
      split at h
      · nomatch h
      next hdir =>
        split at h
        · nomatch h
        next hdots =>
          split at h
          · nomatch h
          next hnone =>
            obtain rfl := Except.ok.inj h
            exact ⟨front, name, parent, hsteps, by simpa using hdots, hparent,
              Decidable.not_not.mp hdir, rfl, hnone⟩
  · rintro ⟨front, name, parent, hsteps, hnamed, hparent, hdir, rfl, hnone⟩
    simp only [hsteps, List.getLast?_concat, List.dropLast_concat, hparent]
    show (if ¬ t.get? parent = some .directory then _ else _) = _
    rw [if_neg (not_not_intro hdir), if_neg (by simpa using hnamed), hnone]
    rfl

/-- Nothing is yet where a new entry comes. -/
theorem get?_of_vacancy (h : t.vacancy path = .ok place) : t.get? place = none := by
  obtain ⟨_, _, _, -, -, -, -, -, hnone⟩ := vacancy_eq_ok_iff.mp h
  exact hnone

/-- Making a directory adds it. -/
theorem makeDirectory_adds (h : t.makeDirectory path = .ok t') : AddsDirectories t t' := by
  obtain ⟨place, hplace, h⟩ := ok_of_bind_eq_ok h
  have hnone := get?_of_vacancy hplace
  have hput : t' = t.put place .directory := (Except.ok.inj h).symm
  intro p
  by_cases hp : p = place
  · have hne : place ≠ [] := ne_nil_of_get?_ne (by rw [hnone]; nofun)
    exact .inr ⟨hp ▸ hnone, by rw [hput, hp, get?_put_self t _ hne]⟩
  · exact .inl (by rw [hput, get?_put_of_ne t _ hp])

/-- Whether it fails or not, the making of directories makes one after the other. -/
theorem makeAll_induction {P : FileTree → Prop}
    (step : ∀ {t t' : FileTree} {path : String}, P t → t.makeDirectory path = .ok t' → P t')
    (ht : P t) (paths : List String) : P (t.makeAll paths).1 := by
  induction paths with
  | nil => exact ht
  | cons path above ih =>
    unfold makeAll
    split
    · exact ht
    · split
      · next made hmade => exact step ht hmade
      · split
        · next between e hbetween =>
          rw [hbetween] at ih
          exact ih
        · next between hbetween =>
          rw [hbetween] at ih
          split
          · next made hmade => exact step ih hmade
          · exact ih
      · exact ht

theorem makeAll_adds (t : FileTree) (paths : List String) : AddsDirectories t (t.makeAll paths).1 :=
  makeAll_induction (fun h hmade => h.trans (makeDirectory_adds hmade)) (.refl t) paths

/-- Making a directory with those above it adds these at most. -/
theorem makeDirectories_adds (t : FileTree) (path : String) :
    AddsDirectories t (t.makeDirectories path).1 :=
  makeAll_adds t (ancestry path)

end QueryModule.FileTree
