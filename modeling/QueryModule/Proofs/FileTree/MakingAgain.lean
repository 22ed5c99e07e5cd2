import QueryModule.Proofs.FileTree.WellFormed

/-!
# Making and writing what is there

A directory that has been made is there, and so making it again changes nothing: there is no room for a new
entry where a path leads already (`vacancy_of_resolve`), and that failure is excused. A file that is written
with the content that it has stays what it is.
-/

namespace QueryModule.FileTree

variable {t t' : FileTree} {links : Nat} {here place : Place} {path step : String} {above : List String}
  {content : List UInt8} {entry : Entry}

/-! ## What is made is there -/

/-- A path is one of a directory when it leads to one. -/
theorem isDirectory_iff : t.isDirectory path = true ↔
    ∃ place, t.resolve .follow path = .ok place ∧ t.get? place = some .directory := by
  unfold isDirectory
  cases t.resolve .follow path with
  | error e => exact ⟨nofun, nofun⟩
  | ok place => simp

/-- A directory that has been made is where its path leads. -/
theorem isDirectory_of_makeDirectory (hpath : path ≠ "") (h : t.makeDirectory path = .ok t') :
    t'.isDirectory path = true := by
  obtain ⟨place, hplace, h⟩ := ok_of_bind_eq_ok h
  obtain rfl := Except.ok.inj h
  obtain ⟨front, name, parent, hsteps, hname, hway, hdir, rfl, hnone⟩ := vacancy_eq_ok hplace
  have hmade := get?_put_self t .directory (List.concat_ne_nil name parent)
  have hkeeps : Keeps t (t.put (parent ++ [name]) .directory) :=
    AddsDirectories.keeps (makeDirectory_adds (by rw [makeDirectory, hplace]; rfl))
  refine isDirectory_iff.mpr ⟨_, ?_, hmade⟩
  rw [resolve_eq_ok (by decide), hsteps]
  have hparent := hkeeps.directory hdir
  refine ⟨hpath, (hkeeps.leads hway fun hn => ?_).append hparent fun links => ?_⟩
  · rw [hparent] at hn
    nomatch hn
  · exact .directory hname.named hmade (.here links _)

/-- Where directories have been made from the innermost outward, the innermost is there. -/
theorem isDirectory_of_makeAll (hpath : path ≠ "") (h : t.makeAll (path :: above) = (t', .ok ())) :
    t'.isDirectory path = true := by
  -- Where making the directory fails, it is looked whether there is one already.
  have hchecked : ∀ {made : FileTree} {e : FileError},
      (made, if made.isDirectory path then Except.ok () else Except.error e) = (t', .ok ()) →
        t'.isDirectory path = true := by
    intro made e h
    obtain ⟨rfl, h⟩ := Prod.mk.inj h
    split at h
    next hdir => exact hdir
    · cases h
  unfold makeAll at h
  rw [if_neg hpath] at h
  split at h
  next made hmade =>
    obtain ⟨rfl, -⟩ := Prod.mk.inj h
    exact isDirectory_of_makeDirectory hpath hmade
  next =>
    split at h
    · cases (Prod.mk.inj h).2
    next between hbetween =>
      split at h
      next made hmade =>
        obtain ⟨rfl, -⟩ := Prod.mk.inj h
        exact isDirectory_of_makeDirectory hpath hmade
      · exact hchecked h
  · exact hchecked h

/-- The first directory of an ancestry is the one whose ancestry it is. -/
theorem makeDirectories_eq (t : FileTree) (path : String) :
    ∃ above, t.makeDirectories path = t.makeAll (path :: above) := by
  unfold makeDirectories ancestry ancestry.go
  split
  · exact ⟨[], rfl⟩
  · split
    · exact ⟨[], rfl⟩
    · exact ⟨_, rfl⟩

/-- So a directory that has been made with those above it is there. -/
theorem isDirectory_of_makeDirectories (hpath : path ≠ "") (h : t.makeDirectories path = (t', .ok ())) :
    t'.isDirectory path = true := by
  obtain ⟨above, hmakes⟩ := makeDirectories_eq t path
  exact isDirectory_of_makeAll hpath (hmakes ▸ h)

/-- A directory for which there is room is made without those that it is in. -/
theorem makeDirectories_of_vacancy (hpath : path ≠ "") (h : t.vacancy path = .ok place) :
    t.makeDirectories path = (t.put place .directory, .ok ()) := by
  have hmake : t.makeDirectory path = .ok (t.put place .directory) := by
    rw [makeDirectory, h]
    rfl
  obtain ⟨above, hmakes⟩ := makeDirectories_eq t path
  simp only [hmakes, makeAll, if_neg hpath, hmake]

/-! ## What is there is not made again -/

/-- A way of a single step that is a name leads to an entry. -/
theorem Leads.isSome_of_singleton (named : step ≠ "." ∧ step ≠ "..")
    (h : t.Leads .follow links here [step] place) : (t.get? (here ++ [step])).isSome := by
  cases h with
  | stay => exact absurd rfl named.1
  | up => exact absurd rfl named.2
  | directory _ entry => rw [entry]; rfl
  | file _ entry => rw [entry]; rfl
  | vacant _ _ create => nomatch create
  | link _ entry => rw [entry]; rfl

/-- There is no room for a new entry where a path leads already. -/
theorem vacancy_of_resolve (h : t.resolve .follow path = .ok place) :
    t.vacancy path = .error .exists := by
  obtain ⟨hpath, hway⟩ := (resolve_eq_ok (by decide)).mp h
  unfold vacancy
  cases hlast : (Path.steps path).getLast? with
  | none => simp [hlast, hpath]; rfl
  | some name =>
    obtain ⟨front, hsteps⟩ := List.getLast?_eq_some_iff.mp hlast
    rw [hsteps] at hway
    obtain ⟨mid, left, hfront, hmid, hleft⟩ := Leads.split (by simp) hway (rooted_nil t)
    have hdir := hmid mid List.prefix_rfl
    have hparent := (resolveFrom_eq_ok (by decide)).mpr hfront
    simp only [hlast]
    rw [hsteps, List.dropLast_concat, hparent]
    -- The directory is there, and the name is none or that of an entry.
    show (if ¬ t.get? mid = some .directory then _ else _) = _
    rw [if_neg (not_not_intro hdir)]
    by_cases hdots : (decide (name = ".") || decide (name = "..")) = true
    · rw [if_pos hdots]
      rfl
    · have hnamed : name ≠ "." ∧ name ≠ ".." := by simpa using hdots
      obtain ⟨entry, hentry⟩ := Option.isSome_iff_exists.mp (hleft.isSome_of_singleton hnamed)
      rw [if_neg hdots, hentry]
      rfl

/-- Nothing is made where the innermost directory is there. -/
theorem makeAll_of_isDirectory (hpath : path ≠ "") (h : t.isDirectory path = true) :
    t.makeAll (path :: above) = (t, .ok ()) := by
  obtain ⟨place, hplace, -⟩ := isDirectory_iff.mp h
  have hmake : t.makeDirectory path = .error .exists := by
    rw [makeDirectory, vacancy_of_resolve hplace]
    rfl
  simp only [makeAll, if_neg hpath, hmake, h, if_true]

/-- A directory that is there is made without any change. -/
theorem makeDirectories_of_isDirectory (hpath : path ≠ "") (h : t.isDirectory path = true) :
    t.makeDirectories path = (t, .ok ()) := by
  obtain ⟨above, hmakes⟩ := makeDirectories_eq t path
  rw [hmakes, makeAll_of_isDirectory hpath h]

/-! ## What is written is not changed by writing it again -/

/-- Putting what is at a place there changes nothing. -/
theorem putIn_of_lookup {entries : List (Place × Entry)} (h : entries.lookup place = some entry) :
    putIn place entry entries = entries := by
  induction entries with
  | nil => nomatch h
  | cons x rest ih =>
    obtain ⟨q, f⟩ := x
    unfold putIn
    rw [List.lookup_cons] at h
    split at h
    next heq =>
      rw [if_pos (eq_of_beq heq).symm, eq_of_beq heq, Option.some.inj h]
    next hne =>
      rw [if_neg (fun heq => by simp [heq] at hne), ih h]

theorem put_of_get? (hplace : place ≠ []) (h : t.get? place = some entry) : t.put place entry = t := by
  unfold get? at h
  rw [if_neg hplace] at h
  unfold put
  rw [putIn_of_lookup h]

/-- Writing the content that a file has changes nothing. -/
theorem write_of_file (h : t.resolve .follow path = .ok place)
    (hfile : t.get? place = some (.file content)) : t.write path content = .ok t := by
  have hcreate : t.resolve .create path = .ok place := by
    refine (AddsDirectories.refl t).keeps.resolve (by decide) (by decide) h fun _ => rfl
  have hplace : place ≠ [] := ne_nil_of_get?_ne (by rw [hfile]; nofun)
  have hput : t.put place (.file content) = t := put_of_get? hplace hfile
  simp only [write, hcreate, bind, Except.bind, hfile, hput]
  rfl

end QueryModule.FileTree
