import QueryModule.Proofs.Text.Lines
import QueryModule.Source.Discovery
import Mathlib.Data.List.TakeWhile

/-!
# Files that are looked for

Which files are looked for, in terms of the texts alone: the path of the file ends in a name, the name in
an extension behind its last dot, and this extension is listed, where the dots that it is listed with do
not count (`IsLookedFor`). The test that is made of every file decides exactly this
(`hasExtension_iff`).
-/

namespace QueryModule

namespace FileTree.Path

variable {path extension : String} {name stem ending : List Char}

/-! ## The name at the end of a path -/

/-- A path ends in a name: the name is all of the path, or what stands behind the last slash. -/
def EndsIn (path : String) (name : List Char) : Prop :=
  '/' ∉ name ∧ (path.toList = name ∨ ∃ directory, path.toList = directory ++ '/' :: name)

/-- A name has an extension: it is a stem, a dot, and the extension, in which there is no further dot. The
stem is not empty, so that the dot at the start of a hidden file begins no extension. Two dots lead to the
directory above and are no name that has one. -/
structure HasExtension (name ending : List Char) : Prop where
  behindDot : ∃ stem, stem ≠ [] ∧ name = stem ++ '.' :: ending
  noFurtherDot : '.' ∉ ending
  notAbove : name ≠ ['.', '.']

/-- The name that a path ends in is the last of its pieces. -/
theorem endsIn_iff : EndsIn path name ↔ ((pieces path).getLastD "").toList = name := by
  obtain ⟨last, hlast⟩ := Option.ne_none_iff_exists'.mp
    (mt List.getLast?_eq_none_iff.mp (Text.splitAt_ne_nil '/' path.toList))
  have hpiece : ((pieces path).getLastD "").toList = last := by
    rw [List.getLastD_eq_getLast?, pieces, List.getLast?_map, hlast]
    exact String.toList_ofList
  unfold EndsIn
  rw [← Text.getLast?_splitAt_eq_some_iff, hlast, hpiece, Option.some.injEq]

/-- Every path ends in a name, which may be empty. -/
theorem exists_endsIn (path : String) : ∃ name, EndsIn path name := ⟨_, endsIn_iff.mpr rfl⟩

/-! ## The extension of a name -/

/-- A name without a dot has no extension. -/
theorem extension?_of_not_mem (hname : EndsIn path name) (hdot : '.' ∉ name) :
    extension? path = none := by
  have hrun : name.reverse.takeWhile (· ≠ '.') = name.reverse :=
    List.takeWhile_eq_self_iff.mpr fun c hc =>
      decide_eq_true fun heq => hdot (heq ▸ List.mem_reverse.mp hc)
  unfold extension?
  rw [endsIn_iff.mp hname]
  dsimp only
  rw [hrun, List.reverse_reverse, decide_eq_true rfl]
  rfl

/-- Behind the last dot of a name stands its extension, unless nothing stands in front of that dot or the
name is two dots. -/
theorem extension?_of_append (hname : EndsIn path name) (hsplit : name = stem ++ '.' :: ending)
    (hdot : '.' ∉ ending) :
    extension? path = if stem = [] ∨ name = ['.', '.'] then none else some (String.ofList ending) := by
  have hends : ∀ c ∈ ending, c ≠ '.' := fun c hc heq => hdot (heq ▸ hc)
  have hrun : (name.reverse.takeWhile (· ≠ '.')).reverse = ending := by
    rw [hsplit, List.reverse_append, List.reverse_cons, List.append_assoc, List.singleton_append,
      List.takeWhile_append_of_pos (by simpa using hends),
      List.takeWhile_cons_of_neg (by simp), List.append_nil, List.reverse_reverse]
  have hbefore : name.take (name.length - ending.length - 1) = stem := by
    have hlength : name.length - ending.length - 1 = stem.length := by
      rw [hsplit, List.length_append, List.length_cons]
      omega
    rw [hlength, hsplit, List.take_left]
  have hshort : ending.length ≠ name.length := by
    rw [hsplit, List.length_append, List.length_cons]
    omega
  unfold extension?
  rw [endsIn_iff.mp hname]
  dsimp only
  rw [hrun, hbefore, decide_eq_false hshort]
  simp only [Bool.false_or, Bool.or_eq_true, List.isEmpty_iff, decide_eq_true_eq]

/-- A path has the extension of the name that it ends in. -/
theorem extension?_eq_some_iff (hname : EndsIn path name) :
    extension? path = some extension ↔ HasExtension name extension.toList := by
  constructor
  · intro h
    -- The extension is behind the last dot of the name, unless nothing is in front of that dot.
    by_cases hdot : '.' ∈ name
    · obtain ⟨front, back, hsplit, hback⟩ := List.eq_append_cons_of_mem (List.mem_reverse.mpr hdot)
      have hlast : name = back.reverse ++ '.' :: front.reverse := by
        rw [← List.reverse_reverse name, hsplit]
        simp
      have hfront : '.' ∉ front.reverse := fun hmem => hback (List.mem_reverse.mp hmem)
      rw [extension?_of_append hname hlast hfront] at h
      split at h
      · nomatch h
      next hproper =>
        obtain ⟨hstem, habove⟩ := not_or.mp hproper
        rw [← Option.some.inj h, String.toList_ofList]
        exact ⟨⟨_, hstem, hlast⟩, hfront, habove⟩
    · rw [extension?_of_not_mem hname hdot] at h
      nomatch h
  · rintro ⟨⟨stem, hstem, hsplit⟩, hdot, habove⟩
    rw [extension?_of_append hname hsplit hdot, if_neg (not_or.mpr ⟨hstem, habove⟩),
      String.ofList_toList]

end FileTree.Path

namespace Discovery

open QueryModule.FileTree.Path (EndsIn HasExtension extension?_eq_some_iff exists_endsIn endsIn_iff)

variable {extensions : List String} {path listed : String} {ending : List Char}

/-! ## The extensions that are listed -/

/-- An extension is listed as this text: there may be dots in front of it, and it starts with none. -/
def Lists (listed : String) (ending : List Char) : Prop :=
  ∃ dots, listed.toList = dots ++ ending ∧ (∀ c ∈ dots, c = '.') ∧ ending.head? ≠ some '.'

/-- A file is looked for when its name has one of the extensions that are listed. -/
def IsLookedFor (extensions : List String) (path : String) : Prop :=
  ∃ listed ∈ extensions, ∃ ending name,
    Lists listed ending ∧ EndsIn path name ∧ HasExtension name ending

theorem bareExtension_eq_iff : bareExtension listed = String.ofList ending ↔ Lists listed ending := by
  unfold bareExtension
  rw [String.ofList_inj]
  constructor
  · rintro rfl
    refine ⟨listed.toList.takeWhile (· = '.'), List.takeWhile_append_dropWhile.symm, ?_, ?_⟩
    · intro c hc
      have hdot := List.mem_takeWhile_imp hc
      exact of_decide_eq_true hdot
    · intro hhead
      have := List.head?_dropWhile_not (· = '.') listed.toList
      rw [hhead] at this
      simp at this
  · rintro ⟨dots, hlisted, hdots, hhead⟩
    rw [hlisted, List.dropWhile_append_of_pos (by simpa using hdots)]
    cases ending with
    | nil => rfl
    | cons c rest => exact List.dropWhile_cons_of_neg (by simpa using hhead)

/-- The test of a file decides whether it is looked for. -/
theorem hasExtension_iff : hasExtension extensions path = true ↔ IsLookedFor extensions path := by
  obtain ⟨name, hname⟩ := exists_endsIn path
  unfold hasExtension IsLookedFor
  split
  next hnone =>
    refine ⟨nofun, ?_⟩
    rintro ⟨listed, -, ending, name, -, hname, hextension⟩
    rw [← String.toList_ofList (l := ending), ← extension?_eq_some_iff hname, hnone] at hextension
    nomatch hextension
  next extension hextension =>
    rw [List.contains_iff_mem, List.mem_map]
    constructor
    · rintro ⟨listed, hlisted, hbare⟩
      refine ⟨listed, hlisted, extension.toList, name, ?_, hname, ?_⟩
      · rw [← bareExtension_eq_iff, hbare, String.ofList_toList]
      · exact (extension?_eq_some_iff hname).mp hextension
    · rintro ⟨listed, hlisted, ending, name, hlists, hname, hending⟩
      refine ⟨listed, hlisted, ?_⟩
      rw [← String.toList_ofList (l := ending), ← extension?_eq_some_iff hname, hextension] at hending
      rw [bareExtension_eq_iff.mpr hlists, Option.some.inj hending]

instance (extensions : List String) (path : String) : Decidable (IsLookedFor extensions path) :=
  decidable_of_iff _ hasExtension_iff

-- Only the text behind the last dot is an extension, and a hidden file may be without one.
example : IsLookedFor ["..gql"] "queries/user.list.gql" ∧ ¬ IsLookedFor ["list.gql"] "user.list.gql" ∧
    ¬ IsLookedFor ["gql"] "queries/.gql" := by decide +kernel

theorem decide_isLookedFor : decide (IsLookedFor extensions path) = hasExtension extensions path :=
  Bool.eq_iff_iff.mpr (decide_eq_true_iff.trans hasExtension_iff.symm)

end Discovery
end QueryModule
