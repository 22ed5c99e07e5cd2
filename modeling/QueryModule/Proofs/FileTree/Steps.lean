import QueryModule.FileTree.Path
import QueryModule.Proofs.Text.Lines

/-!
# The steps of a path

A path leads by its pieces that name something; a slash at its end adds a step that stays where it is. So
the path of an entry of a directory has the steps of the directory, without that last one, and one step
more, which is the name of the entry (`Path.steps_join`).
-/

namespace QueryModule.FileTree.Path

variable {path directory name step : String}

/-- A name that an entry of a directory can have. -/
structure IsName (name : String) : Prop where
  ne_empty : name ≠ ""
  slash : '/' ∉ name.toList
  named : name ≠ "." ∧ name ≠ ".."

/-- The pieces of a path that are not empty. -/
def named (path : String) : List String := (pieces path).filter (· ≠ "")

theorem steps_def (path : String) :
    steps path = if (!(named path).isEmpty && (pieces path).getLast? = some "") = true
      then named path ++ ["."] else named path :=
  rfl

/-- The steps of a path are its pieces, with one more that stays where it is when a slash is at its end. -/
theorem steps_eq (path : String) : steps path = named path ∨ steps path = named path ++ ["."] := by
  rw [steps_def]
  split
  · exact .inr rfl
  · exact .inl rfl

theorem steps_of_getLast? (h : (pieces path).getLast? ≠ some "") : steps path = named path := by
  rw [steps_def, decide_eq_false h, Bool.and_false]
  rfl

/-- At a slash a path is cut. -/
theorem pieces_append (front back : String) :
    pieces (front ++ "/" ++ back) = pieces front ++ pieces back := by
  unfold pieces
  rw [← List.map_append, ← Text.splitAt_append]
  simp

/-- A name is one piece. -/
theorem pieces_of_not_mem (h : '/' ∉ name.toList) : pieces name = [name] := by
  unfold pieces
  rw [Text.splitAt_of_not_mem h, List.map_singleton, String.ofList_toList]

/-- Steps are neither empty nor do they have slashes in them. -/
theorem mem_steps (h : step ∈ steps path) : step ≠ "" ∧ '/' ∉ step.toList := by
  have hnamed : ∀ s ∈ named path, s ≠ "" ∧ '/' ∉ s.toList := by
    intro s hs
    obtain ⟨hpiece, hne⟩ := List.mem_filter.mp hs
    obtain ⟨piece, hsplit, rfl⟩ := List.mem_map.mp hpiece
    rw [String.toList_ofList]
    exact ⟨of_decide_eq_true hne, Text.not_mem_of_mem_splitAt '/' path.toList piece hsplit⟩
  rcases steps_eq path with heq | heq <;> rw [heq] at h
  · exact hnamed step h
  · rcases List.mem_append.mp h with h | h
    · exact hnamed step h
    · rw [List.mem_singleton.mp h]
      decide

theorem endsWith_slash_iff : directory.endsWith "/" = true ↔ ['/'] <:+ directory.toList := by
  show directory.toSlice.endsWith "/" = true ↔ _
  rw [String.Slice.endsWith_string_iff, String.copy_toSlice]
  rfl

/-- The path of an entry has one piece more than that of its directory, where a slash at the end of the
latter is not counted. -/
theorem pieces_join (directory : String) (hname : '/' ∉ name.toList) :
    ∃ front, pieces (join directory name) = front ++ [name] ∧ named directory = front.filter (· ≠ "") := by
  unfold join
  split
  next h =>
    rcases Bool.or_eq_true_iff.mp h with h | h
    · rw [of_decide_eq_true h, String.empty_append, pieces_of_not_mem hname]
      exact ⟨[], rfl, rfl⟩
    · obtain ⟨front, hfront⟩ := endsWith_slash_iff.mp h
      obtain rfl : directory = String.ofList front ++ "/" ++ "" := by
        rw [← String.toList_inj, ← hfront]
        simp
      refine ⟨pieces (String.ofList front), ?_, ?_⟩
      · rw [String.append_empty, pieces_append, pieces_of_not_mem hname]
      · rw [named, pieces_append, List.filter_append]
        exact List.append_nil _
  next => exact ⟨pieces directory, by rw [pieces_append, pieces_of_not_mem hname], rfl⟩

/-- The path of an entry leads to its directory and then takes one step more. -/
theorem steps_join (h : IsName name) : steps (join directory name) = named directory ++ [name] := by
  obtain ⟨front, hpieces, hnamed⟩ := pieces_join directory h.slash
  rw [steps_of_getLast? (by simpa [hpieces] using h.ne_empty), named, hpieces, List.filter_append,
    hnamed]
  simp [h.ne_empty]

/-- The path of an entry is not empty. -/
theorem join_ne_empty (h : IsName name) : join directory name ≠ "" := by
  unfold join
  split <;> simp [h.ne_empty]

end QueryModule.FileTree.Path
