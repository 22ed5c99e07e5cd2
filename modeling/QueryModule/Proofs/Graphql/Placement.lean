import QueryModule.Graphql.Printer
import QueryModule.Graphql.Document

/-!
# Definitions wherever they stand

Definitions and spreads carry the positions that they have been read from, for the sake of messages.
`unplaced` forgets them, so that two definitions which differ in nothing else become the same one.
Nothing that a definition is written as or that it spreads depends on where it stands:
`print_unplaced`, `spreadNames_unplaced`.
-/

namespace QueryModule.Graphql

mutual

/-- The selection with all positions moved to the start of a source. -/
def Selection.unplaced : Selection → Selection
  | .field key name arguments directives selections =>
    .field key name arguments directives (unplacedSelections selections)
  | .spread _ name directives => .spread .start name directives
  | .inline onType directives selections => .inline onType directives (unplacedSelections selections)

/-- The same for the members of a selection set. -/
def unplacedSelections : List Selection → List Selection
  | [] => []
  | s :: rest => s.unplaced :: unplacedSelections rest

end

/-- The operation with all positions moved to the start of a source. -/
def Operation.unplaced : Operation → Operation
  | .shorthand _ selections => .shorthand .start (unplacedSelections selections)
  | .explicit kind _ name parameters directives selections =>
    .explicit kind .start name parameters directives (unplacedSelections selections)

/-- The fragment with all positions moved to the start of a source. -/
def FragmentDefinition.unplaced (f : FragmentDefinition) : FragmentDefinition :=
  { f with position := .start, selections := unplacedSelections f.selections }

/-- The definition with all positions moved to the start of a source. -/
def Definition.unplaced : Definition → Definition
  | .operation o => .operation o.unplaced
  | .fragment f => .fragment f.unplaced

mutual

/-- Without positions there are none to move. -/
theorem Selection.unplaced_unplaced : ∀ s : Selection, s.unplaced.unplaced = s.unplaced
  | .field _ _ _ _ selections => by
    simp only [Selection.unplaced, unplacedSelections_unplacedSelections selections]
  | .spread _ _ _ => rfl
  | .inline _ _ selections => by
    simp only [Selection.unplaced, unplacedSelections_unplacedSelections selections]

theorem unplacedSelections_unplacedSelections :
    ∀ selections : List Selection,
      unplacedSelections (unplacedSelections selections) = unplacedSelections selections
  | [] => rfl
  | s :: rest => by
    simp only [unplacedSelections, s.unplaced_unplaced, unplacedSelections_unplacedSelections rest]

end

@[simp]
theorem Operation.unplaced_unplaced (o : Operation) : o.unplaced.unplaced = o.unplaced := by
  cases o <;> simp only [Operation.unplaced, unplacedSelections_unplacedSelections]

@[simp]
theorem FragmentDefinition.unplaced_unplaced (f : FragmentDefinition) :
    f.unplaced.unplaced = f.unplaced := by
  simp only [FragmentDefinition.unplaced, unplacedSelections_unplacedSelections]

/-! ## What does not depend on positions -/

/-- A selection set is empty wherever it stands. -/
@[simp]
theorem isEmpty_unplacedSelections (selections : List Selection) :
    (unplacedSelections selections).isEmpty = selections.isEmpty := by
  cases selections with
  | nil => rfl
  | cons s rest => rfl

mutual

/-- A selection is written without regard to where it comes from. The induction goes through the members
of selection sets at the same time. -/
theorem Selection.print_unplaced (indent : Nat) : ∀ s : Selection, s.unplaced.print indent = s.print indent
  | .field key name arguments directives selections => by
    simp only [Selection.unplaced, Selection.print, isEmpty_unplacedSelections,
      printSelections_unplaced (indent + indentStep) selections]
  | .spread _ name directives => rfl
  | .inline onType directives selections => by
    simp only [Selection.unplaced, Selection.print,
      printSelections_unplaced (indent + indentStep) selections]

theorem printSelections_unplaced (indent : Nat) :
    ∀ selections : List Selection,
      printSelections indent (unplacedSelections selections) = printSelections indent selections
  | [] => rfl
  | s :: rest => by
    simp only [unplacedSelections, printSelections, Selection.print_unplaced indent s,
      printSelections_unplaced indent rest]

end

/-- And so is a definition. -/
theorem Definition.print_unplaced (d : Definition) : d.unplaced.print = d.print := by
  have hbody : ∀ selections, printBody (unplacedSelections selections) = printBody selections := by
    intro selections
    unfold printBody
    rw [printSelections_unplaced]
  cases d with
  | fragment f =>
    simp only [Definition.unplaced, Definition.print, FragmentDefinition.print,
      FragmentDefinition.unplaced, hbody]
  | operation o =>
    cases o with
    | shorthand p selections => exact hbody selections
    | explicit kind p name parameters directives selections =>
      simp only [Definition.unplaced, Definition.print, Operation.unplaced, Operation.print, hbody]

/-- A document is written without regard to where its definitions come from. -/
theorem printDocument_unplaced (ds : List Definition) :
    printDocument (ds.map Definition.unplaced) = printDocument ds := by
  unfold printDocument
  rw [List.map_map]
  congr 1
  exact List.map_congr_left fun d _ => d.print_unplaced

mutual

/-- A selection spreads the same names wherever it stands. -/
theorem Selection.map_name_spreads_unplaced :
    ∀ s : Selection, s.unplaced.spreads.map (·.name) = s.spreads.map (·.name)
  | .field _ _ _ _ selections => by
    simp only [Selection.unplaced, Selection.spreads]
    exact spreadNames_unplaced selections
  | .spread _ _ _ => rfl
  | .inline _ _ selections => by
    simp only [Selection.unplaced, Selection.spreads]
    exact spreadNames_unplaced selections

/-- A selection set spreads the same names wherever it stands. -/
theorem spreadNames_unplaced :
    ∀ selections : List Selection, spreadNames (unplacedSelections selections) = spreadNames selections
  | [] => rfl
  | s :: rest => by
    have hrest := spreadNames_unplaced rest
    unfold spreadNames at hrest ⊢
    simp only [unplacedSelections, spreadsOf, List.map_append, s.map_name_spreads_unplaced, hrest]

end

theorem Operation.spreadNames_unplaced (o : Operation) :
    spreadNames o.unplaced.selections = spreadNames o.selections := by
  cases o with
  | shorthand p selections => exact Graphql.spreadNames_unplaced selections
  | explicit kind p name parameters directives selections =>
    exact Graphql.spreadNames_unplaced selections

/-- What a definition selects is moved with it. -/
@[simp]
theorem Definition.selections_unplaced (d : Definition) :
    d.unplaced.selections = unplacedSelections d.selections := by
  cases d with
  | fragment f => rfl
  | operation o => cases o <;> rfl

@[simp]
theorem Definition.fragment?_unplaced (d : Definition) :
    d.unplaced.fragment? = d.fragment?.map FragmentDefinition.unplaced := by
  cases d <;> rfl

@[simp]
theorem Definition.operation?_unplaced (d : Definition) :
    d.unplaced.operation? = d.operation?.map Operation.unplaced := by
  cases d <;> rfl

@[simp]
theorem Operation.name?_unplaced (o : Operation) : o.unplaced.name? = o.name? := by
  cases o <;> rfl

@[simp]
theorem FragmentDefinition.name_unplaced (f : FragmentDefinition) : f.unplaced.name = f.name := rfl

end QueryModule.Graphql
