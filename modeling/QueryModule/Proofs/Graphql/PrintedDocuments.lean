import QueryModule.Proofs.Graphql.PrintedSelections
import QueryModule.Text.Characters

/-!
# Documents that have been written

A definition ends with the closing brace of its selection set, and so it does not matter what comes
behind it. Everything in front of that brace is read back from what is written if all values survive,
with one exception: of a subscription without a name, the variables are not written at all.

> `parseDocument_printed`: a written document whose definitions survive is read back as those
> definitions, up to their positions.
-/

namespace QueryModule.Graphql

open QueryModule.Graphql.Parser
open QueryModule.Text

/-! ## What survives -/

/-- The default of the variable survives, if it has one. -/
def VariableDefinition.Survives (v : VariableDefinition) : Prop := ∀ d ∈ v.defaultValue, d.Survives

/-- The values in the operation survive, and its variables are written. -/
inductive Operation.Survives : Operation → Prop
  | shorthand {position : Position} {selections : List Selection} (hselections : ∀ s ∈ selections, s.Survives) :
      Survives (.shorthand position selections)
  | explicit {kind : OperationKind} {position : Position} {name : Option String}
      {parameters : List VariableDefinition} {directives : List Directive} {selections : List Selection}
      (hwritten : kind = .subscription → name = none → parameters = [])
      (hparameters : ∀ v ∈ parameters, v.Survives) (hdirectives : DirectivesSurvive directives)
      (hselections : ∀ s ∈ selections, s.Survives) :
      Survives (.explicit kind position name parameters directives selections)

/-- The values in the fragment survive. -/
structure FragmentDefinition.Survives (f : FragmentDefinition) : Prop where
  directives : DirectivesSurvive f.directives
  selections : ∀ s ∈ f.selections, s.Survives

/-- The definition is one that survives being written. -/
def Definition.Survives : Definition → Prop
  | .operation o => o.Survives
  | .fragment f => f.Survives

/-! ## Variables -/

section

variable {room n : Nat}

/-- The default of a variable that has one. -/
def defaultText : Option Value → List Char
  | some value => [' '] ++ (['='] ++ ([' '] ++ (value.print 0).toList))
  | none => []

/-- A variable as it is written. -/
def variableText (v : VariableDefinition) : List Char :=
  ['$'] ++ (v.name.toList ++ ([':'] ++ ([' '] ++ (v.type.print.toList ++ defaultText v.defaultValue))))

/-- A variable as it is written, with its type and its default. -/
theorem toList_variable (v : VariableDefinition) : v.print.toList = variableText v := by
  obtain ⟨name, type, defaultValue⟩ := v
  unfold VariableDefinition.print variableText
  cases defaultValue with
  | some value =>
    simp only [String.toList_append, List.append_assoc, defaultText]
    rfl
  | none =>
    simp only [String.toList_append, List.append_assoc, defaultText]
    rfl

/-- What has to follow a variable: nothing that could belong to its type or that sets its default. -/
abbrev EndsVariable : List Char → Prop := Follows ['!', '=']

/-- What follows a variable does not go on with its type, whether it has a default or not. -/
theorem follows_default {rest : List Char} (h : EndsVariable rest) (value : Option Value) :
    Follows ['!'] (defaultText value ++ rest) := by
  cases value with
  | none => exact h.mono (by simp)
  | some value =>
    refine follows_space fun x hx => ?_
    obtain rfl : '=' = x := Option.some.inj hx
    decide

/-- A variable is read back. -/
theorem reads_variableDefinition {v : VariableDefinition} (h : v.Fits room) (hs : v.Survives)
    (hn : n + room ≤ maxNesting) (hroom : room < maxNesting) :
    variableDefinition.Reads (variableText v) n n EndsVariable fun w => w = v := by
  unfold variableDefinition variableText
  refine Sign.dollar.reads_then ?_
  refine (reads_name h.name).bind (fun rest _ => endsToken_cons (by decide) _) fun name hname => ?_
  refine Sign.colon.reads_then (Reads.space ?_)
  refine (reads_typeExpr h.type hn hroom).bind (fun rest hrest => follows_default hrest v.defaultValue)
    fun type htype => ?_
  rw [hname, htype]
  obtain ⟨name, type, defaultValue⟩ := v
  cases defaultValue with
  | none =>
    refine Sign.equals.reads_without (fun rest hrest => ?_) (reads_pure rfl)
    exact not_mem_of_avoids hrest (by simp)
  | some value =>
    have hread := (reads_value (h.defaultValue value rfl) (hs value rfl) hn hroom 0).before (G := EndsVariable)
      fun rest hrest => hrest.mono (by simp)
    refine Reads.space (Sign.equals.reads_optional (Reads.space (hread.bind_pure fun w hw => ?_)))
    rw [hw]

/-! ## Heads of operations -/

/-- What stands between two variables of an operation. -/
def separatorOf : OperationKind → List Char
  | .subscription => []
  | _ => [',', ' ']

/-- The variables of an operation in parentheses, if it has any. -/
def parametersText (kind : OperationKind) (parameters : List VariableDefinition) : List Char :=
  if parameters.isEmpty then []
  else ['('] ++ ((separatorOf kind).intercalate (parameters.map variableText) ++ [')'])

/-- The name of an operation that has one. -/
def nameText : Option String → List Char
  | some name => [' '] ++ name.toList
  | none => []

/-- Variables are written in parentheses, or not at all if there is none. -/
theorem toList_printVariables (separator : String) (parameters : List VariableDefinition) :
    (printVariables separator parameters).toList
      = if parameters.isEmpty then []
        else ['('] ++ (separator.toList.intercalate (parameters.map variableText) ++ [')']) := by
  have hvariables : (parameters.map (·.print)).map String.toList = parameters.map variableText := by
    rw [List.map_map]
    exact List.map_congr_left fun v _ => toList_variable v
  unfold printVariables
  split
  · rfl
  · rw [String.toList_append, String.toList_append, String.toList_intercalate, hvariables, List.append_assoc]
    rfl

/-- What an operation starts with. Variables of a subscription without a name are left out, so there may
be none. -/
theorem toList_printHead {kind : OperationKind} {name : Option String} {parameters : List VariableDefinition}
    (hwritten : kind = .subscription → name = none → parameters = []) :
    (printHead kind name parameters).toList
      = kind.keyword.toList ++ (nameText name ++ parametersText kind parameters) := by
  unfold printHead
  simp only [String.toList_append, List.append_assoc]
  congr 1
  cases name with
  | some name =>
    cases kind with
    | query => simp only [toList_printVariables, String.toList_append, nameText]; rfl
    | mutation => simp only [toList_printVariables, String.toList_append, nameText]; rfl
    | subscription => simp only [toList_printVariables, String.toList_append, nameText]; rfl
  | none =>
    cases kind with
    | query => simp only [toList_printVariables, nameText]; rfl
    | mutation => simp only [toList_printVariables, nameText]; rfl
    | subscription =>
      rw [hwritten rfl rfl]
      rfl

/-- The variables of an operation are pieces in parentheses. -/
theorem readsPieces_variables {kind : OperationKind} {parameters : List VariableDefinition}
    (h : ∀ v ∈ parameters, ∃ r, room = r + 1 ∧ v.Fits r) (hs : ∀ v ∈ parameters, v.Survives)
    (hn : n + room ≤ maxNesting) :
    ReadsPieces variableDefinition id parameters variableText (separatorOf kind) ')' (n + 1) EndsVariable where
  skipped := by
    cases kind with
    | subscription => exact fun x hx => absurd hx (by simp [separatorOf])
    | query => exact forall_mem_of_all (by decide)
    | mutation => exact forall_mem_of_all (by decide)
  reads v hv := by
    obtain ⟨r, rfl, hfits⟩ := h v hv
    exact reads_variableDefinition hfits (hs v hv) (by omega) (by omega)
  front v _ := ⟨'$', rfl, by decide, by decide⟩
  next v _ rest := by
    -- A comma is white space; behind it the next variable starts.
    have hcomma : EndsVariable ([',', ' '] ++ variableText v ++ rest) := by
      refine follows_blank (by decide) (by decide) fun x hx => ?_
      obtain rfl : '$' = x := Option.some.inj hx
      decide
    cases kind with
    | subscription => exact follows_cons (by decide) (by decide) (by decide) _
    | query => exact hcomma
    | mutation => exact hcomma
  last rest hrest := by
    refine ⟨hrest.ends, fun x hx => ?_⟩
    obtain rfl : ')' = x := Option.some.inj (hrest.front.symm.trans hx)
    decide

/-- The variables of an operation are read back. -/
theorem reads_parameters {kind : OperationKind} {parameters : List VariableDefinition}
    (h : ∀ v ∈ parameters, ∃ r, room = r + 1 ∧ v.Fits r) (hs : ∀ v ∈ parameters, v.Survives)
    (hn : n + room ≤ maxNesting) :
    (optionalBetween "(" ")" variableDefinition).Reads (parametersText kind parameters) n n (Follows ['('])
      fun vs => vs = parameters := by
  have hroom : parameters ≠ [] → n < maxNesting := by
    intro hne
    obtain ⟨v, others, rfl⟩ := List.exists_cons_of_ne_nil hne
    obtain ⟨r, rfl, -⟩ := h v (List.mem_cons_self ..)
    omega
  refine (Brackets.round.reads_optionalBetween hroom (readsPieces_variables h hs hn) fun rest hrest => ?_).mono
    fun vs hvs => ?_
  · exact not_mem_of_avoids hrest (by simp)
  · rwa [List.map_id, List.map_id] at hvs

/-- Variables in front of a text do not change what it avoids, except for their bracket. -/
theorem follows_parameters {avoided rest : List Char} (h : Follows avoided rest) (hopener : '(' ∉ avoided)
    (kind : OperationKind) (parameters : List VariableDefinition) :
    Follows avoided (parametersText kind parameters ++ rest) := by
  unfold parametersText
  split
  · exact h
  · exact follows_cons (by decide) (by decide) (by simpa using hopener) _

/-! ## Definitions -/

/-- An operation as it is written, up to its closing brace. -/
def operationText : Operation → List Char
  | .shorthand _ selections => bodyText 0 selections
  | .explicit kind _ name parameters directives selections =>
    kind.keyword.toList ++ (nameText name ++ (parametersText kind parameters
      ++ ((printDirectives 0 directives).toList ++ ([' '] ++ bodyText 0 selections))))

/-- A fragment as it is written, up to its closing brace. -/
def fragmentText (f : FragmentDefinition) : List Char :=
  "fragment".toList ++ ([' '] ++ (f.name.toList ++ ([' '] ++ ("on".toList ++ ([' '] ++ (f.onType.toList
    ++ ((printDirectives 0 f.directives).toList ++ ([' '] ++ bodyText 0 f.selections))))))))

/-- A definition as it is written, up to its closing brace. -/
def definitionText : Definition → List Char
  | .operation o => operationText o
  | .fragment f => fragmentText f

/-- A definition as it is written, with the line feed it ends with. -/
theorem toList_definition {d : Definition} (hs : d.Survives) : d.print.toList = definitionText d ++ ['\n'] := by
  have hbody : ∀ selections, (printBody selections).toList = bodyText 0 selections ++ ['\n'] :=
    fun selections => toList_braced 0 selections
  cases d with
  | fragment f =>
    unfold Definition.print FragmentDefinition.print definitionText fragmentText
    simp only [String.toList_append, hbody, List.append_assoc]
    rfl
  | operation o =>
    cases hs with
    | @shorthand position selections => exact hbody selections
    | @explicit kind position name parameters directives selections hwritten =>
      unfold Definition.print Operation.print definitionText operationText
      simp only [String.toList_append, hbody, toList_printHead hwritten, List.append_assoc]
      rfl

/-- What an operation has behind its name. -/
theorem reads_operationRest {kind : OperationKind} {position : Position} (name : Option String)
    {parameters : List VariableDefinition} {dirs : List Directive} {selections : List Selection}
    (h : (Operation.explicit kind position name parameters dirs selections).Fits)
    (hs : (Operation.explicit kind position name parameters dirs selections).Survives)
    (start : Position) {F : List Char → Prop} :
    Parser.Reads (parametersText kind parameters
        ++ ((printDirectives 0 dirs).toList ++ ([' '] ++ bodyText 0 selections))) 0 0 F
      (fun o => o.unplaced = (Operation.explicit kind position name parameters dirs selections).unplaced) do
        let parameters ← optionalBetween "(" ")" variableDefinition
        let dirs ← directives
        return Operation.explicit kind start name parameters dirs (← selectionSet maxNesting) := by
  cases h with
  | explicit _ hparameters hdirs hbody =>
    cases hs with
    | explicit _ hparametersSurvive hdirsSurvive hselections =>
      refine (reads_parameters hparameters hparametersSurvive (by omega)).bind (fun rest _ => ?_) fun vs hvs => ?_
      · have hfollows : Follows ['('] ([' '] ++ bodyText 0 selections ++ rest) :=
          (follows_body 0 selections rest).mono (by simp)
        rw [List.append_assoc]
        exact follows_directives hfollows (by decide) 0 dirs
      refine (reads_directives hdirs hdirsSurvive (by omega) 0).bind (fun rest _ => follows_body 0 selections rest)
        fun ds hds => ?_
      have hread := reads_selectionSet hbody hselections (n := 0) (by omega) (Nat.le_refl _) 0 (F := F)
      refine Reads.space (hread.bind_pure fun ts hts => ?_)
      rw [hvs, hds, Operation.unplaced, Operation.unplaced, unplacedSelections_eq_map, unplacedSelections_eq_map,
        hts]

/-- What an operation has behind its name does not go on with the name. -/
theorem endsToken_operationRest (kind : OperationKind) (parameters : List VariableDefinition)
    (dirs : List Directive) (selections : List Selection) (rest : List Char) :
    EndsToken (parametersText kind parameters
      ++ ((printDirectives 0 dirs).toList ++ ([' '] ++ bodyText 0 selections)) ++ rest) := by
  have hfollows : Follows [] ([' '] ++ bodyText 0 selections ++ rest) :=
    (follows_body 0 selections rest).mono (by simp)
  rw [List.append_assoc, List.append_assoc]
  exact (follows_parameters (follows_directives hfollows (by simp) 0 dirs) (by simp) kind parameters).ends

/-- What comes behind the name of an operation is an opening parenthesis, a directive or an opening
brace. -/
theorem front_operationRest (kind : OperationKind) (parameters : List VariableDefinition)
    (dirs : List Directive) (selections : List Selection) :
    ∃ c, front (parametersText kind parameters ++ ((printDirectives 0 dirs).toList ++ ([' '] ++ bodyText 0 selections)))
      = some c ∧ c ≠ '#' ∧ isPunctuator c = true := by
  unfold parametersText
  split
  · exact front_directives_body 0 dirs selections
  · exact ⟨'(', rfl, by decide, by decide⟩

/-- An operation with a keyword is read back behind it. -/
theorem reads_explicitOperation {kind : OperationKind} {position : Position} {name : Option String}
    {parameters : List VariableDefinition} {dirs : List Directive} {selections : List Selection}
    (h : (Operation.explicit kind position name parameters dirs selections).Fits)
    (hs : (Operation.explicit kind position name parameters dirs selections).Survives)
    (start : Position) {F : List Char → Prop} :
    (explicitOperation kind start).Reads (nameText name ++ (parametersText kind parameters
        ++ ((printDirectives 0 dirs).toList ++ ([' '] ++ bodyText 0 selections)))) 0 0 F
      fun o => o.unplaced = (Operation.explicit kind position name parameters dirs selections).unplaced := by
  have hrest := reads_operationRest name h hs start (F := F)
  unfold explicitOperation
  cases name with
  | none =>
    -- What comes next is a punctuator, so it is not taken for a name.
    obtain ⟨c, hc, hcomment, hpunctuator⟩ := front_operationRest kind parameters dirs selections
    unfold nameText
    rw [List.nil_append]
    refine reads_looking false (fun position rest _ => ?_) hrest
    have hfront := front_append hc rest
    cases htokens : tokensFrom position 0 (parametersText kind parameters
        ++ ((printDirectives 0 dirs).toList ++ ([' '] ++ bodyText 0 selections)) ++ rest) with
    | finished => rfl
    | broken => rfl
    | next t more =>
      obtain ⟨-, hkind⟩ := token_of_front hfront hcomment htokens
      simp [hkind hpunctuator]
  | some name =>
    have hname : IsName name.toList := by
      cases h with
      | explicit hname => exact hname name rfl
    -- What comes behind the name does not go on with it.
    have hends := endsToken_operationRest kind parameters dirs selections
    unfold nameText
    rw [List.append_assoc]
    refine Reads.space (reads_looking true (fun position rest _ => ?_) ?_)
    · obtain ⟨more, hmore⟩ := tokensFrom_name hname (hends rest) position 0
      rw [List.append_assoc, hmore]
      rfl
    refine (reads_name hname).bind (fun rest _ => hends rest) fun w hw => ?_
    rw [hw]
    exact hrest

/-- A fragment is read back behind its keyword. -/
theorem reads_fragmentDefinition {f : FragmentDefinition} (h : f.Fits) (hs : f.Survives) (start : Position)
    {F : List Char → Prop} :
    (fragmentDefinition start).Reads ([' '] ++ (f.name.toList ++ ([' '] ++ ("on".toList ++ ([' ']
        ++ (f.onType.toList ++ ((printDirectives 0 f.directives).toList ++ ([' '] ++ bodyText 0 f.selections))))))))
      0 0 F fun g => g.unplaced = f.unplaced := by
  unfold fragmentDefinition
  refine Reads.space ?_
  refine (reads_name h.name).bind (fun rest _ => endsToken_space _) fun name hname => ?_
  refine Reads.space ?_
  refine (reads_keyword isName_on).bind (fun rest _ => endsToken_space _) fun _ _ => ?_
  refine Reads.space ?_
  refine (reads_name h.onType).bind (fun rest _ => ?_) fun type htype => ?_
  · have hfollows : Follows [] ([' '] ++ bodyText 0 f.selections ++ rest) :=
      (follows_body 0 f.selections rest).mono (by simp)
    rw [List.append_assoc]
    exact (follows_directives hfollows (by simp) 0 f.directives).ends
  refine (reads_directives h.directives hs.directives (by omega) 0).bind
    (fun rest _ => follows_body 0 f.selections rest) fun ds hds => ?_
  have hread := reads_selectionSet h.body hs.selections (n := 0) (by omega) (Nat.le_refl _) 0 (F := F)
  refine Reads.space (hread.bind_pure fun ts hts => ?_)
  rw [hname, htype, hds, FragmentDefinition.unplaced, FragmentDefinition.unplaced, unplacedSelections_eq_map,
    unplacedSelections_eq_map, hts]

/-- The keywords of operations are names to the lexer. -/
theorem isName_keyword (kind : OperationKind) : IsName kind.keyword.toList := by
  cases kind with
  | query => exact ⟨'q', _, rfl, by decide, forall_mem_of_all (by decide)⟩
  | mutation => exact ⟨'m', _, rfl, by decide, forall_mem_of_all (by decide)⟩
  | subscription => exact ⟨'s', _, rfl, by decide, forall_mem_of_all (by decide)⟩

/-- A definition with a keyword does not begin like a selection set. -/
theorem not_startsWith_of_keyword {word : String} (h : IsName word.toList) (more rest : List Char)
    (position : Position) :
    (tokensFrom position 0 (word.toList ++ more ++ rest)).startsWith "\x7b" = false := by
  obtain ⟨c, hc, hcomment, hplain, -⟩ := front_of_isName h
  rw [List.append_assoc]
  exact not_startsWith_of_plain (front_append hc _) hcomment hplain Brackets.curly.head_opener
    Brackets.curly.opener_punctuates position 0

/-- An operation in short form is read back from its selection set. -/
theorem reads_shorthand {position : Position} {selections : List Selection}
    (h : (Operation.shorthand position selections).Fits) (hs : (Operation.shorthand position selections).Survives)
    {F : List Char → Prop} :
    definition.Reads (bodyText 0 selections) 0 0 F
      fun e => e.unplaced = (Definition.operation (.shorthand position selections)).unplaced := by
  cases h with
  | shorthand hbody =>
    cases hs with
    | shorthand hselections =>
      unfold definition
      refine reads_get fun ts => reads_looking true (fun position rest _ => ?_) ?_
      · exact Brackets.curly.startsWith_opener (by decide) position _
      have hread := reads_selectionSet hbody hselections (n := 0) (by omega) (Nat.le_refl _) 0 (F := F)
      refine hread.bind_pure fun ts hts => ?_
      simp only [Definition.unplaced, Operation.unplaced, unplacedSelections_eq_map, hts]

/-- An operation with a keyword is read back. -/
theorem reads_explicit {kind : OperationKind} {position : Position} {name : Option String}
    {parameters : List VariableDefinition} {dirs : List Directive} {selections : List Selection}
    (h : (Operation.explicit kind position name parameters dirs selections).Fits)
    (hs : (Operation.explicit kind position name parameters dirs selections).Survives) {F : List Char → Prop} :
    definition.Reads (operationText (.explicit kind position name parameters dirs selections)) 0 0 F fun e =>
      e.unplaced = (Definition.operation (.explicit kind position name parameters dirs selections)).unplaced := by
  have hword := isName_keyword kind
  unfold definition operationText
  refine reads_get fun ts => ?_
  -- The definition is no selection set, and its keyword is a name.
  refine reads_looking false (fun position rest _ => not_startsWith_of_keyword hword _ rest position) ?_
  refine (reads_nameThat hword fun _ => ?_).bind (fun rest _ => ?_) fun t ht => ?_
  · cases kind <;> simp [OperationKind.keyword]
  · rw [List.append_assoc]
    cases name with
    | some name => exact endsToken_space _
    | none => exact endsToken_operationRest kind parameters dirs selections rest
  -- The keyword says which kind of operation it is.
  have hfragment : t.text ≠ "fragment" := by
    rw [ht.2]
    cases kind <;> decide
  have hkind : (if t.text = "mutation" then OperationKind.mutation
      else if t.text = "subscription" then OperationKind.subscription else OperationKind.query) = kind := by
    rw [ht.2]
    cases kind <;> decide
  rw [if_neg hfragment]
  dsimp only
  rw [hkind]
  exact (reads_explicitOperation h hs ts.position).bind_pure fun o ho => congrArg Definition.operation ho

/-- A fragment is read back. -/
theorem reads_fragment {f : FragmentDefinition} (h : f.Fits) (hs : f.Survives) {F : List Char → Prop} :
    definition.Reads (fragmentText f) 0 0 F fun e => e.unplaced = (Definition.fragment f).unplaced := by
  have hword : IsName "fragment".toList := ⟨'f', _, rfl, by decide, forall_mem_of_all (by decide)⟩
  unfold definition fragmentText
  refine reads_get fun ts => ?_
  refine reads_looking false (fun position rest _ => not_startsWith_of_keyword hword _ rest position) ?_
  refine (reads_nameThat hword fun _ => by simp).bind (fun rest _ => endsToken_space _) fun t ht => ?_
  rw [if_pos ht.2]
  exact (reads_fragmentDefinition h hs ts.position).bind_pure fun g hg => congrArg Definition.fragment hg

/-- A definition that survives is read back from its text. -/
theorem reads_definition {d : Definition} (h : d.Fits) (hs : d.Survives) {F : List Char → Prop} :
    definition.Reads (definitionText d) 0 0 F fun e => e.unplaced = d.unplaced := by
  cases d with
  | fragment f => exact reads_fragment h hs
  | operation o =>
    cases o with
    | shorthand position selections => exact reads_shorthand h hs
    | explicit kind position name parameters dirs selections => exact reads_explicit h hs

end

/-! ## Documents -/

/-- A document as it is written, up to its last closing brace. -/
def documentText (ds : List Definition) : List Char := ['\n', '\n'].intercalate (ds.map definitionText)

/-- The first definition of a document, and each other one behind an empty line. -/
theorem documentText_cons (d : Definition) (ds : List Definition) :
    documentText (d :: ds) = definitionText d ++ ds.flatMap fun e => ['\n', '\n'] ++ definitionText e :=
  toList_pieces d

/-- A document is written as its definitions are, with an empty line between two of them. -/
theorem toList_printDocument {ds : List Definition} (hne : ds ≠ []) (hs : ∀ d ∈ ds, d.Survives) :
    (printDocument ds).toList = documentText ds ++ ['\n'] := by
  have hdefinitions : (ds.map (·.print)).map String.toList = ds.map fun d => definitionText d ++ ['\n'] := by
    rw [List.map_map]
    exact List.map_congr_left fun d hd => toList_definition (hs d hd)
  -- Each line feed may count as the end of a definition or as the start of what follows it.
  have hfeeds : ∀ ds : List Definition, ['\n'] ++ (ds.flatMap fun d => ['\n'] ++ (definitionText d ++ ['\n']))
      = (ds.flatMap fun d => ['\n', '\n'] ++ definitionText d) ++ ['\n'] := by
    intro ds
    induction ds with
    | nil => rfl
    | cons d ds ih =>
      rw [List.flatMap_cons, List.flatMap_cons, List.append_assoc _ _ ['\n'], ← ih]
      simp
  obtain ⟨d, others, rfl⟩ := List.exists_cons_of_ne_nil hne
  unfold printDocument
  rw [String.toList_intercalate, hdefinitions, documentText_cons, List.append_assoc, ← hfeeds]
  show ['\n'].intercalate _ = _
  rw [toList_pieces, List.append_assoc]

/-- A written definition starts with a character that is no white space, neither of a source nor of a
text. -/
theorem head_definitionText (d : Definition) :
    ∃ c more, definitionText d = c :: more ∧ isBlank c = false ∧ isSkipped c = false := by
  cases d with
  | fragment f => exact ⟨'f', _, rfl, by decide, by decide⟩
  | operation o =>
    cases o with
    | shorthand position selections => exact ⟨'\x7b', _, rfl, by decide, by decide⟩
    | explicit kind position name parameters dirs selections =>
      cases kind with
      | query => exact ⟨'q', _, rfl, by decide, by decide⟩
      | mutation => exact ⟨'m', _, rfl, by decide, by decide⟩
      | subscription => exact ⟨'s', _, rfl, by decide, by decide⟩

/-- A written definition ends with a closing brace. -/
theorem brace_isSuffix_definitionText (d : Definition) : ['\x7d'] <:+ definitionText d := by
  have hbody : ∀ selections, ['\x7d'] <:+ bodyText 0 selections := fun selections =>
    List.suffix_append_of_suffix (List.suffix_append_of_suffix (List.suffix_append_of_suffix
      (List.suffix_append _ _)))
  cases d with
  | fragment f =>
    unfold definitionText fragmentText
    simp only [← List.append_assoc]
    exact List.suffix_append_of_suffix (hbody f.selections)
  | operation o =>
    cases o with
    | shorthand position selections => exact hbody selections
    | explicit kind position name parameters dirs selections =>
      show ['\x7d'] <:+ kind.keyword.toList ++ (nameText name ++ (parametersText kind parameters
        ++ ((printDirectives 0 dirs).toList ++ ([' '] ++ bodyText 0 selections))))
      simp only [← List.append_assoc]
      exact List.suffix_append_of_suffix (hbody selections)

/-- So a document ends with a closing brace, too. -/
theorem brace_isSuffix_documentText {ds : List Definition} (hne : ds ≠ []) : ['\x7d'] <:+ documentText ds := by
  induction ds with
  | nil => exact absurd rfl hne
  | cons d ds ih =>
    cases ds with
    | nil =>
      rw [documentText_cons, List.flatMap_nil, List.append_nil]
      exact brace_isSuffix_definitionText d
    | cons e ds =>
      unfold documentText at ih ⊢
      rw [List.map_cons, List.map_cons, List.intercalate_cons_cons]
      exact List.suffix_append_of_suffix (ih (by simp))

/-- Of a written document, only the last line feed is white space around it. -/
theorem trim_documentText {ds : List Definition} (hne : ds ≠ []) :
    trim (documentText ds ++ ['\n']) = documentText ds := by
  obtain ⟨d, others, rfl⟩ := List.exists_cons_of_ne_nil hne
  obtain ⟨inner, hinner⟩ := brace_isSuffix_documentText hne
  obtain ⟨c, more, hd, hc, -⟩ := head_definitionText d
  have hstart : trimStart (documentText (d :: others) ++ ['\n']) = documentText (d :: others) ++ ['\n'] := by
    rw [documentText_cons, hd, List.cons_append, List.cons_append]
    exact List.dropWhile_cons_of_neg (by simp [hc])
  unfold trim
  rw [hstart, ← hinner]
  unfold trimEnd
  rw [List.reverse_append, List.reverse_append]
  show (List.dropWhile isBlank ('\n' :: '\x7d' :: inner.reverse)).reverse = _
  rw [List.dropWhile_cons_of_pos (by decide), List.dropWhile_cons_of_neg (by decide)]
  simp

/-- The definitions behind the first one are read up to the end. -/
theorem reads_others {others : List Definition} (h : ∀ d ∈ others, d.Fits) (hs : ∀ d ∈ others, d.Survives)
    {done : Tokens → Bool} (hnext : ∀ t more, done (.next t more) = false)
    (hfinished : ∀ position, done (.finished position) = true) :
    Parser.Reads (others.flatMap fun d => ['\n', '\n'] ++ definitionText d) 0 0 (fun rest => rest = [])
      (fun es => es.map Definition.unplaced = others.map Definition.unplaced) (repeatUntil done definition) := by
  have hskipped : ∀ c ∈ ['\n', '\n'], isSkipped c = true := forall_mem_of_all (by decide)
  refine reads_repeatUntil (G := fun _ => True) (fun d hd => (reads_definition (h d hd) (hs d hd)).blank hskipped)
    (fun d _ => ?_) (fun d _ position rest t more _ => hnext t more) (fun _ _ _ => trivial) (fun _ _ => trivial)
    fun position rest hnil => ?_
  · obtain ⟨c, more, hd, -, hc⟩ := head_definitionText d
    rw [front_blank_append hskipped, hd, front_cons hc]
    simp
  · rw [hnil, tokensFrom, hfinished]

/-- A document that is written and freed from the white space around it is read back, if its definitions
survive, and up to their positions. -/
theorem parseDocument_printed {ds : List Definition} (hne : ds ≠ []) (h : ∀ d ∈ ds, d.Fits)
    (hs : ∀ d ∈ ds, d.Survives) :
    ∃ es, parseDocument (String.ofList (trim (printDocument ds).toList)) = .ok es ∧
      es.map Definition.unplaced = ds.map Definition.unplaced := by
  obtain ⟨d, others, rfl⟩ := List.exists_cons_of_ne_nil hne
  obtain ⟨hd, hothers⟩ := List.forall_mem_cons.mp h
  obtain ⟨hdSurvives, hothersSurvive⟩ := List.forall_mem_cons.mp hs
  obtain ⟨first, between, hfirst, hfirstUnplaced, -⟩ := reads_definition hd hdSurvives (F := fun _ => True)
    Position.start (others.flatMap fun e => ['\n', '\n'] ++ definitionText e) trivial
  obtain ⟨es, hes, hesUnplaced⟩ := definitions_eq_ok
    (P := fun es => es.map Definition.unplaced = others.map Definition.unplaced) hfirst
    fun done hnext hfinished => by
      obtain ⟨es, after, hes, hunplaced, -⟩ :=
        reads_others hothers hothersSurvive hnext hfinished between [] rfl
      rw [List.append_nil, tokensFrom] at hes
      exact ⟨es, after, hes, hunplaced⟩
  refine ⟨first :: es, ?_, by rw [List.map_cons, List.map_cons, hfirstUnplaced, hesUnplaced]⟩
  unfold parseDocument tokens
  rw [String.toList_ofList, toList_printDocument hne hs, trim_documentText hne, documentText_cons, hes]

end QueryModule.Graphql
