import Mathlib
import QueryModule.Proofs.Elixir.Reading
import QueryModule.Proofs.Generate.Acceptance
import QueryModule.Proofs.Graphql.Fitting
import QueryModule.Proofs.Naming.Characters

/-!
# A generated module can be read back

Whatever the documents say, the text of a module has the structure that is meant: a reader of the
language finds the functions that have been generated, in their order, and nothing else. The texts
cannot break out of their heredocs, because no line of an escaped text is taken for a delimiter
(`run_constantLines`); the names cannot break out of their lines, because names of parsed documents are
words of one line, and restyling keeps them so.

> `readModule_generate`: reading a generated module back yields one function for each local fragment,
> in the order of the registry, then one for each named operation in document order; each has the
> affixes of its kind around its restyled name, and stands for the lines of its definition's text.
-/

namespace QueryModule.Generate

open QueryModule.Config (Options Settings Affixes defaultModuleName)
open QueryModule.Elixir
open QueryModule.Fragment
open QueryModule.Graphql
open QueryModule.Naming (Renamer)
open QueryModule.Text

/-! ## The lines of a module -/

/-- The function that a constant is read back as: its value is made of the lines of the text,
each with a line feed behind it. -/
def functionOf (c : Constant) : Function := ⟨c.name, String.ofList (unlines (lines c.text.toList))⟩

/-- The lines of some constants, one constant behind the other. -/
def constantsLines (constants : List Constant) : List (List Char) :=
  constants.flatMap fun c => constantLines c.name c.text

/-- The lines of the block of fragments; where there are none, one empty line is left of it. -/
def blockLines (constants : List Constant) : List (List Char) :=
  if constants.isEmpty then [[]] else constantsLines constants

/-- The lines of a module in front of its last one. -/
def moduleLines (moduleName : String) (fragments operations : List Constant) : List (List Char) :=
  ["defmodule ".toList ++ (moduleName.toList ++ " do".toList), functionIndent.toList ++ docLine]
    ++ blockLines fragments ++ constantsLines operations

/-- Texts with a line feed between each two, and one more behind them. -/
theorem toList_intercalate_newline :
    ∀ {texts : List String}, texts ≠ [] →
      ("\n".intercalate texts).toList ++ ['\n'] = texts.flatMap fun t => t.toList ++ ['\n']
  | [], h => absurd rfl h
  | [t], _ => by simp
  | t :: u :: rest, _ => by
    have ih := toList_intercalate_newline (List.cons_ne_nil u rest)
    rw [String.intercalate_cons_cons, String.toList_append, String.toList_append, List.append_assoc,
      ih, List.flatMap_cons]
    rfl

/-- Constants are written in their lines. -/
theorem flatMap_writeElixir (constants : List Constant) :
    ((constants.map writeElixir).flatMap fun t => t.toList ++ ['\n'])
      = unlines (constantsLines constants) := by
  unfold constantsLines
  rw [List.flatMap_map]
  induction constants with
  | nil => rfl
  | cons c rest ih =>
    rw [List.flatMap_cons, List.flatMap_cons, unlines_append, ← toList_constant, ih]
    rfl

/-- So is the block of fragments. -/
theorem toList_fragmentBlock (r : Registry) (s : Settings) :
    (fragmentBlock writeElixir r s).toList ++ ['\n'] = unlines (blockLines (fragmentConstants r s)) := by
  unfold fragmentBlock blockLines
  cases hconstants : fragmentConstants r s with
  | nil => rfl
  | cons c rest =>
    rw [toList_intercalate_newline (by simp), flatMap_writeElixir]
    rfl

/-- A module is written in its lines. -/
theorem toList_render (r : Registry) (s : Settings) (definitions : List SourcedDefinition) :
    (moduleOf r s definitions).render.toList
      = unlines (moduleLines s.moduleName (fragmentConstants r s) (operationConstants r s definitions))
        ++ endLine := by
  have hbody : (moduleOf r s definitions).body.toList ++ ['\n']
      = unlines (blockLines (fragmentConstants r s))
        ++ unlines (constantsLines (operationConstants r s definitions)) := by
    rw [← toList_fragmentBlock, ← flatMap_writeElixir]
    exact toList_intercalate_newline (List.cons_ne_nil _ _)
  have hhead : ("defmodule " ++ s.moduleName ++ " do\n  @doc \"" ++ docText ++ "\"\n").toList
      = unlines ["defmodule ".toList ++ (s.moduleName.toList ++ " do".toList),
          functionIndent.toList ++ docLine] := by
    simp only [String.toList_append, unlines_cons, unlines_nil, List.append_assoc]
    rfl
  have hend : "\nend".toList = ['\n'] ++ endLine := rfl
  unfold moduleLines
  rw [List.append_assoc, unlines_append, unlines_append, ← hbody, ← hhead]
  show (_ ++ (moduleOf r s definitions).body ++ "\nend").toList = _
  rw [String.toList_append, String.toList_append, hend, List.append_assoc, List.append_assoc,
    List.append_assoc]
  rfl

/-! ## Reading the lines -/

/-- The lines of constants are not broken, if their names are not. -/
theorem newline_not_mem_constantsLines {constants : List Constant}
    (h : ∀ c ∈ constants, '\n' ∉ c.name.toList) : ∀ l ∈ constantsLines constants, '\n' ∉ l := by
  intro l hl
  obtain ⟨c, hc, hl⟩ := List.mem_flatMap.mp hl
  exact newline_not_mem_constantLines (h c hc) c.text l hl

/-- Neither are those of a module, if its name is not. -/
theorem newline_not_mem_moduleLines {moduleName : String} {fragments operations : List Constant}
    (hmodule : '\n' ∉ moduleName.toList) (hnames : ∀ c ∈ fragments ++ operations, '\n' ∉ c.name.toList) :
    ∀ l ∈ moduleLines moduleName fragments operations, '\n' ∉ l := by
  intro l hl
  rcases List.mem_append.mp hl with hl | hl
  · rcases List.mem_append.mp hl with hl | hl
    · rcases List.mem_cons.mp hl with rfl | hl
      · simp [hmodule]
      · rw [List.mem_singleton.mp hl]
        decide
    · unfold blockLines at hl
      split at hl
      · rw [List.mem_singleton.mp hl]
        simp
      · exact newline_not_mem_constantsLines
          (fun c hc => hnames c (List.mem_append_left _ hc)) l hl
  · exact newline_not_mem_constantsLines (fun c hc => hnames c (List.mem_append_right _ hc)) l hl

/-- Reading the lines of some constants adds one function for each of them. -/
theorem run_constantsLines :
    ∀ (c : Contents) (constants : List Constant),
      run (.between c) (constantsLines constants)
        = some (.between { c with functions := c.functions ++ constants.map functionOf })
  | c, [] => by simp [constantsLines, run]
  | c, constant :: rest => by
    have hfirst := run_constantLines c constant.name constant.text
    unfold constantsLines
    rw [List.flatMap_cons, run_append hfirst]
    show run _ (constantsLines rest) = _
    rw [run_constantsLines]
    simp [Contents.push, functionOf]

/-- Reading the block of fragments adds one function for each of them, and nothing where there are none. -/
theorem run_blockLines (c : Contents) (constants : List Constant) :
    run (.between c) (blockLines constants)
      = some (.between { c with functions := c.functions ++ constants.map functionOf }) := by
  unfold blockLines
  cases constants with
  | nil => simp [run, step]
  | cons constant rest => exact run_constantsLines c (constant :: rest)

/-- The module of some constants is read back as their functions, when no name breaks a line. -/
theorem readModule_moduleOf {r : Registry} {s : Settings} {definitions : List SourcedDefinition}
    (hmodule : '\n' ∉ s.moduleName.toList)
    (hnames : ∀ c ∈ fragmentConstants r s ++ operationConstants r s definitions,
      '\n' ∉ c.name.toList) :
    readModule (moduleOf r s definitions).render
      = some ⟨s.moduleName,
          (fragmentConstants r s ++ operationConstants r s definitions).map functionOf⟩ := by
  -- The first two lines name the module and open its body.
  have hname : step .start ("defmodule ".toList ++ (s.moduleName.toList ++ " do".toList))
      = some (.named s.moduleName) := by
    show (framed? _ _ _).map _ = _
    rw [framed?_append]
    show some (Reading.named (String.ofList s.moduleName.toList)) = _
    rw [String.ofList_toList]
  have hdoc : step (.named s.moduleName) (functionIndent.toList ++ docLine)
      = some (.between ⟨s.moduleName, []⟩) := rfl
  -- Behind them each constant adds a function, and the last line closes the module.
  have hrun : run .start (moduleLines s.moduleName (fragmentConstants r s)
        (operationConstants r s definitions))
      = some (.between ⟨s.moduleName,
          (fragmentConstants r s ++ operationConstants r s definitions).map functionOf⟩) := by
    unfold moduleLines
    rw [List.append_assoc, List.cons_append, run_cons hname, List.cons_append, run_cons hdoc,
      List.nil_append, run_append (run_blockLines ..), run_constantsLines, List.map_append]
    rfl
  unfold readModule
  rw [toList_render, splitOn_unlines (newline_not_mem_moduleLines hmodule hnames) (by decide),
    run_append hrun]
  rfl

/-! ## Where names come from -/

/-- The document has been read from a source, or has not been parsed at all. -/
def FromSource (d : SourceDocument) : Prop :=
  ∀ ds ∈ d.definitions, ∃ source, parseDocument source = .ok ds

/-- The configured module name, prefixes and suffixes have no line feeds. -/
def OnOneLine (o : Options) : Prop :=
  ∀ given ∈ [o.moduleName, o.namePrefix, o.nameSuffix, o.fragmentPrefix, o.fragmentSuffix],
    ∀ text ∈ given, '\n' ∉ text.toList

/-- Configured texts of one line, and their defaults, have no line feeds. -/
theorem newline_not_mem_getD {o : Options} (h : OnOneLine o) {given : Option String}
    (hgiven : given ∈ [o.moduleName, o.namePrefix, o.nameSuffix, o.fragmentPrefix, o.fragmentSuffix])
    {default : String} (hdefault : '\n' ∉ default.toList) : '\n' ∉ (given.getD default).toList := by
  cases htext : given with
  | none => exact hdefault
  | some text => exact h given hgiven text htext

/-- Names of definitions that have been read from sources are words of one line. -/
theorem newline_not_mem_name {documents : List SourceDocument}
    (h : ∀ d ∈ documents, FromSource d) {d : SourcedDefinition} (hd : d ∈ combine documents)
    {name : String} (hname : name ∈ d.definition.name?) : '\n' ∉ name.toList := by
  obtain ⟨document, hdocument, hd⟩ := List.mem_flatMap.mp hd
  obtain ⟨definition, hdefinition, rfl⟩ := List.mem_map.mp hd
  cases hds : document.definitions with
  | none =>
    rw [hds] at hdefinition
    exact absurd hdefinition (by simp)
  | some ds =>
    rw [hds] at hdefinition
    obtain ⟨source, hsource⟩ := h document hdocument ds hds
    exact (isName_of_parseDocument hsource definition hdefinition name hname).newline_not_mem

variable {i : Inputs}

/-- Local fragments that have been read are named on one line. -/
theorem newline_not_mem_localFragments (h : ∀ d ∈ i.documents, FromSource d) :
    ∀ f ∈ i.localFragments, '\n' ∉ f.name.toList := by
  intro f hf
  obtain ⟨d, hd, hf⟩ := List.mem_filterMap.mp hf
  obtain ⟨node, hnode, rfl⟩ := Option.map_eq_some_iff.mp hf
  refine newline_not_mem_name h hd ?_
  cases hdefinition : d.definition with
  | operation o =>
    rw [hdefinition] at hnode
    exact absurd hnode (by simp [Definition.fragment?])
  | fragment g =>
    rw [hdefinition] at hnode
    rw [← Option.some.inj hnode]
    rfl

/-- Operations that have been read are named on one line, too. -/
theorem newline_not_mem_operations (h : ∀ d ∈ i.documents, FromSource d) :
    ∀ o ∈ i.operations, '\n' ∉ o.name.toList := by
  intro o ho
  obtain ⟨d, hd, ho⟩ := List.mem_filterMap.mp ho
  obtain ⟨node, hnode, ho⟩ := Option.bind_eq_some_iff.mp ho
  obtain ⟨name, hname, rfl⟩ := Option.map_eq_some_iff.mp ho
  refine newline_not_mem_name h hd ?_
  cases hdefinition : d.definition with
  | fragment f =>
    rw [hdefinition] at hnode
    exact absurd hnode (by simp [Definition.operation?])
  | operation p =>
    rw [hdefinition] at hnode
    obtain rfl : p = node := Option.some.inj hnode
    exact hname

/-! ## The generated functions -/

namespace Inputs

/-- What the lines of a definition's text come to. -/
def value (i : Inputs) (d : Definition) : String :=
  String.ofList (unlines (lines (standaloneText i.merged d).toList))

/-- The function of a fragment. -/
def fragmentFunction (i : Inputs) (renamer : Renamer) (f : SourcedFragment) : Function where
  name := i.options.fragmentPrefix.getD "" ++ renamer.rename f.name .typeNames
    ++ i.options.fragmentSuffix.getD ""
  value := i.value (.fragment f.definition)

/-- The function of an operation. -/
def operationFunction (i : Inputs) (renamer : Renamer) (o : NamedOperation) : Function where
  name := i.options.namePrefix.getD "" ++ renamer.rename o.name .typeNames
    ++ i.options.nameSuffix.getD ""
  value := i.value (.operation o.operation)

/-- The functions of a module: those of the local fragments, then those of the named operations. -/
def functions (i : Inputs) (renamer : Renamer) : List Function :=
  i.orderedFragments.map (i.fragmentFunction renamer) ++ i.operations.map (i.operationFunction renamer)

end Inputs

/-- What settings are resolved to. -/
theorem resolve_eq_ok {o : Options} {s : Settings} (h : Settings.resolve o = .ok s) :
    ∃ renamer, Renamer.resolve o.namingConvention o.transformUnderscore = .ok renamer ∧
      s = ⟨o.moduleName.getD defaultModuleName, renamer, Affixes.ofOptions o⟩ := by
  obtain ⟨renamer, hrenamer, hs⟩ := ok_of_bind_eq_ok h
  exact ⟨renamer, hrenamer, (Except.ok.inj hs).symm⟩

/-- The functions are those that the constants are read back as. -/
theorem map_functionOf_constants (renamer : Renamer) :
    (i.constants ⟨i.options.moduleName.getD defaultModuleName, renamer,
        Affixes.ofOptions i.options⟩).map functionOf = i.functions renamer := by
  unfold Inputs.functions
  rw [constants_eq, List.map_append, List.map_map, List.map_map]
  rfl

/-- The names of the functions are the generated names, in another order. -/
theorem map_name_functions_perm (hperm : i.orderedFragments.Perm i.localFragments)
    (renamer : Renamer) :
    ((i.functions renamer).map (·.name)).Perm
      (i.generatedNames ⟨i.options.moduleName.getD defaultModuleName, renamer,
        Affixes.ofOptions i.options⟩) := by
  unfold Inputs.functions Inputs.generatedNames
  rw [List.map_append, List.map_map, List.map_map]
  exact (hperm.map _).append_right _

/-- A name on one line stays so when it is renamed and configured affixes are put around it. -/
theorem newline_not_mem_affixed {o : Options} (h : OnOneLine o) {front back : Option String}
    (hfront : front ∈ [o.moduleName, o.namePrefix, o.nameSuffix, o.fragmentPrefix, o.fragmentSuffix])
    (hback : back ∈ [o.moduleName, o.namePrefix, o.nameSuffix, o.fragmentPrefix, o.fragmentSuffix])
    {name : String} (hname : '\n' ∉ name.toList) (renamer : Renamer) :
    '\n' ∉ (front.getD "" ++ renamer.rename name .typeNames ++ back.getD "").toList := by
  have hfree := Naming.newline_not_mem_rename renamer .typeNames hname
  have hbefore : '\n' ∉ (front.getD "").toList := newline_not_mem_getD h hfront (by simp)
  have hbehind : '\n' ∉ (back.getD "").toList := newline_not_mem_getD h hback (by simp)
  simp [hfree, hbefore, hbehind]

/-- Generated names have no line feeds. -/
theorem newline_not_mem_generatedNames (hsource : ∀ d ∈ i.documents, FromSource d)
    (hoptions : OnOneLine i.options) (moduleName : String) (renamer : Renamer) :
    ∀ name ∈ i.generatedNames ⟨moduleName, renamer, Affixes.ofOptions i.options⟩,
      '\n' ∉ name.toList := by
  intro name hname
  rcases List.mem_append.mp hname with hname | hname
  · obtain ⟨f, hf, rfl⟩ := List.mem_map.mp hname
    exact newline_not_mem_affixed hoptions (by simp) (by simp)
      (newline_not_mem_localFragments hsource f hf) renamer
  · obtain ⟨o, ho, rfl⟩ := List.mem_map.mp hname
    exact newline_not_mem_affixed hoptions (by simp) (by simp)
      (newline_not_mem_operations hsource o ho) renamer

/-- **Reading back.** From documents that have been read from sources, and with affixes of one line,
the text of a generated module is read back as one function for each local fragment, in the order of
the registry, and one for each named operation in document order, all of different names. -/
theorem readModule_generate {m : Module} (hsource : ∀ d ∈ i.documents, FromSource d)
    (hoptions : OnOneLine i.options) (h : (generate i).result = .ok m) :
    ∃ renamer, Renamer.resolve i.options.namingConvention i.options.transformUnderscore = .ok renamer ∧
      readModule m.render
        = some ⟨i.options.moduleName.getD defaultModuleName, i.functions renamer⟩ ∧
      ((i.functions renamer).map (·.name)).Nodup ∧
      i.orderedFragments.Perm i.localFragments := by
  have hverdict := verdict_result i
  rw [h] at hverdict
  obtain ⟨accepted, s, hs, rfl⟩ := accepted_of_verdict hverdict
  obtain ⟨renamer, hrenamer, rfl⟩ := resolve_eq_ok hs
  have hordered := orderedFragments_perm accepted.nodup_merged
  have hperm := map_name_functions_perm hordered renamer
  refine ⟨renamer, hrenamer, ?_, ?_, hordered⟩
  · rw [← map_functionOf_constants]
    refine readModule_moduleOf (newline_not_mem_getD hoptions (by simp) (by decide)) fun c hc => ?_
    refine newline_not_mem_generatedNames hsource hoptions _ renamer c.name (hperm.mem_iff.mp ?_)
    rw [← map_functionOf_constants, List.map_map]
    exact List.mem_map_of_mem hc
  · obtain ⟨s', hs', hnodup⟩ := accepted.names
    rw [hs, Except.ok.injEq] at hs'
    rw [← hs'] at hnodup
    exact hperm.nodup_iff.mpr hnodup

/-- A document with a fragment and a query, and in the query what would start an interpolation. -/
def writtenSource : String :=
  "fragment A on T \x7b x \x7d query Q \x7b a(s: \"#\x7b\") ...A \x7d"

/-- The inputs that consist of the document. -/
def writtenInputs : Inputs where
  schema := .empty
  documents := [⟨none, some [
    .fragment ⟨"A", "T", ⟨1, 1⟩, [], [.field none "x" [] [] []]⟩,
    .operation (.explicit .query ⟨1, 23⟩ (some "Q") [] []
      [.field none "a" [("s", .string "#\x7b")] [] [], .spread ⟨1, 47⟩ "A" []])]⟩]
  options := { namePrefix := some "query_" }
  externals := []

set_option maxRecDepth 10000 in
/-- The interpolation in the query is read back as it is written. -/
theorem readModule_writtenInputs :
    ∃ m renamer, (generate writtenInputs).result = .ok m ∧
      readModule m.render = some ⟨defaultModuleName, writtenInputs.functions renamer⟩ := by
  have hsource : ∀ d ∈ writtenInputs.documents, FromSource d := by
    intro d hd ds hds
    obtain rfl := List.mem_singleton.mp hd
    obtain rfl := Option.mem_some.mp hds
    exact ⟨writtenSource, by cbv⟩
  have hoptions : OnOneLine writtenInputs.options := by
    simp [OnOneLine, writtenInputs]
  have hs : Settings.resolve writtenInputs.options
      = .ok ⟨defaultModuleName, ⟨.single .snake, false⟩, ⟨"query_", "", "", ""⟩⟩ := rfl
  have hregistry : writtenInputs.pool.toRegistry = .ok writtenInputs.merged := by cbv
  have hnames : checkNames writtenInputs.merged
      ⟨defaultModuleName, ⟨.single .snake, false⟩, ⟨"query_", "", "", ""⟩⟩
      (combine writtenInputs.documents) = .ok () := rfl
  have hresult := result_generate_of_stages hs rfl hregistry rfl hnames
  obtain ⟨renamer, -, hread, -, -⟩ := readModule_generate hsource hoptions hresult
  exact ⟨_, renamer, hresult, hread⟩

end QueryModule.Generate
