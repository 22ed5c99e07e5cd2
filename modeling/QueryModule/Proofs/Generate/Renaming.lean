import QueryModule.Proofs.Generate.ReadBack

/-!
# Options touch names only

What is generated of the same documents under two configurations differs in names: in that of the
module and in those of the functions. The configuration goes into a constant by its name alone, never
into the text, and never into which constants there are and in which order they stand. So the two
modules have the same lines, except for the one that names the module and those that name a function.

Which names an option reaches is seen from the two names that settings give to a definition: the
affixes of one kind do not occur in the name of the other kind, and the selector for enumeration values
occurs in neither.

> `generate_withOptions`: what two configurations have in common.
-/

namespace QueryModule.Generate

open QueryModule.Config
open QueryModule.Elixir
open QueryModule.Fragment
open QueryModule.Graphql
open QueryModule.Naming (Category NamingConvention Renamer Treatment)
open QueryModule.Text

/-! ## Lines that differ in a name -/

/-- The two lines are equal but for a name. -/
inductive Alike : List Char → List Char → Prop where
  /-- They are equal. -/
  | same (line : List Char) : Alike line line
  /-- Both name a module. -/
  | moduleNamed (a b : String) :
      Alike ("defmodule ".toList ++ (a.toList ++ " do".toList))
        ("defmodule ".toList ++ (b.toList ++ " do".toList))
  /-- Both name a function. -/
  | functionNamed (a b : String) :
      Alike (functionIndent.toList ++ ("def ".toList ++ (a.toList ++ " do".toList)))
        (functionIndent.toList ++ ("def ".toList ++ (b.toList ++ " do".toList)))

theorem alike_refl (ls : List (List Char)) : List.Forall₂ Alike ls ls :=
  List.forall₂_same.mpr fun l _ => .same l

/-- The name of a constant stands in the first of its lines. -/
theorem alike_constantLines (a b text : String) :
    List.Forall₂ Alike (constantLines a text) (constantLines b text) :=
  .cons (.functionNamed a b) (alike_refl _)

/-- Constants with the same texts have lines that are alike. -/
theorem alike_constantsLines {cs ds : List Constant} (h : cs.map (·.text) = ds.map (·.text)) :
    List.Forall₂ Alike (constantsLines cs) (constantsLines ds) := by
  induction cs generalizing ds with
  | nil =>
    rw [List.map_eq_nil_iff.mp h.symm]
    exact .nil
  | cons c cs ih =>
    cases ds with
    | nil => exact absurd h (by simp)
    | cons d ds =>
      obtain ⟨htext, hrest⟩ := List.cons.inj h
      have hfirst : List.Forall₂ Alike (constantLines c.name c.text) (constantLines d.name d.text) := by
        rw [show c.text = d.text from htext]
        exact alike_constantLines c.name d.name d.text
      exact List.rel_append hfirst (ih hrest)

theorem alike_blockLines {cs ds : List Constant} (h : cs.map (·.text) = ds.map (·.text)) :
    List.Forall₂ Alike (blockLines cs) (blockLines ds) := by
  have hempty : cs.isEmpty = ds.isEmpty := by
    rw [← List.isEmpty_map (f := fun c : Constant => c.text), h, List.isEmpty_map]
  unfold blockLines
  rw [hempty]
  split
  · exact alike_refl _
  · exact alike_constantsLines h

/-- Modules of such constants have lines that are alike. -/
theorem alike_moduleLines (a b : String) {fs gs os ps : List Constant}
    (hfragments : fs.map (·.text) = gs.map (·.text))
    (hoperations : os.map (·.text) = ps.map (·.text)) :
    List.Forall₂ Alike (moduleLines a fs os) (moduleLines b gs ps) :=
  List.rel_append
    (List.rel_append (.cons (.moduleNamed a b) (alike_refl _)) (alike_blockLines hfragments))
    (alike_constantsLines hoperations)

/-! ## Where options go -/

section

variable (r : Registry) (s t : Settings) (definitions : List SourcedDefinition)

/-- The texts of constants do not depend on the settings. -/
theorem map_text_fragmentConstants :
    (fragmentConstants r s).map (·.text) = (fragmentConstants r t).map (·.text) := by
  unfold fragmentConstants
  rw [List.map_map, List.map_map]
  rfl

/-- Neither do the texts of operation constants. -/
theorem map_text_operationConstants :
    (operationConstants r s definitions).map (·.text)
      = (operationConstants r t definitions).map (·.text) := by
  rw [operationConstants_eq, operationConstants_eq, List.map_map, List.map_map]
  rfl

variable {s t}

/-- Settings that name fragments alike give them the same constants. -/
theorem fragmentConstants_congr
    (h : ∀ name, s.fragmentConstantName name = t.fragmentConstantName name) :
    fragmentConstants r s = fragmentConstants r t := by
  refine List.map_congr_left fun f _ => ?_
  unfold Constant.ofFragment
  rw [h f.name]

/-- Settings that name operations alike give them the same constants. -/
theorem operationConstants_congr
    (h : ∀ name, s.operationConstantName name = t.operationConstantName name) :
    operationConstants r s definitions = operationConstants r t definitions := by
  rw [operationConstants_eq, operationConstants_eq]
  refine List.map_congr_left fun o _ => ?_
  unfold NamedOperation.constant
  rw [h o.name]

/-- Settings that name everything alike give the same module. -/
theorem moduleOf_congr (hmodule : s.moduleName = t.moduleName)
    (hfragments : ∀ name, s.fragmentConstantName name = t.fragmentConstantName name)
    (hoperations : ∀ name, s.operationConstantName name = t.operationConstantName name) :
    moduleOf r s definitions = moduleOf r t definitions := by
  unfold moduleOf fragmentBlock
  rw [hmodule, fragmentConstants_congr r hfragments, operationConstants_congr r definitions hoperations]

end

/-! ## What an option reaches -/

section

variable {o : Options} {s t : Settings}

/-- A fragment is named with the affixes of the options, around what the renamer makes of its name. -/
theorem fragmentConstantName_of_resolve (hs : Settings.resolve o = .ok s) (name : String) :
    s.fragmentConstantName name
      = o.fragmentPrefix.getD "" ++ s.renamer.rename name .typeNames ++ o.fragmentSuffix.getD "" := by
  obtain ⟨renamer, -, rfl⟩ := resolve_eq_ok hs
  rfl

/-- An operation is named likewise, with the affixes of operations. -/
theorem operationConstantName_of_resolve (hs : Settings.resolve o = .ok s) (name : String) :
    s.operationConstantName name
      = o.namePrefix.getD "" ++ s.renamer.rename name .typeNames ++ o.nameSuffix.getD "" := by
  obtain ⟨renamer, -, rfl⟩ := resolve_eq_ok hs
  rfl

/-- Options of the same convention have the same renamer, whatever else they say. -/
theorem renamer_eq_of_convention {o' : Options} (hs : Settings.resolve o = .ok s)
    (ht : Settings.resolve o' = .ok t) (hconvention : o.namingConvention = o'.namingConvention)
    (hflag : o.transformUnderscore = o'.transformUnderscore) : s.renamer = t.renamer := by
  obtain ⟨renamer, hrenamer, rfl⟩ := resolve_eq_ok hs
  obtain ⟨renamer', hrenamer', rfl⟩ := resolve_eq_ok ht
  rw [hconvention, hflag] at hrenamer
  exact Except.ok.inj (hrenamer.symm.trans hrenamer')

/-- The affixes of operations do not occur in the names of fragments. -/
theorem fragmentConstantName_of_nameAffixes {front back : Option String}
    (hs : Settings.resolve o = .ok s)
    (ht : Settings.resolve { o with namePrefix := front, nameSuffix := back } = .ok t) (name : String) :
    s.fragmentConstantName name = t.fragmentConstantName name := by
  rw [fragmentConstantName_of_resolve hs, fragmentConstantName_of_resolve ht,
    renamer_eq_of_convention hs ht rfl rfl]

/-- Nor do those of fragments occur in the names of operations. -/
theorem operationConstantName_of_fragmentAffixes {front back : Option String}
    (hs : Settings.resolve o = .ok s)
    (ht : Settings.resolve { o with fragmentPrefix := front, fragmentSuffix := back } = .ok t)
    (name : String) : s.operationConstantName name = t.operationConstantName name := by
  rw [operationConstantName_of_resolve hs, operationConstantName_of_resolve ht,
    renamer_eq_of_convention hs ht rfl rfl]

/-- What a map of conventions is resolved to. -/
theorem resolve_perCategory {enumValues typeNames : Option String} {inner flag : Option Bool}
    {renamer : Renamer}
    (h : Renamer.resolve (some (.perCategory enumValues inner typeNames)) flag = .ok renamer) :
    ∃ forEnums forTypes, Treatment.ofSelector? typeNames = .ok forTypes ∧
      renamer = ⟨.perCategory forEnums forTypes, flag.getD false || inner.getD false⟩ := by
  obtain ⟨convention, hconvention, hrenamer⟩ := ok_of_bind_eq_ok h
  obtain ⟨forEnums, -, hrest⟩ := ok_of_bind_eq_ok hconvention
  obtain ⟨forTypes, htypes, hresult⟩ := ok_of_bind_eq_ok hrest
  refine ⟨forEnums, forTypes, htypes, ?_⟩
  rw [← Except.ok.inj hrenamer, ← Except.ok.inj hresult]
  rfl

/-- The selector for enumeration values does not reach a type name. -/
theorem rename_of_enumValues {enumValues other typeNames : Option String} {inner flag : Option Bool}
    {a b : Renamer}
    (ha : Renamer.resolve (some (.perCategory enumValues inner typeNames)) flag = .ok a)
    (hb : Renamer.resolve (some (.perCategory other inner typeNames)) flag = .ok b) (name : String) :
    a.rename name .typeNames = b.rename name .typeNames := by
  obtain ⟨forEnums, forTypes, htypes, rfl⟩ := resolve_perCategory ha
  obtain ⟨forEnums', forTypes', htypes', rfl⟩ := resolve_perCategory hb
  obtain rfl : forTypes = forTypes' := Except.ok.inj (htypes.symm.trans htypes')
  rfl

/-- The selector for enumeration values reaches no generated name. -/
theorem constantNames_of_enumValues {enumValues other typeNames : Option String} {inner : Option Bool}
    (hs : Settings.resolve
      { o with namingConvention := some (.perCategory enumValues inner typeNames) } = .ok s)
    (ht : Settings.resolve { o with namingConvention := some (.perCategory other inner typeNames) }
      = .ok t) (name : String) :
    s.fragmentConstantName name = t.fragmentConstantName name ∧
      s.operationConstantName name = t.operationConstantName name := by
  have hrename : s.renamer.rename name .typeNames = t.renamer.rename name .typeNames := by
    obtain ⟨renamer, hrenamer, rfl⟩ := resolve_eq_ok hs
    obtain ⟨renamer', hrenamer', rfl⟩ := resolve_eq_ok ht
    exact rename_of_enumValues hrenamer hrenamer' name
  rw [fragmentConstantName_of_resolve hs, fragmentConstantName_of_resolve ht,
    operationConstantName_of_resolve hs, operationConstantName_of_resolve ht, hrename]
  exact ⟨rfl, rfl⟩

/-- So it leaves the module as it is. -/
theorem moduleOf_of_enumValues {enumValues other typeNames : Option String} {inner : Option Bool}
    (ho : o.namingConvention = some (.perCategory enumValues inner typeNames))
    (hs : Settings.resolve o = .ok s)
    (ht : Settings.resolve { o with namingConvention := some (.perCategory other inner typeNames) }
      = .ok t) (r : Registry) (definitions : List SourcedDefinition) :
    moduleOf r s definitions = moduleOf r t definitions := by
  have hmodule : s.moduleName = t.moduleName := by
    obtain ⟨renamer, -, rfl⟩ := resolve_eq_ok hs
    obtain ⟨renamer', -, rfl⟩ := resolve_eq_ok ht
    rfl
  have hsame : { o with namingConvention := some (.perCategory enumValues inner typeNames) } = o := by
    rw [← ho]
  rw [← hsame] at hs
  exact moduleOf_congr r definitions hmodule (fun name => (constantNames_of_enumValues hs ht name).1)
    fun name => (constantNames_of_enumValues hs ht name).2

end

/-! ## Two configurations -/

/-- The inputs with other options. -/
def Inputs.withOptions (i : Inputs) (o : Options) : Inputs := { i with options := o }

/-- The lines that a module is written in are what stands between its line feeds, when no name breaks
a line. -/
theorem splitOn_render {i : Inputs} {s : Settings} (hsource : ∀ d ∈ i.documents, FromSource d)
    (hoptions : OnOneLine i.options) (accepted : i.Accepted)
    (hs : Settings.resolve i.options = .ok s) :
    (moduleOf i.merged s (combine i.documents)).render.toList.splitOn '\n'
      = moduleLines s.moduleName (fragmentConstants i.merged s)
          (operationConstants i.merged s (combine i.documents)) ++ [endLine] := by
  obtain ⟨renamer, -, rfl⟩ := resolve_eq_ok hs
  rw [toList_render]
  refine splitOn_unlines (newline_not_mem_moduleLines ?_ fun c hc => ?_) (by decide)
  · exact newline_not_mem_getD hoptions (by simp) (by decide)
  · have hperm := map_name_functions_perm (orderedFragments_perm accepted.nodup_merged) renamer
    refine newline_not_mem_generatedNames hsource hoptions _ renamer c.name (hperm.mem_iff.mp ?_)
    rw [← map_functionOf_constants, List.map_map]
    exact List.mem_map_of_mem hc

/-- **Options touch names only.** When modules are generated from the same documents and external
fragments under two configurations, then:
* the constants of both have the same texts in the same order;
* both are written in lines of which each two are the same or differ in the name of the module or of a
  function; from documents that have been read from sources, and with affixes of one line, these are the
  lines of the modules;
* if only the affixes of operations differ, the fragment constants are the same;
* if only the affixes of fragments differ, the operation constants are the same;
* if only the selectors for enumeration values of a map differ, the modules are the same. -/
theorem generate_withOptions {i : Inputs} {o : Options} {m n : Module}
    (hm : (generate i).result = .ok m) (hn : (generate (i.withOptions o)).result = .ok n) :
    ∃ s t : Settings, Settings.resolve i.options = .ok s ∧ Settings.resolve o = .ok t ∧
      m = moduleOf i.merged s (combine i.documents) ∧
      n = moduleOf i.merged t (combine i.documents) ∧
      (i.constants s).map (·.text) = (i.constants t).map (·.text) ∧
      (∃ ls ks, List.Forall₂ Alike ls ks ∧
        m.render.toList = unlines ls ++ endLine ∧ n.render.toList = unlines ks ++ endLine ∧
        ((∀ d ∈ i.documents, FromSource d) → OnOneLine i.options → OnOneLine o →
          m.render.toList.splitOn '\n' = ls ++ [endLine] ∧
            n.render.toList.splitOn '\n' = ks ++ [endLine])) ∧
      (∀ front back, o = { i.options with namePrefix := front, nameSuffix := back } →
        fragmentConstants i.merged s = fragmentConstants i.merged t) ∧
      (∀ front back, o = { i.options with fragmentPrefix := front, fragmentSuffix := back } →
        operationConstants i.merged s (combine i.documents)
          = operationConstants i.merged t (combine i.documents)) ∧
      ∀ enumValues other inner typeNames,
        i.options.namingConvention = some (.perCategory enumValues inner typeNames) →
        o = { i.options with namingConvention := some (.perCategory other inner typeNames) } →
        m = n := by
  have hi := verdict_result i
  rw [hm] at hi
  obtain ⟨accepted, s, hs, rfl⟩ := accepted_of_verdict hi
  have hj := verdict_result (i.withOptions o)
  rw [hn] at hj
  obtain ⟨accepted', t, ht, rfl⟩ := accepted_of_verdict hj
  refine ⟨s, t, hs, ht, rfl, rfl, ?_, ⟨_, _, ?_, toList_render .., toList_render .., ?_⟩,
    fun front back ho => ?_, fun front back ho => ?_,
    fun enumValues other inner typeNames hconvention ho => ?_⟩
  · rw [map_text_constants, map_text_constants]
  · exact alike_moduleLines _ _ (map_text_fragmentConstants i.merged s t)
      (map_text_operationConstants i.merged s t (combine i.documents))
  · intro hsource hoptions hoptions'
    exact ⟨splitOn_render hsource hoptions accepted hs,
      splitOn_render (i := i.withOptions o) hsource hoptions' accepted' ht⟩
  · subst ho
    exact fragmentConstants_congr i.merged (fragmentConstantName_of_nameAffixes hs ht)
  · subst ho
    exact operationConstants_congr i.merged _ (operationConstantName_of_fragmentAffixes hs ht)
  · subst ho
    exact moduleOf_of_enumValues hconvention hs ht i.merged (combine i.documents)

set_option maxRecDepth 10000 in
/-- A suffix for operations leaves the constant of the fragment as it is. -/
theorem generate_writtenInputs_withOptions :
    ∃ (m n : Module) (s t : Settings), (generate writtenInputs).result = .ok m ∧
      (generate (writtenInputs.withOptions { nameSuffix := some "_doc" })).result = .ok n ∧
      (writtenInputs.constants s).map (·.text) = (writtenInputs.constants t).map (·.text) ∧
      fragmentConstants writtenInputs.merged s = fragmentConstants writtenInputs.merged t := by
  have hs : Settings.resolve writtenInputs.options
      = .ok ⟨defaultModuleName, ⟨.single .snake, false⟩, ⟨"query_", "", "", ""⟩⟩ := rfl
  have ht : Settings.resolve { nameSuffix := some "_doc" }
      = .ok ⟨defaultModuleName, ⟨.single .snake, false⟩, ⟨"", "_doc", "", ""⟩⟩ := rfl
  have hregistry : writtenInputs.pool.toRegistry = .ok writtenInputs.merged := by cbv
  have hm := result_generate_of_stages hs rfl hregistry rfl rfl
  have hn := result_generate_of_stages
    (i := writtenInputs.withOptions { nameSuffix := some "_doc" }) ht rfl hregistry rfl rfl
  obtain ⟨s, t, -, -, -, -, htexts, -, hfragments, -, -⟩ := generate_withOptions hm hn
  exact ⟨_, _, s, t, hm, hn, htexts, hfragments none (some "_doc") rfl⟩

end QueryModule.Generate
