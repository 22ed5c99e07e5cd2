import Mathlib
import QueryModule.Proofs.Generate.Standalone
import QueryModule.Proofs.Graphql.PrintedDocuments

/-!
# Texts that are read again

A server that is sent a text reads it again. What it finds is the definition that the text is of, and
behind it the fragments that this definition needs, each of them as it has been read from its own
source: with its aliases, arguments, directives and defaults, and all but the positions.

This takes that every value survives being written, and not all do: a text may have a character that
is given by its number, or lines that a block string does not keep, and a whole float is written as an
integer. Besides, a subscription without a name is written without its variables. One small source for
each of these ends up as a different document (`reprinting_differs`).

> `parseDocument_standaloneText`: where everything survives, the text of a definition is read as the
> definition and the fragments that it needs.
-/

namespace QueryModule.Generate

open QueryModule.Fragment
open QueryModule.Graphql

/-- Some source has the definition in it. -/
def Parsed (d : Definition) : Prop := ∃ source ds, parseDocument source = .ok ds ∧ d ∈ ds

theorem Parsed.fits {d : Definition} (h : Parsed d) : d.Fits := by
  obtain ⟨source, ds, hsource, hd⟩ := h
  exact fits_of_parseDocument hsource d hd

variable {r : Registry} {d : Definition}

/-- The fragments that a definition is followed by are those that it needs, itself excepted. -/
theorem standaloneDefinitions_eq_needed (r : Registry) (d : Definition) :
    ∃ fragments : List SourcedFragment, standaloneDefinitions r d = d :: fragments.map asDefinition ∧
      (fragments.map (·.name)).Nodup ∧
      ∀ f, f ∈ fragments ↔ r.get? f.name = some f ∧ r.Needs d.selections f.name ∧
        d.fragment?.map (·.name) ≠ some f.name := by
  refine ⟨(r.neededBy d.selections).filter fun f => some f.name ≠ d.fragment?.map (·.name), rfl, ?_, fun f => ?_⟩
  · exact (r.nodup_neededBy d.selections).sublist (List.filter_sublist.map _)
  · rw [List.mem_filter, Registry.mem_neededBy, and_assoc, decide_eq_true_eq, ne_comm]

/-- **Reading a text again.** Take a definition of some source, and a registry whose fragments come from
sources, too. If the definition and the fragments that it needs survive being written, then the text of
the definition is read as the definition and those fragments, each one once and all up to positions. -/
theorem parseDocument_standaloneText (hd : Parsed d) (hr : ∀ f ∈ r.fragments, Parsed (asDefinition f))
    (hs : d.Survives)
    (hneeded : ∀ f ∈ r.fragments, r.Needs d.selections f.name → (asDefinition f).Survives) :
    ∃ (es : List Definition) (fragments : List SourcedFragment), parseDocument (standaloneText r d) = .ok es ∧
      es.map Definition.unplaced = (d :: fragments.map asDefinition).map Definition.unplaced ∧
      (fragments.map (·.name)).Nodup ∧
      ∀ f, f ∈ fragments ↔ r.get? f.name = some f ∧ r.Needs d.selections f.name ∧
        d.fragment?.map (·.name) ≠ some f.name := by
  obtain ⟨fragments, hdefinitions, hnodup, hmem⟩ := standaloneDefinitions_eq_needed r d
  have hregistered : ∀ f ∈ fragments, f ∈ r.fragments := fun f hf => Registry.mem_of_get? ((hmem f).mp hf).1
  have hfits : ∀ e ∈ d :: fragments.map asDefinition, e.Fits := by
    refine List.forall_mem_cons.mpr ⟨hd.fits, fun e he => ?_⟩
    obtain ⟨f, hf, rfl⟩ := List.mem_map.mp he
    exact (hr f (hregistered f hf)).fits
  have hsurvive : ∀ e ∈ d :: fragments.map asDefinition, e.Survives := by
    refine List.forall_mem_cons.mpr ⟨hs, fun e he => ?_⟩
    obtain ⟨f, hf, rfl⟩ := List.mem_map.mp he
    exact hneeded f (hregistered f hf) ((hmem f).mp hf).2.1
  obtain ⟨es, hes, hunplaced⟩ := parseDocument_printed (by simp) hfits hsurvive
  refine ⟨es, fragments, ?_, hunplaced, hnodup, hmem⟩
  unfold standaloneText
  rw [hdefinitions]
  exact hes

/-- A query with a text of two lines and with a spread. -/
def linesQuery : Definition :=
  .operation (.explicit .query ⟨1, 1⟩ (some "Q") [] []
    [.field (some "b") "a" [("s", .string "1\n2")] [] [], .spread ⟨1, 30⟩ "F" []])

/-- The fragment that the query spreads. -/
def linesRegistry : Registry :=
  ⟨[⟨⟨"F", "T", ⟨1, 1⟩, [], [.field none "c" [] [] []]⟩, none, false⟩]⟩

set_option maxRecDepth 100000 in
theorem parseDocument_linesQuery :
    ∃ (es : List Definition) (fragments : List SourcedFragment),
      parseDocument (standaloneText linesRegistry linesQuery) = .ok es ∧
      es.map Definition.unplaced = (linesQuery :: fragments.map asDefinition).map Definition.unplaced ∧
      (fragments.map (·.name)).Nodup ∧
      ∀ f, f ∈ fragments ↔ linesRegistry.get? f.name = some f ∧ linesRegistry.Needs linesQuery.selections f.name ∧
        linesQuery.fragment?.map (·.name) ≠ some f.name := by
  have hquery : Parsed linesQuery :=
    ⟨"query Q \x7b b: a(s: \"1\\n2\") ...F \x7d", [linesQuery], by cbv, List.mem_singleton.mpr rfl⟩
  have htext : TextSurvives "1\n2" := by
    have hlines : Text.splitAt '\n' "1\n2".toList = [['1'], ['2']] := by cbv
    refine (if_pos (by cbv)).mpr ⟨?_, ?_, ?_, ?_, ?_⟩
    all_goals rw [hlines]
    · simp
    · simp [isBlankLine, Text.isBlank]
    · simp
    · simp
    · exact ⟨['1'], by simp, '1', rfl, by decide⟩
  refine parseDocument_standaloneText hquery (fun f hf => ?_) (.explicit (fun h => absurd h (by decide)) ?_ ?_ ?_)
    fun f hf _ => ?_
  · obtain rfl := List.mem_singleton.mp hf
    exact ⟨"fragment F on T \x7b c \x7d", [_], by cbv, List.mem_singleton.mpr rfl⟩
  · simp
  · simp [DirectivesSurvive]
  · refine List.forall_mem_cons.mpr ⟨.field ?_ ?_ ?_, List.forall_mem_singleton.mpr (.spread ?_)⟩
    · exact List.forall_mem_singleton.mpr (.string htext)
    · simp [DirectivesSurvive]
    · simp
    · simp [DirectivesSurvive]
  · obtain rfl := List.mem_singleton.mp hf
    refine ⟨by simp [DirectivesSurvive], List.forall_mem_singleton.mpr (.field ?_ ?_ ?_)⟩
    · simp [ArgumentsSurvive]
    · simp [DirectivesSurvive]
    · simp

/-! ## What is lost -/

/-- The source has one definition, and the text of that is read as another one. -/
structure Differs (source : String) (d e : Definition) : Prop where
  parsed : parseDocument source = .ok [d]
  read : parseDocument (standaloneText .empty d) = .ok [e]
  differs : e.unplaced ≠ d.unplaced

/-- A query with an argument of the field that it selects. -/
def queryWith (v : Value) : Definition :=
  .operation (.explicit .query ⟨1, 1⟩ (some "Q") [] [] [.field none "a" [("s", v)] [] []])

/-- A subscription with some variables and without a name. -/
def subscriptionWith (parameters : List VariableDefinition) : Definition :=
  .operation (.explicit .subscription ⟨1, 1⟩ none parameters [] [.field none "b" [("x", .variableRef "a")] [] []])

theorem standaloneText_queryWith {v : Value} {text : String}
    (h : Text.trim (printDocument [queryWith v]).toList = text.toList) :
    standaloneText .empty (queryWith v) = text := by
  have hdefinitions : standaloneDefinitions .empty (queryWith v) = [queryWith v] := by cbv
  unfold standaloneText
  rw [hdefinitions, h, String.ofList_toList]

theorem differs_queryWith {source : String} (text : String) {v w : Value}
    (hparsed : parseDocument source = .ok [queryWith v])
    (hprinted : Text.trim (printDocument [queryWith v]).toList = text.toList)
    (hread : parseDocument text = .ok [queryWith w]) (hne : w ≠ v) :
    Differs source (queryWith v) (queryWith w) where
  parsed := hparsed
  read := by rw [standaloneText_queryWith hprinted, hread]
  differs := by simp [queryWith, Definition.unplaced, Operation.unplaced, unplacedSelections, Selection.unplaced, hne]

set_option maxRecDepth 100000 in
/-- A character that needs an escape is given by its decimal number, and read by its hexadecimal one. -/
theorem differs_escaped : Differs "query Q \x7b a(s: \"\\u000B\") \x7d" (queryWith (.string "\x0b"))
    (queryWith (.string "\x11")) :=
  differs_queryWith "query Q \x7b\n  a(s: \"\\u0011\")\n\x7d" (by cbv) rfl (by cbv) (by simp)

set_option maxRecDepth 100000 in
/-- Of a number with more than four digits, only the first four are read as one. -/
theorem differs_beyond : Differs "query Q \x7b a(s: \"🙂\") \x7d" (queryWith (.string "🙂"))
    (queryWith (.string "ኅ78")) :=
  differs_queryWith "query Q \x7b\n  a(s: \"\\u128578\")\n\x7d" (by cbv) rfl (by cbv) (by simp)

set_option maxRecDepth 100000 in
/-- A block string does not keep the line feed at the end of a text. -/
theorem differs_lines : Differs "query Q \x7b a(s: \"x\\n\") \x7d" (queryWith (.string "x\n"))
    (queryWith (.string "x")) := by
  have hliteral : stringLiteral indentStep "x\n" = "\"\"\"\n    x\n  \"\"\"" := by cbv
  have hdocument : printDocument [queryWith (.string "x\n")]
      = "query Q \x7b\n  a(s: \"\"\"\n    x\n  \"\"\")\n\x7d\n" := by
    simp only [queryWith, printDocument, List.map_cons, List.map_nil, Definition.print, Operation.print, printBody,
      printSelections, Selection.print, printArguments, printFields, Value.print, hliteral]
    rfl
  refine differs_queryWith "query Q \x7b\n  a(s: \"\"\"\n    x\n  \"\"\")\n\x7d" (by cbv) ?_ (by cbv) (by simp)
  rw [hdocument]
  rfl

set_option maxRecDepth 100000 in
/-- The variables of a subscription without a name are not written. -/
theorem differs_subscription : Differs "subscription ($a: Int) \x7b b(x: $a) \x7d"
    (subscriptionWith [⟨"a", .named "Int", none⟩]) (subscriptionWith []) where
  parsed := by cbv
  read := by
    have hdefinitions : ∀ parameters, standaloneDefinitions .empty (subscriptionWith parameters)
        = [subscriptionWith parameters] := by
      intro parameters
      cbv
    have htext : standaloneText .empty (subscriptionWith [⟨"a", .named "Int", none⟩])
        = "subscription \x7b\n  b(x: $a)\n\x7d" := by
      unfold standaloneText
      rw [hdefinitions]
      rfl
    rw [htext]
    cbv
  differs := by
    simp [subscriptionWith, Definition.unplaced, Operation.unplaced, unplacedSelections, Selection.unplaced]

/-- **Lost in writing.** Four small sources whose only definition is not what is read of its text. -/
theorem reprinting_differs :
    Differs "query Q \x7b a(s: \"\\u000B\") \x7d" (queryWith (.string "\x0b")) (queryWith (.string "\x11")) ∧
      Differs "query Q \x7b a(s: \"🙂\") \x7d" (queryWith (.string "🙂")) (queryWith (.string "ኅ78")) ∧
      Differs "query Q \x7b a(s: \"x\\n\") \x7d" (queryWith (.string "x\n")) (queryWith (.string "x")) ∧
      Differs "subscription ($a: Int) \x7b b(x: $a) \x7d" (subscriptionWith [⟨"a", .named "Int", none⟩])
        (subscriptionWith []) :=
  ⟨differs_escaped, differs_beyond, differs_lines, differs_subscription⟩

end QueryModule.Generate
