import QueryModule.Proofs.Naming.FunctionNames
import QueryModule.Proofs.Naming.Squeezing

/-!
# The two ways to treat underscores

A name is restyled across its underscores or between them. What is between them is restyled piece by
piece, and so the underscores of the source are those of the result:

> `rename_underscores`

Across them, an underscore is but one of the characters that words end at. In the casings that join words
with underscores both ways yield the same words, since the scan for words starts anew at each underscore;
the second way keeps the underscores that have no word on one of their sides:

> `rename_eq_squeeze`
-/

namespace QueryModule.Naming

open QueryModule.Graphql (IsName isNameChar)
open QueryModule.Unicode (isAlphanumeric)

/-! ## Words joined with underscores -/

/-- A change of words that neither makes a word vanish nor brings an underscore into it. -/
structure KeepsWords (change : List Char → List Char) : Prop where
  ne_nil : ∀ {word}, word ≠ [] → change word ≠ []
  underscore : ∀ {word}, '_' ∉ word → '_' ∉ change word

/-- Words in lower case are words. -/
theorem keepsWords_lowerWord : KeepsWords lowerWord where
  ne_nil := lowerWord_ne_nil
  underscore hword hmem :=
    forall_mem_lowerWord caseClosed_ne_underscore (fun _ hc => ne_of_mem_of_not_mem hc hword) '_' hmem rfl

theorem keepsWords_upperWord : KeepsWords upperWord where
  ne_nil := upperWord_ne_nil
  underscore hword hmem :=
    forall_mem_flatMap_upper caseClosed_ne_underscore (fun _ hc => ne_of_mem_of_not_mem hc hword) '_'
      hmem rfl

theorem isAlphanumeric_underscore : isAlphanumeric '_' = false :=
  Unicode.IsAscii.isAlphanumeric_eq (by decide)

theorem map_restyleChars_ne_nil (t : Casing) (text : List Char) :
    (Text.splitAt '_' text).map t.restyleChars ≠ [] := by
  simpa using Text.splitAt_ne_nil '_' text

section

variable {change : List Char → List Char} (hchange : KeepsWords change)

include hchange

/-- Words that are changed in such a way are not empty and have no underscores in them. -/
theorem mem_map_change {text word : List Char} (h : word ∈ (words text).map change) :
    word ≠ [] ∧ '_' ∉ word := by
  obtain ⟨w, hw, rfl⟩ := List.mem_map.mp h
  refine ⟨hchange.ne_nil fun heq => nil_not_mem_words text (heq ▸ hw), hchange.underscore fun hmem => ?_⟩
  have := isAlphanumeric_of_mem_words hw hmem
  rw [isAlphanumeric_underscore] at this
  exact absurd this (by decide)

/-- The words can be told from the text that they make up, unless there are none. -/
theorem splitAt_join {text : List Char} (h : words text ≠ []) :
    Text.splitAt '_' (Casing.join ['_'] ((words text).map change)) = (words text).map change := by
  have hmem := fun word => @mem_map_change change hchange text word
  rw [Casing.join, Text.splitAt_eq_splitOn]
  exact List.splitOn_intercalate '_' (fun word hword => (hmem word hword).2) (by simpa using h)

/-- The segments of words that are joined are the words. -/
theorem segments_join (text : List Char) :
    segments (Casing.join ['_'] ((words text).map change)) = (words text).map change := by
  by_cases h : words text = []
  · rw [h]
    rfl
  · rw [segments, splitAt_join hchange h]
    refine List.filter_eq_self.mpr fun word hword => ?_
    simpa using (mem_map_change hchange hword).1

variable {t : Casing} (ht : ∀ text, t.restyleChars text = Casing.join ['_'] ((words text).map change))

include ht

/-- The segments of a text that is restyled between its underscores are its words. -/
theorem segments_betweenUnderscores (text : List Char) :
    segments (Renamer.betweenUnderscores t text) = (words text).map change := by
  calc segments (Renamer.betweenUnderscores t text)
      = (Text.splitAt '_' text).flatMap fun piece => segments (t.restyleChars piece) := by
        rw [segments, Renamer.betweenUnderscores,
          Text.splitAt_intercalate '_' (map_restyleChars_ne_nil t text), List.filter_flatMap,
          List.flatMap_map]
        rfl
    _ = (Text.splitAt '_' text).flatMap fun piece => (words piece).map change := by
        simp only [ht, segments_join hchange]
    _ = (words text).map change := by
        rw [words_eq_flatMap isAlphanumeric_underscore text, List.map_flatMap]

/-- Restyling across underscores is restyling between them and squeezing the result. -/
theorem restyleChars_eq_squeeze (text : List Char) :
    t.restyleChars text = squeeze (Renamer.betweenUnderscores t text) := by
  rw [squeeze_eq, segments_betweenUnderscores hchange ht, ht]
  rfl

/-- Where each piece has a word, nothing is there to be squeezed. -/
theorem restyleChars_eq_betweenUnderscores {text : List Char}
    (h : ∀ piece ∈ Text.splitAt '_' text, words piece ≠ []) :
    t.restyleChars text = Renamer.betweenUnderscores t text := by
  rw [restyleChars_eq_squeeze hchange ht, squeeze_eq_self]
  rw [Renamer.betweenUnderscores, Text.splitAt_intercalate '_' (map_restyleChars_ne_nil t text),
    List.flatMap_map]
  intro hmem
  obtain ⟨piece, hpiece, hnil⟩ := List.mem_flatMap.mp hmem
  rw [ht, splitAt_join hchange (h piece hpiece)] at hnil
  exact (mem_map_change hchange hnil).1 rfl

end

/-- A piece of a name is a run of letters and digits, and has a word unless it is empty. -/
theorem words_ne_nil_of_mem_splitAt {text piece : List Char} (hname : ∀ c ∈ text, isNameChar c = true)
    (hpiece : piece ∈ Text.splitAt '_' text) (hne : piece ≠ []) : words piece ≠ [] := by
  have halnum : ∀ c ∈ piece, isAlphanumeric c = true := by
    intro c hc
    rw [isAlphanumeric_eq_bne (hname c (Text.subset_of_mem_splitAt '_' text piece hpiece hc)), bne_iff_ne]
    exact fun heq => Text.not_mem_of_mem_splitAt '_' text piece hpiece (heq ▸ hc)
  rw [words, runs_eq_singleton halnum, List.flatMap_singleton]
  exact wordsFrom_ne_nil .none hne

/-! ## Renaming -/

/-- What the flag for underscores decides is whether a name is restyled as a whole or between its
underscores. -/
theorem toList_rename {convention : NamingConvention} {category : Category} {t : Casing}
    (hcasing : convention.treatment category = .transform t) (name : String) :
    (Renamer.rename ⟨convention, true⟩ name category).toList = t.restyleChars name.toList ∧
      (Renamer.rename ⟨convention, false⟩ name category).toList =
        Renamer.betweenUnderscores t name.toList := by
  unfold Renamer.rename Renamer.recase Casing.restyle
  rw [hcasing]
  exact ⟨String.toList_ofList, String.toList_ofList⟩

/-- The casings that join words with underscores. -/
theorem exists_keepsWords {t : Casing} (ht : t = .snake ∨ t = .constant) :
    ∃ change, KeepsWords change ∧
      ∀ text, t.restyleChars text = Casing.join ['_'] ((words text).map change) := by
  rcases ht with rfl | rfl
  · exact ⟨lowerWord, keepsWords_lowerWord, fun _ => rfl⟩
  · exact ⟨upperWord, keepsWords_upperWord, fun _ => rfl⟩

/-- **The two ways to treat underscores differ by squeezing only.** In snake case and in constant case
a name that is restyled across its underscores is the one that is restyled between them, without the
underscores at its ends and with single ones inside. A name of the source that has no underscores at its
ends and no two in a row is restyled to the same name in both ways. -/
theorem rename_eq_squeeze {convention : NamingConvention} {category : Category} {t : Casing}
    (ht : t = .snake ∨ t = .constant) (hcasing : convention.treatment category = .transform t)
    (name : String) :
    (Renamer.rename ⟨convention, true⟩ name category).toList =
        squeeze (Renamer.rename ⟨convention, false⟩ name category).toList ∧
      (IsName name.toList → IsTidy name.toList →
        Renamer.rename ⟨convention, true⟩ name category =
          Renamer.rename ⟨convention, false⟩ name category) := by
  obtain ⟨change, hchange, hjoin⟩ := exists_keepsWords ht
  obtain ⟨hacross, hbetween⟩ := toList_rename hcasing name
  rw [← String.toList_inj, hacross, hbetween]
  refine ⟨restyleChars_eq_squeeze hchange hjoin name.toList, fun hname htidy => ?_⟩
  have hchars := forall_isNameChar hname
  have hempty : [] ∉ Text.splitAt '_' name.toList := by
    obtain ⟨c, rest, hcons, -⟩ := hname
    exact htidy.nil_not_mem_splitAt (by simp [hcons])
  refine restyleChars_eq_betweenUnderscores hchange hjoin fun piece hpiece => ?_
  exact words_ne_nil_of_mem_splitAt hchars hpiece fun heq => hempty (heq ▸ hpiece)

/-- With underscores at both ends and side by side, and a name that has nothing to be squeezed. -/
theorem rename_eq_squeeze_httpServer :
    (NamingConvention.single .constant).treatment .typeNames = .transform .constant ∧
      Renamer.rename ⟨.single .constant, false⟩ "__getHTTP-2_-_serveß_" .typeNames =
        "__GET_HTTP_2__SERVESS_" ∧
      Renamer.rename ⟨.single .constant, true⟩ "__getHTTP-2_-_serveß_" .typeNames =
        "GET_HTTP_2_SERVESS" ∧
      squeeze "__GET_HTTP_2__SERVESS_".toList = "GET_HTTP_2_SERVESS".toList ∧
      IsName "getHTTP_2Server".toList ∧ IsTidy "getHTTP_2Server".toList ∧
      Renamer.rename ⟨.single .constant, true⟩ "getHTTP_2Server" .typeNames =
        Renamer.rename ⟨.single .constant, false⟩ "getHTTP_2Server" .typeNames := by
  have hbetween : Renamer.rename ⟨.single .constant, false⟩ "__getHTTP-2_-_serveß_" .typeNames =
      "__GET_HTTP_2__SERVESS_" := by decide +kernel
  have hacross : Renamer.rename ⟨.single .constant, true⟩ "__getHTTP-2_-_serveß_" .typeNames =
      "GET_HTTP_2_SERVESS" := by decide +kernel
  have hsqueeze := (@rename_eq_squeeze (.single .constant) .typeNames .constant (.inr rfl) rfl
    "__getHTTP-2_-_serveß_").1
  rw [hbetween, hacross] at hsqueeze
  have hname : IsName "getHTTP_2Server".toList :=
    ⟨'g', "etHTTP_2Server".toList, by decide, by decide, List.all_eq_true.mp (by decide)⟩
  have htidy : IsTidy "getHTTP_2Server".toList := ⟨by decide, by decide, by decide⟩
  have hsame := (@rename_eq_squeeze (.single .constant) .typeNames .constant (.inr rfl) rfl
    "getHTTP_2Server").2 hname htidy
  exact ⟨rfl, hbetween, hacross, hsqueeze.symm, hname, htidy, hsame⟩

/-! ## Underscores of the source -/

/-- At an underscore a text is restyled on both sides. -/
theorem betweenUnderscores_append (t : Casing) (front back : List Char) :
    Renamer.betweenUnderscores t (front ++ '_' :: back) =
      Renamer.betweenUnderscores t front ++ '_' :: Renamer.betweenUnderscores t back := by
  unfold Renamer.betweenUnderscores
  rw [Text.splitAt_append, List.map_append, Text.intercalate_append (map_restyleChars_ne_nil t front)
    (map_restyleChars_ne_nil t back), List.append_assoc, List.singleton_append]

/-- The pieces of what comes out are those of the text, each restyled by itself. -/
theorem splitAt_betweenUnderscores {t : Casing} (ht : '_' ∉ t.separators) (text : List Char) :
    Text.splitAt '_' (Renamer.betweenUnderscores t text) =
      (Text.splitAt '_' text).map t.restyleChars := by
  rw [Renamer.betweenUnderscores, Text.splitAt_eq_splitOn]
  refine List.splitOn_intercalate '_' (fun restyled hrestyled => ?_) ?_
  · obtain ⟨piece, hpiece, rfl⟩ := List.mem_map.mp hrestyled
    exact underscore_not_mem_restyleChars ht (Text.not_mem_of_mem_splitAt '_' text piece hpiece)
  · exact map_restyleChars_ne_nil t text

theorem underscore_not_mem_separators {t : Casing} (hsnake : t ≠ .snake) (hconstant : t ≠ .constant) :
    '_' ∉ t.separators := by
  cases t <;> simp_all [Casing.separators]

/-- **The underscores of the source survive.** Restyled between underscores, two names with an underscore
between them are restyled one by one. Unless the casing joins words with underscores, there are no others
than those of the source, and between them stand the pieces of the source, each restyled by itself. -/
theorem rename_underscores {convention : NamingConvention} {category : Category} {t : Casing}
    (hcasing : convention.treatment category = .transform t) :
    (∀ a b : String, Renamer.rename ⟨convention, false⟩ (a ++ "_" ++ b) category =
        Renamer.rename ⟨convention, false⟩ a category ++ "_" ++
          Renamer.rename ⟨convention, false⟩ b category) ∧
      (t ≠ .snake → t ≠ .constant → ∀ name : String,
        (Renamer.rename ⟨convention, false⟩ name category).toList.count '_' = name.toList.count '_' ∧
        Text.splitAt '_' (Renamer.rename ⟨convention, false⟩ name category).toList =
          (Text.splitAt '_' name.toList).map t.restyleChars) := by
  have hbetween := fun name => (toList_rename hcasing name).2
  constructor
  · intro a b
    rw [← String.toList_inj]
    simp only [String.toList_append, hbetween]
    simpa using betweenUnderscores_append t a.toList b.toList
  · intro hsnake hconstant name
    have hpieces := splitAt_betweenUnderscores (underscore_not_mem_separators hsnake hconstant)
      name.toList
    rw [hbetween]
    refine ⟨?_, hpieces⟩
    -- There is one underscore less than there are pieces.
    have hlength := congrArg List.length hpieces
    rw [List.length_map, Text.length_splitAt, Text.length_splitAt] at hlength
    omega

/-- With capitals, underscores side by side and letters beyond ASCII. -/
theorem rename_underscores_sentence :
    (NamingConvention.single .sentence).treatment .enumValues = .transform .sentence ∧
      Renamer.rename ⟨.single .sentence, false⟩ ("_getURL-map" ++ "_" ++ "__byÉtat") .enumValues =
        "_Get url map___By état" ∧
      Renamer.rename ⟨.single .sentence, false⟩ "_getURL-map" .enumValues ++ "_" ++
        Renamer.rename ⟨.single .sentence, false⟩ "__byÉtat" .enumValues = "_Get url map___By état" ∧
      "_Get url map___By état".toList.count '_' = 4 ∧
      Text.splitAt '_' "_Get url map___By état".toList =
        (Text.splitAt '_' "_getURL-map___byÉtat".toList).map Casing.sentence.restyleChars := by
  have hrenamed : Renamer.rename ⟨.single .sentence, false⟩ "_getURL-map___byÉtat" .enumValues =
      "_Get url map___By état" := by decide +kernel
  obtain ⟨happend, hpieces⟩ := @rename_underscores (.single .sentence) .enumValues .sentence rfl
  obtain ⟨hcount, hpieces⟩ := hpieces (by decide) (by decide) "_getURL-map___byÉtat"
  have htogether := happend "_getURL-map" "__byÉtat"
  rw [hrenamed] at hcount hpieces
  exact ⟨rfl, hrenamed, htogether ▸ hrenamed, hcount, hpieces⟩

end QueryModule.Naming
