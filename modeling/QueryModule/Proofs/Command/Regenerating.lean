import QueryModule.Proofs.Command.Running
import QueryModule.Proofs.FileTree.MakingAgain
import QueryModule.Proofs.Generate.Stages
import QueryModule.Proofs.Source.FindingAgain
import Mathlib

/-!
# Generating again

A run of `generate` that succeeds adds one file to the tree, and directories for it. Unless the next run reads
that file, it finds the same documents and reads the same texts as the first one, in the same order, and so
it produces the same module; the directories are there, and the file has that content already
(`generate_again`). Files that are found are those of walks, and a walk through the tree that has grown
visits what it visited before. This needs a tree that is well-formed, as every tree is that comes about by
installing entries, and a run leaves it so.
-/

namespace QueryModule

/-- A text that has been read from another file is read again. -/
theorem FileTree.AddsFile.readText_eq {t t' : FileTree} {place : Place} {content : List UInt8}
    {path text : String} (h : AddsFile t t' place content) (hread : (t.readText path).result = .ok text)
    (hne : t'.resolve .follow path ≠ .ok place) : t'.readText path = t.readText path := by
  unfold readText at hread ⊢
  split at hread
  · nomatch hread
  next old hold => rw [h.content?_eq hold hne]

namespace Command

open QueryModule.FileTree (AddsFile)
open QueryModule.Generate (Inputs)

variable {t t' : FileTree} {a : Arguments} {place : Place} {content : List UInt8} {i : Inputs}
  {path text : String} {paths extensions : List String} {documents : List SourceDocument}

/-! ## Loading again -/

/-- The command reads the file that the path leads to: as the schema, as the options, as a document or for
its fragments. -/
inductive Reads (t : FileTree) (a : Arguments) : String → Prop where
  | schema {path : String} (given : a.schema = some path) : Reads t a path
  | options {path : String} (given : a.config = some path) : Reads t a path
  | document {path : String} {found : Discovery}
      (finds : (Discovery.find t a.documents a.fileExtensions).result = .ok found)
      (mem : path ∈ found.files) : Reads t a path
  | external {path : String} {found : Discovery}
      (finds : (Discovery.find t a.externalFragments a.fileExtensions).result = .ok found)
      (mem : path ∈ found.files) : Reads t a path

/-- What a loader makes of the text of a file it makes of it again. -/
theorem load_again {α ε : Type} {parse : String → Logged ε α} {f : ReadError → ε} {x : α}
    (h : AddsFile t t' place content) (hne : t'.resolve .follow path ≠ .ok place)
    (hload : ((t.readText path).mapError f >>= parse).result = .ok x) :
    ((t'.readText path).mapError f >>= parse).result = .ok x := by
  have hread := hload
  simp only [Logged.result_bind, result_mapError, bind_eq_ok, mapError_eq_ok] at hread
  obtain ⟨text, htext, -⟩ := hread
  rwa [h.readText_eq htext hne]

/-- The documents are found again, and each of them is loaded as before. -/
theorem Documents.again (ht : t.WellFormed) (ht' : t'.WellFormed) (h : AddsFile t t' place content)
    (hdocuments : Documents t paths extensions documents)
    (hapart : ∀ found, (Discovery.find t' paths extensions).result = .ok found →
      ∀ path ∈ found.files, t'.resolve .follow path ≠ .ok place) :
    Documents t' paths extensions documents := by
  obtain ⟨files, hfinds, hloads⟩ := hdocuments
  have hapart : ∀ files, Discovery.Finds t' paths extensions files →
      ∀ path ∈ files, t'.resolve .follow path ≠ .ok place := by
    intro files hfinds path hpath
    obtain ⟨skipped, hfound⟩ := Discovery.find_eq_ok.mpr hfinds
    exact hapart _ hfound path hpath
  have hfinds' := hfinds.again ht ht' h hapart
  refine ⟨files, hfinds', ?_⟩
  have hfiles := hapart files hfinds'
  clear hfinds hfinds' hapart
  induction hloads with
  | nil => exact .nil
  | cons hload _ ih =>
    refine .cons ?_ (ih fun path hpath => hfiles path (List.mem_cons_of_mem _ hpath))
    exact load_again h (hfiles _ List.mem_cons_self) hload

/-- The inputs are loaded again when the file that has been added is not read. -/
theorem Loads.again (ht : t.WellFormed) (ht' : t'.WellFormed) (h : AddsFile t t' place content)
    (hloads : Loads t a i) (hapart : ∀ path, Reads t' a path → t'.resolve .follow path ≠ .ok place) :
    Loads t' a i := by
  constructor
  · have hschema := hloads.schema
    split at hschema
    next path given => exact load_again h (hapart path (.schema given)) hschema
    next => exact hschema
  · have hoptions := hloads.options
    split at hoptions
    next path given => exact load_again h (hapart path (.options given)) hoptions
    next => exact hoptions
  · exact hloads.documents.again ht ht' h fun found hfound path hpath =>
      hapart path (.document hfound hpath)
  · obtain ⟨documents, hdocuments, hexternals⟩ := hloads.externals
    refine ⟨documents, ?_, hexternals⟩
    exact hdocuments.again ht ht' h fun found hfound path hpath => hapart path (.external hfound hpath)

/-! ## Saving again -/

/-- Directories that have been made need not be made again. -/
theorem makeParent_again {made : FileTree} (h : makeParent t path = (made, .ok ()))
    (hgrows : FileTree.Grows made t') : makeParent t' path = (t', .ok ()) := by
  unfold makeParent at h ⊢
  split at h
  · rfl
  next parent hparent =>
    by_cases hempty : parent = ""
    · rw [if_pos hempty]
    · rw [if_neg hempty] at h ⊢
      obtain ⟨rfl, hresult⟩ := Prod.mk.inj h
      have hmade := FileTree.isDirectory_of_makeDirectories hempty
        (Prod.ext rfl (mapError_eq_ok.mp hresult))
      obtain ⟨place, hplace, hdir⟩ := FileTree.isDirectory_iff.mp hmade
      have hdir' := FileTree.isDirectory_iff.mpr ⟨place, hgrows.resolve hplace, hgrows.directory hdir⟩
      rw [FileTree.makeDirectories_of_isDirectory hempty hdir']
      rfl

/-- A save that succeeds makes the directory and writes the file. -/
theorem save_eq_ok : save t path text = (t', .ok ()) ↔
    ∃ made, makeParent t path = (made, .ok ()) ∧ made.write path (Text.Utf8.encode text) = .ok t' := by
  unfold save
  constructor
  · intro h
    split at h
    · nomatch (Prod.mk.inj h).2
    next made hparent =>
      split at h
      · nomatch (Prod.mk.inj h).2
      next written hwrite =>
        obtain ⟨rfl, -⟩ := Prod.mk.inj h
        exact ⟨made, hparent, hwrite⟩
  · rintro ⟨made, hparent, hwrite⟩
    simp only [hparent, hwrite]

/-- What has been saved is there, and saving it again changes nothing. -/
theorem save_again (h : save t path text = (t', .ok ())) :
    ∃ place, t'.resolve .follow path = .ok place ∧ AddsFile t t' place (Text.Utf8.encode text) ∧
      save t' path text = (t', .ok ()) := by
  obtain ⟨made, hparent, hwrite⟩ := save_eq_ok.mp h
  have hadds := makeParent_adds t path
  rw [hparent] at hadds
  obtain ⟨place, hplace, hfile⟩ := FileTree.addsFile_of_write hadds hwrite
  obtain ⟨_, -, hmade⟩ := FileTree.addsFile_of_write (.refl made) hwrite
  refine ⟨place, hplace, hfile, save_eq_ok.mpr ⟨t', ?_, ?_⟩⟩
  · exact makeParent_again hparent hmade.grows
  · exact FileTree.write_of_file hplace hfile.written

/-! ## Well-formed trees -/

/-- Making directories leaves the tree well-formed. -/
theorem wellFormed_makeParent (ht : t.WellFormed) (path : String) : (makeParent t path).1.WellFormed := by
  unfold makeParent
  split
  · exact ht
  · split
    · exact ht
    · exact ht.makeAll _

/-- So does a save, whether it succeeds or not. -/
theorem wellFormed_save (ht : t.WellFormed) (path text : String) : (save t path text).1.WellFormed := by
  have hparent := wellFormed_makeParent ht path
  unfold save
  split
  next made e hmade =>
    rw [hmade] at hparent
    exact hparent
  next made hmade =>
    rw [hmade] at hparent
    split
    next => exact hparent
    next written hwrite => exact hparent.write hwrite

/-- A run leaves the tree well-formed, however it ends. -/
theorem wellFormed_run (ht : t.WellFormed) (action : Action) (a : Arguments) :
    (run t action a).1.WellFormed := by
  cases action with
  | validate => exact ht
  | generate =>
    cases hproduce : (produce t a).result with
    | error e =>
      rw [generate_of_error hproduce]
      exact ht
    | ok p =>
      rw [(generate_of_produced hproduce).1]
      exact wellFormed_save ht _ _

/-! ## Running again -/

/-- A run of `generate` succeeds when something is produced and saved. -/
theorem generate_eq_ok : (∃ log summary, run t .generate a = (t', ⟨log, .ok summary⟩)) ↔
    ∃ p, (produce t a).result = .ok p ∧ save t a.output p.fileText = (t', .ok ()) := by
  constructor
  · rintro ⟨log, summary, h⟩
    cases hproduce : (produce t a).result with
    | error e =>
      rw [generate_of_error hproduce] at h
      nomatch congrArg (·.2.result) h
    | ok p =>
      obtain ⟨htree, hresult⟩ := generate_of_produced hproduce
      rw [h] at htree hresult
      exact ⟨p, rfl, Prod.ext htree.symm hresult.symm⟩
  · rintro ⟨p, hproduce, hsave⟩
    show ∃ log summary, generate t a = _
    unfold generate
    simp only [hproduce, hsave]
    exact ⟨_, _, rfl⟩

/-- A run of `generate` that succeeds can be repeated, unless the repeated run reads the file that the output
leads to: it loads the same inputs, in the same order, it succeeds, and it leaves the tree as it is. -/
theorem generate_again {log : List LogEntry} {summary : String} (ht : t.WellFormed)
    (hrun : run t .generate a = (t', ⟨log, .ok summary⟩))
    (hapart : ∀ path, Reads t' a path → t'.resolve .follow path ≠ t'.resolve .follow a.output) :
    (∃ i, Loads t a i ∧ Loads t' a i) ∧
      ∃ log' summary', run t' .generate a = (t', ⟨log', .ok summary'⟩) := by
  have ht' := wellFormed_run ht .generate a
  rw [hrun] at ht'
  obtain ⟨p, hproduce, hsave⟩ := generate_eq_ok.mp ⟨log, summary, hrun⟩
  obtain ⟨place, hplace, hfile, hsaved⟩ := save_again hsave
  obtain ⟨i, m, hloads, houtput, hm, hrender⟩ := produce_eq_ok.mp ⟨p, hproduce, rfl⟩
  rw [hplace] at hapart
  have hloads' := hloads.again ht ht' hfile hapart
  refine ⟨⟨i, hloads, hloads'⟩, ?_⟩
  obtain ⟨p', hproduce', htext⟩ := produce_eq_ok.mpr ⟨i, m, hloads', houtput, hm, hrender⟩
  have hfileText : p'.fileText = p.fileText := congrArg (· ++ "\n") htext
  exact generate_eq_ok.mpr ⟨p', hproduce', hfileText ▸ hsaved⟩

/-! ## A module below its documents

The first run makes a directory where it looks for documents, and the second one walks through it. -/

/-- A query that spreads a fragment, and the fragment. -/
def listText : String := "query List \x7b ...Item \x7d fragment Item on T \x7b a \x7d"

/-- A query that spreads nothing. -/
def countText : String := "query Count \x7b n \x7d"

/-- A tree with two documents in a directory. -/
def projectTree : FileTree :=
  ((FileTree.empty.put ["lib"] .directory).put ["lib", "list.gql"] (.file (Text.Utf8.encode listText))).put
    ["lib", "count.gql"] (.file (Text.Utf8.encode countText))

/-- The documents of the directory are to be found, and the module goes into a directory in it. -/
def projectArguments : Arguments := ⟨none, [], ["gql"], "lib/gen/queries.ex", none, ["lib"]⟩

/-- The tree with the file that is to hold the module, and with the directory for it. -/
def generatedTree (content : List UInt8) : FileTree :=
  (projectTree.put ["lib", "gen"] .directory).put ["lib", "gen", "queries.ex"] (.file content)

/-- The tree is well-formed: each place has the directory around it. -/
theorem wellFormed_projectTree : projectTree.WellFormed := by
  have hname : ∀ name ∈ ["lib", "list.gql", "count.gql"], FileTree.Path.IsName name := by
    simp only [List.forall_mem_cons]
    exact ⟨⟨by decide, by decide, by decide⟩, ⟨by decide, by decide, by decide⟩,
      ⟨by decide, by decide, by decide⟩, nofun⟩
  have hroot : FileTree.empty.get? [] = some .directory := rfl
  have hlib : (FileTree.empty.put (([] : Place) ++ ["lib"]) .directory).WellFormed :=
    FileTree.wellFormed_empty.put hroot (hname "lib" (by simp)) (by decide)
  have hlist : ((FileTree.empty.put ["lib"] .directory).put (["lib"] ++ ["list.gql"])
      (.file (Text.Utf8.encode listText))).WellFormed :=
    FileTree.WellFormed.put hlib rfl (hname "list.gql" (by simp)) (by decide)
  show (FileTree.put _ (["lib"] ++ ["count.gql"]) _).WellFormed
  exact FileTree.WellFormed.put hlist rfl (hname "count.gql" (by simp)) (by decide)

/-- The directory of the documents is where its path leads, also when there is a module. -/
theorem resolve_lib (hdir : t.get? ["lib"] = some .directory) : t.resolve .follow "lib" = .ok ["lib"] := by
  have hsteps : FileTree.Path.steps "lib" = ["lib"] := by decide +kernel
  rw [FileTree.resolve_eq_ok (by decide), hsteps]
  exact ⟨by decide, .directory (by decide) hdir (.here ..)⟩

/-- The path of the output leads to the file of the module. -/
theorem resolve_output (content : List UInt8) :
    (generatedTree content).resolve .follow projectArguments.output = .ok ["lib", "gen", "queries.ex"] := by
  have hsteps : FileTree.Path.steps projectArguments.output = ["lib", "gen", "queries.ex"] := by
    decide +kernel
  rw [FileTree.resolve_eq_ok (by decide), hsteps]
  exact ⟨by decide, .directory (by decide) rfl (.directory (by decide) rfl (.file (by decide) rfl))⟩

/-- Documents stay where they are when the module is written. -/
theorem resolve_document {file : String} (hpath : path = FileTree.Path.join "lib" file)
    (hname : FileTree.Path.IsName file) (hlib : t.get? ["lib"] = some .directory)
    (hfile : t.get? ["lib", file] = some (.file content)) : t.resolve .follow path = .ok ["lib", file] :=
  hpath ▸ FileTree.resolve_join (resolve_lib hlib) hlib hname (.inr ⟨content, hfile⟩)

theorem resolve_count (hlib : t.get? ["lib"] = some .directory)
    (hfile : t.get? ["lib", "count.gql"] = some (.file content)) :
    t.resolve .follow "lib/count.gql" = .ok ["lib", "count.gql"] :=
  resolve_document (by decide +kernel) ⟨by decide, by decide, by decide⟩ hlib hfile

theorem resolve_list (hlib : t.get? ["lib"] = some .directory)
    (hfile : t.get? ["lib", "list.gql"] = some (.file content)) :
    t.resolve .follow "lib/list.gql" = .ok ["lib", "list.gql"] :=
  resolve_document (by decide +kernel) ⟨by decide, by decide, by decide⟩ hlib hfile

/-- What a walk through the directory visits before the run. -/
def visitsBefore : List FileTree.Visit :=
  [⟨"lib", ["lib"], false⟩, ⟨"lib/count.gql", ["lib", "count.gql"], true⟩,
    ⟨"lib/list.gql", ["lib", "list.gql"], true⟩]

/-- What it visits after the run: between the documents there is the new directory with the module. -/
def visitsAfter : List FileTree.Visit :=
  [⟨"lib", ["lib"], false⟩, ⟨"lib/count.gql", ["lib", "count.gql"], true⟩,
    ⟨"lib/gen", ["lib", "gen"], false⟩, ⟨"lib/gen/queries.ex", ["lib", "gen", "queries.ex"], true⟩,
    ⟨"lib/list.gql", ["lib", "list.gql"], true⟩]

/-- Before the run, the walk meets the two documents. -/
theorem walk_project : projectTree.walk "lib" = visitsBefore.map .ok := by
  have hchildren : projectTree.children ["lib"] = ["count.gql", "list.gql"] := by
    have hplaces : projectTree.entries.map (·.1) =
        [["lib"], ["lib", "list.gql"], ["lib", "count.gql"]] := rfl
    exact FileTree.children_of_places hplaces (by decide +kernel) (by decide +kernel)
  rw [FileTree.walk_directory (resolve_lib rfl) rfl, FileTree.walkBelow_of_meets hchildren
    (.cons (.file rfl) (.cons (.file rfl) .nil))]
  decide +kernel

/-- After it, the new directory and the module come between them. -/
theorem walk_generated (content : List UInt8) :
    (generatedTree content).walk "lib" = visitsAfter.map .ok := by
  have hplaces : (generatedTree content).entries.map (·.1) =
      [["lib"], ["lib", "list.gql"], ["lib", "count.gql"], ["lib", "gen"],
        ["lib", "gen", "queries.ex"]] := rfl
  have hlib : (generatedTree content).children ["lib"] = ["count.gql", "gen", "list.gql"] :=
    FileTree.children_of_places hplaces (by decide +kernel) (by decide +kernel)
  have hgen : (generatedTree content).children ["lib", "gen"] = ["queries.ex"] :=
    FileTree.children_of_places hplaces (by decide +kernel) (by decide +kernel)
  rw [FileTree.walk_directory (resolve_lib rfl) rfl, FileTree.walkBelow_of_meets hlib
    (.cons (.file rfl) (.cons (.directory rfl) (.cons (.file rfl) .nil)))]
  show _ :: List.flatten [_, _ :: (generatedTree content).walkBelow _ _ ["lib", "gen"], _] = _
  rw [FileTree.walkBelow_of_meets hgen (.cons (.file rfl) .nil)]
  decide +kernel

/-- Both documents are found when one of the two is visited. -/
theorem finds_iff_of_walk {visits : List FileTree.Visit} {files : List String}
    (hvisits : visits = visitsBefore ∨ visits = visitsAfter) (hwalk : t.walk "lib" = visits.map .ok) :
    Discovery.Finds t ["lib"] ["gql"] files ↔ files = ["lib/count.gql", "lib/list.gql"] := by
  have htaken : (visits.filter fun v => v.isFile ∧ Discovery.IsLookedFor ["gql"] v.path).map (·.path) =
      ["lib/count.gql", "lib/list.gql"] := by
    rcases hvisits with rfl | rfl <;> decide +kernel
  rw [Discovery.finds_iff_of_visits ((List.flatMap_singleton ..).trans hwalk), htaken]

/-- A file with the text of a document is loaded as this document. -/
theorem load_document {definitions : List Graphql.Definition}
    (hcontent : t.content? path = some (Text.Utf8.encode text))
    (hdecode : Text.Utf8.decode (Text.Utf8.encode text) = .ok text)
    (hmark : dropByteOrderMark text = text) (hparse : Graphql.parseDocument text = .ok definitions) :
    (SourceDocument.load t path).result = .ok ⟨some path, some definitions⟩ := by
  have hread : (t.readText path).result = .ok text := by
    simp only [FileTree.readText, hcontent, hdecode, Logged.result_bind, Logged.result_ofExcept,
      Logged.result_note, Logged.result_pure]
    show Except.ok (dropByteOrderMark text) = _
    rw [hmark]
  simp only [SourceDocument.load, Logged.result_bind, result_mapError, Logged.result_ofExcept, hread]
  show SourceDocument.ofText (some path) text = _
  rw [SourceDocument.ofText, hparse]

/-- Both queries and the fragment become constants of a module. -/
theorem exists_project_module : ∃ count list : List Graphql.Definition,
    Graphql.parseDocument countText = .ok count ∧ Graphql.parseDocument listText = .ok list ∧
      ∃ m, (Generate.generate ⟨.empty, [⟨some "lib/count.gql", some count⟩,
        ⟨some "lib/list.gql", some list⟩], {}, []⟩).result = .ok m :=
  ⟨_, _, by cbv, by cbv, _, Generate.result_generate_of_stages rfl rfl (by cbv) rfl (by cbv)⟩

/-- A module is produced from the project. -/
theorem produce_project : ∃ p, (produce projectTree projectArguments).result = .ok p := by
  obtain ⟨count, list, hcount, hlist, m, hm⟩ := exists_project_module
  have hcountFile : projectTree.content? "lib/count.gql" = some (Text.Utf8.encode countText) :=
    FileTree.content?_of_resolve (resolve_count rfl rfl) rfl
  have hlistFile : projectTree.content? "lib/list.gql" = some (Text.Utf8.encode listText) :=
    FileTree.content?_of_resolve (resolve_list rfl rfl) rfl
  have hloads : Loads projectTree projectArguments ⟨.empty, [⟨some "lib/count.gql", some count⟩,
      ⟨some "lib/list.gql", some list⟩], {}, []⟩ := by
    have hfinds := (finds_iff_of_walk (.inl rfl) walk_project).mpr rfl
    refine ⟨rfl, rfl, ⟨_, hfinds, ?_⟩, [], documents_nil.mpr rfl, rfl⟩
    exact .cons (load_document hcountFile (by decide +kernel) (by decide +kernel) hcount)
      (.cons (load_document hlistFile (by decide +kernel) (by decide +kernel) hlist) .nil)
  have houtput : Generate.checkOutput projectArguments.output = .ok () := by decide +kernel
  obtain ⟨p, hp, -⟩ := produce_eq_ok.mpr ⟨_, m, hloads, houtput, hm, rfl⟩
  exact ⟨p, hp⟩

/-- The directory for the module is made, and the module is written into it. -/
theorem save_project (text : String) : save projectTree projectArguments.output text =
    (generatedTree (Text.Utf8.encode text), .ok ()) := by
  have hparent : FileTree.Path.parent? projectArguments.output = some "lib/gen" := by decide +kernel
  -- There is room for the directory in the one of the documents, so it alone is made.
  have hvacancy : projectTree.vacancy "lib/gen" = .ok ["lib", "gen"] := by
    have hsteps : FileTree.Path.steps "lib/gen" = ["lib", "gen"] := by decide +kernel
    refine FileTree.vacancy_eq_ok_iff.mpr ⟨["lib"], "gen", ["lib"], hsteps, by decide, ?_, rfl, rfl, rfl⟩
    exact (FileTree.resolveFrom_eq_ok (by decide)).mpr (.directory (by decide) rfl (.here ..))
  have hmade : makeParent projectTree projectArguments.output =
      (projectTree.put ["lib", "gen"] .directory, .ok ()) := by
    unfold makeParent
    rw [hparent]
    dsimp only
    rw [if_neg (by decide), FileTree.makeDirectories_of_vacancy (by decide) hvacancy]
    rfl
  refine save_eq_ok.mpr ⟨_, hmade, ?_⟩
  have hsteps : FileTree.Path.steps projectArguments.output = ["lib", "gen", "queries.ex"] := by
    decide +kernel
  -- In it there is no file yet where the module goes.
  have hresolve : (projectTree.put ["lib", "gen"] .directory).resolve .create projectArguments.output =
      .ok ["lib", "gen", "queries.ex"] := by
    rw [FileTree.resolve_eq_ok (by decide), hsteps]
    exact ⟨by decide, .directory (by decide) rfl
      (.directory (by decide) rfl (.vacant (by decide) rfl rfl))⟩
  rw [FileTree.write, hresolve]
  rfl

/-- The module is in the walked directory when the run is repeated, and it is not looked for. -/
theorem generate_again_project :
    ∃ (t' : FileTree) (log : List LogEntry) (summary : String), projectTree.WellFormed ∧
      run projectTree .generate projectArguments = (t', ⟨log, .ok summary⟩) ∧
      (∀ path, Reads t' projectArguments path →
        t'.resolve .follow path ≠ t'.resolve .follow projectArguments.output) ∧
      (∃ i, Loads projectTree projectArguments i ∧ Loads t' projectArguments i) ∧
      ∃ log' summary', run t' .generate projectArguments = (t', ⟨log', .ok summary'⟩) := by
  obtain ⟨p, hp⟩ := produce_project
  obtain ⟨log, summary, hrun⟩ := generate_eq_ok.mpr ⟨p, hp, save_project p.fileText⟩
  let t' := generatedTree (Text.Utf8.encode p.fileText)
  -- After the run the two documents are found as before, and neither is where the module is.
  have hapart : ∀ path, Reads t' projectArguments path →
      t'.resolve .follow path ≠ t'.resolve .follow projectArguments.output := by
    intro path hreads
    rw [resolve_output]
    cases hreads with
    | schema given => nomatch given
    | options given => nomatch given
    | document finds mem =>
      have hfinds := Discovery.find_eq_ok.mp ⟨_, finds⟩
      rw [(finds_iff_of_walk (.inr rfl) (walk_generated _)).mp hfinds] at mem
      rcases List.mem_pair.mp mem with rfl | rfl
      · rw [resolve_count rfl rfl]
        decide
      · rw [resolve_list rfl rfl]
        decide
    | external finds mem =>
      rw [Discovery.finds_nil.mp (Discovery.find_eq_ok.mp ⟨_, finds⟩)] at mem
      nomatch mem
  exact ⟨t', log, summary, wellFormed_projectTree, hrun, hapart,
    generate_again wellFormed_projectTree hrun hapart⟩

end Command
end QueryModule
