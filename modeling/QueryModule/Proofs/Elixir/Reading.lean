import QueryModule.Elixir.Module
import QueryModule.Proofs.Elixir.Escaping

/-!
# Reading a module back

`readModule` reads the text of a module line by line, by the rules of the language and without knowing
how the text was written. It is a machine: `Reading` says where it is, `step` takes one line, and no
line may be left that it has no use for. A heredoc goes on up to the first line that starts like a
delimiter; as many columns as that line is indented by are taken off the lines of the body, and then the
escapes are undone.

> `run_constantLines`: reading the lines of a constant adds one function, with the name of the
> constant and the lines of its text, and nothing else.
>
> `heredocValue_constant`: the heredoc of a constant ends where it should, and denotes the lines of
> the text.
-/

namespace QueryModule.Elixir

open QueryModule.Text

/-! ## The reader -/

/-- A function: its name and the text that it stands for. -/
structure Function where
  name : String
  value : String
  deriving DecidableEq, Repr

/-- What a module defines. -/
structure Contents where
  moduleName : String
  functions : List Function
  deriving DecidableEq, Repr

/-- The contents with one function more. -/
def Contents.push (c : Contents) (f : Function) : Contents :=
  { c with functions := c.functions ++ [f] }

/-- Where the reading of a module is. -/
inductive Reading where
  /-- In front of the module. -/
  | start
  /-- Behind the line that names the module. -/
  | named (moduleName : String)
  /-- Between two functions. -/
  | between (c : Contents)
  /-- Behind the line that names a function. -/
  | opened (c : Contents) (name : String)
  /-- In the body of a heredoc, some lines of which have been read. -/
  | body (c : Contents) (name : String) (body : List (List Char))
  /-- Behind the heredoc of the last function. -/
  | closed (c : Contents)
  /-- Behind the module. -/
  | ended (c : Contents)
  deriving DecidableEq, Repr

/-- What stands between two texts that a line starts and ends with. -/
def framed? (front back line : List Char) : Option (List Char) :=
  (line.dropPrefix? front).bind fun rest => rest.dropSuffix? back

/-- A line with at most that many spaces less at its front. -/
def outdent : Nat → List Char → List Char
  | n + 1, ' ' :: rest => outdent n rest
  | _, line => line

/-- The text that the body of a heredoc denotes when its closing delimiter is indented by some
columns. -/
def heredocValue (columns : Nat) (body : List (List Char)) : Option (List Char) :=
  unescape (unlines (body.map (outdent columns)))

/-- The line that ends functions and modules. -/
def endLine : List Char := "end".toList

/-- The line of documentation. -/
def docLine : List Char := ("@doc \"" ++ docText ++ "\"").toList

/-- Takes one line. -/
def step : Reading → List Char → Option Reading
  | .start, line =>
    (framed? "defmodule ".toList " do".toList line).map fun name => .named (String.ofList name)
  | .named moduleName, line =>
    if line.dropWhile isIndent = docLine then some (.between ⟨moduleName, []⟩) else none
  | .between c, line =>
    let text := line.dropWhile isIndent
    if text = [] then some (.between c)
    else if text = endLine then some (.ended c)
    else (framed? "def ".toList " do".toList text).map fun name => .opened c (String.ofList name)
  | .opened c name, line =>
    if line.dropWhile isIndent = delimiter then some (.body c name []) else none
  | .body c name body, line =>
    if startsDelimiter line then
      if line.dropWhile isIndent = delimiter then
        (heredocValue (line.takeWhile isIndent).length body).map fun value =>
          .closed (c.push ⟨name, String.ofList value⟩)
      else none
    else some (.body c name (body ++ [line]))
  | .closed c, line => if line.dropWhile isIndent = endLine then some (.between c) else none
  | .ended _, _ => none

/-- Takes some lines. -/
def run (r : Reading) : List (List Char) → Option Reading
  | [] => some r
  | line :: rest => (step r line).bind fun next => run next rest

/-- What the text of a module defines, if it is one from its first to its last line. -/
def readModule (text : String) : Option Contents :=
  match run .start (text.toList.splitOn '\n') with
  | some (.ended c) => some c
  | _ => none

theorem run_cons {r next : Reading} {line : List Char} (h : step r line = some next)
    (rest : List (List Char)) : run r (line :: rest) = run next rest := by
  rw [run, h]
  rfl

/-- Lines are read one after the other. -/
theorem run_append {next : Reading} {back : List (List Char)} :
    ∀ {r : Reading} {front : List (List Char)}, run r front = some next →
      run r (front ++ back) = run next back
  | r, [], h => by rw [Option.some.inj h]; rfl
  | r, line :: front, h => by
    rw [run] at h
    obtain ⟨between, hstep, hrun⟩ := Option.bind_eq_some_iff.mp h
    rw [List.cons_append, run_cons hstep, run_append hrun]

theorem framed?_append (front name back : List Char) :
    framed? front back (front ++ (name ++ back)) = some name := by
  unfold framed?
  rw [List.dropPrefix?_append_of_beq _ (BEq.refl front)]
  exact List.dropSuffix?_eq_some_iff.mpr ⟨back, rfl, BEq.refl back⟩

/-! ## The lines of a constant -/

/-- A line of the body, indented unless it is empty. -/
def indented (line : List Char) : List Char := if line.isEmpty then [] else margin.toList ++ line

/-- The lines that a constant is written in. -/
def constantLines (name text : String) : List (List Char) :=
  [functionIndent.toList ++ ("def ".toList ++ (name.toList ++ " do".toList)),
      margin.toList ++ delimiter]
    ++ (lines (heredocBody text.toList)).map indented
    ++ [margin.toList ++ delimiter, functionIndent.toList ++ endLine]

theorem toList_bodyLine (line : List Char) : (bodyLine line).toList = indented line ++ ['\n'] := by
  unfold bodyLine indented
  cases line with
  | nil => rfl
  | cons c rest => simp

/-- A constant is written in its lines. -/
theorem toList_constant (name text : String) :
    (constant name text).toList ++ ['\n'] = unlines (constantLines name text) := by
  have hbody : (String.join ((lines (heredocBody text.toList)).map bodyLine)).toList
      = unlines ((lines (heredocBody text.toList)).map indented) := by
    rw [String.toList_join, List.flatMap_map]
    unfold unlines
    rw [List.flatMap_map]
    exact List.flatMap_congr fun line _ => toList_bodyLine line
  simp [constant, constantLines, hbody, endLine, String.toList_append]

/-- The lines of a constant are not broken, if its name is not. -/
theorem newline_not_mem_constantLines {name : String} (hname : '\n' ∉ name.toList) (text : String) :
    ∀ l ∈ constantLines name text, '\n' ∉ l := by
  intro l hl
  unfold constantLines at hl
  rcases List.mem_append.mp hl with hl | hl
  · rcases List.mem_append.mp hl with hl | hl
    · rcases List.mem_cons.mp hl with rfl | hl
      · simp [functionIndent, hname]
      · rw [List.mem_singleton.mp hl]
        decide
    · obtain ⟨line, hline, rfl⟩ := List.mem_map.mp hl
      have hfree := newline_not_mem_lines _ line hline
      unfold indented
      split
      · simp
      · simp [margin, hfree]
  · have hclosing : ∀ l ∈ [margin.toList ++ delimiter, functionIndent.toList ++ endLine], '\n' ∉ l := by
      decide
    exact hclosing l hl

/-! ## Reading a constant -/

/-- The indentation that is written is taken off again. -/
theorem outdent_indented (line : List Char) : outdent 4 (indented line) = line := by
  cases line with
  | nil => rfl
  | cons c rest => rfl

/-- No line of the body is taken for a delimiter. -/
theorem not_startsDelimiter_indented {ls : List (List Char)} :
    ∀ l ∈ (ls.map escape).map indented, startsDelimiter l = false := by
  intro l hl
  obtain ⟨e, he, rfl⟩ := List.mem_map.mp hl
  obtain ⟨line, -, rfl⟩ := List.mem_map.mp he
  have h := not_startsDelimiter_escape line
  cases hescape : escape line with
  | nil => rfl
  | cons c rest =>
    rw [hescape] at h
    exact h

/-- Lines that are not taken for delimiters belong to the body. -/
theorem run_body {c : Contents} {name : String} :
    ∀ {ls before : List (List Char)}, (∀ l ∈ ls, startsDelimiter l = false) →
      run (.body c name before) ls = some (.body c name (before ++ ls))
  | [], before, _ => by rw [List.append_nil]; rfl
  | l :: ls, before, h => by
    have hstep : step (.body c name before) l = some (.body c name (before ++ [l])) := by
      show (if startsDelimiter l = true then _ else _) = _
      rw [if_neg (by simp [h l (List.mem_cons_self ..)])]
    rw [run_cons hstep, run_body fun l' hl' => h l' (List.mem_cons_of_mem _ hl'), List.append_assoc]
    rfl

/-- The lines of the body, which are indented as far as the closing delimiter, denote the lines of the
text. -/
theorem heredocValue_indented (ls : List (List Char)) :
    heredocValue 4 ((ls.map escape).map indented) = some (unlines ls) := by
  have houtdent : ((ls.map escape).map indented).map (outdent 4) = ls.map escape := by
    rw [List.map_map]
    exact List.map_id'' outdent_indented _
  unfold heredocValue
  rw [houtdent]
  exact unescape_unlines_escape ls

/-- The closing delimiter ends the body. -/
theorem step_closing (c : Contents) (name : String) (ls : List (List Char)) :
    step (.body c name ((ls.map escape).map indented)) (margin.toList ++ delimiter)
      = some (.closed (c.push ⟨name, String.ofList (unlines ls)⟩)) := by
  show (heredocValue 4 _).map _ = _
  rw [heredocValue_indented]
  rfl

/-- Reading the lines of a constant adds one function. -/
theorem run_constantLines (c : Contents) (name text : String) :
    run (.between c) (constantLines name text)
      = some (.between (c.push ⟨name, String.ofList (unlines (lines text.toList))⟩)) := by
  have hname : step (.between c)
      (functionIndent.toList ++ ("def ".toList ++ (name.toList ++ " do".toList)))
      = some (.opened c name) := by
    show (framed? "def ".toList " do".toList ("def ".toList ++ (name.toList ++ " do".toList))).map _
      = _
    rw [framed?_append]
    show some (Reading.opened c (String.ofList name.toList)) = _
    rw [String.ofList_toList]
  have hopen : step (.opened c name) (margin.toList ++ delimiter) = some (.body c name []) := rfl
  have hbody : run (.body c name []) (((lines text.toList).map escape).map indented)
      = some (.body c name (((lines text.toList).map escape).map indented)) :=
    run_body not_startsDelimiter_indented
  unfold constantLines
  rw [heredocBody_eq_escape, lines_escape, List.append_assoc, List.cons_append, run_cons hname,
    List.cons_append, run_cons hopen, List.nil_append, run_append hbody, run_cons (step_closing ..),
    run_cons rfl]
  rfl

/-! ## A constant on its own -/

/-- The lines that a constant is written in are what stands between its line feeds. -/
theorem splitOn_constant {name : String} (hname : '\n' ∉ name.toList) (text : String) :
    (constant name text).toList.splitOn '\n' = constantLines name text := by
  have hfree := newline_not_mem_constantLines hname text
  have htext := toList_constant name text
  obtain ⟨front, last, hlines⟩ : ∃ front last, constantLines name text = front ++ [last] :=
    ⟨_, _, (List.append_cons _ _ [functionIndent.toList ++ endLine])⟩
  rw [hlines] at hfree htext ⊢
  -- Only behind the last line is there no line feed.
  have hcode : (constant name text).toList = unlines front ++ last := by
    rw [unlines_append, unlines_cons, unlines_nil, ← List.append_assoc] at htext
    exact List.append_cancel_right htext
  rw [hcode]
  exact splitOn_unlines (fun l hl => hfree l (List.mem_append_left _ hl))
    (hfree last (List.mem_append_right _ (List.mem_cons_self ..)))

/-- **A heredoc denotes its text.** Between the two lines that open a constant and the two that close
it stands the body. No line of the body is taken for the delimiter, and so the heredoc ends with the
delimiter that has been written for it; the body denotes the lines of the text, which means that it
holds no interpolation and no escape but those that are undone. The reader comes to the same. -/
theorem heredocValue_constant {name : String} (hname : '\n' ∉ name.toList) (text : String) :
    ∃ body : List (List Char),
      (constant name text).toList.splitOn '\n'
        = [functionIndent.toList ++ ("def ".toList ++ (name.toList ++ " do".toList)),
            margin.toList ++ delimiter]
          ++ body ++ [margin.toList ++ delimiter, functionIndent.toList ++ endLine] ∧
      (∀ l ∈ body, startsDelimiter l = false) ∧
      startsDelimiter (margin.toList ++ delimiter) = true ∧
      heredocValue margin.length body = some (unlines (lines text.toList)) ∧
      ∀ c : Contents, run (.between c) ((constant name text).toList.splitOn '\n')
        = some (.between (c.push ⟨name, String.ofList (unlines (lines text.toList))⟩)) := by
  rw [splitOn_constant hname]
  have hbody : (lines (heredocBody text.toList)).map indented
      = ((lines text.toList).map escape).map indented := by
    rw [heredocBody_eq_escape, lines_escape]
  refine ⟨_, rfl, ?_, rfl, ?_, fun c => run_constantLines c name text⟩
  · rw [hbody]
    exact not_startsDelimiter_indented
  · rw [hbody]
    exact heredocValue_indented (lines text.toList)

/-- A backslash in front of what would start an interpolation, four quotation marks at the start of an
indented line, and both kinds of line ends. -/
theorem heredocValue_constant_mixed :
    '\n' ∉ "q".toList ∧
      ∀ c : Contents,
        run (.between c) ((constant "q" "\\#\x7b\r\n  \"\"\"\"\n\n#").toList.splitOn '\n')
          = some (.between (c.push ⟨"q", "\\#\x7b\n  \"\"\"\"\n\n#\n"⟩)) := by
  have hname : '\n' ∉ "q".toList := by decide
  obtain ⟨-, -, -, -, -, hrun⟩ :=
    heredocValue_constant hname "\\#\x7b\r\n  \"\"\"\"\n\n#"
  exact ⟨hname, hrun⟩

end QueryModule.Elixir
