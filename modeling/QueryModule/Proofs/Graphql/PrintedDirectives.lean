import QueryModule.Proofs.Graphql.PrintedValues

/-!
# Arguments and directives that have been written

Where there are no arguments, nothing is written of them, and the same goes for directives. So what
follows is what tells a parser that there are none, or no more: it begins with another character than
an opening parenthesis, and than the sign of a directive.

> `reads_arguments`, `reads_directives`: arguments and directives whose values survive are read back
> from what is written.
-/

namespace QueryModule.Graphql

open QueryModule.Graphql.Parser

/-! ## Arguments -/

/-- The values of the arguments survive. -/
def ArgumentsSurvive (arguments : Arguments) : Prop := ∀ a ∈ arguments, a.2.Survives

section

variable {room n : Nat}

/-- What avoids a character starts with another one, and not with a comment. -/
theorem not_mem_of_avoids {avoided rest : List Char} (h : Follows avoided rest) {p : Char} (hp : p ∈ avoided) :
    ∀ c ∈ front rest, c ≠ p ∧ c ≠ '#' := by
  intro c hc
  have havoids := h.avoids c hc
  refine ⟨?_, ?_⟩
  · rintro rfl
    exact havoids (List.mem_cons_of_mem _ hp)
  · rintro rfl
    exact havoids (List.mem_cons_self ..)

/-- Arguments are written in parentheses, or not at all if there is none. -/
theorem toList_printArguments (indent : Nat) (args : Arguments) :
    (printArguments indent args).toList
      = if args.isEmpty then []
        else ['('] ++ ([',', ' '].intercalate (args.map (fieldText indent)) ++ [')']) := by
  unfold printArguments
  split
  · rfl
  · rw [String.toList_append, String.toList_append, toList_printFields, List.append_assoc]
    rfl

/-- Arguments that survive are read back. -/
theorem reads_arguments {args : Arguments} (h : ArgumentsFit room args) (hs : ArgumentsSurvive args)
    (hn : n + room ≤ maxNesting) (indent : Nat) :
    arguments.Reads (printArguments indent args).toList n n (Follows ['(']) fun as => as = args := by
  have hpieces : ReadsPieces (labelled (value false maxNesting)) id args (fieldText indent) [',', ' '] ')'
      (n + 1) (Follows []) := by
    refine readsPieces_comma (fun a ha => ?_) (fun a ha => ?_) (by decide)
    · obtain ⟨hname, r, rfl, hvalue⟩ := h a ha
      exact reads_labelled hname (reads_value hvalue (hs a ha) (by omega) (by omega) indent)
    · obtain ⟨x, hx, hne⟩ := front_ne_of_isName (h a ha).1 Brackets.round.closer_punctuates
      exact ⟨x, front_append hx _, hne⟩
  have hroom : args ≠ [] → n < maxNesting := by
    intro hne
    obtain ⟨a, rest, rfl⟩ := List.exists_cons_of_ne_nil hne
    obtain ⟨-, r, rfl, -⟩ := h a (List.mem_cons_self ..)
    omega
  rw [toList_printArguments]
  refine (Brackets.round.reads_optionalBetween hroom hpieces fun rest hrest => ?_).mono fun as has => ?_
  · exact not_mem_of_avoids hrest (by simp)
  · rwa [List.map_id, List.map_id] at has

/-! ## Directives -/

/-- The values in the directives survive. -/
def DirectivesSurvive (directives : List Directive) : Prop := ∀ d ∈ directives, ArgumentsSurvive d.arguments

/-- A directive as it is written: a space, its sign, its name and its arguments. -/
theorem toList_directive (indent : Nat) (d : Directive) :
    (d.print indent).toList
      = [' '] ++ (['@'] ++ (d.name.toList ++ (printArguments indent d.arguments).toList)) := by
  unfold Directive.print
  rw [String.toList_append, String.toList_append, List.append_assoc]
  rfl

/-- Arguments in front of a text do not change what it avoids, except for their bracket. -/
theorem follows_arguments {avoided rest : List Char} (h : Follows avoided rest) (hopener : '(' ∉ avoided)
    (indent : Nat) (args : Arguments) : Follows avoided ((printArguments indent args).toList ++ rest) := by
  rw [toList_printArguments]
  split
  · exact h
  · exact follows_cons (by decide) (by decide) (by simpa using hopener) _

/-- A directive is read back. -/
theorem reads_directive {d : Directive} (hname : IsName d.name.toList) (h : ArgumentsFit room d.arguments)
    (hs : ArgumentsSurvive d.arguments) (hn : n + room ≤ maxNesting) (indent : Nat) :
    directive.Reads (d.print indent).toList n n (Follows ['(']) fun e => e = d := by
  rw [toList_directive]
  refine Reads.space ?_
  unfold directive
  refine Sign.atSign.reads_then ?_
  refine (reads_name hname).bind (fun rest hrest => ?_) fun name hname => ?_
  · have hfollows : Follows [] rest := hrest.mono (by simp)
    exact (follows_arguments hfollows (by simp) indent d.arguments).ends
  refine (reads_arguments h hs hn indent).bind_pure fun args hargs => ?_
  rw [hname, hargs]

/-- Directives are written one behind the other. -/
theorem toList_printDirectives (indent : Nat) (dirs : List Directive) :
    (printDirectives indent dirs).toList = dirs.flatMap fun d => (d.print indent).toList := by
  unfold printDirectives
  rw [String.toList_join, List.flatMap_map]

/-- A directive is seen by its sign. -/
theorem startsWith_at (position : Position) (n : Nat) (d : Directive) (indent : Nat) (rest : List Char) :
    (tokensFrom position n ((d.print indent).toList ++ rest)).startsWith "@" = true := by
  obtain ⟨after, hafter⟩ := tokensFrom_blank isSkipped_space position n
    (['@'] ++ (d.name.toList ++ (printArguments indent d.arguments).toList) ++ rest)
  rw [toList_directive, List.append_assoc, hafter]
  exact Sign.atSign.startsWith after _

/-- A directive ends what stands in front of it. -/
theorem follows_directive {avoided : List Char} (hat : '@' ∉ avoided) (d : Directive) (indent : Nat)
    (rest : List Char) : Follows avoided ((d.print indent).toList ++ rest) := by
  rw [toList_directive]
  refine follows_space fun x hx => ?_
  obtain rfl : '@' = x := by
    have hfront := front_cons (c := '@') (by decide)
      (d.name.toList ++ (printArguments indent d.arguments).toList ++ rest)
    exact Option.some.inj (hfront.symm.trans hx)
  simpa using hat

/-- Directives in front of a text do not change what it avoids, except for their sign. -/
theorem follows_directives {avoided rest : List Char} (h : Follows avoided rest) (hat : '@' ∉ avoided)
    (indent : Nat) (dirs : List Directive) :
    Follows avoided ((printDirectives indent dirs).toList ++ rest) := by
  rw [toList_printDirectives]
  cases dirs with
  | nil => exact h
  | cons d dirs =>
    rw [List.flatMap_cons, List.append_assoc]
    exact follows_directive hat d indent _

/-- Directives are read back. -/
theorem reads_directives {dirs : List Directive} (h : DirectivesFit room dirs) (hs : DirectivesSurvive dirs)
    (hn : n + room ≤ maxNesting) (indent : Nat) :
    directives.Reads (printDirectives indent dirs).toList n n (Follows ['(', '@']) fun ds => ds = dirs := by
  rw [toList_printDirectives]
  refine (reads_repeatUntil (f := id) (G := Follows ['(']) (fun d hd => ?_) (fun d hd => ?_)
    (fun d hd position rest t more htokens => ?_) (fun d hd rest => ?_) (fun rest hrest => ?_)
    fun position rest hrest => ?_).mono fun ds hds => ?_
  · obtain ⟨hname, hargs⟩ := h d hd
    exact reads_directive hname hargs (hs d hd) hn indent
  · rw [toList_directive, front_blank_append isSkipped_space, List.singleton_append,
      front_cons (by decide)]
    simp
  · rw [← htokens, startsWith_at]
    rfl
  · exact follows_directive (by decide) d indent rest
  · exact hrest.mono (by simp)
  · rw [not_startsWith (p := '@') rfl (not_mem_of_avoids hrest (by simp)) position n]
    rfl
  · rwa [List.map_id, List.map_id] at hds

end

end QueryModule.Graphql
