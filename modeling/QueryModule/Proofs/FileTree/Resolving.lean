import QueryModule.Proofs.FileTree.Changes
import QueryModule.Proofs.FileTree.Steps

/-!
# Where paths lead

When links are followed, a path leads through directories and links to a file or a directory or, if that
is allowed, to where nothing is. So the way depends on the directories and the links of a tree alone, and
what does not change these does not change where a path leads (`Keeps.leads`): in a tree in which
directories have been made, a path that led somewhere still leads there, and a file is written where its
path leads afterwards.
-/

namespace QueryModule.FileTree

variable {t t' : FileTree} {e e' : Ending} {links : Nat} {here place : Place} {step path name : String}
  {steps more : List String} {content : List UInt8}

/-- Some steps lead from a directory to a place; links are followed, at most so many. -/
inductive Leads (t : FileTree) (e : Ending) : Nat → Place → List String → Place → Prop where
  | here (links : Nat) (here : Place) : Leads t e links here [] here
  | stay {links : Nat} {here place : Place} {rest : List String}
      (onward : Leads t e links here rest place) : Leads t e links here ("." :: rest) place
  | up {links : Nat} {here place : Place} {rest : List String}
      (onward : Leads t e links here.dropLast rest place) : Leads t e links here (".." :: rest) place
  | directory {links : Nat} {here place : Place} {step : String} {rest : List String}
      (named : step ≠ "." ∧ step ≠ "..") (entry : t.get? (here ++ [step]) = some .directory)
      (onward : Leads t e links (here ++ [step]) rest place) : Leads t e links here (step :: rest) place
  | file {links : Nat} {here : Place} {step : String} {content : List UInt8}
      (named : step ≠ "." ∧ step ≠ "..") (entry : t.get? (here ++ [step]) = some (.file content)) :
      Leads t e links here [step] (here ++ [step])
  | vacant {links : Nat} {here : Place} {step : String}
      (named : step ≠ "." ∧ step ≠ "..") (entry : t.get? (here ++ [step]) = none)
      (create : e = .create) : Leads t e links here [step] (here ++ [step])
  | link {links : Nat} {here place : Place} {step target : String} {rest : List String}
      (named : step ≠ "." ∧ step ≠ "..") (entry : t.get? (here ++ [step]) = some (.link target))
      (onward : Leads t e links (if Path.isAbsolute target then [] else here)
        (Path.steps target ++ rest) place) :
      Leads t e (links + 1) here (step :: rest) place

/-- Steps are resolved exactly along the ways. The induction follows the resolution, link by link and
step by step. -/
theorem resolveFrom_eq_ok (he : e ≠ .keep) :
    t.resolveFrom e links here steps = .ok place ↔ t.Leads e links here steps place := by
  constructor
  · intro h
    fun_induction resolveFrom t e links here steps with
    | case1 links here =>
      obtain rfl := Except.ok.inj h
      exact .here links here
    | case2 links here rest ih => exact .stay (ih h)
    | case3 links here rest _ ih => exact .up (ih h)
    | case4 links here step rest hdot hdots next hnone hlast =>
      -- Nothing is at the last step, where something may be created.
      obtain ⟨hrest, hcreate⟩ := Bool.and_eq_true_iff.mp hlast
      obtain rfl := List.isEmpty_iff.mp hrest
      obtain rfl := Except.ok.inj h
      exact .vacant ⟨hdot, hdots⟩ hnone (of_decide_eq_true hcreate)
    | case5 => nomatch h
    | case6 links here step rest hdot hdots next hdir ih => exact .directory ⟨hdot, hdots⟩ hdir (ih h)
    | case7 links here step rest hdot hdots next content hfile hlast =>
      -- A file ends the way.
      obtain rfl := List.isEmpty_iff.mp hlast
      obtain rfl := Except.ok.inj h
      exact .file ⟨hdot, hdots⟩ hfile
    | case8 => nomatch h
    | case9 links here step rest hdot hdots next target hlink hlast =>
      -- A link at the end would be kept.
      exact absurd (of_decide_eq_true (Bool.and_eq_true_iff.mp hlast).2) he
    | case10 => nomatch h
    | case11 here step rest hdot hdots next target hlink _ links ih =>
      -- Another link is followed, with one less to go.
      exact .link ⟨hdot, hdots⟩ hlink (ih h)
  · intro h
    induction h with
    | here links here => rw [resolveFrom]
    | stay _ ih => rw [resolveFrom, if_pos rfl, ih]
    | up _ ih => rw [resolveFrom, if_neg (by decide), if_pos rfl, ih]
    | directory named entry _ ih =>
      rw [resolveFrom, if_neg named.1, if_neg named.2]
      simp only [entry, ih]
    | file named entry =>
      rw [resolveFrom, if_neg named.1, if_neg named.2]
      simp [entry]
    | vacant named entry create =>
      rw [resolveFrom, if_neg named.1, if_neg named.2]
      simp [entry, create]
    | link named entry _ ih =>
      rw [resolveFrom, if_neg named.1, if_neg named.2]
      simp [entry, ih, he]

/-- A path is resolved along a way from the root, unless it is empty. -/
theorem resolve_eq_ok (he : e ≠ .keep) :
    t.resolve e path = .ok place ↔ path ≠ "" ∧ t.Leads e maxLinks [] (Path.steps path) place := by
  unfold resolve
  by_cases hpath : path = ""
  · rw [if_pos hpath]
    exact ⟨nofun, fun h => absurd hpath h.1⟩
  · rw [if_neg hpath, resolveFrom_eq_ok he]
    exact ⟨fun h => ⟨hpath, h⟩, fun h => h.2⟩

/-! ## Where ways end -/

/-- The content of a file is found where its path leads. -/
theorem content?_of_resolve (h : t.resolve .follow path = .ok place)
    (hfile : t.get? place = some (.file content)) : t.content? path = some content := by
  unfold content?
  rw [h]
  dsimp only
  rw [hfile]

/-- All that a place goes through is a directory, and so is what is there. -/
def Rooted (t : FileTree) (here : Place) : Prop := ∀ p, p <+: here → t.get? p = some .directory

/-- Nothing is above the root. -/
theorem rooted_nil (t : FileTree) : t.Rooted [] := by
  intro p hp
  rw [List.prefix_nil.mp hp]
  rfl

theorem Rooted.dropLast (h : t.Rooted here) : t.Rooted here.dropLast :=
  fun p hp => h p (hp.trans (List.dropLast_prefix here))

/-- A directory in such a directory has directories above it only. -/
theorem Rooted.concat (h : t.Rooted here) (hdir : t.get? (here ++ [step]) = some .directory) :
    t.Rooted (here ++ [step]) := by
  intro p hp
  rcases List.prefix_concat_iff.mp hp with rfl | hp
  · exact hdir
  · exact h p hp

/-- No way ends in a link, and a way ends where nothing is only if that is allowed. -/
theorem Leads.ends (h : t.Leads e links here steps place) (hhere : t.Rooted here) :
    (∀ target, t.get? place ≠ some (.link target)) ∧ (t.get? place = none → e = .create) := by
  induction h with
  | here links here =>
    rw [hhere here List.prefix_rfl]
    exact ⟨nofun, nofun⟩
  | stay _ ih => exact ih hhere
  | up _ ih => exact ih hhere.dropLast
  | directory _ entry _ ih => exact ih (hhere.concat entry)
  | file _ entry =>
    rw [entry]
    exact ⟨nofun, nofun⟩
  | vacant _ entry create =>
    rw [entry]
    exact ⟨nofun, fun _ => create⟩
  | link _ _ _ ih =>
    apply ih
    split
    · exact rooted_nil t
    · exact hhere

/-- A path that is followed does not end at a link. -/
theorem not_link_of_resolve (he : e ≠ .keep) (h : t.resolve e path = .ok place) :
    ∀ target, t.get? place ≠ some (.link target) :=
  (((resolve_eq_ok he).mp h).2.ends (rooted_nil t)).1

/-- A path that leads somewhere leads to a file or a directory. -/
theorem resolve_ends (h : t.resolve .follow path = .ok place) :
    t.get? place = some .directory ∨ ∃ content, t.get? place = some (.file content) := by
  obtain ⟨hlink, hnone⟩ := ((resolve_eq_ok (by decide)).mp h).2.ends (rooted_nil t)
  cases hentry : t.get? place with
  | none => nomatch hnone hentry
  | some entry =>
    cases entry with
    | file content => exact .inr ⟨content, rfl⟩
    | directory => exact .inl rfl
    | link target => exact absurd hentry (hlink target)

/-- Where there is a way when links are followed, there is one when a last link is kept. -/
theorem Leads.exists_keep (h : t.Leads .follow links here steps place) :
    ∃ kept, t.resolveFrom .keep links here steps = .ok kept := by
  induction h with
  | here links here => exact ⟨here, by rw [resolveFrom]⟩
  | stay _ ih => rwa [resolveFrom, if_pos rfl]
  | up _ ih => rwa [resolveFrom, if_neg (by decide), if_pos rfl]
  | directory named entry _ ih =>
    rw [resolveFrom, if_neg named.1, if_neg named.2]
    simpa only [entry] using ih
  | file named entry =>
    rw [resolveFrom, if_neg named.1, if_neg named.2]
    simp [entry]
  | vacant _ _ create => cases create
  | link named entry _ ih =>
    rw [resolveFrom, if_neg named.1, if_neg named.2]
    simp only [entry]
    split
    · exact ⟨_, rfl⟩
    · exact ih

/-- A path that leads somewhere when links are followed does so when a last link is kept. -/
theorem exists_resolve_keep (h : t.resolve .follow path = .ok place) :
    ∃ kept, t.resolve .keep path = .ok kept := by
  obtain ⟨hpath, hway⟩ := (resolve_eq_ok (by decide)).mp h
  unfold resolve
  rw [if_neg hpath]
  exact hway.exists_keep

/-! ## Ways that go on -/

/-- A way that leads to a directory can go on there. -/
theorem Leads.append (h : t.Leads e links here steps mid) (hmid : t.get? mid = some .directory)
    (hmore : ∀ links, t.Leads e links mid more place) : t.Leads e links here (steps ++ more) place := by
  induction h with
  | here links here => exact hmore links
  | stay _ ih => exact .stay (ih hmid hmore)
  | up _ ih => exact .up (ih hmid hmore)
  | directory named entry _ ih => exact .directory named entry (ih hmid hmore)
  | file _ entry =>
    rw [entry] at hmid
    nomatch hmid
  | vacant _ entry _ =>
    rw [entry] at hmid
    nomatch hmid
  | link named entry _ ih =>
    have honward := ih hmid hmore
    rw [List.append_assoc] at honward
    exact .link named entry honward

/-- A way that goes on has led to a directory. -/
theorem Leads.split (hmore : more ≠ []) (h : t.Leads e links here (steps ++ more) place)
    (hhere : t.Rooted here) :
    ∃ mid left, t.Leads e links here steps mid ∧ t.Rooted mid ∧ t.Leads e left mid more place := by
  generalize hall : steps ++ more = all at h
  -- Along the way: the cut is at the step that comes next, or further on.
  induction h generalizing steps with
  | here links here => exact absurd (List.append_eq_nil_iff.mp hall).2 hmore
  | @stay links here place rest onward ih =>
    rcases List.append_eq_cons_iff.mp hall with ⟨rfl, rfl⟩ | ⟨steps, rfl, rfl⟩
    · exact ⟨here, links, .here .., hhere, .stay onward⟩
    · obtain ⟨mid, left, hmid, hrooted, hleft⟩ := ih hhere rfl
      exact ⟨mid, left, .stay hmid, hrooted, hleft⟩
  | @up links here place rest onward ih =>
    rcases List.append_eq_cons_iff.mp hall with ⟨rfl, rfl⟩ | ⟨steps, rfl, rfl⟩
    · exact ⟨here, links, .here .., hhere, .up onward⟩
    · obtain ⟨mid, left, hmid, hrooted, hleft⟩ := ih hhere.dropLast rfl
      exact ⟨mid, left, .up hmid, hrooted, hleft⟩
  | @directory links here place step rest named entry onward ih =>
    rcases List.append_eq_cons_iff.mp hall with ⟨rfl, rfl⟩ | ⟨steps, rfl, rfl⟩
    · exact ⟨here, links, .here .., hhere, .directory named entry onward⟩
    · obtain ⟨mid, left, hmid, hrooted, hleft⟩ := ih (hhere.concat entry) rfl
      exact ⟨mid, left, .directory named entry hmid, hrooted, hleft⟩
  | @file links here step content named entry =>
    rcases List.append_eq_cons_iff.mp hall with ⟨rfl, rfl⟩ | ⟨steps, rfl, hnil⟩
    · exact ⟨here, links, .here .., hhere, .file named entry⟩
    · exact absurd (List.append_eq_nil_iff.mp hnil.symm).2 hmore
  | @vacant links here step named entry create =>
    rcases List.append_eq_cons_iff.mp hall with ⟨rfl, rfl⟩ | ⟨steps, rfl, hnil⟩
    · exact ⟨here, links, .here .., hhere, .vacant named entry create⟩
    · exact absurd (List.append_eq_nil_iff.mp hnil.symm).2 hmore
  | @link links here place step target rest named entry onward ih =>
    rcases List.append_eq_cons_iff.mp hall with ⟨rfl, rfl⟩ | ⟨steps, rfl, rfl⟩
    · exact ⟨here, links + 1, .here .., hhere, .link named entry onward⟩
    · -- The steps of the target come in front of those that are left, and are cut off with them.
      have hfrom : t.Rooted (if Path.isAbsolute target then [] else here) := by
        split
        · exact rooted_nil t
        · exact hhere
      obtain ⟨mid, left, hmid, hrooted, hleft⟩ := ih hfrom (List.append_assoc ..)
      exact ⟨mid, left, .link named entry hmid, hrooted, hleft⟩

/-- A step that stays where it is, behind all others, asks for a directory only. -/
theorem Leads.of_concat_dot (he : e ≠ .keep) (h : t.Leads e links here (steps ++ ["."]) place)
    (hhere : t.Rooted here) : t.Leads e links here steps place := by
  obtain ⟨mid, left, hmid, -, hstay⟩ := Leads.split (by simp) h hhere
  rw [← resolveFrom_eq_ok he, resolveFrom, if_pos rfl, resolveFrom] at hstay
  rwa [← Except.ok.inj hstay]

/-- Where a path leads its pieces that name something lead already. -/
theorem leads_named (h : t.resolve .follow path = .ok place) :
    t.Leads .follow maxLinks [] (Path.named path) place := by
  obtain ⟨-, hway⟩ := (resolve_eq_ok (by decide)).mp h
  rcases Path.steps_eq path with heq | heq <;> rw [heq] at hway
  · exact hway
  · exact hway.of_concat_dot (by decide) (rooted_nil t)

/-- The path of an entry of a directory leads to the entry, unless that is a link. -/
theorem resolve_join (hdir : t.resolve .follow path = .ok here)
    (hhere : t.get? here = some .directory) (hname : Path.IsName name)
    (hend : t.get? (here ++ [name]) = some .directory ∨
      ∃ content, t.get? (here ++ [name]) = some (.file content)) :
    t.resolve .follow (Path.join path name) = .ok (here ++ [name]) := by
  rw [resolve_eq_ok (by decide), Path.steps_join hname]
  refine ⟨Path.join_ne_empty hname, (leads_named hdir).append hhere fun links => ?_⟩
  rcases hend with hentry | ⟨content, hentry⟩
  · exact .directory hname.named hentry (.here links _)
  · exact .file hname.named hentry

/-! ## Trees with the same ways -/

/-- The second tree has the directories and the links of the first one, and no other links. -/
structure Keeps (t t' : FileTree) : Prop where
  directory : ∀ {p}, t.get? p = some .directory → t'.get? p = some .directory
  link : ∀ {p target}, t'.get? p = some (.link target) ↔ t.get? p = some (.link target)

/-- Adding directories keeps those that there are, and the links. -/
theorem AddsDirectories.keeps (h : AddsDirectories t t') : Keeps t t' := by
  constructor
  · intro p hdir
    rcases h p with same | ⟨hnone, hmade⟩
    · exact same.trans hdir
    · exact hmade
  · intro p target
    rcases h p with same | ⟨hnone, hmade⟩
    · rw [same]
    · rw [hnone, hmade]
      exact ⟨nofun, nofun⟩

/-- A file takes the place of a file or of nothing. -/
theorem keeps_put (hdir : t.get? place ≠ some .directory)
    (hlink : ∀ target, t.get? place ≠ some (.link target)) :
    Keeps t (t.put place (.file content)) := by
  constructor
  · intro p hp
    have hne : p ≠ place := by
      rintro rfl
      exact hdir hp
    rw [get?_put_of_ne t _ hne, hp]
  · intro p target
    by_cases hp : p = place
    · rw [hp, get?_put_self t _ (ne_nil_of_get?_ne hdir)]
      exact ⟨nofun, fun h => absurd h (hlink target)⟩
    · rw [get?_put_of_ne t _ hp]

namespace Keeps

/-- A way that ends at a step leads there as well when the directories and the links are kept. -/
theorem leads_here (h : Keeps t t') (named : step ≠ "." ∧ step ≠ "..")
    (hlink : ∀ target, t.get? (here ++ [step]) ≠ some (.link target))
    (hend : t'.get? (here ++ [step]) = none → e' = .create) :
    t'.Leads e' links here [step] (here ++ [step]) := by
  cases hentry : t'.get? (here ++ [step]) with
  | none => exact .vacant named hentry (hend hentry)
  | some entry =>
    cases entry with
    | file content => exact .file named hentry
    | directory => exact .directory named hentry (.here links _)
    | link target => exact absurd (h.link.mp hentry) (hlink target)

/-- Ways lead where they have led, whatever has become of what is there. -/
theorem leads (h : Keeps t t') (hway : t.Leads e links here steps place)
    (hend : t'.get? place = none → e' = .create) : t'.Leads e' links here steps place := by
  induction hway with
  | here links here => exact .here links here
  | stay _ ih => exact .stay (ih hend)
  | up _ ih => exact .up (ih hend)
  | directory named entry _ ih => exact .directory named (h.directory entry) (ih hend)
  | file named entry => exact h.leads_here named (by rw [entry]; nofun) hend
  | vacant named entry _ => exact h.leads_here named (by rw [entry]; nofun) hend
  | link named entry _ ih => exact .link named (h.link.mpr entry) (ih hend)

/-- Paths lead where they have led. -/
theorem resolve (h : Keeps t t') (he : e ≠ .keep) (he' : e' ≠ .keep)
    (hpath : t.resolve e path = .ok place) (hend : t'.get? place = none → e' = .create) :
    t'.resolve e' path = .ok place := by
  rw [resolve_eq_ok he] at hpath
  rw [resolve_eq_ok he']
  exact ⟨hpath.1, h.leads hpath.2 hend⟩

end Keeps

/-! ## Writing -/

/-- The second tree has a file with a content at a place, and directories where nothing was; otherwise it
is the first one. -/
structure AddsFile (t t' : FileTree) (place : Place) (content : List UInt8) : Prop where
  written : t'.get? place = some (.file content)
  before : t.get? place = none ∨ ∃ old, t.get? place = some (.file old)
  others : ∀ p, p ≠ place → t'.get? p = t.get? p ∨
    t.get? p = none ∧ t'.get? p = some .directory

namespace AddsFile

/-- What was there and is no file is as it was. -/
theorem get?_eq {p : Place} {entry : Entry} (h : AddsFile t t' place content)
    (hentry : t.get? p = some entry) (hfile : ∀ old, entry ≠ .file old) : t'.get? p = some entry := by
  have hne : p ≠ place := by
    rintro rfl
    rcases h.before with hnone | ⟨old, hold⟩
    · rw [hnone] at hentry
      nomatch hentry
    · rw [hold] at hentry
      exact hfile old (Option.some.inj hentry).symm
  rcases h.others p hne with same | ⟨hnone, -⟩
  · rw [same, hentry]
  · rw [hnone] at hentry
    nomatch hentry

/-- Adding a file keeps the directories and the links. -/
theorem keeps (h : AddsFile t t' place content) : Keeps t t' := by
  constructor
  · intro p hp
    exact h.get?_eq hp nofun
  · intro p target
    refine ⟨fun hp => ?_, fun hp => h.get?_eq hp nofun⟩
    have hne : p ≠ place := by
      rintro rfl
      rw [h.written] at hp
      nomatch hp
    rcases h.others p hne with same | ⟨-, hmade⟩
    · rw [← same, hp]
    · rw [hmade] at hp
      nomatch hp

end AddsFile

/-- Making directories and writing a file adds the file where its path leads afterwards. -/
theorem addsFile_of_write {made : FileTree} (hmade : AddsDirectories t made)
    (h : made.write path content = .ok t') :
    ∃ place, t'.resolve .follow path = .ok place ∧ AddsFile t t' place content := by
  obtain ⟨place, hplace, hdir, rfl⟩ := write_eq_ok h
  have hlink := not_link_of_resolve (by decide) hplace
  have hself := get?_put_self made (.file content) (ne_nil_of_get?_ne hdir)
  refine ⟨place, ?_, hself, ?_, ?_⟩
  · -- The path leads to the place still, now that there is a file.
    refine (keeps_put hdir hlink).resolve (by decide) (by decide) hplace fun hnone => ?_
    rw [hself] at hnone
    nomatch hnone
  · -- Before, there was a file or nothing: directories and links are not written to.
    rcases hmade place with same | ⟨hnone, -⟩
    · rw [same] at hdir hlink
      cases hentry : t.get? place with
      | none => exact .inl rfl
      | some entry =>
        cases entry with
        | file old => exact .inr ⟨old, rfl⟩
        | directory => exact absurd hentry hdir
        | link target => exact absurd hentry (hlink target)
    · exact .inl hnone
  · intro p hp
    rw [get?_put_of_ne made _ hp]
    exact hmade p

/-- In the second tree there is a content where a path leads, and the other files are those of the first
tree. If the path led somewhere in the first tree, it led to the same place. -/
structure Rewrites (t t' : FileTree) (path : String) (content : List UInt8) (place : Place) : Prop where
  leads : t'.resolve .follow path = .ok place
  led : ∀ before, t.resolve .create path = .ok before → before = place
  written : t'.file? place = some content
  others : ∀ p, p ≠ place → t'.file? p = t.file? p

/-- Making directories and writing a file rewrites the file, and no other. -/
theorem rewrites_of_write {made : FileTree} (hmade : AddsDirectories t made)
    (h : made.write path content = .ok t') : ∃ place, Rewrites t t' path content place := by
  obtain ⟨place, hplace, hadds⟩ := addsFile_of_write hmade h
  refine ⟨place, hplace, ?_, ?_, ?_⟩
  · intro before hbefore
    have hlater : t'.resolve .create path = .ok before :=
      hadds.keeps.resolve (by decide) (by decide) hbefore fun _ => rfl
    have hthere : t'.resolve .create path = .ok place :=
      (AddsDirectories.refl t').keeps.resolve (by decide) (by decide) hplace fun _ => rfl
    exact Except.ok.inj (hlater.symm.trans hthere)
  · unfold file?
    rw [hadds.written]
  · intro p hp
    unfold file?
    rcases hadds.others p hp with same | ⟨hnone, hdir⟩
    · rw [same]
    · rw [hnone, hdir]

end QueryModule.FileTree
