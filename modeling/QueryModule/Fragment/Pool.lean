import QueryModule.Fragment.Registry

/-!
# The pool of fragments

Local and external fragments are collected apart. On either side the first fragment of a name counts,
and every later one is an error. Then both sides are merged into a registry, in which a local
fragment shadows an external one of the same name.
-/

namespace QueryModule.Fragment

/-- The fragments collected so far, each side in the order of addition. -/
structure Pool where
  locals : List SourcedFragment
  externals : List SourcedFragment
  deriving Repr, BEq

namespace Pool

/-- The pool without fragments. -/
def empty : Pool := ⟨[], []⟩

/-- Adds a fragment to its side, unless the side has one of its name; that is an error. -/
def add (p : Pool) (f : SourcedFragment) : Pool × List FragmentError :=
  let side := if f.external then p.externals else p.locals
  match side.find? (·.name = f.name) with
  | some existing => (p, [.duplicateDefinition f.name existing.location f.location])
  | none =>
    if f.external then ({ p with externals := p.externals ++ [f] }, [])
    else ({ p with locals := p.locals ++ [f] }, [])

/-- Adds fragments one after the other and gives all errors. -/
def addAll (p : Pool) : List SourcedFragment → Pool × List FragmentError
  | [] => (p, [])
  | f :: rest =>
    let (p, errors) := p.add f
    let (p, more) := p.addAll rest
    (p, errors ++ more)

/-- Adds the fragments among some definitions as local ones. -/
def addDefinitions (p : Pool) (definitions : List SourcedDefinition) :
    Pool × List FragmentError :=
  p.addAll (fragmentsOf false definitions)

/-- Adds fragments as external ones. -/
def addExternals (p : Pool) (fragments : List SourcedFragment) : Pool × List FragmentError :=
  p.addAll (fragments.map fun f => { f with external := true })

/-- Is there a local fragment of the same name? -/
def isShadowed (p : Pool) (f : SourcedFragment) : Bool := p.locals.any (·.name = f.name)

/-- Both sides together: the local fragments, then the external ones that none of them shadows. -/
def merged (p : Pool) : Registry := ⟨p.locals ++ p.externals.filter (!p.isShadowed ·)⟩

/-- The external fragments that a local one shadows. -/
def shadowed (p : Pool) : List SourcedFragment := p.externals.filter p.isShadowed

/-- The registry of the collected fragments, or everything that is wrong with them. -/
def toRegistry (p : Pool) : Except (List FragmentError) Registry :=
  match p.merged.problems with
  | [] => .ok p.merged
  | errors => .error errors

end Pool

end QueryModule.Fragment
