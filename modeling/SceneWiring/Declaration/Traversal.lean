import SceneWiring.Declaration.Basic

/-!
# Walking over declarations

A visitor says what happens at each kind of declaration.  Its hooks for
declarations with contents receive the walk over those contents and decide whether
and when to run it; a hook that does not run the walk prunes what lies below.  The
order is always the source order.

Main results:

- Definition `Visitor.run`: the walk over a compilation.
- Theorem `runAll_append`: a list is walked over part by part.
-/

namespace SceneWiring

/-- What happens at each kind of declaration; by default, the walk goes on. -/
structure Visitor (σ : Type) where
  file : SourceFile → (σ → σ) → σ → σ := fun _ walk => walk
  /-- At every declaration, before the hook of its kind. -/
  node : Decl → (σ → σ) → σ → σ := fun _ walk => walk
  scope : ScopeHead → (σ → σ) → σ → σ := fun _ walk => walk
  type : TypePart → (σ → σ) → σ → σ := fun _ walk => walk
  /-- At every list of declarations, empty ones included. -/
  children : List Decl → (σ → σ) → σ → σ := fun _ walk => walk
  member : Member → σ → σ := fun _ => id
  directive : UsingDirective → σ → σ := fun _ => id

namespace Visitor

variable {σ : Type}

mutual

/-- Visit a declaration. -/
def runNode (v : Visitor σ) : Decl → σ → σ
  | .scope head members =>
    v.node (.scope head members) (v.scope head (v.children members (v.runAll members)))
  | .type part members =>
    v.node (.type part members) (v.type part (v.children members (v.runAll members)))
  | .member m => v.node (.member m) (v.member m)
  | .directive u => v.node (.directive u) (v.directive u)
  | .unknown => v.node .unknown id

/-- Visit declarations one after the other. -/
def runAll (v : Visitor σ) : List Decl → σ → σ
  | [] => id
  | d :: ds => fun s => v.runAll ds (v.runNode d s)

end

/-- Visit a file. -/
def runFile (v : Visitor σ) (f : SourceFile) : σ → σ :=
  v.file f (v.children f.members (v.runAll f.members))

/-- Visit the files of a compilation in order. -/
def run (v : Visitor σ) (c : Compilation) (s : σ) : σ :=
  c.files.foldl (fun s f => v.runFile f s) s

/-- Nothing happens in an empty list. -/
@[simp]
theorem runAll_nil (v : Visitor σ) (s : σ) : v.runAll [] s = s := by
  simp [runAll]

/-- The first declaration of a list is visited first. -/
@[simp]
theorem runAll_cons (v : Visitor σ) (d : Decl) (ds : List Decl) (s : σ) :
    v.runAll (d :: ds) s = v.runAll ds (v.runNode d s) := by
  simp [runAll]

/-- A list is walked over part by part. -/
theorem runAll_append (v : Visitor σ) (ds es : List Decl) (s : σ) :
    v.runAll (ds ++ es) s = v.runAll es (v.runAll ds s) := by
  induction ds generalizing s with
  | nil => simp
  | cons d ds ih => simp [ih]

end Visitor
end SceneWiring
