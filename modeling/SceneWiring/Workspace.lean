import SceneWiring.Generation

/-!
# Workspaces

A host that goes on editing keeps a compilation and options at hand and changes them
step by step.  A document that cannot be read changes nothing.
-/

namespace SceneWiring

/-- A compilation and options that can be changed. -/
structure Workspace where
  files : List SourceFile := []
  options : Options := Options.default

namespace Workspace

/-- The compilation of a workspace. -/
def compilation (w : Workspace) : Compilation :=
  ⟨w.files⟩

/-- The number of files. -/
def size (w : Workspace) : Nat :=
  w.files.length

/-- Add a file at the end. -/
def addFile (w : Workspace) (f : SourceFile) : Workspace :=
  { w with files := w.files ++ [f] }

/-- Add a file before the given position, or at the end if there are fewer files. -/
def insertFile (w : Workspace) (i : Nat) (f : SourceFile) : Workspace :=
  { w with files := w.files.take i ++ f :: w.files.drop i }

/-- Remove the file at a position, if there is one. -/
def removeFile (w : Workspace) (i : Nat) : Workspace :=
  { w with files := w.files.eraseIdx i }

/-- Replace the options by those of a text. -/
def loadOptions (w : Workspace) (text : String) : Except Json.Problem Workspace := do
  let options ← Options.ofText text
  return { w with options := options }

/-- Replace the compilation by that of a text. -/
def load (w : Workspace) (text : String) : Except Json.Problem Workspace := do
  let compilation ← Compilation.ofText text
  return { w with files := compilation.files }

/-- A run over the compilation, with the values that declarations give. -/
def generate (w : Workspace) : Run :=
  SceneWiring.generate w.options .ofDeclarations w.compilation

end Workspace
end SceneWiring
