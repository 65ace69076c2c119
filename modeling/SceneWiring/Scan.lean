import SceneWiring.Declaration.Traversal
import SceneWiring.Marker.Analysis

/-!
# Finding candidates

The scanner walks over a compilation and collects, for every type, its parts and the
members that carry a strategy.  Parts belong together if the names of the namespaces
and types around them and their own names agree, in whatever file they stand.  Types
are listed in the order of their first parts and candidates in source order.

While the walk is inside a namespace or a type, its name stands at the end of a stack;
entering pushes it and leaving pops it.

Main results:

- Definition `Compilation.scan`: the types with candidates.
- Theorems `leaveScope_enterScope` and `around_leaveType_enterType`: leaving undoes
  entering, as far as the stacks go.
-/

namespace SceneWiring

/-! ## Results -/

/-- A member with a strategy, and the file in which it stands. -/
structure Candidate where
  member : Member
  file : String
deriving DecidableEq, Repr

/-- A type with candidates. -/
structure MarkedType where
  /-- The part that was met first; reports about the whole type point to it. -/
  first : TypePart
  /-- The other parts, in the order in which they were met. -/
  others : List TypePart
  /-- The parts of each type around it, outermost first. -/
  containers : List (List TypePart)
  /-- The names of the namespaces around it, outermost first. -/
  namespaces : List String
  /-- The file of the first part. -/
  file : String
  /-- The using directives of the files with parts of the type. -/
  usings : List UsingDirective
  candidates : List Candidate
deriving DecidableEq, Repr

/-- All parts of a type. -/
def MarkedType.parts (t : MarkedType) : List TypePart :=
  t.first :: t.others

/-! ## Keys -/

/-- The names of nested types, each after a plus sign. -/
def nestedNames : List String → String
  | [] => ""
  | name :: rest => "+" ++ name ++ nestedNames rest

/-- The key of the innermost of nested types in nested namespaces. -/
def typeKey (namespaces types : List String) : String :=
  ".".intercalate namespaces ++ nestedNames types

/-! ## State of the walk -/

/-- What is known about a type while the walk goes on. -/
structure Entry where
  key : String
  /-- The position of the entry of the type around it. -/
  parent : Option Nat
  first : TypePart
  others : List TypePart
  namespaces : List String
  file : String
  /-- The files whose using directives have been added. -/
  mergedFiles : List String
  usings : List UsingDirective
  candidates : List Candidate
deriving DecidableEq, Repr

namespace Entry

/-- All parts met so far. -/
def parts (e : Entry) : List TypePart :=
  e.first :: e.others

/-- The entry with one more part. -/
def addPart (part : TypePart) (e : Entry) : Entry :=
  { e with others := e.others ++ [part] }

/-- The entry with the using directives of a file, unless it has them. -/
def mergeFile (file : String) (usings : List UsingDirective) (e : Entry) : Entry :=
  if e.mergedFiles.contains file then e
  else { e with mergedFiles := e.mergedFiles ++ [file], usings := e.usings ++ usings }

/-- The entry with one more candidate. -/
def addCandidate (c : Candidate) (e : Entry) : Entry :=
  { e with candidates := e.candidates ++ [c] }

end Entry

/-- A type around the place where the walk stands. -/
structure Around where
  /-- The position of its entry. -/
  index : Nat
  name : String
deriving DecidableEq, Repr

/-- The state of the walk. -/
structure Scan where
  file : String := ""
  /-- The using directives at the top of the file. -/
  fileUsings : List UsingDirective := []
  /-- The names of the namespaces around the walk, outermost first. -/
  namespaces : List String := []
  /-- The types around the walk, outermost first. -/
  around : List Around := []
  entries : List Entry := []
deriving DecidableEq, Repr

namespace Scan

/-- The key of a type of the given name at the place where the walk stands. -/
def keyOf (s : Scan) (name : String) : String :=
  typeKey s.namespaces (s.around.map Around.name ++ [Text.trim name])

/-- The entry that a type starts with. -/
def newEntry (s : Scan) (part : TypePart) : Entry where
  key := s.keyOf part.name
  parent := s.around.getLast?.map Around.index
  first := part
  others := []
  namespaces := s.namespaces
  file := s.file
  mergedFiles := []
  usings := []
  candidates := []

/-- The position of the entry with a key. -/
def find? (s : Scan) (key : String) : Option Nat :=
  s.entries.findIdx? fun e => e.key == key

/-- The entries with a part of a type added, and the position of its entry. -/
def place (s : Scan) (part : TypePart) : Nat × List Entry :=
  match s.find? (s.keyOf part.name) with
  | some i => (i, s.entries.modify i (Entry.addPart part))
  | none => (s.entries.length, s.entries ++ [s.newEntry part])

/-! ## Steps -/

/-- Start with a file. -/
def enterFile (f : SourceFile) (s : Scan) : Scan :=
  { s with file := f.path, fileUsings := f.usings }

/-- Go into a namespace. -/
def enterScope (head : ScopeHead) (s : Scan) : Scan :=
  { s with namespaces := s.namespaces ++ [head.name] }

/-- Come out of a namespace. -/
def leaveScope (s : Scan) : Scan :=
  { s with namespaces := s.namespaces.dropLast }

/-- Go into a part of a type. -/
def enterType (part : TypePart) (s : Scan) : Scan :=
  let (index, entries) := s.place part
  { s with
    around := s.around ++ [⟨index, Text.trim part.name⟩]
    entries := entries.modify index (Entry.mergeFile s.file s.fileUsings) }

/-- Come out of a part of a type. -/
def leaveType (s : Scan) : Scan :=
  { s with around := s.around.dropLast }

/-- Note a member, if it is a candidate and stands in a type. -/
def addMember (m : Member) (s : Scan) : Scan :=
  match m.isMarked, s.around.getLast? with
  | true, some type =>
    { s with entries := s.entries.modify type.index (Entry.addCandidate ⟨m, s.file⟩) }
  | _, _ => s

/-- Leaving a namespace undoes entering it. -/
@[simp]
theorem leaveScope_enterScope (head : ScopeHead) (s : Scan) :
    leaveScope (enterScope head s) = s := by
  simp [leaveScope, enterScope]

/-- Leaving a type undoes entering it, as far as the types around the walk go. -/
@[simp]
theorem around_leaveType_enterType (part : TypePart) (s : Scan) :
    (leaveType (enterType part s)).around = s.around := by
  simp [leaveType, enterType]

/-- The scanner. -/
def visitor : Visitor Scan where
  file := fun f walk s => walk (enterFile f s)
  scope := fun head walk s => leaveScope (walk (enterScope head s))
  type := fun part walk s => leaveType (walk (enterType part s))
  member := addMember

end Scan

/-! ## Collecting the results -/

/-- The parts of the types around an entry, outermost first.  Every entry stands after
the entry of the type around it. -/
def containerChain (entries : List Entry) (i : Nat) : List (List TypePart) :=
  match entries[i]? with
  | none => []
  | some e =>
    match e.parent with
    | none => []
    | some p =>
      if p < i then
        containerChain entries p ++ (entries[p]?.map Entry.parts).toList
      else []
termination_by i

/-- A type as it was found. -/
def Entry.toMarked (e : Entry) (containers : List (List TypePart)) : MarkedType where
  first := e.first
  others := e.others
  containers := containers
  namespaces := e.namespaces
  file := e.file
  usings := e.usings
  candidates := e.candidates

/-- The types with candidates, in the order in which they were met. -/
def Scan.results (s : Scan) : List MarkedType :=
  let all := s.entries.mapIdx fun i e => e.toMarked (containerChain s.entries i)
  all.filter fun t => !t.candidates.isEmpty

/-- The types with candidates in a compilation. -/
def Compilation.scan (c : Compilation) : List MarkedType :=
  (Scan.visitor.run c {}).results

end SceneWiring
