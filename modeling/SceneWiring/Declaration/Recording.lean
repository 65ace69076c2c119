import SceneWiring.Declaration.Traversal

/-!
# Recording a walk

A recorder writes down the hooks that a walk reaches.  It hears some of the hooks
and lets the others pass; at a hook that it hears it can also stop the walk from
going down.

Main results:

- Definition `Recorder.events`: everything that a recorder writes down.
- Definition `Event.line`: one event in words.
-/

namespace SceneWiring

/-- The hooks of a visitor. -/
inductive Hook
  | file
  | node
  | scope
  | type
  | children
  | member
  | directive
deriving DecidableEq, Repr

/-- What a recorder writes down. -/
inductive Event
  | file (f : SourceFile)
  | node (d : Decl)
  | scope (head : ScopeHead)
  | scopeEnd (head : ScopeHead)
  | type (part : TypePart)
  | typeEnd (part : TypePart)
  | children (members : List Decl)
  | member (m : Member)
  | directive (u : UsingDirective)

namespace Event

/-- The hook at which an event is written down. -/
def hook : Event → Hook
  | .file _ => .file
  | .node _ => .node
  | .scope _ => .scope
  | .scopeEnd _ => .scope
  | .type _ => .type
  | .typeEnd _ => .type
  | .children _ => .children
  | .member _ => .member
  | .directive _ => .directive

/-- An event in words. -/
def line : Event → String
  | .file f => "tree " ++ f.path
  | .node d => "node " ++ d.label
  | .scope head => "namespace " ++ head.name
  | .scopeEnd head => "end " ++ head.name
  | .type part => "type " ++ part.name
  | .typeEnd part => "end " ++ part.name
  | .children members => "children " ++ toString members.length
  | .member m => "member " ++ m.label
  | .directive u => u.render

end Event

/-- Which hooks are written down and at which the walk stops. -/
structure Recorder where
  hears : Hook → Bool
  prunes : Hook → Bool

namespace Recorder

/-- Write down an event if its hook is heard. -/
def note (r : Recorder) (e : Event) (log : List Event) : List Event :=
  if r.hears e.hook then log ++ [e] else log

/-- Run a walk unless its hook is heard and stops it. -/
def descend (r : Recorder) (hook : Hook) (walk : List Event → List Event) :
    List Event → List Event :=
  if r.hears hook && r.prunes hook then id else walk

/-- The visitor that writes events down. -/
def visitor (r : Recorder) : Visitor (List Event) where
  file := fun f walk log => r.descend .file walk (r.note (.file f) log)
  node := fun d walk log => r.descend .node walk (r.note (.node d) log)
  scope := fun head walk log =>
    r.note (.scopeEnd head) (r.descend .scope walk (r.note (.scope head) log))
  type := fun part walk log =>
    r.note (.typeEnd part) (r.descend .type walk (r.note (.type part) log))
  children := fun members walk log =>
    r.descend .children walk (r.note (.children members) log)
  member := fun m => r.note (.member m)
  directive := fun u => r.note (.directive u)

/-- Everything that a recorder writes down. -/
def events (r : Recorder) (c : Compilation) : List Event :=
  r.visitor.run c []

/-- The recorder of members and using directives. -/
def leaves : Recorder where
  hears := fun hook => hook == .member || hook == .directive
  prunes := fun _ => false

/-- The recorder that hears everything and stops at the given hooks. -/
def pruning (stops : List Hook) : Recorder where
  hears := fun _ => true
  prunes := fun hook => stops.contains hook

end Recorder
end SceneWiring
