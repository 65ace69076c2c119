import SceneWiring.Proofs.Declaration.Positions

/-!
# Source order

A walk comes to the events of a compilation in one order, that of the source, whatever its visitor
does at them.  A visitor that stops at some of them misses what lies in their walks, and nothing
else.

Main results:

- Definition `Compilation.preorder`: the events of all items, in source order.
- Definition `Recorder.overriding`: the visitor that overrides some hooks and no others.
- Theorem `Visitor.run_recording`: what is written down in a walk.
- Theorem `Recorder.events_eq`: what a recorder writes down.
- Theorem `Compilation.filter_visits`: the walk over a compilation is that over its trails.
- Theorem `overriding_follows_source_order`: any overriding sees what it asks for in source order.
-/

namespace SceneWiring

/-! ## Visits -/

/-- Whether an event is that a scope or a type ends. -/
def Event.isEnd : Event → Bool
  | .scopeEnd _ => true
  | .typeEnd _ => true
  | _ => false

/-- An event of a walk, with the events in whose own walks it is met, the outermost first. -/
structure Visit where
  within : List Event
  event : Event

namespace Visit

/-- A visit in the walks of more events. -/
def inside (es : List Event) (v : Visit) : Visit :=
  { v with within := es ++ v.within }

/-- An event and what is met in its walk. -/
def opening (e : Event) (below : List Visit) : List Visit :=
  ⟨[], e⟩ :: below.map (inside [e])

/-- Whether no event stops the walk on the way to a visit. -/
def isReached (stops : Event → Bool) (v : Visit) : Bool :=
  v.within.all fun e => !stops e

/-- What is written down of visits if some events stop the walk. -/
def written (chosen stops : Event → Bool) (visits : List Visit) : List Event :=
  ((visits.filter (isReached stops)).map Visit.event).filter chosen

end Visit

/-- The events with which a walk comes to an item, each in the walks of those before. -/
def Item.events : Item → List Event
  | .file f => [.file f, .children f.members]
  | .decl (.scope head members) => [.node (.scope head members), .scope head, .children members]
  | .decl (.type part members) => [.node (.type part members), .type part, .children members]
  | .decl (.member m) => [.node (.member m), .member m]
  | .decl (.directive u) => [.node (.directive u), .directive u]
  | .decl .unknown => [.node .unknown]

/-- The event of an item that is a member or a using directive. -/
def Item.leaf? : Item → Option Event
  | .decl (.member m) => some (.member m)
  | .decl (.directive u) => some (.directive u)
  | _ => none

/-- The visits with which a walk comes to the item of a trail: they are in the walks of all events
of the items above. -/
def Trail.visits (t : Trail) : List Visit :=
  (t.item.events.foldr Visit.opening []).map (Visit.inside (t.above.flatMap Item.events))

/-- The events of a compilation, in source order. -/
def Compilation.preorder (c : Compilation) : List Event :=
  c.placed.flatMap fun x => x.2.item.events

/-- The visits of a compilation, in source order. -/
def Compilation.openings (c : Compilation) : List Visit :=
  c.placed.flatMap fun x => x.2.visits

/-! ## Walks -/

mutual

/-- The visits in the walk over a declaration, with the ends of scopes and types. -/
def Decl.visits : Decl → List Visit
  | .scope head members =>
    Visit.opening (.node (.scope head members))
      (Visit.opening (.scope head)
        (Visit.opening (.children members) (Decl.visitsAll members)) ++ [⟨[], .scopeEnd head⟩])
  | .type part members =>
    Visit.opening (.node (.type part members))
      (Visit.opening (.type part)
        (Visit.opening (.children members) (Decl.visitsAll members)) ++ [⟨[], .typeEnd part⟩])
  | .member m => Visit.opening (.node (.member m)) [⟨[], .member m⟩]
  | .directive u => Visit.opening (.node (.directive u)) [⟨[], .directive u⟩]
  | .unknown => [⟨[], .node .unknown⟩]

/-- The visits in the walk over declarations. -/
def Decl.visitsAll : List Decl → List Visit
  | [] => []
  | d :: ds => d.visits ++ Decl.visitsAll ds

end

/-- The visits in the walk over a file. -/
def SourceFile.visits (f : SourceFile) : List Visit :=
  Visit.opening (.file f) (Visit.opening (.children f.members) (Decl.visitsAll f.members))

/-- The visits in the walk over a compilation. -/
def Compilation.visits (c : Compilation) : List Visit :=
  c.files.flatMap SourceFile.visits

/-! ## Writing down a walk -/

namespace Visitor

/-- Write an event down if it is chosen. -/
def note (chosen : Event → Bool) (e : Event) (log : List Event) : List Event :=
  if chosen e then log ++ [e] else log

/-- Write an event down, and go on with its walk if it does not stop it. -/
def enter (chosen stops : Event → Bool) (e : Event) (walk : List Event → List Event)
    (log : List Event) : List Event :=
  (if stops e then id else walk) (note chosen e log)

/-- The visitor that writes the chosen events down, the ends of scopes and types among them, and
stops at some events. -/
def recording (chosen stops : Event → Bool) : Visitor (List Event) where
  file f := enter chosen stops (.file f)
  node d := enter chosen stops (.node d)
  scope head walk log := note chosen (.scopeEnd head) (enter chosen stops (.scope head) walk log)
  type part walk log := note chosen (.typeEnd part) (enter chosen stops (.type part) walk log)
  children members := enter chosen stops (.children members)
  member m := note chosen (.member m)
  directive u := note chosen (.directive u)

end Visitor

section

variable {chosen stops : Event → Bool}

namespace Visit

theorem written_append (visits visits' : List Visit) :
    written chosen stops (visits ++ visits') =
      written chosen stops visits ++ written chosen stops visits' := by
  simp only [written, List.filter_append, List.map_append]

/-- All visits in the walk of an event are reached as before, or none if the event stops it. -/
theorem filter_map_inside (e : Event) (below : List Visit) :
    (below.map (inside [e])).filter (isReached stops) =
      if stops e then [] else (below.filter (isReached stops)).map (inside [e]) := by
  have hinside : isReached stops ∘ inside [e] = fun v => !stops e && v.isReached stops := rfl
  rw [List.filter_map, hinside]
  cases stops e with
  | true => simp
  | false => rfl

/-- What is met in the walk of an event is missed if the event stops it. -/
theorem written_opening (e : Event) (below : List Visit) :
    written chosen stops (opening e below) =
      [e].filter chosen ++ if stops e then [] else written chosen stops below := by
  rw [written, opening, List.filter_cons_of_pos rfl, filter_map_inside, List.map_cons,
    ← List.singleton_append, List.filter_append]
  cases stops e with
  | true => rfl
  | false => simp [written, inside, Function.comp_def]

theorem note_eq (e : Event) (log : List Event) :
    Visitor.note chosen e log = log ++ [e].filter chosen := by
  cases hchosen : chosen e <;> simp [Visitor.note, hchosen]

/-- If a walk writes down what is met in it, so does an event with this walk. -/
theorem enter_eq {e : Event} {walk : List Event → List Event} {below : List Visit}
    (h : ∀ log, walk log = log ++ written chosen stops below) (log : List Event) :
    Visitor.enter chosen stops e walk log = log ++ written chosen stops (opening e below) := by
  rw [Visitor.enter, note_eq, written_opening]
  cases stops e with
  | true => simp
  | false => simp [h]

end Visit

open Visit

namespace Visitor

mutual

/-- Of a declaration, the visits that no event stops are written down. -/
theorem runNode_recording : ∀ (d : Decl) (log : List Event),
    (recording chosen stops).runNode d log = log ++ written chosen stops d.visits
  | .scope head members, log => by
      rw [Decl.visits]
      apply enter_eq
      intro log
      rw [written_append, ← List.append_assoc, ← enter_eq (enter_eq (runAll_recording members))]
      exact note_eq (.scopeEnd head) _
  | .type part members, log => by
      rw [Decl.visits]
      apply enter_eq
      intro log
      rw [written_append, ← List.append_assoc, ← enter_eq (enter_eq (runAll_recording members))]
      exact note_eq (.typeEnd part) _
  | .member m, log => enter_eq (note_eq (.member m)) log
  | .directive u, log => enter_eq (note_eq (.directive u)) log
  | .unknown, log => by
      have hwalk : ∀ log : List Event, id log = log ++ written chosen stops [] :=
        fun log => (List.append_nil log).symm
      exact enter_eq hwalk log

theorem runAll_recording : ∀ (ds : List Decl) (log : List Event),
    (recording chosen stops).runAll ds log = log ++ written chosen stops (Decl.visitsAll ds)
  | [], log => (List.append_nil log).symm
  | d :: ds, log => by
      rw [runAll_cons, runNode_recording d, runAll_recording ds, Decl.visitsAll, written_append,
        List.append_assoc]

end

theorem runFile_recording (f : SourceFile) (log : List Event) :
    (recording chosen stops).runFile f log = log ++ written chosen stops f.visits :=
  enter_eq (enter_eq (runAll_recording f.members)) log

/-- Of a compilation, the visits that no event stops are written down. -/
theorem run_recording (c : Compilation) :
    (recording chosen stops).run c [] = written chosen stops c.visits := by
  have hfiles : ∀ (files : List SourceFile) (log : List Event),
      files.foldl (fun log f => (recording chosen stops).runFile f log) log =
        log ++ written chosen stops (files.flatMap SourceFile.visits) := by
    intro files
    induction files with
    | nil => exact fun log => (List.append_nil log).symm
    | cons f files ih =>
        intro log
        rw [List.foldl_cons, runFile_recording, ih, List.flatMap_cons, written_append,
          List.append_assoc]
  exact hfiles c.files []

end Visitor
end

/-! ## Recorders -/

namespace Recorder

variable (r : Recorder)

/-- Whether a recorder hears an event. -/
def heard (e : Event) : Bool :=
  r.hears e.hook

/-- Whether a recorder stops the walk of an event. -/
def stopped (e : Event) : Bool :=
  r.hears e.hook && r.prunes e.hook

theorem visitor_eq : r.visitor = .recording r.heard r.stopped :=
  rfl

/-- A recorder writes down all events that it hears, the ends of scopes and types among them. -/
theorem events_eq (c : Compilation) :
    r.events c = Visit.written r.heard r.stopped c.visits := by
  rw [events, visitor_eq, Visitor.run_recording]

/-- A hook with a walk.  If it is heard, it is overridden: it writes its event down, and goes on
with the walk unless it stops. -/
def walkHook {α : Type} (hook : Hook) (event : α → Event) :
    α → (List Event → List Event) → List Event → List Event :=
  if r.hears hook then fun x walk log => r.descend hook walk (log ++ [event x])
  else fun _ walk => walk

/-- A hook without a walk.  If it is heard, it is overridden: it writes its event down. -/
def leafHook {α : Type} (hook : Hook) (event : α → Event) : α → List Event → List Event :=
  if r.hears hook then fun x log => log ++ [event x] else fun _ => id

/-- The visitor that overrides the hooks that are heard and leaves all others as they are. -/
def overriding : Visitor (List Event) where
  file := r.walkHook .file .file
  node := r.walkHook .node .node
  scope := r.walkHook .scope .scope
  type := r.walkHook .type .type
  children := r.walkHook .children .children
  member := r.leafHook .member .member
  directive := r.leafHook .directive .directive

/-- Whether a recorder hears an event that is not that a scope or a type ends. -/
def heardOpening (e : Event) : Bool :=
  !e.isEnd && r.heard e

theorem walkHook_eq {α : Type} {hook : Hook} {event : α → Event}
    (hhook : ∀ x, (event x).hook = hook) (hend : ∀ x, (event x).isEnd = false) (x : α) :
    r.walkHook hook event x = Visitor.enter r.heardOpening r.stopped (event x) := by
  funext walk log
  cases hears : r.hears hook <;>
    simp [walkHook, Visitor.enter, Visitor.note, heardOpening, heard, stopped, descend, hhook, hend,
      hears]

theorem leafHook_eq {α : Type} {hook : Hook} {event : α → Event}
    (hhook : ∀ x, (event x).hook = hook) (hend : ∀ x, (event x).isEnd = false) (x : α) :
    r.leafHook hook event x = Visitor.note r.heardOpening (event x) := by
  funext log
  cases hears : r.hears hook <;>
    simp [leafHook, Visitor.note, heardOpening, heard, hhook, hend, hears]

/-- What is overridden writes down all events that are heard but the ends. -/
theorem overriding_eq : r.overriding = .recording r.heardOpening r.stopped := by
  rw [overriding, Visitor.recording]
  simp only [Visitor.mk.injEq]
  refine ⟨?_, ?_, ?_, ?_, ?_, ?_, ?_⟩
  · exact funext (r.walkHook_eq (fun _ => rfl) fun _ => rfl)
  · exact funext (r.walkHook_eq (fun _ => rfl) fun _ => rfl)
  · exact funext (r.walkHook_eq (fun _ => rfl) fun _ => rfl)
  · exact funext (r.walkHook_eq (fun _ => rfl) fun _ => rfl)
  · exact funext (r.walkHook_eq (fun _ => rfl) fun _ => rfl)
  · exact funext (r.leafHook_eq (fun _ => rfl) fun _ => rfl)
  · exact funext (r.leafHook_eq (fun _ => rfl) fun _ => rfl)

end Recorder

/-! ## Source order -/

namespace Visit

/-- What is reached is so too if fewer events stop the walk. -/
theorem isReached_mono {stops stops' : Event → Bool} (h : ∀ e, stops e → stops' e) {v : Visit}
    (hreached : v.isReached stops') : v.isReached stops := by
  rw [isReached, List.all_eq_true] at hreached ⊢
  intro e he
  have hopen := hreached e he
  rw [Bool.not_eq_true', Bool.eq_false_iff] at hopen ⊢
  exact mt (h e) hopen

/-- Whether a visit is not that a scope or a type ends. -/
def isOpening (v : Visit) : Bool :=
  !v.event.isEnd

theorem filter_opening {e : Event} (h : e.isEnd = false) (below : List Visit) :
    (opening e below).filter isOpening = opening e (below.filter isOpening) := by
  have hinside : isOpening ∘ inside [e] = isOpening := rfl
  rw [opening, List.filter_cons_of_pos (by simp [isOpening, h]), List.filter_map, hinside, opening]

theorem inside_append (es es' : List Event) (v : Visit) :
    v.inside (es ++ es') = (v.inside es').inside es := by
  simp [inside]

/-- Events that are met one in the walk of the other, and what is met in the walks of all. -/
theorem foldr_opening (es : List Event) (below : List Visit) :
    es.foldr opening below = es.foldr opening [] ++ below.map (inside es) := by
  induction es with
  | nil => exact (List.map_id below).symm
  | cons e es ih =>
      have hinside : inside [e] ∘ inside es = inside (e :: es) :=
        funext fun v => (inside_append [e] es v).symm
      rw [List.foldr_cons, ih, opening, List.map_append, List.map_map, hinside, List.foldr_cons,
        opening, List.cons_append]

end Visit

/-- Further out, the visits are in the walks of more events. -/
theorem Trail.visits_under (outer : Item) (t : Trail) :
    (t.under outer).visits = t.visits.map (Visit.inside outer.events) := by
  have hinside : Visit.inside outer.events ∘ Visit.inside (t.above.flatMap Item.events) =
      Visit.inside ((outer :: t.above).flatMap Item.events) :=
    funext fun v => (Visit.inside_append _ _ v).symm
  rw [visits, visits, List.map_map, hinside]
  rfl

/-- The visits of an item and of all in it. -/
theorem Placed.flatMap_visits_grow (item : Item) (trees : List Placed) :
    (grow item trees).flatMap (fun x => x.2.visits) =
      item.events.foldr Visit.opening
        (trees.flatMap fun tree => tree.flatMap fun x => x.2.visits) := by
  have hitself : Trail.visits ⟨[], item⟩ = item.events.foldr Visit.opening [] :=
    List.map_id _
  rw [flatMap_grow Trail.visits, Visit.foldr_opening, hitself, List.map_flatMap]
  simp only [Trail.visits_under, List.map_flatMap]

mutual

/-- But for the ends, the walk over a declaration is that over its trails. -/
theorem Decl.filter_visits : ∀ d : Decl,
    d.visits.filter Visit.isOpening = d.placed.flatMap fun x => x.2.visits
  | .scope head members => by
      rw [Decl.visits, Decl.placed, Placed.flatMap_visits_grow, Visit.filter_opening rfl,
        List.filter_append, Visit.filter_opening rfl, Visit.filter_opening rfl,
        Decl.filter_visitsAll members]
      exact congrArg _ (List.append_nil _)
  | .type part members => by
      rw [Decl.visits, Decl.placed, Placed.flatMap_visits_grow, Visit.filter_opening rfl,
        List.filter_append, Visit.filter_opening rfl, Visit.filter_opening rfl,
        Decl.filter_visitsAll members]
      exact congrArg _ (List.append_nil _)
  | .member m => by
      rw [Decl.placed, Placed.flatMap_visits_grow]
      rfl
  | .directive u => by
      rw [Decl.placed, Placed.flatMap_visits_grow]
      rfl
  | .unknown => by
      rw [Decl.placed, Placed.flatMap_visits_grow]
      rfl

theorem Decl.filter_visitsAll : ∀ ds : List Decl,
    (Decl.visitsAll ds).filter Visit.isOpening =
      (Decl.placedAll ds).flatMap fun tree => tree.flatMap fun x => x.2.visits
  | [] => rfl
  | d :: ds => by
      rw [Decl.visitsAll, List.filter_append, Decl.filter_visits d, Decl.filter_visitsAll ds,
        Decl.placedAll, List.flatMap_cons]

end

theorem SourceFile.filter_visits (f : SourceFile) :
    f.visits.filter Visit.isOpening = (Item.file f).placed.flatMap fun x => x.2.visits := by
  rw [visits, Visit.filter_opening rfl, Visit.filter_opening rfl, Decl.filter_visitsAll,
    Item.placed, Placed.flatMap_visits_grow]
  rfl

/-- A walk comes to the item of a trail with the events of the item. -/
theorem Trail.map_event_visits (t : Trail) : t.visits.map Visit.event = t.item.events := by
  have hchain : ∀ es : List Event, (es.foldr Visit.opening []).map Visit.event = es := by
    intro es
    induction es with
    | nil => rfl
    | cons e es ih =>
        rw [List.foldr_cons, Visit.opening, List.map_cons, List.map_map]
        exact congrArg (e :: ·) ih
  rw [visits, List.map_map]
  exact hchain t.item.events

/-- Members and using directives have one event that a recorder of them hears, and all other items
have none. -/
theorem Item.filter_events (item : Item) :
    item.events.filter Recorder.leaves.heard = item.leaf?.toList := by
  rcases item with f | d
  · rfl
  · cases d <;> rfl

namespace Compilation

variable (c : Compilation)

/-- But for the ends, the walk over a compilation is that over its trails. -/
theorem filter_visits : c.visits.filter Visit.isOpening = c.openings := by
  rw [visits, openings, placed, Placed.flatMap_number Trail.visits, List.filter_flatMap,
    List.flatMap_map]
  exact congrArg (List.flatMap · c.files) (funext SourceFile.filter_visits)

/-- The events of the visits are those of the items, one after the other. -/
theorem map_event_openings : c.openings.map Visit.event = c.preorder := by
  rw [preorder, openings, List.map_flatMap]
  simp only [Trail.map_event_visits]

/-- Among them, those of members and using directives. -/
theorem filter_preorder :
    c.preorder.filter Recorder.leaves.heard = c.placed.filterMap fun x => x.2.item.leaf? := by
  rw [preorder, List.filter_flatMap, List.filterMap_eq_flatMap_toList]
  simp only [Item.filter_events]

end Compilation

namespace Recorder

variable {r r' : Recorder} (c : Compilation)

/-- An overriding writes down the events that are heard, without those in stopped walks. -/
theorem run_overriding :
    r.overriding.run c [] =
      ((c.openings.filter (Visit.isReached r.stopped)).map Visit.event).filter r.heard := by
  rw [overriding_eq, Visitor.run_recording, Visit.written, ← c.filter_visits]
  have hchosen : ∀ v : Visit, (r.heardOpening v.event && v.isReached r.stopped) =
      (r.heard v.event && (v.isReached r.stopped && v.isOpening)) := by
    intro v
    rw [heardOpening, Visit.isOpening, Bool.and_comm (!v.event.isEnd), Bool.and_assoc,
      Bool.and_comm (!v.event.isEnd)]
  simp only [List.filter_map, List.filter_filter, Function.comp_def, hchosen]

/-- But for the ends of scopes and types, a recorder writes down the same. -/
theorem filter_events :
    (r.events c).filter (fun e => !e.isEnd) = r.overriding.run c [] := by
  rw [events_eq, overriding_eq, Visitor.run_recording, Visit.written, Visit.written,
    List.filter_filter]
  rfl

/-- If nothing stops the walk, these are all events that are heard. -/
theorem run_overriding_of_not_prunes (h : ∀ hook, r.prunes hook = false) :
    r.overriding.run c [] = c.preorder.filter r.heard := by
  have hreached : c.openings.filter (Visit.isReached r.stopped) = c.openings := by
    rw [List.filter_eq_self]
    intro v _
    simp [Visit.isReached, stopped, h]
  rw [run_overriding, hreached, c.map_event_openings]

/-- If more hooks stop the walk, some events are missed and no others come in. -/
theorem sublist_run_overriding (hhears : r'.hears = r.hears)
    (hprunes : ∀ hook, r.prunes hook → r'.prunes hook) :
    (r'.overriding.run c []).Sublist (r.overriding.run c []) := by
  have hheard : r'.heard = r.heard := by
    funext e
    rw [heard, heard, hhears]
  have hstopped : ∀ e, r.stopped e → r'.stopped e := by
    intro e h
    rw [stopped, Bool.and_eq_true] at h ⊢
    exact ⟨hhears ▸ h.1, hprunes e.hook h.2⟩
  rw [run_overriding, run_overriding, hheard]
  apply List.Sublist.filter
  apply List.Sublist.map
  exact List.monotone_filter_right c.openings fun v => Visit.isReached_mono hstopped

end Recorder

/-- Any overriding of hooks that go on with the walk sees the events of the overridden hooks in the
order of the source, each once, and among them all members and using directives, if it asks for
them.  With hooks that do not go on, it misses the events in the walks that they omit and no others,
so that it sees fewer if more hooks do not go on. -/
theorem overriding_follows_source_order (c : Compilation) :
    (c.placed.map Prod.fst).Pairwise (· < ·) ∧
      (∀ position t, (position, t) ∈ c.placed ↔ c.trail? position = some t) ∧
      (∀ r : Recorder, (∀ hook, r.prunes hook = false) →
        r.overriding.run c [] = c.preorder.filter r.heard ∧
          (r.overriding.run c []).filter Recorder.leaves.heard =
            (c.placed.filterMap fun x => x.2.item.leaf?).filter r.heard) ∧
      c.openings.map Visit.event = c.preorder ∧
      (∀ r : Recorder, r.overriding.run c [] =
        ((c.openings.filter (Visit.isReached r.stopped)).map Visit.event).filter r.heard) ∧
      ∀ r r' : Recorder, r'.hears = r.hears → (∀ hook, r.prunes hook → r'.prunes hook) →
        (r'.overriding.run c []).Sublist (r.overriding.run c []) := by
  refine ⟨c.pairwise_placed, fun position t => c.mem_placed_iff, ?_, c.map_event_openings,
    fun r => r.run_overriding c, fun r r' => Recorder.sublist_run_overriding c⟩
  intro r hprunes
  have hrun := r.run_overriding_of_not_prunes c hprunes
  refine ⟨hrun, ?_⟩
  rw [hrun, List.filter_comm, c.filter_preorder]

/-- A file with a using directive, a namespace, and in it a type with a field and a method. -/
def wellFile : SourceFile :=
  ⟨"Well.cs",
    [.directive ⟨"Engine", none, false, .unknown⟩,
      .scope ⟨"Garden", .unknown⟩
        [.type ⟨"Well", [], [], .unknown⟩
          [.member (.field ⟨"Rope", ["rope"], [], [], .unknown⟩), .unknown],
          .member (.method ⟨"Dig", [], .unknown⟩)]]⟩

/-- All events of the file in source order, and those that are left without the walk over types. -/
theorem wellFile_source_order :
    ((Recorder.pruning []).overriding.run ⟨[wellFile]⟩ []).map Event.line =
        ["tree Well.cs", "children 2", "node Engine", "using Engine;", "node Garden",
          "namespace Garden", "children 2", "node Well", "type Well", "children 2", "node rope",
          "member rope", "node <unknown>", "node Dig", "member Dig"] ∧
      ((Recorder.pruning [.type]).overriding.run ⟨[wellFile]⟩ []).map Event.line =
        ["tree Well.cs", "children 2", "node Engine", "using Engine;", "node Garden",
          "namespace Garden", "children 2", "node Well", "type Well", "node Dig", "member Dig"] ∧
      (Recorder.pruning []).overriding.run ⟨[wellFile]⟩ [] =
        (Compilation.preorder ⟨[wellFile]⟩).filter (Recorder.pruning []).heard ∧
      ((Recorder.pruning [.type]).overriding.run ⟨[wellFile]⟩ []).Sublist
        ((Recorder.pruning []).overriding.run ⟨[wellFile]⟩ []) := by
  rcases overriding_follows_source_order ⟨[wellFile]⟩ with ⟨-, -, hall, -, -, hsublist⟩
  refine ⟨by decide +kernel, by decide +kernel, ?_, ?_⟩
  · exact (hall _ fun _ => rfl).1
  · exact hsublist _ _ rfl fun _ h => absurd h (by simp [Recorder.pruning])

end SceneWiring
