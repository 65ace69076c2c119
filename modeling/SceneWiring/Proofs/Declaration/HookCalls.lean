import SceneWiring.Proofs.Declaration.SourceOrder
import Mathlib.Data.List.Forall2

/-!
# Calls of hooks

A scanner changes its state where the walk goes into a file, a namespace or a type, where it comes
out again, and at members.  If its walk is watched, every call of a hook is written down, with the
states of the scanner before and after it.  What the single steps keep can then be said of all calls
of all hooks, however deep the walk is when they are made.

Main results:

- Definition `ScanSteps.calls`: the calls of hooks in the walk over a compilation.
- Theorem `run_watched`: watching a walk does not change it.
- Theorem `map_event_calls`: the calls are made at all events of the compilation, in source order.
- Theorem `Simulates.calls`: a relation that the steps of two scanners keep holds at all calls.
- Theorem `Restores.calls`: what going out restores is after each call what it was before.
-/

namespace SceneWiring

/-! ## Scanners in steps -/

/-- What a scanner does to its state in the course of a walk. -/
structure ScanSteps (σ : Type) where
  enterFile : SourceFile → σ → σ
  enterScope : ScopeHead → σ → σ
  leaveScope : σ → σ
  enterType : TypePart → σ → σ
  leaveType : σ → σ
  addMember : Member → σ → σ

/-- A call of a hook, with the states before and after it. -/
structure HookCall (σ : Type) where
  event : Event
  before : σ
  after : σ

/-- A state and the calls that are written down. -/
abbrev Watched (σ : Type) :=
  σ × List (HookCall σ)

section

variable {σ τ α : Type}

/-- The visitor that takes the steps of a scanner. -/
def ScanSteps.visitor (k : ScanSteps σ) : Visitor σ where
  file := fun f walk s => walk (k.enterFile f s)
  scope := fun head walk s => k.leaveScope (walk (k.enterScope head s))
  type := fun part walk s => k.leaveType (walk (k.enterType part s))
  member := k.addMember

/-- The same steps, with calls that they leave as they are. -/
def ScanSteps.besideCalls (k : ScanSteps σ) : ScanSteps (Watched σ) where
  enterFile f := Prod.map (k.enterFile f) id
  enterScope head := Prod.map (k.enterScope head) id
  leaveScope := Prod.map k.leaveScope id
  enterType part := Prod.map (k.enterType part) id
  leaveType := Prod.map k.leaveType id
  addMember m := Prod.map (k.addMember m) id

/-- A hook whose call is written down, in front of those that are made in its course. -/
def watch (e : Event) (hook : Watched σ → Watched σ) (x : Watched σ) : Watched σ :=
  let done := hook (x.1, [])
  (done.1, x.2 ++ ⟨e, x.1, done.1⟩ :: done.2)

/-- The visitor that watches the hooks of another one. -/
def Visitor.watching (v : Visitor (Watched σ)) : Visitor (Watched σ) where
  file f walk := watch (.file f) (v.file f walk)
  node d walk := watch (.node d) (v.node d walk)
  scope head walk := watch (.scope head) (v.scope head walk)
  type part walk := watch (.type part) (v.type part walk)
  children members walk := watch (.children members) (v.children members walk)
  member m := watch (.member m) (v.member m)
  directive u := watch (.directive u) (v.directive u)

namespace ScanSteps

variable (k : ScanSteps σ)

/-- The visitor that takes the steps of a scanner and is watched. -/
def watched : Visitor (Watched σ) :=
  k.besideCalls.visitor.watching

/-- The calls of hooks in the walk of a scanner over a compilation. -/
def calls (c : Compilation) (s : σ) : List (HookCall σ) :=
  (k.watched.run c (s, [])).2

end ScanSteps

/-! ## The calls of a walk -/

mutual

/-- The calls in the walk over a declaration. -/
def Decl.calls (k : ScanSteps σ) : Decl → σ → List (HookCall σ)
  | .scope head members, s =>
    let inside := k.enterScope head s
    let walked := k.visitor.runAll members inside
    ⟨.node (.scope head members), s, k.leaveScope walked⟩ ::
      ⟨.scope head, s, k.leaveScope walked⟩ ::
        ⟨.children members, inside, walked⟩ :: Decl.callsAll k members inside
  | .type part members, s =>
    let inside := k.enterType part s
    let walked := k.visitor.runAll members inside
    ⟨.node (.type part members), s, k.leaveType walked⟩ ::
      ⟨.type part, s, k.leaveType walked⟩ ::
        ⟨.children members, inside, walked⟩ :: Decl.callsAll k members inside
  | .member m, s =>
    [⟨.node (.member m), s, k.addMember m s⟩, ⟨.member m, s, k.addMember m s⟩]
  | .directive u, s => [⟨.node (.directive u), s, s⟩, ⟨.directive u, s, s⟩]
  | .unknown, s => [⟨.node .unknown, s, s⟩]

/-- The calls in the walk over declarations. -/
def Decl.callsAll (k : ScanSteps σ) : List Decl → σ → List (HookCall σ)
  | [], _ => []
  | d :: ds, s => d.calls k s ++ Decl.callsAll k ds (k.visitor.runNode d s)

end

/-- The calls in the walk over a file. -/
def SourceFile.calls (k : ScanSteps σ) (f : SourceFile) (s : σ) : List (HookCall σ) :=
  let inside := k.enterFile f s
  let walked := k.visitor.runAll f.members inside
  ⟨.file f, s, walked⟩ :: ⟨.children f.members, inside, walked⟩ :: Decl.callsAll k f.members inside

/-- The calls in the walk over files. -/
def SourceFile.callsAll (k : ScanSteps σ) : List SourceFile → σ → List (HookCall σ)
  | [], _ => []
  | f :: files, s => f.calls k s ++ SourceFile.callsAll k files (k.visitor.runFile f s)

/-- A hook in whose course calls are written down, watched. -/
theorem watch_eq {e : Event} {hook : Watched σ → Watched σ} {s after : σ}
    {within : List (HookCall σ)} (h : ∀ log, hook (s, log) = (after, log ++ within))
    (log : List (HookCall σ)) :
    watch e hook (s, log) = (after, log ++ ⟨e, s, after⟩ :: within) := by
  rw [watch, h []]
  rfl

namespace ScanSteps

variable {k : ScanSteps σ}

mutual

/-- Watched, the walk over a declaration is the same, and its calls are written down. -/
theorem runNode_watched : ∀ (d : Decl) (s : σ) (log : List (HookCall σ)),
    k.watched.runNode d (s, log) = (k.visitor.runNode d s, log ++ d.calls k s)
  | .scope head members, s, log => by
      have hmembers := runAll_watched members (k.enterScope head s)
      refine watch_eq (watch_eq fun log => ?_) log
      exact congrArg (Prod.map k.leaveScope id) (watch_eq hmembers log)
  | .type part members, s, log => by
      have hmembers := runAll_watched members (k.enterType part s)
      refine watch_eq (watch_eq fun log => ?_) log
      exact congrArg (Prod.map k.leaveType id) (watch_eq hmembers log)
  | .member m, s, log =>
      watch_eq (watch_eq fun log => congrArg (_, ·) (List.append_nil log).symm) log
  | .directive u, s, log =>
      watch_eq (watch_eq fun log => congrArg (_, ·) (List.append_nil log).symm) log
  | .unknown, s, log => watch_eq (fun log => congrArg (_, ·) (List.append_nil log).symm) log

theorem runAll_watched : ∀ (ds : List Decl) (s : σ) (log : List (HookCall σ)),
    k.watched.runAll ds (s, log) = (k.visitor.runAll ds s, log ++ Decl.callsAll k ds s)
  | [], s, log => congrArg (_, ·) (List.append_nil log).symm
  | d :: ds, s, log => by
      rw [Visitor.runAll_cons, runNode_watched d, runAll_watched ds, Visitor.runAll_cons,
        Decl.callsAll, List.append_assoc]

end

theorem runFile_watched (f : SourceFile) (s : σ) (log : List (HookCall σ)) :
    k.watched.runFile f (s, log) = (k.visitor.runFile f s, log ++ f.calls k s) := by
  have hmembers := runAll_watched (k := k) f.members (k.enterFile f s)
  refine watch_eq (fun log => ?_) log
  exact watch_eq hmembers log

/-- Watched, the walk over a compilation is the same, and its calls are written down. -/
theorem run_watched (c : Compilation) (s : σ) :
    k.watched.run c (s, []) = (k.visitor.run c s, SourceFile.callsAll k c.files s) := by
  have hfiles : ∀ (files : List SourceFile) (s : σ) (log : List (HookCall σ)),
      files.foldl (fun x f => k.watched.runFile f x) (s, log) =
        (files.foldl (fun s f => k.visitor.runFile f s) s,
          log ++ SourceFile.callsAll k files s) := by
    intro files
    induction files with
    | nil => exact fun s log => congrArg (s, ·) (List.append_nil log).symm
    | cons f files ih =>
        intro s log
        rw [List.foldl_cons, runFile_watched, ih, List.foldl_cons, SourceFile.callsAll,
          List.append_assoc]
  exact hfiles c.files s []

theorem calls_eq (c : Compilation) (s : σ) : k.calls c s = SourceFile.callsAll k c.files s :=
  congrArg Prod.snd (run_watched c s)

end ScanSteps

/-! ## Where calls are made -/

theorem Visit.map_event_opening (e : Event) (below : List Visit) :
    (opening e below).map Visit.event = e :: below.map Visit.event := by
  rw [opening, List.map_cons, List.map_map]
  rfl

section

variable (k : ScanSteps σ)

mutual

/-- In the walk over a declaration, there is a call for every event but the ends. -/
theorem Decl.map_event_calls : ∀ (d : Decl) (s : σ),
    (d.calls k s).map HookCall.event = (d.visits.filter Visit.isOpening).map Visit.event
  | .scope head members, s => by
      rw [Decl.visits, Visit.filter_opening rfl, Visit.map_event_opening, List.filter_append,
        Visit.filter_opening rfl, Visit.filter_opening rfl, List.map_append,
        Visit.map_event_opening, Visit.map_event_opening, ← Decl.map_event_callsAll members]
      exact congrArg (_ :: ·) (List.append_nil _).symm
  | .type part members, s => by
      rw [Decl.visits, Visit.filter_opening rfl, Visit.map_event_opening, List.filter_append,
        Visit.filter_opening rfl, Visit.filter_opening rfl, List.map_append,
        Visit.map_event_opening, Visit.map_event_opening, ← Decl.map_event_callsAll members]
      exact congrArg (_ :: ·) (List.append_nil _).symm
  | .member _, _ => rfl
  | .directive _, _ => rfl
  | .unknown, _ => rfl

theorem Decl.map_event_callsAll : ∀ (ds : List Decl) (s : σ),
    (Decl.callsAll k ds s).map HookCall.event =
      ((Decl.visitsAll ds).filter Visit.isOpening).map Visit.event
  | [], _ => rfl
  | d :: ds, s => by
      rw [Decl.callsAll, List.map_append, Decl.map_event_calls d, Decl.map_event_callsAll ds,
        Decl.visitsAll, List.filter_append, List.map_append]

end

/-- The hooks are called at the events of the compilation, in source order. -/
theorem ScanSteps.map_event_calls (c : Compilation) (s : σ) :
    (k.calls c s).map HookCall.event = c.preorder := by
  have hfiles : ∀ (files : List SourceFile) (s : σ),
      (SourceFile.callsAll k files s).map HookCall.event =
        ((files.flatMap SourceFile.visits).filter Visit.isOpening).map Visit.event := by
    intro files
    induction files with
    | nil => exact fun _ => rfl
    | cons f files ih =>
        intro s
        rw [SourceFile.callsAll, List.map_append, ih, List.flatMap_cons, List.filter_append,
          List.map_append, SourceFile.visits, Visit.filter_opening rfl, Visit.map_event_opening,
          Visit.filter_opening rfl, Visit.map_event_opening, ← Decl.map_event_callsAll k]
        rfl
  rw [calls_eq, hfiles, ← c.map_event_openings, ← c.filter_visits, Compilation.visits]

end

/-! ## Two scanners side by side -/

/-- A relation between the states of two scanners that their steps keep. -/
structure ScanSteps.Simulates (R : σ → τ → Prop) (k : ScanSteps σ) (k' : ScanSteps τ) : Prop where
  enterFile : ∀ {s s'}, R s s' → ∀ f, R (k.enterFile f s) (k'.enterFile f s')
  enterScope : ∀ {s s'}, R s s' → ∀ head, R (k.enterScope head s) (k'.enterScope head s')
  leaveScope : ∀ {s s'}, R s s' → R (k.leaveScope s) (k'.leaveScope s')
  enterType : ∀ {s s'}, R s s' → ∀ part, R (k.enterType part s) (k'.enterType part s')
  leaveType : ∀ {s s'}, R s s' → R (k.leaveType s) (k'.leaveType s')
  addMember : ∀ {s s'}, R s s' → ∀ m, R (k.addMember m s) (k'.addMember m s')

/-- Calls of one hook whose states are related. -/
structure HookCall.Related (R : σ → τ → Prop) (x : HookCall σ) (y : HookCall τ) : Prop where
  event_eq : x.event = y.event
  before : R x.before y.before
  after : R x.after y.after

namespace ScanSteps.Simulates

variable {R : σ → τ → Prop} {k : ScanSteps σ} {k' : ScanSteps τ}

mutual

/-- The walks over a declaration keep the relation. -/
theorem runNode (h : Simulates R k k') : ∀ (d : Decl) {s : σ} {s' : τ}, R s s' →
    R (k.visitor.runNode d s) (k'.visitor.runNode d s')
  | .scope head members, _, _, hs => h.leaveScope (runAll h members (h.enterScope hs head))
  | .type part members, _, _, hs => h.leaveType (runAll h members (h.enterType hs part))
  | .member m, _, _, hs => h.addMember hs m
  | .directive _, _, _, hs => hs
  | .unknown, _, _, hs => hs

theorem runAll (h : Simulates R k k') : ∀ (ds : List Decl) {s : σ} {s' : τ}, R s s' →
    R (k.visitor.runAll ds s) (k'.visitor.runAll ds s')
  | [], _, _, hs => hs
  | d :: ds, _, _, hs => runAll h ds (runNode h d hs)

end

theorem runFile (h : Simulates R k k') (f : SourceFile) {s : σ} {s' : τ} (hs : R s s') :
    R (k.visitor.runFile f s) (k'.visitor.runFile f s') :=
  h.runAll f.members (h.enterFile hs f)

/-- The walks over a compilation keep the relation. -/
theorem run (h : Simulates R k k') (c : Compilation) {s : σ} {s' : τ} (hs : R s s') :
    R (k.visitor.run c s) (k'.visitor.run c s') := by
  have hfiles : ∀ (files : List SourceFile) {s : σ} {s' : τ}, R s s' →
      R (files.foldl (fun s f => k.visitor.runFile f s) s)
        (files.foldl (fun s f => k'.visitor.runFile f s) s') := by
    intro files
    induction files with
    | nil => exact id
    | cons f files ih => exact fun hs => ih (h.runFile f hs)
  exact hfiles c.files hs

mutual

/-- The relation holds at all calls in the walks over a declaration. -/
theorem declCalls (h : Simulates R k k') : ∀ (d : Decl) {s : σ} {s' : τ}, R s s' →
    List.Forall₂ (HookCall.Related R) (d.calls k s) (d.calls k' s')
  | .scope head members, _, _, hs =>
      have hinside := h.enterScope hs head
      have hwalked := h.runAll members hinside
      .cons ⟨rfl, hs, h.leaveScope hwalked⟩ (.cons ⟨rfl, hs, h.leaveScope hwalked⟩
        (.cons ⟨rfl, hinside, hwalked⟩ (declCallsAll h members hinside)))
  | .type part members, _, _, hs =>
      have hinside := h.enterType hs part
      have hwalked := h.runAll members hinside
      .cons ⟨rfl, hs, h.leaveType hwalked⟩ (.cons ⟨rfl, hs, h.leaveType hwalked⟩
        (.cons ⟨rfl, hinside, hwalked⟩ (declCallsAll h members hinside)))
  | .member m, _, _, hs =>
      .cons ⟨rfl, hs, h.addMember hs m⟩ (.cons ⟨rfl, hs, h.addMember hs m⟩ .nil)
  | .directive _, _, _, hs => .cons ⟨rfl, hs, hs⟩ (.cons ⟨rfl, hs, hs⟩ .nil)
  | .unknown, _, _, hs => .cons ⟨rfl, hs, hs⟩ .nil

theorem declCallsAll (h : Simulates R k k') : ∀ (ds : List Decl) {s : σ} {s' : τ}, R s s' →
    List.Forall₂ (HookCall.Related R) (Decl.callsAll k ds s) (Decl.callsAll k' ds s')
  | [], _, _, _ => .nil
  | d :: ds, _, _, hs => List.rel_append (declCalls h d hs) (declCallsAll h ds (h.runNode d hs))

end

/-- The relation holds at all calls in the walks over a compilation. -/
theorem calls (h : Simulates R k k') (c : Compilation) {s : σ} {s' : τ} (hs : R s s') :
    List.Forall₂ (HookCall.Related R) (k.calls c s) (k'.calls c s') := by
  have hfiles : ∀ (files : List SourceFile) {s : σ} {s' : τ}, R s s' →
      List.Forall₂ (HookCall.Related R) (SourceFile.callsAll k files s)
        (SourceFile.callsAll k' files s') := by
    intro files
    induction files with
    | nil => exact fun _ => .nil
    | cons f files ih =>
        intro s s' hs
        have hinside := h.enterFile hs f
        have hwalked := h.runFile f hs
        have hf : List.Forall₂ (HookCall.Related R) (f.calls k s) (f.calls k' s') :=
          .cons ⟨rfl, hs, hwalked⟩ (.cons ⟨rfl, hinside, hwalked⟩ (h.declCallsAll _ hinside))
        exact List.rel_append hf (ih hwalked)
  rw [calls_eq, calls_eq]
  exact hfiles c.files hs

end ScanSteps.Simulates

/-! ## What is restored -/

/-- Something that going out of a namespace or a type restores, and that files and members leave as
it is. -/
structure ScanSteps.Restores (view : σ → α) (k : ScanSteps σ) : Prop where
  enterFile : ∀ f s, view (k.enterFile f s) = view s
  leaveScope : ∀ head {s walked}, view walked = view (k.enterScope head s) →
    view (k.leaveScope walked) = view s
  leaveType : ∀ part {s walked}, view walked = view (k.enterType part s) →
    view (k.leaveType walked) = view s
  addMember : ∀ m s, view (k.addMember m s) = view s

/-- A call after which something is what it was before. -/
def HookCall.Keeps (view : σ → α) (x : HookCall σ) : Prop :=
  view x.after = view x.before

namespace HookCall.Related

variable {R R' : σ → τ → Prop} {x : HookCall σ} {y : HookCall τ}

theorem imp (h : Related R x y) (hR : ∀ {s s'}, R s s' → R' s s') : Related R' x y :=
  ⟨h.event_eq, hR h.before, hR h.after⟩

/-- If related states show the same, what the calls of one scanner keep is kept by those of the
other. -/
theorem forall_keeps {β : Type} {view : σ → α} {view' : τ → β}
    (hview : ∀ {s₁ s₂ : σ} {s₁' s₂' : τ}, R s₁ s₁' → R s₂ s₂' → view' s₁' = view' s₂' →
      view s₁ = view s₂)
    {xs : List (HookCall σ)} {ys : List (HookCall τ)} (h : List.Forall₂ (Related R) xs ys)
    (hkeeps : ∀ y ∈ ys, y.Keeps view') : ∀ x ∈ xs, x.Keeps view := by
  induction h with
  | nil => exact fun _ hx => absurd hx List.not_mem_nil
  | cons hxy _ ih =>
      rw [List.forall_mem_cons] at hkeeps ⊢
      exact ⟨hview hxy.after hxy.before hkeeps.1, ih hkeeps.2⟩

end HookCall.Related

namespace ScanSteps.Restores

variable {view : σ → α} {k : ScanSteps σ}

mutual

theorem runNode (h : Restores view k) : ∀ (d : Decl) (s : σ),
    view (k.visitor.runNode d s) = view s
  | .scope head members, _ => h.leaveScope head (runAll h members _)
  | .type part members, _ => h.leaveType part (runAll h members _)
  | .member m, s => h.addMember m s
  | .directive _, _ => rfl
  | .unknown, _ => rfl

theorem runAll (h : Restores view k) : ∀ (ds : List Decl) (s : σ),
    view (k.visitor.runAll ds s) = view s
  | [], _ => rfl
  | d :: ds, s => (runAll h ds _).trans (runNode h d s)

end

mutual

/-- Every call in the walk over a declaration restores it. -/
theorem declCalls (h : Restores view k) : ∀ (d : Decl) (s : σ), ∀ x ∈ d.calls k s, x.Keeps view
  | .scope head members, s => by
      have hwalked := h.runAll members (k.enterScope head s)
      rw [Decl.calls, List.forall_mem_cons, List.forall_mem_cons, List.forall_mem_cons]
      exact ⟨h.leaveScope head hwalked, h.leaveScope head hwalked, hwalked,
        declCallsAll h members _⟩
  | .type part members, s => by
      have hwalked := h.runAll members (k.enterType part s)
      rw [Decl.calls, List.forall_mem_cons, List.forall_mem_cons, List.forall_mem_cons]
      exact ⟨h.leaveType part hwalked, h.leaveType part hwalked, hwalked,
        declCallsAll h members _⟩
  | .member m, s => by
      rw [Decl.calls, List.forall_mem_cons, List.forall_mem_singleton]
      exact ⟨h.addMember m s, h.addMember m s⟩
  | .directive u, s => by
      rw [Decl.calls, List.forall_mem_cons, List.forall_mem_singleton]
      exact ⟨rfl, rfl⟩
  | .unknown, s => by
      rw [Decl.calls, List.forall_mem_singleton]
      exact rfl

theorem declCallsAll (h : Restores view k) : ∀ (ds : List Decl) (s : σ),
    ∀ x ∈ Decl.callsAll k ds s, x.Keeps view
  | [], _ => fun _ hx => absurd hx List.not_mem_nil
  | d :: ds, s => by
      rw [Decl.callsAll, List.forall_mem_append]
      exact ⟨declCalls h d s, declCallsAll h ds _⟩

end

/-- Every call in the walk over a compilation restores it. -/
theorem calls (h : Restores view k) (c : Compilation) (s : σ) :
    ∀ x ∈ k.calls c s, x.Keeps view := by
  have hfiles : ∀ (files : List SourceFile) (s : σ),
      ∀ x ∈ SourceFile.callsAll k files s, x.Keeps view := by
    intro files
    induction files with
    | nil => exact fun _ _ hx => absurd hx List.not_mem_nil
    | cons f files ih =>
        intro s
        have hwalked := h.runAll f.members (k.enterFile f s)
        rw [SourceFile.callsAll, List.forall_mem_append, SourceFile.calls, List.forall_mem_cons,
          List.forall_mem_cons]
        exact ⟨⟨hwalked.trans (h.enterFile f s), hwalked, h.declCallsAll _ _⟩, ih _⟩
  rw [calls_eq]
  exact hfiles c.files s

end ScanSteps.Restores
end
end SceneWiring
