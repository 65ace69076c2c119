import SceneWiring.CodeUnit
import SceneWiring.Resolution
import SceneWiring.Scan

/-!
# Reports

A report lists the units that were made and what was skipped.  Each type contributes
on its own: a rejected type is skipped as a whole, and every candidate of the others
gives a fragment or is skipped.  A type without fragments has no unit.

Main results:

- Definition `Contribution.ofOutcomes`: what a type contributes.
- Definition `Report.ofContributions`: the report of what all types contribute.
-/

namespace SceneWiring

/-! ## Types -/

/-- A scanned type with its surroundings. -/
def MarkedType.enclosing (t : MarkedType) : EnclosingType :=
  .ofParts t.parts t.containers (dottedPath t.namespaces) t.usings

/-- Whether a type is rejected because code cannot be added to it. -/
def MarkedType.isRejected (options : Options) (t : MarkedType) : Bool :=
  options.requirePartial && !t.enclosing.isPartial

/-- The entry of a rejected type. -/
def MarkedType.rejection (t : MarkedType) : Skipped where
  reason := .notPartial
  typeName := t.enclosing.name
  member := none
  file := t.file
  location := t.first.location

/-! ## Candidates -/

/-- What becomes of a candidate. -/
inductive Outcome
  | fragment (f : Fragment)
  | skipped (s : Skipped)
  /-- No code was asked for. -/
  | unmarked
deriving DecidableEq, Repr

namespace Outcome

/-- The fragment, if there is one. -/
def fragment? : Outcome → Option Fragment
  | .fragment f => some f
  | _ => none

/-- The entry of a skipped candidate. -/
def skipped? : Outcome → Option Skipped
  | .skipped s => some s
  | _ => none

end Outcome

/-- The entry of a candidate of the given type that is skipped. -/
def Candidate.skip (c : Candidate) (typeName : String) (reason : SkipReason) : Skipped where
  reason := reason
  typeName := typeName
  member := some c.member.label
  file := c.file
  location := c.member.location

/-- What becomes of a candidate of the given type. -/
def Candidate.outcome (options : Options) (model : SemanticModel) (typeName : String)
    (c : Candidate) : Outcome :=
  match c.member.resolve options model typeName with
  | .ok (some injection) => .fragment injection.fragment
  | .ok none => .unmarked
  | .error reason => .skipped (c.skip typeName reason)

/-! ## Contributions of types -/

/-- What a type contributes to a report. -/
structure Contribution where
  unit : Option CodeUnit
  skipped : List Skipped
deriving DecidableEq, Repr

/-- The contribution of a rejected type. -/
def Contribution.ofRejected (t : MarkedType) : Contribution :=
  ⟨none, [t.rejection]⟩

/-- The contribution of a type, from what became of its candidates. -/
def Contribution.ofOutcomes (options : Options) (t : MarkedType) (outcomes : List Outcome) :
    Contribution :=
  let fragments := outcomes.filterMap Outcome.fragment?
  { unit :=
      if fragments.isEmpty then none
      else some (CodeUnit.assemble t.enclosing fragments options)
    skipped := outcomes.filterMap Outcome.skipped? }

/-! ## Reports -/

/-- The units that were made and what was skipped. -/
structure Report where
  units : List CodeUnit
  skipped : List Skipped
deriving DecidableEq, Repr

namespace Report

/-- The report of what all types contribute. -/
def ofContributions (contributions : List Contribution) : Report where
  units := qualifyShared (contributions.filterMap Contribution.unit)
  skipped := contributions.flatMap Contribution.skipped

/-- The first unit with a key. -/
def unit? (r : Report) (key : String) : Option CodeUnit :=
  r.units.find? fun u => u.key == key

end Report

/-- The line that the log gets for a unit. -/
def CodeUnit.logLine (u : CodeUnit) : String :=
  "generated " ++ u.key ++ " (" ++ toString u.fragmentCount ++ " fragments, hook " ++ u.hook ++ ")"

end SceneWiring
