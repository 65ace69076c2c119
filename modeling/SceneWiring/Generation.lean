import SceneWiring.Declaration.Document
import SceneWiring.Report

/-!
# Generation

A run works through the types in the order in which they were found and through the
candidates of each in source order.  It writes a line to the log for everything that is
skipped and, at the end, for every unit.

A run can be cancelled.  Whoever wants to cancel it does so while the model is being
asked, or before the run starts; the run looks before each candidate and stops if it
was cancelled.  A cancelled run has no report, whatever was finished before.

Main results:

- Definition `run`: a run with a cancellation after a number of questions.
- Definition `generate`: a run that nobody cancels.
-/

namespace SceneWiring

/-! ## Errors -/

/-- Why there is no report. -/
inductive GenerationError
  | invalidInput (p : Json.Problem)
  | cancelled
deriving DecidableEq, Repr

/-- An error in words. -/
def GenerationError.message : GenerationError → String
  | .invalidInput p => "Invalid input document: " ++ p.message
  | .cancelled => "Generation cancelled"

/-! ## Progress -/

/-- How far a run has come. -/
structure Progress where
  /-- How often the model was asked. -/
  questions : Nat := 0
  /-- The lines written to the log. -/
  lines : List String := []
deriving DecidableEq, Repr

namespace Progress

/-- The progress after a line. -/
def log (line : String) (p : Progress) : Progress :=
  { p with lines := p.lines ++ [line] }

/-- The progress after a candidate. -/
def afterCandidate (c : Candidate) (outcome : Outcome) (p : Progress) : Progress :=
  { questions := p.questions + if c.member.asksModel then 1 else 0
    lines := p.lines ++ (outcome.skipped?.map Skipped.message).toList }

end Progress

/-- Whether a run that is cancelled during the given question has been cancelled; at
zero it is cancelled before it starts. -/
def isCancelled (cancelAt : Option Nat) (p : Progress) : Bool :=
  cancelAt.any fun n => n ≤ p.questions

/-! ## Working through types and candidates -/

/-- What becomes of candidates in order, or nothing if the run is cancelled. -/
def workCandidates (cancelAt : Option Nat) (decide : Candidate → Outcome) :
    List Candidate → Progress → Progress × Option (List Outcome)
  | [], p => (p, some [])
  | c :: rest, p =>
    if isCancelled cancelAt p then (p, none)
    else
      let outcome := decide c
      let (q, outcomes) := workCandidates cancelAt decide rest (p.afterCandidate c outcome)
      (q, outcomes.map (outcome :: ·))

/-- What a type contributes, or nothing if the run is cancelled. -/
def workType (cancelAt : Option Nat) (options : Options) (model : SemanticModel)
    (t : MarkedType) (p : Progress) : Progress × Option Contribution :=
  if t.isRejected options then
    (p.log t.rejection.message, some (.ofRejected t))
  else
    let decide := Candidate.outcome options model t.enclosing.name
    let (q, outcomes) := workCandidates cancelAt decide t.candidates p
    (q, outcomes.map (Contribution.ofOutcomes options t))

/-- What types contribute in order, or nothing if the run is cancelled. -/
def workTypes (cancelAt : Option Nat) (options : Options) (model : SemanticModel) :
    List MarkedType → Progress → Progress × Option (List Contribution)
  | [], p => (p, some [])
  | t :: rest, p =>
    match workType cancelAt options model t p with
    | (q, none) => (q, none)
    | (q, some contribution) =>
      let (r, contributions) := workTypes cancelAt options model rest q
      (r, contributions.map (contribution :: ·))

/-! ## Runs -/

/-- A finished run. -/
structure Run where
  /-- The lines written to the log. -/
  lines : List String
  result : Except GenerationError Report

/-- A run that is cancelled during the given question to the model, if at all. -/
def run (options : Options) (model : SemanticModel) (cancelAt : Option Nat)
    (c : Compilation) : Run :=
  match workTypes cancelAt options model c.scan {} with
  | (p, none) => ⟨p.lines, .error .cancelled⟩
  | (p, some contributions) =>
    let report := Report.ofContributions contributions
    ⟨p.lines ++ report.units.map CodeUnit.logLine, .ok report⟩

/-- A run that nobody cancels. -/
def generate (options : Options) (model : SemanticModel) (c : Compilation) : Run :=
  run options model none c

/-- The report of a compilation given as text; the options are read first. -/
def generateFromText (compilation : String) (options : Option String) :
    Except GenerationError Report := do
  let options ← match options with
    | some text => (Options.ofText text).mapError GenerationError.invalidInput
    | none => .ok Options.default
  let compilation ← (Compilation.ofText compilation).mapError GenerationError.invalidInput
  (generate options .ofDeclarations compilation).result

end SceneWiring
