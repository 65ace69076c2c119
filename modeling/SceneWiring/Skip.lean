import SceneWiring.Declaration.Basic

/-!
# Skipped declarations

A member or a type for which no code can be written is skipped.  That stops nothing
else; the reason is reported under a stable code.

Main results:

- Definition `Skipped.message`: the line that the log gets.
-/

namespace SceneWiring

/-- Why no code is written for a member or a type. -/
inductive SkipReason
  | conflictingStrategies
  | unsupportedMemberKind
  | multipleVariables
  | unresolvedSymbol
  | notAssignable
  | notPartial
deriving DecidableEq, Repr

namespace SkipReason

/-- The stable code of a reason. -/
def code : SkipReason → String
  | .conflictingStrategies => "INJ001"
  | .unsupportedMemberKind => "INJ002"
  | .multipleVariables => "INJ003"
  | .unresolvedSymbol => "INJ004"
  | .notAssignable => "INJ005"
  | .notPartial => "INJ006"

/-- The name of a reason in a report. -/
def name : SkipReason → String
  | .conflictingStrategies => "conflicting-strategies"
  | .unsupportedMemberKind => "unsupported-member-kind"
  | .multipleVariables => "multiple-variables"
  | .unresolvedSymbol => "unresolved-symbol"
  | .notAssignable => "not-assignable"
  | .notPartial => "not-partial"

/-- All reasons, in the order of their codes. -/
def all : List SkipReason :=
  [.conflictingStrategies, .unsupportedMemberKind, .multipleVariables, .unresolvedSymbol,
   .notAssignable, .notPartial]

/-- A reason in words. -/
def sentence : SkipReason → String
  | .conflictingStrategies => "More than one lookup strategy marker on a single member."
  | .unsupportedMemberKind => "Only fields and properties can be injected."
  | .multipleVariables => "Injected fields must declare exactly one variable."
  | .unresolvedSymbol => "The semantic model returned no symbol for the member."
  | .notAssignable => "Member is const, readonly or has no setter."
  | .notPartial => "Enclosing type or one of its containing types is not declared partial."

end SkipReason

/-- A skipped member, or a skipped type if there is no member. -/
structure Skipped where
  reason : SkipReason
  typeName : String
  member : Option String
  file : String
  location : Location
deriving DecidableEq, Repr

namespace Skipped

/-- The stable code of the reason. -/
def code (s : Skipped) : String :=
  s.reason.code

/-- What was skipped. -/
def target (s : Skipped) : String :=
  match s.member with
  | some member => s.typeName ++ "." ++ member
  | none => s.typeName

/-- The line that the log gets. -/
def message (s : Skipped) : String :=
  "[" ++ s.code ++ "] skipped " ++ s.target ++ " (" ++ s.file ++ ":" ++
    toString s.location.line ++ ":" ++ toString s.location.column ++ "): " ++ s.reason.sentence

end Skipped
end SceneWiring
