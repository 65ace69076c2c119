import SceneWiring.Skip

/-!
# Signatures

A statement needs one member to assign to and the type of that member.  Fields with
several variables, members that cannot be assigned to, and methods have none.
-/

namespace SceneWiring

/-- The type and the name of a member that can be assigned to. -/
structure Signature where
  type : String
  name : String
deriving DecidableEq, Repr

/-- The modifiers of fields that cannot be assigned to. -/
def fixedModifiers : List String :=
  ["const", "readonly"]

/-- The signature of a member, or why it has none. -/
def Member.signature : Member → Except SkipReason Signature
  | .field f =>
    match f.variableNames with
    | [declared] =>
      if f.modifiers.any fun m => fixedModifiers.contains (Text.trim m) then
        .error .notAssignable
      else .ok ⟨Text.trim f.type, Text.trim declared⟩
    | _ => .error .multipleVariables
  | .property p =>
    if p.hasSetter then .ok ⟨Text.trim p.type, Text.trim p.name⟩ else .error .notAssignable
  | .method _ => .error .unsupportedMemberKind

/-- The signature of a declaration, or why it has none. -/
def Decl.signature (d : Decl) : Except SkipReason Signature :=
  match d.member? with
  | some m => m.signature
  | none => .error .unsupportedMemberKind

end SceneWiring
