import SceneWiring.Proofs.Literal.Reading
import SceneWiring.Proofs.Literal.Writing
import SceneWiring.Proofs.Marker.Parameter
import SceneWiring.Report

/-!
# From arguments to generated code

Every text is read back as it was written, separators included, since reading does not mind
the ends of lines.  So a text that comes as a literal in the argument of a strategy stands in
the lookup of the member as the same literal.

Main results:

- Theorem `reads_writePiece`: a written piece is read as its character.
- Definition `Strategy.literalFrame?`: the code around the text of a strategy.
- Theorem `render_lookup_of_frame`: a lookup holds its text as a literal.
- Theorem `literal_reaches_lookup`: texts survive from the argument to the lookup.
-/

namespace SceneWiring

namespace Literal

/-! ## Reading what was written -/

/-- A written piece is read as its character. -/
theorem reads_writePiece (c : Char) : (writePiece c).reads = [c] := by
  have hcode : (writePiece c).code = c.toNat := by
    rcases writePiece_cases c with ⟨letter, -, heq⟩ | ⟨hcontrol, heq⟩ | ⟨-, -, -, heq⟩
    · rw [heq, Piece.code]
    · rw [heq, Piece.code, number_padded_of_isControl hcontrol]
    · rw [heq, Piece.code]
  have hhalf : (writePiece c).isHalf = false := by
    rw [isHalf_eq (isShaped_writePiece c), hcode]
    exact (Text.Utf16.isValidChar_iff.mp c.valid).2
  rw [Piece.reads, if_neg (by simp [hhalf]), hcode, Char.ofNat_toNat]

/-- Every text is read back from its regular literal. -/
theorem read_write (s : String) : read (write s) = s := by
  have hnone : ∀ c ∈ ([] : List Char), Text.isBlank c := by simp
  have hread := readChars_regular hnone hnone (shaped_write s.toList)
  rw [List.append_nil, List.nil_append, ← toList_write, List.flatMap_map] at hread
  apply String.toList_inj.mp
  rw [toList_read, hread]
  simp [reads_writePiece]

/-- Every text is read back from its verbatim literal. -/
theorem read_verbatim (s : String) : read (String.ofList (verbatim s.toList)) = s := by
  have hnone : ∀ c ∈ ([] : List Char), Text.isBlank c := by simp
  have hread := readChars_verbatim hnone hnone s.toList
  apply String.toList_inj.mp
  simpa using hread

end Literal

/-! ## Literals in lookups -/

/-- The code before and after the text that a strategy takes, if it takes one: the name or
the tag of an object, or the path of an asset. -/
def Strategy.literalFrame? (many : Bool) (target : String) : Strategy → Option (String × String)
  | .getByName =>
    some ("UnityEngine.Object.FindObjectsOfType<" ++ target ++ ">()" ++
      (if many then ".Where(" else ".FirstOrDefault(") ++ "c => c.name == ", ")")
  | .getByTag =>
    some ("UnityEngine.Object.FindObjectsOfType<" ++ target ++ ">()" ++
      (if many then ".Where(" else ".FirstOrDefault(") ++ "c => c.CompareTag(", "))")
  | .getInAssets =>
    some ((if many then "Resources.LoadAll<" else "Resources.Load<") ++ target ++ ">(", ")")
  | .get => none
  | .getInChildren => none
  | .getInParent => none

/-- A strategy that takes a text has a parameter. -/
theorem Strategy.isSome_argumentName {strategy : Strategy} {many : Bool} {target : String}
    {frame : String × String} (h : strategy.literalFrame? many target = some frame) :
    strategy.argumentName.isSome := by
  cases strategy
  case getByName | getByTag | getInAssets => rfl
  all_goals exact absurd h (by simp [literalFrame?])

/-- A lookup with a parameter holds it as a literal. -/
theorem render_lookup_of_frame {i : Injection} {target before after text : String}
    (hframe : i.markers.strategy.literalFrame? i.shape.holdsMany target = some (before, after))
    (hparameter : i.parameter = some text) :
    (i.lookup target).render = before ++ Literal.write text ++ after := by
  have hobjects : sceneObjects ++ "." ++ "FindObjectsOfType" ++ "<" =
      "UnityEngine.Object.FindObjectsOfType<" := rfl
  have hassets : (if i.shape.holdsMany then assets ++ "." ++ "LoadAll" ++ "<"
      else assets ++ "." ++ "Load" ++ "<") =
        if i.shape.holdsMany then "Resources.LoadAll<" else "Resources.Load<" := rfl
  rw [Injection.lookup]
  cases hstrategy : i.markers.strategy
  all_goals rw [hstrategy] at hframe
  case getByName =>
      cases hframe
      rw [Lookup.render_select, Call.render_nil, hobjects, hparameter]
      simp only [Option.getD_some, String.append_assoc]
  case getByTag =>
      have hclose : ")" ++ ")" = "))" := rfl
      cases hframe
      simp only [hparameter]
      rw [Lookup.render_select, Call.render_nil, hobjects]
      simp only [String.append_assoc, hclose]
  case getInAssets =>
      cases hframe
      simp only [hparameter]
      rw [Lookup.render_oneOrMany, ← hassets]
      cases i.shape.holdsMany with
      | false => exact Call.render_singleton _ _ _ _
      | true => exact Call.render_singleton _ _ _ _
  all_goals cases hframe

/-- A member with a single strategy that takes a text has that text as its parameter if it is
the first argument without a name. -/
theorem Member.resolve_of_single {m : Member} {a : Attribute} {strategy : Strategy}
    {signature : Signature} {text : String} (options : Options) (typeName : String)
    (hsignature : m.signature = .ok signature)
    (hsingle : strategyAttributes m.attributes = [a])
    (hname : Strategy.ofName? a.name = some strategy)
    (hfirst : a.arguments.find? (fun argument => argument.name.isNone) =
      some ⟨none, Literal.write text⟩)
    (hargument : strategy.argumentName.isSome) :
    m.resolve options .ofDeclarations typeName =
      .ok (some ⟨typeName, signature, .ofType signature.type options.collectionMarker,
        ⟨strategy, .ofList (modifiersIn m.attributes)⟩, some text⟩) := by
  rcases Option.isSome_iff_exists.mp hargument with ⟨name, hargument⟩
  have hparameter : parameterOf? (m.attributes.map Attribute.bind) strategy name = some text := by
    rw [parameterOf?_of_single hsingle hname hfirst, Literal.read_write]
  rw [Member.resolve_eq, ofAttributes?_of_single hsingle hname, hsignature]
  simp [SemanticModel.ofDeclarations, hargument, hparameter]

/-- Texts survive on their way.  Every text is read back from its regular and from its
verbatim literal.  If the single strategy of a member with a signature takes a text, and its
first argument without a name is the regular literal of that text, then the lookup in the
fragment of the member holds the very same literal. -/
theorem literal_reaches_lookup :
    (∀ s, Literal.read (Literal.write s) = s) ∧
      (∀ s, Literal.read (String.ofList (Literal.verbatim s.toList)) = s) ∧
      ∀ (options : Options) (typeName : String) (c : Candidate) (a : Attribute)
        (strategy : Strategy) (signature : Signature) (text : String),
        c.member.signature = .ok signature →
        strategyAttributes c.member.attributes = [a] →
        Strategy.ofName? a.name = some strategy →
        strategy ∈ [.getByName, .getByTag, .getInAssets] →
        a.arguments.find? (fun argument => argument.name.isNone) =
          some ⟨none, Literal.write text⟩ →
        ∃ (i : Injection) (before after : String),
          c.outcome options .ofDeclarations typeName = .fragment i.fragment ∧
            i.signature = signature ∧ i.parameter = some text ∧
            strategy.literalFrame? i.shape.holdsMany i.target = some (before, after) ∧
            i.fragment.value = before ++ Literal.write text ++ after ++
              i.shape.conversion (i.lookup i.target).yields := by
  refine ⟨Literal.read_write, Literal.read_verbatim, ?_⟩
  intro options typeName c a strategy signature text hsignature hsingle hname hmem hfirst
  have hframe : ∀ many target, ∃ frame, strategy.literalFrame? many target = some frame := by
    simp only [List.mem_cons, List.not_mem_nil, or_false] at hmem
    rcases hmem with rfl | rfl | rfl
    all_goals exact fun many target => ⟨_, rfl⟩
  obtain ⟨_, hsome⟩ := hframe false ""
  have hresolve := Member.resolve_of_single options typeName hsignature hsingle hname hfirst
    (Strategy.isSome_argumentName hsome)
  refine ⟨⟨typeName, signature, .ofType signature.type options.collectionMarker,
    ⟨strategy, .ofList (modifiersIn c.member.attributes)⟩, some text⟩, ?_⟩
  obtain ⟨⟨before, after⟩, hframe⟩ := hframe
    (Shape.ofType signature.type options.collectionMarker).holdsMany _
  refine ⟨before, after, ?_, rfl, rfl, hframe, ?_⟩
  · rw [Candidate.outcome, hresolve]
  · rw [Injection.fragment, render_lookup_of_frame hframe rfl]

/-- The attribute that looks for an object whose name has quotes. -/
def byQuotedName : Attribute :=
  ⟨"GetByName", [⟨some "name", "other"⟩, ⟨none, Literal.write "the \"Door\""⟩]⟩

/-- A field with a single strategy among other attributes. -/
def quotedDoor : Candidate where
  member := .field ⟨"Door", ["door"], [], [⟨"Obsolete", []⟩, byQuotedName], .unknown⟩
  file := "Room.cs"

/-- The name of the object stands in the lookup as it does in the argument. -/
theorem quotedDoor_reaches_lookup :
    quotedDoor.member.signature = .ok ⟨"Door", "door"⟩ ∧
      strategyAttributes quotedDoor.member.attributes = [byQuotedName] ∧
      Strategy.ofName? byQuotedName.name = some .getByName ∧
      byQuotedName.arguments.find? (fun argument => argument.name.isNone) =
        some ⟨none, Literal.write "the \"Door\""⟩ ∧
      ∃ (i : Injection) (before after : String),
        quotedDoor.outcome .default .ofDeclarations "Room" = .fragment i.fragment ∧
          i.signature = ⟨"Door", "door"⟩ ∧ i.parameter = some "the \"Door\"" ∧
          Strategy.literalFrame? i.shape.holdsMany i.target .getByName = some (before, after) ∧
          i.fragment.value = before ++ Literal.write "the \"Door\"" ++ after ++
            i.shape.conversion (i.lookup i.target).yields := by
  have hsignature : quotedDoor.member.signature = .ok ⟨"Door", "door"⟩ := rfl
  have hsingle : strategyAttributes quotedDoor.member.attributes = [byQuotedName] := by decide
  have hname : Strategy.ofName? byQuotedName.name = some .getByName := by decide
  exact ⟨hsignature, hsingle, hname, rfl,
    literal_reaches_lookup.2.2 .default "Room" quotedDoor byQuotedName .getByName _ _ hsignature
      hsingle hname (by decide) rfl⟩

end SceneWiring
