import Mathlib.Logic.Relation
import SceneWiring.Proofs.Marker.Meaning
import SceneWiring.Proofs.Report.Rearrangement
import SceneWiring.Proofs.Scan.Substitution

/-!
# Members with other attributes

A run sees little of a member: whether it is marked, whether the model is asked about it, and
what becomes of it in a type of a given name.  A member can be replaced, wherever it stands, by
one that shows the same of these.  Where the values of arguments come from declarations, so can
any member by the same one with attributes of the same meaning, and changes of this kind can
follow each other in any number.

Main results:

- Structure `Member.SameWork`: members that a run cannot tell apart.
- Theorem `CompilationGap.sameRuns_fill_member`: one of them in place of the other.
- Theorem `Compilation.SameRuns.of_replaces`: any number of them in place of others.
- Definition `Compilation.MemberEdit`: a compilation with the attributes of a member changed.
- Theorem `attribute_edits_same_runs`: no run tells whether attributes were changed.
-/

namespace SceneWiring

section

variable {options : Options} {model : SemanticModel}

/-! ## Types with other candidates -/

/-- A run works in the same way on a type with candidates that it cannot tell apart. -/
theorem MarkedType.Matches.sameWork {t t' : MarkedType}
    (h : t.Matches (Candidate.SameWork options model) t') : t.SameWork options model t' where
  enclosing := h.enclosing_eq
  rejection := h.rejection_eq
  candidates := h.candidates

/-! ## Members -/

/-- Two members that a run cannot tell apart, wherever they stand. -/
structure Member.SameWork (options : Options) (model : SemanticModel) (m m' : Member) : Prop where
  isMarked : m'.isMarked = m.isMarked
  candidate : ∀ file, Candidate.SameWork options model ⟨m, file⟩ ⟨m', file⟩

/-- No run tells whether a member is replaced by another one that it cannot tell apart from it,
wherever it stands. -/
theorem CompilationGap.sameRuns_fill_member (g : CompilationGap) {m m' : Member}
    (h : m.SameWork options model m') :
    (g.fill [.member m]).SameRuns options model (g.fill [.member m']) := by
  have hmatches : (g.fill [.member m]).Matches (Candidate.SameWork options model)
      (g.fill [.member m']) :=
    .fill_member (fun _ => ⟨rfl, fun _ => rfl⟩) g ⟨h.isMarked, h.candidate⟩
  exact sameRuns_of_sameWork (hmatches.forall₂_scan.imp fun _ _ ht => ht.sameWork)

/-- No run tells whether any number of members are replaced by others that it cannot tell apart
from them. -/
theorem Compilation.SameRuns.of_replaces {Q : Member → Member → Prop}
    (hwork : ∀ m m', Q m m' → m.SameWork options model m') {c c' : Compilation}
    (h : Relation.ReflTransGen (Compilation.Replaces Q) c c') : c.SameRuns options model c' := by
  induction h with
  | refl => exact .refl _
  | tail _ hreplace ih =>
      cases hreplace with
      | member g h => exact ih.trans (g.sameRuns_fill_member (hwork _ _ h))

end

/-! ## Attributes -/

/-- A member with attributes of the same meaning cannot be told apart from it. -/
theorem Member.sameWork_withAttributes {m : Member} {attributes : List Attribute}
    (h : SameMeaning m.attributes attributes) (options : Options) :
    m.SameWork options .ofDeclarations (m.withAttributes attributes) where
  isMarked := isMarked_withAttributes_of_calls h.calls
  candidate file :=
    { asksModel := asksModel_withAttributes_of_calls h.calls
      outcome := by
        intro typeName
        simp only [Candidate.outcome, Candidate.skip, resolve_withAttributes h,
          label_withAttributes, location_withAttributes] }

/-- A compilation with the attributes of one member, at any place, changed in a way that keeps
their meaning. -/
inductive Compilation.MemberEdit : Compilation → Compilation → Prop
  | member (g : CompilationGap) (m : Member) {attributes : List Attribute}
      (h : AttributeEdit m.attributes attributes) :
      MemberEdit (g.fill [.member m]) (g.fill [.member (m.withAttributes attributes)])

/-- No run tells that the attributes of a member were changed. -/
theorem Compilation.MemberEdit.sameRuns {c c' : Compilation} (h : c.MemberEdit c')
    (options : Options) : c.SameRuns options .ofDeclarations c' := by
  cases h with
  | member g m h => exact g.sameRuns_fill_member (m.sameWork_withAttributes h.sameMeaning options)

/-- No run, with values of arguments that come from declarations, tells that attributes of any
members were changed any number of times by writing the name of a marker in another way, adding
or removing attributes that are no markers, copying modifiers, or putting attributes in another
order in which strategies stay in theirs. -/
theorem attribute_edits_same_runs (options : Options) {c c' : Compilation}
    (h : Relation.ReflTransGen Compilation.MemberEdit c c') :
    c.SameRuns options .ofDeclarations c' := by
  induction h with
  | refl => exact .refl c
  | tail _ hedit ih => exact ih.trans (hedit.sameRuns options)

/-- A type with one field with the given attributes. -/
def playerWithDoor (attributes : List Attribute) : Compilation :=
  CompilationGap.fill ⟨[], "Player.cs",
      .type [] ⟨"Player", ["partial"], [], .unknown⟩ (.here [] []) [], []⟩
    [.member (.field ⟨"Door", ["door"], [], attributes, .unknown⟩)]

theorem memberEdit_playerWithDoor {as bs : List Attribute} (h : AttributeEdit as bs) :
    (playerWithDoor as).MemberEdit (playerWithDoor bs) :=
  .member _ (.field ⟨"Door", ["door"], [], as, .unknown⟩) h

/-- A strategy is written in another way, another attribute is put in front, the modifier is
copied, the attributes change places, and the other attribute is taken away again. -/
theorem playerWithDoor_same_runs :
    Relation.ReflTransGen Compilation.MemberEdit
        (playerWithDoor [⟨"GetByName", [⟨none, "\"Main\""⟩]⟩, ⟨"IgnoreSelf", []⟩])
        (playerWithDoor [⟨"IgnoreSelf", []⟩, ⟨"get-by-name", [⟨none, "\"Main\""⟩]⟩,
          ⟨"IgnoreSelf", []⟩]) ∧
      (playerWithDoor
        [⟨"GetByName", [⟨none, "\"Main\""⟩]⟩, ⟨"IgnoreSelf", []⟩]).SameRuns .default
        .ofDeclarations
        (playerWithDoor [⟨"IgnoreSelf", []⟩, ⟨"get-by-name", [⟨none, "\"Main\""⟩]⟩,
          ⟨"IgnoreSelf", []⟩]) := by
  let respelled : Attribute := ⟨"get-by-name", [⟨none, "\"Main\""⟩]⟩
  let modifier : Attribute := ⟨"IgnoreSelf", []⟩
  let other : Attribute := ⟨"SerializeField", []⟩
  have hother : Marker.ofName? other.name = none := by decide +kernel
  have hmodifier : Marker.ofName? modifier.name = some (.modifier .ignoreSelf) := by
    decide +kernel
  have hrespell : AttributeEdit [⟨"GetByName", respelled.arguments⟩, modifier]
      [respelled, modifier] :=
    .respell [] [modifier] respelled.arguments (by decide +kernel)
  have hinsert : AttributeEdit [respelled, modifier] [other, respelled, modifier] :=
    .insertOther [] _ hother
  have hcopy : AttributeEdit [other, respelled, modifier]
      [other, respelled, modifier, modifier] :=
    .copyModifier [other, respelled, modifier] [] hmodifier (by decide)
  have hreorder : AttributeEdit [other, respelled, modifier, modifier]
      [modifier, respelled, modifier, other] :=
    .reorder (by decide) (by decide +kernel)
  have hdelete : AttributeEdit [modifier, respelled, modifier, other]
      [modifier, respelled, modifier] :=
    .deleteOther [modifier, respelled, modifier] [] hother
  have hedits : Relation.ReflTransGen Compilation.MemberEdit
      (playerWithDoor [⟨"GetByName", respelled.arguments⟩, modifier])
      (playerWithDoor [modifier, respelled, modifier]) :=
    .head (memberEdit_playerWithDoor hrespell) <|
    .head (memberEdit_playerWithDoor hinsert) <|
    .head (memberEdit_playerWithDoor hcopy) <|
    .head (memberEdit_playerWithDoor hreorder) <|
    .single (memberEdit_playerWithDoor hdelete)
  exact ⟨hedits, attribute_edits_same_runs .default hedits⟩

end SceneWiring
