import SceneWiring.Proofs.Report.Assignment
import SceneWiring.Proofs.Report.PlayHook
import SceneWiring.Proofs.Report.ReadArgument

/-!
# Where modifiers act

A modifier acts through the fragment of its member and nowhere else.  So it makes no difference on a
member whose strategy does not show it, and none on a member that gives no fragment, be it that the
member is not marked, that it is skipped, or that its type is rejected.  A run can tell nothing from
such modifiers, whatever their number.  Among the modifiers that a strategy shows, each makes a
difference.

Main results:

- Theorem `Member.Toggles.sameWork`: a modifier matters through the fragment only.
- Theorem `CompilationGap.sameRuns_fill_of_no_fragment`: it does not without a fragment.
- Definition `Compilation.IdleEdit`: a modifier where it does not act.
- Theorem `modifiers_act_where_shown`: where modifiers act, and where they do not.
-/

namespace SceneWiring

/-! ## Members -/

namespace Member

variable {kind : Modifier} {m m' : Member} {options : Options}

/-- A member that is resolved has one strategy. -/
theorem strategy?_of_resolve {typeName : String} {i : Injection}
    (h : m.resolve options .ofDeclarations typeName = .ok (some i)) :
    m.strategy? = some i.markers.strategy := by
  rw [resolve_eq] at h
  split at h
  · exact absurd h (by simp)
  · exact absurd h (by simp)
  · exact absurd h (by simp)
  · exact absurd h (by simp)
  · rename_i hmarkers _ _
    obtain rfl := Option.some.inj (Except.ok.inj h)
    exact strategy?_of_markers hmarkers

/-- A run can tell one modifier more or less by the fragment of its member only. -/
theorem Toggles.sameWork (h : Toggles kind m m')
    (hfragment : ∀ typeName i, m.resolve options .ofDeclarations typeName = .ok (some i) →
      (i.withModifiers (.ofList (modifiersIn m'.attributes))).fragment = i.fragment) :
    m.SameWork options .ofDeclarations m' := by
  rcases h with ⟨attributes, hedit, rfl⟩
  rw [attributes_withAttributes] at hfragment
  refine ⟨isMarked_withAttributes_of_calls hedit.calls, fun file => ⟨?_, ?_⟩⟩
  · exact asksModel_withAttributes_of_calls hedit.calls
  · intro typeName
    rw [Candidate.outcome_withAttributes_of_calls hedit.calls, Candidate.outcome]
    cases hresolve : m.resolve options .ofDeclarations typeName with
    | error reason => rfl
    | ok injection? =>
        cases injection? with
        | none => rfl
        | some i => exact congrArg Outcome.fragment (hfragment typeName i hresolve)

/-- So it cannot if the strategy of the member does not show the modifier. -/
theorem Toggles.sameWork_of_hidden (h : Toggles kind m m')
    (hhidden : ∀ s, m.strategy? = some s → s.shows kind = false) :
    m.SameWork options .ofDeclarations m' := by
  apply h.sameWork
  rcases h with ⟨attributes, hedit, rfl⟩
  intro typeName i hresolve
  refine Injection.fragment_eq_of_shows fun other hshown => ?_
  have hother : other ≠ kind := by
    rintro rfl
    exact absurd (hhidden _ (strategy?_of_resolve hresolve)) (by simp [hshown])
  rw [modifiers_of_resolve hresolve, Modifiers.has_ofList, Modifiers.has_ofList,
    attributes_withAttributes, hedit.contains_eq hother]

end Member

/-! ## Members without fragments -/

/-- A run does not look at the candidates of a rejected type. -/
theorem workType_of_rejected {cancelAt : Option Nat} {options : Options} {model : SemanticModel}
    {t : MarkedType} (h : t.isRejected options) (cs cs' : List Candidate) (p : Progress) :
    workType cancelAt options model (t.withCandidates cs') p =
      workType cancelAt options model (t.withCandidates cs) p := by
  rw [workType, workType, if_pos (by exact h), if_pos (by exact h)]
  rfl

namespace CompilationGap

variable (g : CompilationGap) {m : Member}

/-- It makes no difference for the scan which member stands outside all types. -/
theorem typesByKey_fill_of_no_owner (h : (g.place [.member m]).ownerKey? = none) (m' : Member) :
    (g.fill [.member m']).typesByKey = (g.fill [.member m]).typesByKey := by
  have houtline : (g.fill [.member m']).outline = (g.fill [.member m]).outline :=
    g.outline_fill_eq rfl rfl
  have hnone : ∀ key (other : Member), Site.candidatesUnder key
      (Decl.sitesAll (g.place [.member m]) [.member other]) = [] := by
    intro key other
    change Site.candidatesUnder key [.member ⟨g.place [.member m], other⟩] = []
    rw [Site.candidatesUnder_member, if_neg]
    simp [MemberSite.isCandidateUnder, MemberSite.ownerKey?, h]
  rw [Compilation.typesByKey_eq, Compilation.typesByKey_eq, houtline]
  apply assignCandidates_congr
  intro key _
  rw [g.candidatesUnder_fill [.member m] [.member m'],
    g.candidatesUnder_fill [.member m] [.member m], hnone, hnone]

/-- If a member can be resolved but gives no fragment, the type around it is rejected. -/
theorem exists_rejected_of_no_fragment {options : Options} {key typeName : String} {i : Injection}
    (hresolve : m.resolve options .ofDeclarations typeName = .ok (some i))
    (howner : (g.site m).ownerKey? = some key)
    (hnone : ∀ f, (g.site m).outcome? options .ofDeclarations (g.fill [.member m]) ≠
      some (.fragment f)) :
    ∃ (before : List (String × MarkedType)) (t : MarkedType) (after : List (String × MarkedType))
      (pre post : List Candidate), t.isRejected options ∧
      ∀ m' : Member, m'.isMarked → (g.fill [.member m']).typesByKey =
        before ++ (key, t.withCandidates (pre ++ ⟨m', g.path⟩ :: post)) :: after := by
  rcases Member.exists_resolve_iff.mp ⟨i, hresolve⟩ with ⟨hmarked, hfree⟩
  rcases g.typesByKey_fill_marked hmarked howner with ⟨before, t, after, pre, post, htypes⟩
  refine ⟨before, t, after, pre, post, ?_, htypes⟩
  have hmem : (key, t.withCandidates (pre ++ ⟨m, g.path⟩ :: post)) ∈
      (g.fill [.member m]).typesByKey := by
    rw [htypes m hmarked]
    simp
  by_contra haccepted
  have houtcome : (g.site m).outcome? options .ofDeclarations (g.fill [.member m]) = _ :=
    outcome?_of_mem_typesByKey hmarked howner hmem
  rw [if_neg (by exact haccepted)] at houtcome
  -- The name of the type makes no difference for whether a member can be resolved.
  rcases Member.exists_resolve_iff.mpr ⟨hmarked, hfree⟩ with ⟨i', hresolve'⟩
  exact hnone i'.fragment (houtcome.trans (congrArg some
    (Candidate.outcome_eq_fragment_iff.mpr ⟨i', hresolve', rfl⟩)))

/-- No run tells whether a member that gives no fragment has one modifier more or less. -/
theorem sameRuns_fill_of_no_fragment {options : Options} {kind : Modifier} {m' : Member}
    (h : Member.Toggles kind m m')
    (hnone : ∀ f, (g.site m).outcome? options .ofDeclarations (g.fill [.member m]) ≠
      some (.fragment f)) :
    (g.fill [.member m]).SameRuns options .ofDeclarations (g.fill [.member m']) := by
  by_cases hresolve : ∃ typeName i, m.resolve options .ofDeclarations typeName = .ok (some i)
  · -- The member would give a fragment, but no type around it asks for it.
    rcases hresolve with ⟨typeName, i, hresolve⟩
    have hmarked : m.isMarked := (Member.exists_resolve_iff.mp ⟨i, hresolve⟩).1
    have hmarked' : m'.isMarked := by
      rcases h with ⟨attributes, hedit, rfl⟩
      rwa [Member.isMarked_withAttributes_of_calls hedit.calls]
    apply sameRuns_of_workType
    intro cancelAt
    rw [← Compilation.map_snd_typesByKey, ← Compilation.map_snd_typesByKey]
    cases howner : (g.place [.member m]).ownerKey? with
    | none =>
        rw [g.typesByKey_fill_of_no_owner howner m']
        exact List.forall₂_same.mpr fun _ _ _ => rfl
    | some key =>
        rcases g.exists_rejected_of_no_fragment hresolve howner hnone with
          ⟨before, t, after, pre, post, hrejected, htypes⟩
        rw [htypes m hmarked, htypes m' hmarked']
        simp only [List.map_append, List.map_cons]
        apply List.rel_append (List.forall₂_same.mpr fun _ _ _ => rfl)
        exact .cons (workType_of_rejected hrejected _ _) (List.forall₂_same.mpr fun _ _ _ => rfl)
  · apply g.sameRuns_fill_member
    apply h.sameWork
    intro typeName i hresolved
    exact absurd ⟨typeName, i, hresolved⟩ hresolve

end CompilationGap

/-! ## Compilations -/

/-- A compilation with one modifier more or less, at any place where it does not act. -/
inductive Compilation.IdleEdit (options : Options) : Compilation → Compilation → Prop
  /-- On a member whose strategy does not show the modifier. -/
  | hidden (g : CompilationGap) {kind : Modifier} {m m' : Member} (h : Member.Toggles kind m m')
      (hhidden : ∀ s, m.strategy? = some s → s.shows kind = false) :
      IdleEdit options (g.fill [.member m]) (g.fill [.member m'])
  /-- On a member that gives no fragment. -/
  | unfilled (g : CompilationGap) {kind : Modifier} {m m' : Member} (h : Member.Toggles kind m m')
      (hnone : ∀ f, (g.site m).outcome? options .ofDeclarations (g.fill [.member m]) ≠
        some (.fragment f)) :
      IdleEdit options (g.fill [.member m]) (g.fill [.member m'])

/-- No run tells such an edit. -/
theorem Compilation.IdleEdit.sameRuns {options : Options} {c c' : Compilation}
    (h : c.IdleEdit options c') : c.SameRuns options .ofDeclarations c' := by
  cases h with
  | hidden g h hhidden => exact g.sameRuns_fill_member (h.sameWork_of_hidden hhidden)
  | unfilled g h hnone => exact g.sameRuns_fill_of_no_fragment h hnone

/-- With values of arguments that come from declarations, no run tells whether modifiers are added
or removed, in any number and on any members, if the strategies of the members do not show them or
the members give no fragments.  The fragment of a member does tell all modifiers that its strategy
shows: two sets of modifiers give it the same fragment only if they agree on these. -/
theorem modifiers_act_where_shown (options : Options) :
    (∀ c c' : Compilation, Relation.ReflTransGen (Compilation.IdleEdit options) c c' →
        c.SameRuns options .ofDeclarations c') ∧
      ∀ (i : Injection) (modifiers modifiers' : Modifiers),
        (i.withModifiers modifiers').fragment = (i.withModifiers modifiers).fragment ↔
          ∀ kind, i.markers.strategy.shows kind → modifiers'.has kind = modifiers.has kind := by
  refine ⟨?_, fun i modifiers modifiers' => Injection.fragment_withModifiers_eq_iff⟩
  intro c c' h
  induction h with
  | refl => exact .refl c
  | tail _ hedit ih => exact ih.trans hedit.sameRuns

/-- A field with the given attributes. -/
def lampField (attributes : List Attribute) : Member :=
  .field ⟨"Light", ["lamp"], [], attributes, .unknown⟩

/-- A property that cannot be assigned to. -/
def wallProperty (attributes : List Attribute) : Member :=
  .property ⟨"Wall", "Front", [], attributes, false, .unknown⟩

/-- A partial type with such a field and such a property, and one that is not partial. -/
def stableWith (lamp wall hay : List Attribute) : Compilation :=
  ⟨[⟨"Stable.cs",
    [.type ⟨"Stable", ["partial"], [], .unknown⟩
      [.member (lampField lamp), .member (wallProperty wall)],
      .type ⟨"Barn", [], [], .unknown⟩ [.member (lampField hay)]]⟩]⟩

/-- Options that reject types that are not partial. -/
def partialOnly : Options :=
  { requirePartial := true }

/-- Three modifiers make no difference: one that the strategy does not show, one on a member that is
skipped, and one in a type that is rejected. -/
theorem stableWith_same_runs :
    Relation.ReflTransGen (Compilation.IdleEdit partialOnly)
        (stableWith [⟨"GetByName", []⟩] [⟨"Get", []⟩, ⟨"SkipNullCheck", []⟩] [⟨"Get", []⟩])
        (stableWith [⟨"include_inactive", []⟩, ⟨"GetByName", []⟩] [⟨"Get", []⟩]
          [⟨"Get", []⟩, ⟨"InjectInPlay", []⟩]) ∧
      (stableWith [⟨"GetByName", []⟩] [⟨"Get", []⟩, ⟨"SkipNullCheck", []⟩] [⟨"Get", []⟩]).SameRuns
        partialOnly .ofDeclarations
        (stableWith [⟨"include_inactive", []⟩, ⟨"GetByName", []⟩] [⟨"Get", []⟩]
          [⟨"Get", []⟩, ⟨"InjectInPlay", []⟩]) := by
  let stable : TypePart := ⟨"Stable", ["partial"], [], .unknown⟩
  let barn : Decl := .type ⟨"Barn", [], [], .unknown⟩ [.member (lampField [⟨"Get", []⟩])]
  have hlamp : Member.Toggles .includeInactive (lampField [⟨"GetByName", []⟩])
      (lampField [⟨"include_inactive", []⟩, ⟨"GetByName", []⟩]) :=
    ⟨_, .insert [] [⟨"GetByName", []⟩] (by decide +kernel), rfl⟩
  have hwall : Member.Toggles .skipNullCheck (wallProperty [⟨"Get", []⟩, ⟨"SkipNullCheck", []⟩])
      (wallProperty [⟨"Get", []⟩]) :=
    ⟨_, .delete [⟨"Get", []⟩] [] (by decide +kernel), rfl⟩
  have hhay : Member.Toggles .injectInPlay (lampField [⟨"Get", []⟩])
      (lampField [⟨"Get", []⟩, ⟨"InjectInPlay", []⟩]) :=
    ⟨_, .insert [⟨"Get", []⟩] [] (by decide +kernel), rfl⟩
  let lampGap : CompilationGap :=
    ⟨[], "Stable.cs", .type [] stable
      (.here [] [.member (wallProperty [⟨"Get", []⟩, ⟨"SkipNullCheck", []⟩])]) [barn], []⟩
  let wallGap : CompilationGap :=
    ⟨[], "Stable.cs", .type [] stable
      (.here [.member (lampField [⟨"include_inactive", []⟩, ⟨"GetByName", []⟩])] []) [barn], []⟩
  let hayGap : CompilationGap :=
    ⟨[], "Stable.cs",
      .type [.type stable [.member (lampField [⟨"include_inactive", []⟩, ⟨"GetByName", []⟩]),
        .member (wallProperty [⟨"Get", []⟩])]] ⟨"Barn", [], [], .unknown⟩ (.here [] []) [], []⟩
  have hskipped : (wallGap.site (wallProperty [⟨"Get", []⟩, ⟨"SkipNullCheck", []⟩])).outcome?
      partialOnly .ofDeclarations
      (wallGap.fill [.member (wallProperty [⟨"Get", []⟩, ⟨"SkipNullCheck", []⟩])]) =
        some (.skipped ⟨.notAssignable, "Stable", some "Front", "Stable.cs", .unknown⟩) := by
    decide +kernel
  have hrejected : (hayGap.site (lampField [⟨"Get", []⟩])).outcome? partialOnly .ofDeclarations
      (hayGap.fill [.member (lampField [⟨"Get", []⟩])]) = none := by
    decide +kernel
  have hedits :=
    Relation.ReflTransGen.head (Compilation.IdleEdit.hidden lampGap hlamp (by decide +kernel)) <|
      .head (.unfilled wallGap hwall fun f => by rw [hskipped]; simp) <|
        .single (.unfilled hayGap hhay fun f => by rw [hrejected]; simp)
  exact ⟨hedits, (modifiers_act_where_shown partialOnly).1 _ _ hedits⟩

end SceneWiring
