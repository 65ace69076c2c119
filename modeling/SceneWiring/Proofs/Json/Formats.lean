import Mathlib.Data.List.Forall2
import SceneWiring.Json.Record
import SceneWiring.Proofs.Json.Spelling

/-!
# Reading what was written

A reader gives back the value that a document was written for, however its strings are spelled.
A record format does so if each of its fields does: fields that are written in declaration order,
under distinct names, are read like the values of a list.

Main results:

- Definition `RecordFormat.Reads`: a format that gives a value for written fields.
- Theorem `RecordFormat.Reads.ap`: the fields of a combined format.
- Theorem `RecordFormat.addFields_eq_addItems`: the object form in declaration order.
- Theorem `RecordFormat.Reads.readFields`: what is written as a record is read from it.
-/

namespace SceneWiring
namespace Json

variable {α β : Type} {σ : Spelling}

/-! ## Plain values -/

/-- A written text is read back, whatever is said to be expected. -/
theorem readTextAs_ofString (expected s : String) :
    readTextAs expected ((Doc.ofString s).respell σ) = .ok s := by
  rw [Doc.ofString, Doc.respell, readTextAs, text_token_ofString]

/-- A written text is read back. -/
theorem readText_ofString (s : String) : readText ((Doc.ofString s).respell σ) = .ok s :=
  readTextAs_ofString "a string" s

/-- A written flag is read back. -/
theorem readFlag_bool (b : Bool) : readFlag ((Doc.bool b).respell σ) = .ok b :=
  rfl

/-- A written number of 32 bits is read back. -/
theorem readWord32_ofNat (n : UInt32) : readWord32 ((Doc.ofNat n.toNat).respell σ) = .ok n := by
  have hfits : n.toNat < Nat.pow 2 32 := n.toNat_lt
  rw [Doc.ofNat, Doc.respell, readWord32, Number.value?_ofNat (Number.toNat_le_maxWord n)]
  have hrange : 0 ≤ (n.toNat : Int) ∧ (n.toNat : Int) < ((Nat.pow 2 32 : Nat) : Int) :=
    ⟨Int.natCast_nonneg _, Int.ofNat_lt.mpr hfits⟩
  simp only [if_pos hrange, Int.toNat_natCast, UInt32.ofNat_toNat]

/-- A text or null is read by the reader of the text. -/
theorem readOptional_ofString {read : Doc → Except Problem String}
    (h : ∀ s, read ((Doc.ofString s).respell σ) = .ok s) (s? : Option String) :
    readOptional read (((s?.map Doc.ofString).getD .null).respell σ) = .ok s? := by
  cases s? with
  | none => rfl
  | some s =>
      have hread := h s
      rw [Doc.ofString, Doc.respell] at hread
      rw [Option.map_some, Option.getD_some, Doc.ofString, Doc.respell, readOptional, hread]
      · rfl
      · simp

/-- A list is read by the reader of its items. -/
theorem mapM_of_forall {read : Doc → Except Problem α} {write : α → Doc} {as : List α}
    (h : ∀ a ∈ as, read (write a) = .ok a) : (as.map write).mapM read = .ok as := by
  induction as with
  | nil => rfl
  | cons a as ih =>
      rw [List.forall_mem_cons] at h
      rw [List.map_cons, List.mapM_cons, h.1, ih h.2]
      rfl

/-- A written list is read back if each of its items is. -/
theorem readList_ofList {read : Doc → Except Problem α} {toDoc : α → Doc} {as : List α}
    (h : ∀ a ∈ as, read ((toDoc a).respell σ) = .ok a) :
    readList read ((Doc.ofList (as.map toDoc)).respell σ) = .ok as := by
  rw [respell_ofList, List.map_map, Doc.ofList, readList, mapM_of_forall (by exact h)]
  rfl

/-! ## Record formats -/

namespace RecordFormat

/-- Values for the first fields are read before those for the fields that follow. -/
theorem addItems_append {δ : Type} {xs : List (String × (Doc → δ → Except Problem δ))}
    {ds : List Doc} (h : xs.length = ds.length)
    (ys : List (String × (Doc → δ → Except Problem δ))) (es : List Doc) (draft : δ) :
    addItems (xs ++ ys) (ds ++ es) draft = addItems xs ds draft >>= addItems ys es := by
  induction xs generalizing ds draft with
  | nil =>
      rw [List.eq_nil_of_length_eq_zero h.symm]
      rfl
  | cons x xs ih =>
      cases ds with
      | nil => exact absurd h (by simp)
      | cons d ds =>
          rw [List.cons_append, List.cons_append, addItems, addItems]
          cases x.2 d draft with
          | error p => rfl
          | ok draft => exact ih (Nat.succ.inj h) draft

/-- Reading into one part of a draft leaves the other part as it is. -/
theorem addItems_map {δ ε : Type} (lift : δ → ε)
    (fields : List (String × (Doc → δ → Except Problem δ)))
    (lifted : List (String × (Doc → ε → Except Problem ε)))
    (h : List.Forall₂ (fun x y => ∀ d draft, y.2 d (lift draft) = lift <$> x.2 d draft)
      fields lifted) (ds : List Doc) (draft : δ) :
    addItems lifted ds (lift draft) = lift <$> addItems fields ds draft := by
  induction h generalizing ds draft with
  | nil => rfl
  | @cons x y xs ys hhead _ ih =>
      cases ds with
      | nil => rfl
      | cons d ds =>
          rw [addItems, addItems, hhead]
          cases x.2 d draft with
          | error p => rfl
          | ok draft => exact ih ds draft

/-- A format gives a value for written fields, which are those of the format in declaration
order. -/
structure Reads (σ : Spelling) (f : RecordFormat α) (fields : List (String × Doc)) (a : α) :
    Prop where
  names : f.names = fields.map Prod.fst
  values : ∃ draft, addItems f.fields (fields.map fun field => field.2.respell σ) f.empty =
    .ok draft ∧ ∀ absent, f.build absent draft = .ok a

namespace Reads

/-- A format without fields gives its value for no fields. -/
theorem pure (a : α) : (RecordFormat.pure a).Reads σ [] a where
  names := rfl
  values := ⟨(), rfl, fun _ => rfl⟩

/-- A required field gives what its reader gives for the written value. -/
theorem required {name : String} {read : Doc → Except Problem α} {d : Doc} {a : α}
    (h : read (d.respell σ) = .ok a) : (RecordFormat.required name read).Reads σ [(name, d)] a where
  names := rfl
  values := by
    refine ⟨some a, ?_, fun _ => rfl⟩
    change ((some <$> read (d.respell σ)) >>= _) = _
    rw [h]
    rfl

/-- So does an optional field, which is written even if its value is the default. -/
theorem optional {name : String} {whenAbsent : α} {read : Doc → Except Problem α} {d : Doc} {a : α}
    (h : read (d.respell σ) = .ok a) :
    (RecordFormat.optional name whenAbsent read).Reads σ [(name, d)] a where
  names := rfl
  values := by
    refine ⟨a, ?_, fun _ => rfl⟩
    change (read (d.respell σ) >>= _) = _
    rw [h]
    rfl

/-- The fields of a combined format are written one after the other. -/
theorem ap {f : RecordFormat (α → β)} {g : RecordFormat α} {fs gs : List (String × Doc)}
    {make : α → β} {a : α} (hf : f.Reads σ fs make) (hg : g.Reads σ gs a) :
    (f.ap g).Reads σ (fs ++ gs) (make a) where
  names := by rw [names_ap, hf.names, hg.names, List.map_append]
  values := by
    rcases hf.values with ⟨left, hleft, hmake⟩
    rcases hg.values with ⟨right, hright, ha⟩
    refine ⟨(left, right), ?_, ?_⟩
    · have hlength : f.fields.length = fs.length := by
        have hnames := congrArg List.length hf.names
        rwa [RecordFormat.names, List.length_map, List.length_map] at hnames
      change addItems
        (f.fields.map (fun entry =>
            (entry.1, fun d draft => (fun left => (left, draft.2)) <$> entry.2 d draft.1)) ++
          g.fields.map fun entry =>
            (entry.1, fun d draft => (fun right => (draft.1, right)) <$> entry.2 d draft.2))
        ((fs ++ gs).map fun field => field.2.respell σ) (f.empty, g.empty) = _
      rw [List.map_append, addItems_append (by simpa using hlength),
        addItems_map (fun draft => (draft, g.empty)) f.fields, hleft]
      · change addItems _ _ (left, g.empty) = _
        rw [addItems_map (fun draft => (left, draft)) g.fields, hright]
        · rfl
        · rw [List.forall₂_map_right_iff, List.forall₂_same]
          exact fun _ _ _ _ => rfl
      · rw [List.forall₂_map_right_iff, List.forall₂_same]
        exact fun _ _ _ _ => rfl
    · intro absent
      change (do
        let make ← f.build absent left
        let a ← g.build absent right
        return make a) = _
      rw [hmake, ha]
      rfl

end Reads

/-! ## The object form -/

/-- Fields that are written in declaration order, under distinct names, are read like the values
of a list. -/
theorem addFields_eq_addItems {f : RecordFormat α} (hnodup : f.names.Nodup)
    {done todo : List (String × (Doc → f.Draft → Except Problem f.Draft))}
    (hfields : f.fields = done ++ todo) {fields : List (String × Doc)}
    (hnames : todo.map Prod.fst = fields.map Prod.fst) {seen : List String}
    (hseen : ∀ name ∈ seen, name ∈ done.map Prod.fst) (draft : f.Draft) :
    f.addFields seen draft (writtenFields σ fields) =
      addItems todo (fields.map fun field => field.2.respell σ) draft := by
  induction fields generalizing done todo seen draft with
  | nil =>
      have hnone : todo = [] := by simpa using hnames
      rw [hnone]
      rfl
  | cons field fields ih =>
      cases todo with
      | nil => exact absurd hnames (by simp)
      | cons entry todo =>
          rw [List.map_cons, List.map_cons, List.cons.injEq] at hnames
          -- The name of the next field was not met before.
          have hnew : entry.1 ∉ done.map Prod.fst := by
            rw [names, hfields, List.map_append, List.map_cons] at hnodup
            intro hmem
            exact (List.nodup_append.mp hnodup).2.2 _ hmem _ List.mem_cons_self rfl
          have hlookup : f.fields.lookup field.1 = some entry.2 := by
            rw [List.lookup_eq_some_iff, ← hnames.1]
            refine ⟨done, todo, hfields, ?_⟩
            intro other hother
            rw [bne_iff_ne]
            intro hsame
            exact hnew (hsame ▸ List.mem_map_of_mem hother)
          have hfresh : seen.contains field.1 = false := by
            rw [List.contains_eq_mem, decide_eq_false_iff_not, ← hnames.1]
            exact fun hmem => hnew (hseen _ hmem)
          have hrest : ∀ draft, f.addFields (field.1 :: seen) draft (writtenFields σ fields) =
              addItems todo (fields.map fun field => field.2.respell σ) draft := by
            intro draft
            have hmore : f.fields = (done ++ [entry]) ++ todo := by
              rw [hfields, List.append_assoc]
              rfl
            refine ih hmore hnames.2 ?_ draft
            intro name hname
            rw [List.map_append, List.mem_append]
            rcases List.mem_cons.mp hname with rfl | hname
            · exact Or.inr (by simp [hnames.1])
            · exact Or.inl (hseen name hname)
          rw [writtenFields, List.map_cons, addFields, text_token_ofString]
          simp only [bind, Except.bind, hlookup, hfresh]
          change (entry.2 (field.2.respell σ) draft >>= fun draft =>
            f.addFields (field.1 :: seen) draft (writtenFields σ fields)) = _
          rw [List.map_cons, addItems]
          simp only [hrest]

/-- What is written as a record is read from it. -/
theorem Reads.readFields {f : RecordFormat α} {fields : List (String × Doc)} {a : α}
    (h : f.Reads σ fields a) (hnodup : (fields.map Prod.fst).Nodup) :
    f.readFields (writtenFields σ fields) .closed = .ok a := by
  rcases h.values with ⟨draft, hdraft, hbuild⟩
  have hadd : f.addFields [] f.empty (writtenFields σ fields) = .ok draft := by
    rw [addFields_eq_addItems (h.names ▸ hnodup) (List.nil_append _).symm h.names (by simp)]
    exact hdraft
  rw [RecordFormat.readFields, hadd]
  exact hbuild _

/-- So it is from the document of the record, wherever this comes from. -/
theorem Reads.read {f : RecordFormat α} {fields : List (String × Doc)} {a : α}
    (h : f.Reads σ fields a) (hnodup : (fields.map Prod.fst).Nodup) (layer : Layer)
    (title : String) : f.read layer title ((Doc.ofFields fields).respell σ) = .ok a := by
  rw [respell_ofFields]
  exact h.readFields hnodup

end RecordFormat
end Json
end SceneWiring
