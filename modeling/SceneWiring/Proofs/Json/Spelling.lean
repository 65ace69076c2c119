import SceneWiring.Json.Doc

/-!
# Written documents

A string can be written in many ways, since any of its characters can be written as an escape.
Documents that differ in the spelling of their strings only are written for the same value.  A
document made of values that can be read is kept, however it is spelled, if its height fits.

Main results:

- Theorem `Number.value?_ofNat`: a written natural number stands for itself.
- Definition `Doc.respell`: a document with its strings spelled in another way.
- Theorems `Doc.keeps_ofList` and `Doc.keeps_ofFields`: documents that are kept.
-/

namespace SceneWiring
namespace Json

/-! ## Numbers -/

namespace Number

/-- Further digits make no number smaller. -/
theorem le_foldl_digits (kept : Nat) (digits : List Nat) :
    kept ≤ digits.foldl (fun n d => 10 * n + d) kept := by
  induction digits generalizing kept with
  | nil => exact Nat.le_refl kept
  | cons d digits ih =>
      have hrest := ih (10 * kept + d)
      rw [List.foldl_cons]
      omega

/-- All digits are taken if the number that they make fits a word. -/
theorem takeDigits_of_le {kept : Nat} {digits : List Nat}
    (h : digits.foldl (fun n d => 10 * n + d) kept ≤ maxWord) :
    takeDigits kept digits = (digits.foldl (fun n d => 10 * n + d) kept, 0) := by
  induction digits generalizing kept with
  | nil => rfl
  | cons d digits ih =>
      have hfits : ¬ maxWord < 10 * kept + d :=
        Nat.not_lt.mpr (Nat.le_trans (le_foldl_digits (10 * kept + d) digits) h)
      rw [takeDigits, if_neg hfits, List.foldl_cons]
      exact ih h

/-- A written natural number stands for itself. -/
theorem value?_ofNat {n : Nat} (h : n ≤ maxWord) : (ofNat n).value? = some (.integer n) := by
  have hdigits : (ofNat n).whole.foldl (fun n d => 10 * n + d) 0 = n := by
    rw [ofNat, List.foldl_map, ← Nat.ofDigitChars_eq_foldl, Nat.ofDigitChars_ten_toDigits]
  have htaken : takeDigits 0 (ofNat n).whole = (n, 0) := by
    rw [takeDigits_of_le (by rwa [hdigits]), hdigits]
  rw [value?, htaken]
  rfl

/-- Every number of 32 bits fits a word. -/
theorem toNat_le_maxWord (n : UInt32) : n.toNat ≤ maxWord := by
  have hfits : n.toNat < Nat.pow 2 32 := n.toNat_lt
  have hlarge : Nat.pow 2 32 ≤ maxWord := by decide
  omega

end Number

/-! ## Spellings -/

/-- A way to spell strings. -/
structure Spelling where
  token : StringToken → StringToken
  text_token : ∀ t, (token t).text = t.text

/-- Every string as it is. -/
def Spelling.plain : Spelling :=
  ⟨id, fun _ => rfl⟩

mutual

/-- A document with its strings spelled in another way. -/
def Doc.respell (σ : Spelling) : Doc → Doc
  | .null => .null
  | .bool b => .bool b
  | .number n => .number n
  | .text t => .text (σ.token t)
  | .list items close => .list (respellItems σ items) close
  | .record fields close => .record (respellFields σ fields) close
  | .bad d => .bad d

/-- Items with their strings spelled in another way. -/
def respellItems (σ : Spelling) : List Doc → List Doc
  | [] => []
  | d :: ds => d.respell σ :: respellItems σ ds

/-- Fields with their strings spelled in another way. -/
def respellFields (σ : Spelling) : List Field → List Field
  | [] => []
  | f :: fs => f.respell σ :: respellFields σ fs

/-- A field with its strings spelled in another way, its name among them. -/
def Field.respell (σ : Spelling) : Field → Field
  | .mk key value => .mk (σ.token key) (value.respell σ)

end

mutual

/-- A document stays the same if every string is spelled as it is. -/
theorem Doc.respell_plain : ∀ d : Doc, d.respell .plain = d
  | .null => rfl
  | .bool _ => rfl
  | .number _ => rfl
  | .text _ => rfl
  | .list items close => by rw [Doc.respell, respellItems_plain items]
  | .record fields close => by rw [Doc.respell, respellFields_plain fields]
  | .bad _ => rfl

/-- So do items. -/
theorem respellItems_plain : ∀ ds : List Doc, respellItems .plain ds = ds
  | [] => rfl
  | d :: ds => by rw [respellItems, Doc.respell_plain d, respellItems_plain ds]

/-- So do fields. -/
theorem respellFields_plain : ∀ fs : List Field, respellFields .plain fs = fs
  | [] => rfl
  | f :: fs => by rw [respellFields, Field.respell_plain f, respellFields_plain fs]

/-- So does a field, its name included. -/
theorem Field.respell_plain : ∀ f : Field, f.respell .plain = f
  | .mk key value => by
      rw [Field.respell, Doc.respell_plain value]
      rfl

end

/-- The fields of a written record. -/
def writtenFields (σ : Spelling) (fields : List (String × Doc)) : List Field :=
  fields.map fun (name, value) => .mk (σ.token (.ofString name)) (value.respell σ)

section

variable (σ : Spelling)

/-- A text is what every spelling of it denotes. -/
theorem text_token_ofString (s : String) : (σ.token (.ofString s)).text = .ok s := by
  rw [σ.text_token, StringToken.text_ofString]

/-- Items are spelled in another way each by itself. -/
theorem respellItems_eq_map (ds : List Doc) : respellItems σ ds = ds.map (Doc.respell σ) := by
  induction ds with
  | nil => rfl
  | cons d ds ih => rw [respellItems, ih, List.map_cons]

/-- A list is spelled in another way item by item. -/
@[simp]
theorem respell_ofList (items : List Doc) :
    (Doc.ofList items).respell σ = .ofList (items.map (Doc.respell σ)) := by
  rw [Doc.ofList, Doc.respell, respellItems_eq_map, Doc.ofList]

/-- A record is spelled in another way field by field. -/
@[simp]
theorem respell_ofFields (fields : List (String × Doc)) :
    (Doc.ofFields fields).respell σ = .record (writtenFields σ fields) .closed := by
  have hfields : respellFields σ (fields.map fun (name, value) => .mk (.ofString name) value) =
      writtenFields σ fields := by
    induction fields with
    | nil => rfl
    | cons field fields ih =>
        rw [List.map_cons, respellFields, ih]
        rfl
  rw [Doc.ofFields, Doc.respell, hfields]

end

/-! ## Heights -/

/-- Items fit if each of them does. -/
theorem heightOfItems_le_iff {items : List Doc} {room : Nat} :
    heightOfItems items ≤ room ↔ ∀ d ∈ items, d.height ≤ room := by
  induction items with
  | nil => simp [heightOfItems]
  | cons d items ih => rw [heightOfItems, Nat.max_le, ih, List.forall_mem_cons]

namespace Doc

/-- A list is higher than its items. -/
theorem height_ofList_le_iff {items : List Doc} {room : Nat} :
    (ofList items).height ≤ room + 1 ↔ ∀ d ∈ items, d.height ≤ room := by
  rw [ofList, height, Nat.add_le_add_iff_right, heightOfItems_le_iff]

/-- A record is higher than the values of its fields. -/
theorem height_ofFields_le_iff {fields : List (String × Doc)} {room : Nat} :
    (ofFields fields).height ≤ room + 1 ↔ ∀ field ∈ fields, field.2.height ≤ room := by
  rw [ofFields, height, Nat.add_le_add_iff_right]
  induction fields with
  | nil => simp [heightOfFields]
  | cons field fields ih =>
      rw [List.map_cons, heightOfFields, Nat.max_le, ih, List.forall_mem_cons]
      rfl

/-! ## Kept documents -/

/-- A document that is kept wherever its height fits, however its strings are spelled. -/
def Keeps (d : Doc) : Prop :=
  ∀ (σ : Spelling) (room : Nat), d.height ≤ room → (d.respell σ).keep room = .ok ()

/-- The absence of a value is kept. -/
theorem keeps_null : null.Keeps :=
  fun _ _ _ => rfl

/-- Flags are kept. -/
theorem keeps_bool (b : Bool) : (bool b).Keeps :=
  fun _ _ _ => rfl

/-- Texts are kept. -/
theorem keeps_ofString (s : String) : (ofString s).Keeps := by
  intro σ room _
  rw [ofString, respell, keep, text_token_ofString]
  rfl

/-- Numbers are kept if they fit a word. -/
theorem keeps_ofNat {n : Nat} (h : n ≤ Number.maxWord) : (ofNat n).Keeps := by
  intro σ room _
  rw [ofNat, respell, keep, Number.value?_ofNat h]

/-- A list is kept if its items are. -/
theorem keeps_ofList {items : List Doc} (h : ∀ d ∈ items, d.Keeps) : (ofList items).Keeps := by
  intro σ room hroom
  cases room with
  | zero => exact absurd hroom (by simp [ofList, height])
  | succ room =>
      have hitems : keepItems room (items.map (respell σ)) = .ok () := by
        have hheights := height_ofList_le_iff.mp hroom
        clear hroom
        induction items with
        | nil => rfl
        | cons d items ih =>
            rw [List.forall_mem_cons] at h hheights
            rw [List.map_cons, keepItems, h.1 σ room hheights.1]
            exact ih h.2 hheights.2
      rw [respell_ofList, ofList, keep, hitems]
      rfl

/-- A record is kept if the values of its fields are. -/
theorem keeps_ofFields {fields : List (String × Doc)} (h : ∀ field ∈ fields, field.2.Keeps) :
    (ofFields fields).Keeps := by
  intro σ room hroom
  cases room with
  | zero => exact absurd hroom (by simp [ofFields, height])
  | succ room =>
      have hfields : keepFields room (writtenFields σ fields) = .ok () := by
        have hheights := height_ofFields_le_iff.mp hroom
        clear hroom
        induction fields with
        | nil => rfl
        | cons field fields ih =>
            rw [List.forall_mem_cons] at h hheights
            rw [writtenFields, List.map_cons, keepFields, Field.keep, text_token_ofString]
            change (field.2.respell σ).keep room >>= _ = _
            rw [h.1 σ room hheights.1]
            exact ih h.2 hheights.2
      rw [respell_ofFields, keep, hfields]
      rfl

end Doc

end Json
end SceneWiring
