import OData.Proofs.Expr.Roundtrip
import OData.Proofs.Expr.Soundness
import OData.Proofs.Expr.Words

/-!
# Canonical texts tell trees apart

A masked tree is read back from its text at any depth, so that trees with one text are masked alike;
their literals then have one text too.
-/

set_option autoImplicit false

namespace OData.Expr

open Text (Cursor Before)
open Readers (ofLevels)

/-! ## Masked trees are read back -/

theorem rename_cases (w : List Char) : rename w = '_' :: w ∨ rename w = w ∧
    w.head? ≠ some '_' ∧ "INF".toList.isPrefixOf w = false := by
  rw [rename]
  split
  next => exact .inl rfl
  next plain =>
    rw [not_or, Bool.not_eq_true] at plain
    exact .inr ⟨rfl, plain⟩

theorem rename_injective {w w' : List Char} (equal : rename w = rename w') : w = w' := by
  rcases rename_cases w with first | ⟨first, plain, _⟩
  · rcases rename_cases w' with second | ⟨second, plain', _⟩
    · rw [first, second] at equal
      exact (List.cons.inj equal).2
    · rw [first, second] at equal
      rw [← equal] at plain'
      exact absurd rfl plain'
  · rcases rename_cases w' with second | ⟨second, _⟩
    · rw [first, second] at equal
      rw [equal] at plain
      exact absurd rfl plain
    · rw [first, second] at equal
      exact equal

/-- A new name is an identifier, no word of the syntax, and no beginning of an infinity. -/
theorem rename_name {w : List Char} (identifier : isIdentifier (String.ofList w) = true)
    (free : String.ofList w ∉ "not" :: Value.reserved) :
    isIdentifier (String.ofList (rename w)) = true ∧
      String.ofList (rename w) ∉ "not" :: Value.reserved ∧
      "INF".toList.isPrefixOf (rename w) = false := by
  rcases rename_cases w with prefixed | ⟨same, _, finite⟩
  · obtain ⟨c, rest, rfl, start, letters⟩ := isIdentifier_iff.mp identifier
    have others : ∀ keyword ∈ "not" :: Value.reserved, keyword.toList.head? ≠ some '_' := by decide
    rw [prefixed]
    refine ⟨isIdentifier_iff.mpr ⟨'_', _, rfl, by decide, ?_⟩, ?_, rfl⟩
    · exact Text.all_isNameChar_cons start letters
    · intro member
      exact others _ member (by rw [String.toList_ofList]; rfl)
  · rw [same]
    exact ⟨identifier, free, finite⟩

theorem isReadable_name {w : List Char} (identifier : isIdentifier (String.ofList w) = true)
    (free : String.ofList w ∉ "not" :: Value.reserved) :
    PropertyPath.isReadable [String.ofList w] = true := by
  have noPoint := Cursor.point_not_mem_of_isIdentifier identifier
  have space : QualifiedName.isNamespace (String.ofList w) = true := by
    rw [QualifiedName.isNamespace, String.toList_ofList, Text.splitOn_last noPoint, List.all_cons,
      identifier]
    rfl
  have first : PropertyPath.firstPart [String.ofList w] = String.ofList w := by
    have whole : w.takeWhile (· != '.') = w := List.takeWhile_eq_self_iff.mpr fun c member =>
      bne_iff_ne.mpr fun point => noPoint (point ▸ member)
    rw [PropertyPath.firstPart, String.toList_ofList, whole]
  have other : ("not" :: Value.reserved).contains (String.ofList w) = false := by
    rw [← Bool.not_eq_true, List.contains_iff_mem]
    exact free
  rw [PropertyPath.isReadable, first, other, List.all_cons, space]
  rfl

theorem masked_path {p : PropertyPath} (names : (path p).hasNames = true) :
    ∃ w, p = [String.ofList w] ∧ isIdentifier (String.ofList w) = true ∧
      String.ofList w ∉ "not" :: Value.reserved ∧
      (path p).masked = path [String.ofList (rename w)] := by
  obtain ⟨name, rfl, identifier, free⟩ := exists_name_of_hasNames names
  refine ⟨name.toList, by rw [String.ofList_toList], ?_, ?_, rfl⟩
  · rwa [String.ofList_toList]
  · rwa [String.ofList_toList]

theorem areReadable_orEmptyString {items : List Expr}
    (each : ∀ e ∈ items, e.masked.isReadable = true) :
    areReadable (orEmptyString (maskedList items)) = true ∧
      (orEmptyString (maskedList items)).isEmpty = false := by
  have all : areReadable (maskedList items) = true := by
    induction items with
    | nil => simp [maskedList, areReadable]
    | cons e rest ih =>
      obtain ⟨first, later⟩ := List.forall_mem_cons.mp each
      rw [maskedList, areReadable, first, ih later]
      rfl
  rw [orEmptyString]
  split
  · exact ⟨by decide, rfl⟩
  next some => exact ⟨all, Bool.not_eq_true _ ▸ some⟩

theorem isReadable_masked {e : Expr} (names : e.hasNames = true) : e.masked.isReadable = true := by
  induction e with
  | literal v => rfl
  | path p =>
    obtain ⟨w, rfl, identifier, free, same⟩ := masked_path names
    obtain ⟨identifier', free', _⟩ := rename_name identifier free
    rw [same, isReadable]
    exact isReadable_name identifier' free'
  | binary op l r left right =>
    rw [hasNames, Bool.and_eq_true] at names
    rw [masked, isReadable, left names.1, right names.2]
    rfl
  | not e ih =>
    rw [hasNames] at names
    rw [masked, isReadable, ih names]
  | negate e ih =>
    rw [hasNames] at names
    have finite : e.masked.beginsInfinity = false := by
      cases e with
      | path p =>
        obtain ⟨w, rfl, identifier, free, same⟩ := masked_path names
        have text : (PropertyPath.toText [String.ofList (rename w)]).toList = rename w := by
          rw [PropertyPath.toText, String.intercalate_singleton, String.toList_ofList]
        rw [same, beginsInfinity, text]
        exact (rename_name identifier free).2.2
      | _ => rfl
    rw [masked, isReadable, ih names, finite]
    rfl
  | member e items element each =>
    rw [hasNames, Bool.and_eq_true] at names
    obtain ⟨all, some⟩ := areReadable_orEmptyString fun item found =>
      each item found (haveNames_iff.mp names.2 item found)
    rw [masked, isReadable, element names.1, some, all]
    rfl
  | call f arguments each =>
    rw [hasNames] at names
    obtain ⟨all, _⟩ := areReadable_orEmptyString fun item found =>
      each item found (haveNames_iff.mp names item found)
    rw [masked, isReadable, all]

theorem rereadList_orEmptyString {items : List Expr}
    (each : ∀ e ∈ items, e.masked.reread = e.masked) :
    rereadList (orEmptyString (maskedList items)) = orEmptyString (maskedList items) := by
  have all : rereadList (maskedList items) = maskedList items := by
    rw [rereadList_eq_map, maskedList_eq_map, List.map_map]
    exact List.map_congr_left each
  rw [orEmptyString]
  split
  · rfl
  · exact all

theorem reread_masked (e : Expr) : e.masked.reread = e.masked := by
  induction e with
  | literal v => rfl
  | path p => rfl
  | binary op l r left right => rw [masked, reread, left, right]
  | not e ih => rw [masked, reread, ih]
  | negate e ih => rw [masked, reread, ih]
  | member e items element each => rw [masked, reread, element, rereadList_orEmptyString each]
  | call f arguments each => rw [masked, reread, rereadList_orEmptyString each]

/-- Readable trees with one text are read as one tree, however deep they are. -/
theorem reread_eq_of_toChars_eq {e e' : Expr} (readable : e.isReadable = true)
    (readable' : e'.isReadable = true) (equal : e.toChars = e'.toChars) :
    e.reread = e'.reread := by
  have readsAt : ∀ {e : Expr}, e.isReadable = true → ∀ levels, e.nesting ≤ levels →
      ReadsItem (ofLevels levels) e := fun readable levels enough =>
    readsItem_of_startsText (startsText _ (isLegible_of_isReadable readable)
      (keepsSigns_of_isReadable readable)) (isLegible_of_isReadable readable)
      (beginsNot_of_isReadable readable) enough
  obtain ⟨reads, opens⟩ := readsAt readable (max e.nesting e'.nesting) (Nat.le_max_left _ _)
  obtain ⟨reads', _⟩ := readsAt readable' (max e.nesting e'.nesting) (Nat.le_max_right _ _)
  have ahead := opens.ahead_of_rest (rest_ofText_toText e)
  obtain ⟨next, read, _⟩ := reads _ [] .finish ahead
  obtain ⟨next', read', _⟩ := reads' _ [] .finish (equal ▸ ahead)
  rw [read] at read'
  exact congrArg Prod.fst (Except.ok.inj read')

theorem masked_eq_of_toChars_eq {e e' : Expr} (names : e.hasNames = true)
    (names' : e'.hasNames = true) (equal : e.toChars = e'.toChars) : e.masked = e'.masked := by
  have text : ∀ {e : Expr}, e.hasNames = true →
      mask false false [] e.toChars = e.masked.toChars := by
    intro e names
    have whole := (masks_toChars names).1 false [] (Before.nil _)
    have empty : mask false false [] [] = [] := rfl
    rwa [List.append_nil, empty, List.append_nil] at whole
  have texts : e.masked.toChars = e'.masked.toChars := by
    rw [← text names, equal, text names']
  have read := reread_eq_of_toChars_eq (isReadable_masked names) (isReadable_masked names') texts
  rwa [reread_masked, reread_masked] at read

/-! ## Trees with one text -/

mutual

/-- Whether two trees are the same up to literals that agree. -/
def agrees : Expr → Expr → Bool
  | literal v, literal w => v.agrees w
  | path p, path q => p == q
  | binary op l r, binary op' l' r' => op == op' && (l.agrees l' && r.agrees r')
  | not e, not e' => e.agrees e'
  | negate e, negate e' => e.agrees e'
  | member e items, member e' items' => e.agrees e' && agreeLists items items'
  | call f arguments, call f' arguments' => f == f' && agreeLists arguments arguments'
  | _, _ => false

def agreeLists : List Expr → List Expr → Bool
  | [], [] => true
  | e :: rest, e' :: rest' => e.agrees e' && agreeLists rest rest'
  | _, _ => false

end

/-- An empty string is the text of no literal. -/
theorem masked_ne_emptyString (e : Expr) : e.masked ≠ literal (.string "") := by
  intro same
  cases e with
  | literal v =>
    rw [masked, literal.injEq, Value.string.injEq] at same
    have empty := congrArg String.toList same
    rw [Value.toText, String.toList_ofList] at empty
    exact literalChars_ne_nil v empty
  | _ => cases same

theorem maskedList_eq_of_orEmptyString_eq {items items' : List Expr}
    (equal : orEmptyString (maskedList items) = orEmptyString (maskedList items')) :
    maskedList items = maskedList items' := by
  have some : ∀ (e : Expr) (rest : List Expr),
      orEmptyString (maskedList (e :: rest)) = e.masked :: maskedList rest := fun _ _ => rfl
  cases items with
  | nil =>
    cases items' with
    | nil => rfl
    | cons e rest =>
      rw [some] at equal
      exact absurd (List.cons.inj equal).1.symm (masked_ne_emptyString e)
  | cons e rest =>
    cases items' with
    | nil =>
      rw [some] at equal
      exact absurd (List.cons.inj equal).1 (masked_ne_emptyString e)
    | cons e' rest' => exact equal

theorem agreeLists_of_masked_eq {items items' : List Expr}
    (each : ∀ e ∈ items, ∀ {e' : Expr}, e.masked = e'.masked → e.agrees e' = true)
    (equal : orEmptyString (maskedList items) = orEmptyString (maskedList items')) :
    agreeLists items items' = true := by
  have equal := maskedList_eq_of_orEmptyString_eq equal
  induction items generalizing items' with
  | nil =>
    cases items' with
    | nil => rw [agreeLists]
    | cons e rest => cases equal
  | cons e rest ih =>
    cases items' with
    | nil => cases equal
    | cons e' rest' =>
      obtain ⟨first, later⟩ := List.forall_mem_cons.mp each
      obtain ⟨head, tail⟩ := List.cons.inj equal
      rw [agreeLists, first head, ih later (congrArg _ tail) tail]
      rfl

theorem agrees_of_masked_eq {e e' : Expr} (equal : e.masked = e'.masked) : e.agrees e' = true := by
  induction e generalizing e' with
  | literal v =>
    cases e' with
    | literal w =>
      rw [masked, masked, literal.injEq, Value.string.injEq] at equal
      have texts := congrArg String.toList equal
      rw [Value.toText, Value.toText, String.toList_ofList, String.toList_ofList] at texts
      rw [agrees]
      exact Value.agrees_of_toChars_eq texts
    | _ => cases equal
  | path p =>
    cases e' with
    | path q =>
      rw [masked, masked, path.injEq] at equal
      have names : p = q := by
        refine List.map_injective_iff.mpr ?_ equal
        intro n m same
        exact String.toList_inj.mp (rename_injective (String.ofList_inj.mp same))
      rw [agrees, names]
      exact beq_self_eq_true q
    | _ => cases equal
  | binary op l r left right =>
    cases e' with
    | binary op' l' r' =>
      rw [masked, masked, binary.injEq] at equal
      rw [agrees, equal.1, left equal.2.1, right equal.2.2]
      simp
    | _ => cases equal
  | not e ih =>
    cases e' with
    | not e' =>
      rw [masked, masked, not.injEq] at equal
      rw [agrees]
      exact ih equal
    | _ => cases equal
  | negate e ih =>
    cases e' with
    | negate e' =>
      rw [masked, masked, negate.injEq] at equal
      rw [agrees]
      exact ih equal
    | _ => cases equal
  | member e items element each =>
    cases e' with
    | member e' items' =>
      rw [masked, masked, member.injEq] at equal
      rw [agrees, element equal.1, agreeLists_of_masked_eq each equal.2]
      rfl
    | _ => cases equal
  | call f arguments each =>
    cases e' with
    | call f' arguments' =>
      rw [masked, masked, call.injEq] at equal
      rw [agrees, equal.1, agreeLists_of_masked_eq each equal.2]
      simp
    | _ => cases equal

/-- Trees of names that are no words of the syntax have one text only if they agree. -/
theorem agrees_of_toText_eq {e e' : Expr} (names : e.hasNames = true) (names' : e'.hasNames = true)
    (equal : e.toText = e'.toText) : e.agrees e' = true :=
  agrees_of_masked_eq (masked_eq_of_toChars_eq names names' (String.ofList_inj.mp equal))

end OData.Expr
