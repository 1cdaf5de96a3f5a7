import OData.Expr.Text
import OData.Identifier
import OData.Proofs.Value.Literals

/-!
# Expressions that can be read back

`isReadable` says which trees have a text that tells them, `nesting` how many minuses, `not` and
brackets are open around one point of it, and `reread` what the text is read as.
-/

set_option autoImplicit false

namespace OData

/-- The first dotted part of the first segment. -/
def PropertyPath.firstPart : PropertyPath → String
  | [] => ""
  | first :: _ => String.ofList (first.toList.takeWhile (· != '.'))

/-- Whether a path is one of dotted names and does not begin with a keyword. -/
def PropertyPath.isReadable (p : PropertyPath) : Bool :=
  !p.isEmpty && p.all QualifiedName.isNamespace &&
    !("not" :: Value.reserved).contains p.firstPart

namespace Expr

/-- Cases over the constructors, with the hypothesis for every expression of a list. -/
@[elab_as_elim, induction_eliminator]
theorem induction {motive : Expr → Prop} (literal : ∀ v, motive (literal v))
    (path : ∀ p, motive (path p))
    (binary : ∀ op left right, motive left → motive right → motive (binary op left right))
    (not : ∀ e, motive e → motive (not e)) (negate : ∀ e, motive e → motive (negate e))
    (member : ∀ e items, motive e → (∀ item ∈ items, motive item) → motive (member e items))
    (call : ∀ f arguments, (∀ item ∈ arguments, motive item) → motive (call f arguments))
    (e : Expr) : motive e :=
  @Expr.rec motive (fun items => ∀ item ∈ items, motive item) literal path binary not negate
    member call (fun _ found => absurd found List.not_mem_nil)
    (fun first rest one others item found => by
      rcases List.mem_cons.mp found with rfl | later
      · exact one
      · exact others item later) e

/-- Whether a minus in front of the text would begin the literal of an infinity. -/
def beginsInfinity : Expr → Bool
  | path p => "INF".toList.isPrefixOf (PropertyPath.toText p).toList
  | _ => false

mutual

def isReadable : Expr → Bool
  | literal v => v.isReadable
  | path p => PropertyPath.isReadable p
  | binary _ l r => l.isReadable && r.isReadable
  | not e => e.isReadable
  | negate e => e.isReadable && !e.beginsInfinity
  | member e items => e.isReadable && (!items.isEmpty && areReadable items)
  | call _ arguments => areReadable arguments

def areReadable : List Expr → Bool
  | [] => true
  | e :: rest => e.isReadable && areReadable rest

end

mutual

def nesting : Expr → Nat
  | literal _ | path _ => 0
  | binary op l r =>
    max ((decide (l.precedence < op.precedence)).toNat + l.nesting)
      ((decide (r.precedence ≤ op.precedence)).toNat + r.nesting)
  | not e => (decide (e.precedence < notPrecedence)).toNat + e.nesting + 1
  | negate e => (!e.isName).toNat + e.nesting + 1
  | member e items =>
    max ((decide (e.precedence < comparisonPrecedence)).toNat + e.nesting)
      (nestingOfList items + 1)
  | call _ arguments => nestingOfList arguments + 1

def nestingOfList : List Expr → Nat
  | [] => 0
  | e :: rest => max e.nesting (nestingOfList rest)

end

mutual

def reread : Expr → Expr
  | literal v => literal v.reread
  | path p => path p
  | binary op l r => binary op l.reread r.reread
  | not e => not e.reread
  | negate e => negate e.reread
  | member e items => member e.reread (rereadList items)
  | call f arguments => call f (rereadList arguments)

def rereadList : List Expr → List Expr
  | [] => []
  | e :: rest => e.reread :: rereadList rest

end

mutual

/-- The literals of a tree from the left to the right. -/
def literals : Expr → List Value
  | literal v => [v]
  | path _ => []
  | binary _ l r => l.literals ++ r.literals
  | not e | negate e => e.literals
  | member e items => e.literals ++ literalsOfList items
  | call _ arguments => literalsOfList arguments

def literalsOfList : List Expr → List Value
  | [] => []
  | e :: rest => e.literals ++ literalsOfList rest

end

section Equations

variable (op : Operator) (f : CanonicalFunction) (e l r : Expr) (items : List Expr)

theorem toChars_literal (v : Value) : (literal v).toChars = v.toChars := rfl

theorem toChars_path (p : PropertyPath) : (path p).toChars = (PropertyPath.toText p).toList := rfl

theorem toChars_binary : (binary op l r).toChars =
    parenthesizeIf (decide (l.precedence < op.precedence)) l.toChars ++ ' ' :: (op.keyword.toList ++
      ' ' :: parenthesizeIf (decide (r.precedence ≤ op.precedence)) r.toChars) := rfl

theorem toChars_not : (not e).toChars =
    "not ".toList ++ parenthesizeIf (decide (e.precedence < notPrecedence)) e.toChars := rfl

theorem toChars_negate : (negate e).toChars = '-' :: parenthesizeIf (!e.isName) e.toChars := rfl

theorem toChars_member : (member e items).toChars =
    parenthesizeIf (decide (e.precedence < comparisonPrecedence)) e.toChars ++ " in (".toList ++
      commaSeparated (listChars items) ++ [')'] := rfl

theorem toChars_call : (call f items).toChars =
    f.name.toList ++ '(' :: (commaSeparated (listChars items) ++ [')']) := rfl

theorem nesting_binary : (binary op l r).nesting =
    max ((decide (l.precedence < op.precedence)).toNat + l.nesting)
      ((decide (r.precedence ≤ op.precedence)).toNat + r.nesting) := rfl

theorem nesting_not : (not e).nesting =
    (decide (e.precedence < notPrecedence)).toNat + e.nesting + 1 := rfl

theorem nesting_negate : (negate e).nesting = (!e.isName).toNat + e.nesting + 1 := rfl

theorem nesting_member : (member e items).nesting =
    max ((decide (e.precedence < comparisonPrecedence)).toNat + e.nesting)
      (nestingOfList items + 1) := rfl

theorem nesting_call : (call f items).nesting = nestingOfList items + 1 := rfl

end Equations

theorem rereadList_eq_map (items : List Expr) : rereadList items = items.map reread := by
  induction items with
  | nil => simp [rereadList]
  | cons e rest ih => simp [rereadList, ih]

theorem listChars_eq_map (items : List Expr) : listChars items = items.map toChars := by
  induction items with
  | nil => simp [listChars]
  | cons e rest ih => simp [listChars, ih]

theorem mem_literalsOfList {items : List Expr} {v : Value} :
    v ∈ literalsOfList items ↔ ∃ e ∈ items, v ∈ e.literals := by
  induction items with
  | nil => simp [literalsOfList]
  | cons e rest ih => simp [literalsOfList, ih]

theorem isReadable_of_mem {items : List Expr} (readable : areReadable items = true) {e : Expr}
    (member : e ∈ items) : e.isReadable = true := by
  induction items with
  | nil => contradiction
  | cons first rest ih =>
    rw [areReadable, Bool.and_eq_true] at readable
    rcases List.mem_cons.mp member with rfl | later
    · exact readable.1
    · exact ih readable.2 later

theorem nestingOfList_le_iff {items : List Expr} {levels : Nat} :
    nestingOfList items ≤ levels ↔ ∀ item ∈ items, item.nesting ≤ levels := by
  induction items with
  | nil => simp [nestingOfList]
  | cons e rest ih => simp [nestingOfList, ih]

theorem nesting_le_of_mem {items : List Expr} {e : Expr} (member : e ∈ items) :
    e.nesting ≤ nestingOfList items :=
  nestingOfList_le_iff.mp (Nat.le_refl _) e member

theorem sameLists_rereadList {items : List Expr}
    (each : ∀ e ∈ items, e.same e.reread = true) : sameLists items (rereadList items) = true := by
  induction items with
  | nil => simp [rereadList, sameLists]
  | cons e rest ih =>
    have first := each e List.mem_cons_self
    have others := ih fun other member => each other (List.mem_cons_of_mem e member)
    rw [rereadList, sameLists, first, others]
    rfl

/-- What is read back is the same tree up to the scales of decimals. -/
theorem same_reread_of_literals (e : Expr) (readable : ∀ v ∈ e.literals, v.isReadable = true) :
    e.same e.reread = true := by
  induction e with
  | literal v =>
    rw [reread, same]
    exact Value.same_reread (readable v (by simp [literals]))
  | path p => simp [reread, same]
  | binary op l r left right =>
    simp only [literals, List.mem_append] at readable
    rw [reread, same, left fun v found => readable v (Or.inl found),
      right fun v found => readable v (Or.inr found)]
    simp
  | not e ih =>
    rw [literals] at readable
    rw [reread, same]
    exact ih readable
  | negate e ih =>
    rw [literals] at readable
    rw [reread, same]
    exact ih readable
  | member e items element each =>
    simp only [literals, List.mem_append, mem_literalsOfList] at readable
    have others : sameLists items (rereadList items) = true := by
      apply sameLists_rereadList
      intro item member
      exact each item member fun v found => readable v (Or.inr ⟨item, member, found⟩)
    rw [reread, same, element fun v found => readable v (Or.inl found), others]
    rfl
  | call f arguments each =>
    simp only [literals, mem_literalsOfList] at readable
    have others : sameLists arguments (rereadList arguments) = true := by
      apply sameLists_rereadList
      intro item member
      exact each item member fun v found => readable v ⟨item, member, found⟩
    rw [reread, same, others]
    simp

end Expr

end OData
