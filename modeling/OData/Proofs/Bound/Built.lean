import OData.Proofs.Bound.Binding
import OData.Proofs.Schema.EntityType

/-!
# What binding builds

Binding gives expressions over the properties of the entity type in which each operator has its own
kind of node.  Functions are called only if the filter calls one: a filter without function calls
gives an expression without them.
-/

set_option autoImplicit false

namespace OData

namespace Expr

mutual

def isCallFree : Expr → Bool
  | literal _ | path _ => true
  | binary _ l r => l.isCallFree && r.isCallFree
  | not e | negate e => e.isCallFree
  | member e items => e.isCallFree && areCallFree items
  | call _ _ => false

def areCallFree : List Expr → Bool
  | [] => true
  | e :: rest => e.isCallFree && areCallFree rest

end

theorem areCallFree_iff {items : List Expr} :
    areCallFree items = true ↔ ∀ e ∈ items, e.isCallFree = true := by
  induction items with
  | nil => simp [areCallFree]
  | cons e rest ih => simp [areCallFree, ih]

end Expr

namespace BoundExpr

/-- Expressions over the properties of a type, with calls if there may be some. -/
inductive Built (ty : EntityType) (calls : Prop) : BoundExpr → Prop
  | literal (v : Value) : Built ty calls (literal v)
  | property {property : Property} (declared : ty.property? property.name.text = some property) :
    Built ty calls (BoundExpr.property property.name property.type)
  | compare {op : Operator} {l r : BoundExpr} (comparison : op.isComparison = true)
    (left : Built ty calls l) (right : Built ty calls r) :
    Built ty calls (compare op l r)
  | arithmetic {op : Operator} {l r : BoundExpr} (numeric : op.isArithmetic = true)
    (left : Built ty calls l) (right : Built ty calls r) :
    Built ty calls (arithmetic op l r)
  | and {l r : BoundExpr} (left : Built ty calls l) (right : Built ty calls r) :
    Built ty calls (and l r)
  | or {l r : BoundExpr} (left : Built ty calls l) (right : Built ty calls r) :
    Built ty calls (or l r)
  | not {e : BoundExpr} (operand : Built ty calls e) : Built ty calls (not e)
  | negate {e : BoundExpr} (operand : Built ty calls e) : Built ty calls (negate e)
  | member {e : BoundExpr} {items : List BoundExpr} (element : Built ty calls e)
    (each : ∀ item ∈ items, Built ty calls item) : Built ty calls (member e items)
  | call {f : CanonicalFunction} {arguments : List BoundExpr} (called : calls)
    (each : ∀ argument ∈ arguments, Built ty calls argument) :
    Built ty calls (call f arguments)

/-- Whether the bound expression of a tree may be built: with calls if the tree has some. -/
def Allowed (calls : Prop) (e : Expr) : Prop := e.isCallFree = true ∨ calls

namespace Allowed

variable {calls : Prop}

theorem binary {op : Operator} {l r : Expr} (allowed : Allowed calls (.binary op l r)) :
    Allowed calls l ∧ Allowed calls r := by
  rw [Allowed, Expr.isCallFree, Bool.and_eq_true] at allowed
  exact ⟨allowed.imp_left And.left, allowed.imp_left And.right⟩

theorem member {e : Expr} {items : List Expr} (allowed : Allowed calls (.member e items)) :
    Allowed calls e ∧ ∀ item ∈ items, Allowed calls item := by
  rw [Allowed, Expr.isCallFree, Bool.and_eq_true, Expr.areCallFree_iff] at allowed
  exact ⟨allowed.imp_left And.left, fun item inside => allowed.imp_left fun free =>
    free.2 item inside⟩

theorem call {f : CanonicalFunction} {arguments : List Expr}
    (allowed : Allowed calls (.call f arguments)) : calls :=
  allowed.resolve_left (by simp [Expr.isCallFree])

end Allowed

section Building

variable {ty : EntityType} {calls : Prop}

/-! ## Coercion -/

theorem built_of_coercePair {l r : BoundExpr} {p : BoundExpr × BoundExpr}
    (left : Built ty calls l) (right : Built ty calls r)
    (pair : coercePair l r = .ok p) : Built ty calls p.1 ∧ Built ty calls p.2 := by
  cases coercesTo_of_coercePair pair with
  | kept => exact ⟨left, right⟩
  | first => exact ⟨.literal _, right⟩
  | second => exact ⟨left, .literal _⟩

/-! ## Binding -/

/-- Each item is coerced against the element, which may be coerced in turn. -/
theorem built_of_bindItems {items : List Expr} {element element' : BoundExpr}
    {items' : List BoundExpr} (built : Built ty calls element)
    (each : ∀ e ∈ items, ∀ {bound}, bind ty e = .ok bound → Built ty calls bound)
    (accepted : bindItems ty element items = .ok (element', items')) :
    Built ty calls element' ∧ ∀ item ∈ items', Built ty calls item := by
  induction items generalizing element items' with
  | nil =>
    cases accepted
    exact ⟨built, fun _ found => absurd found List.not_mem_nil⟩
  | cons e rest ih =>
    obtain ⟨here, later⟩ := List.forall_mem_cons.mp each
    obtain ⟨item, ⟨next, coerced⟩, ⟨last, others⟩, bound, pair, boundRest, shape⟩ :=
      bindItems_cons_eq_ok.mp accepted
    cases shape
    obtain ⟨builtNext, builtItem⟩ := built_of_coercePair built (here bound) pair
    obtain ⟨builtLast, builtOthers⟩ := ih builtNext later boundRest
    exact ⟨builtLast, List.forall_mem_cons.mpr ⟨builtItem, builtOthers⟩⟩

theorem built_of_bind {e : Expr} {bound : BoundExpr} (allowed : Allowed calls e)
    (accepted : bind ty e = .ok bound) : Built ty calls bound := by
  revert allowed
  refine bind_induct (P := fun e bound => Allowed calls e → Built ty calls bound)
    ?literal ?property ?and ?or ?compare ?arithmetic ?not ?negate ?member ?call accepted
  case literal =>
    intro v _
    exact .literal v
  case property =>
    intro p found resolved _
    exact .property (property?_of_resolve resolved)
  case and =>
    intro l r a b left right _ _ allowed
    exact .and (left allowed.binary.1) (right allowed.binary.2)
  case or =>
    intro l r a b left right _ _ allowed
    exact .or (left allowed.binary.1) (right allowed.binary.2)
  case compare =>
    intro op l r a b p comparison left right pair allowed
    obtain ⟨builtL, builtR⟩ :=
      built_of_coercePair (left allowed.binary.1) (right allowed.binary.2) pair
    exact .compare comparison builtL builtR
  case arithmetic =>
    intro op l r a b numeric left right _ _ allowed
    exact .arithmetic numeric (left allowed.binary.1) (right allowed.binary.2)
  case not =>
    intro e a operand _ allowed
    exact .not (operand allowed)
  case negate =>
    intro e a operand _ allowed
    exact .negate (operand allowed)
  case member =>
    intro e items a p element each boundItems allowed
    obtain ⟨allowedE, allowedItems⟩ := allowed.member
    obtain ⟨builtLast, builtOthers⟩ := built_of_bindItems (element allowedE)
      (fun item inside _ bound => each item inside bound (allowedItems item inside)) boundItems
    exact .member builtLast builtOthers
  case call =>
    intro f arguments bounds each _ allowed
    refine .call allowed.call fun argument inside => ?_
    obtain ⟨e, _, built⟩ := exists_of_mem_forall₂ each inside
    exact built (.inr allowed.call)

end Building

/-! ## Filters without function calls -/

mutual

/-- Whether a filter has no function calls, and each operator its own kind of node. -/
def isPlain : BoundExpr → Bool
  | literal _ | property _ _ => true
  | compare op l r => op.isComparison && (l.isPlain && r.isPlain)
  | arithmetic op l r => op.isArithmetic && (l.isPlain && r.isPlain)
  | and l r | or l r => l.isPlain && r.isPlain
  | not e | negate e => e.isPlain
  | member e items => e.isPlain && arePlain items
  | call _ _ => false

def arePlain : List BoundExpr → Bool
  | [] => true
  | e :: rest => e.isPlain && arePlain rest

end

theorem arePlain_iff {items : List BoundExpr} :
    arePlain items = true ↔ ∀ e ∈ items, e.isPlain = true := by
  induction items with
  | nil => simp [arePlain]
  | cons e rest ih => simp [arePlain, ih]

variable {ty : EntityType}

theorem isPlain_of_built {e : BoundExpr} (built : Built ty False e) : e.isPlain = true := by
  induction built with
  | literal _ => rw [isPlain]
  | property _ => rw [isPlain]
  | compare comparison _ _ left right => simp [isPlain, comparison, left, right]
  | arithmetic numeric _ _ left right => simp [isPlain, numeric, left, right]
  | and _ _ left right => simp [isPlain, left, right]
  | or _ _ left right => simp [isPlain, left, right]
  | not _ ih => rwa [isPlain]
  | negate _ ih => rwa [isPlain]
  | member _ _ element each => rw [isPlain, element, arePlain_iff.mpr each, Bool.and_self]
  | call called _ _ => exact called.elim

theorem isPlain_of_bind {e : Expr} {bound : BoundExpr} (callFree : e.isCallFree = true)
    (accepted : bind ty e = .ok bound) : bound.isPlain = true :=
  isPlain_of_built (built_of_bind (.inl callFree) accepted)

end BoundExpr

end OData
