import OData.Proofs.Bound.Built
import OData.Proofs.Expr.Distinct

/-!
# Texts tell bound expressions apart

The text of a bound expression leaves out the types of properties and the kinds of its nodes.  Over
one entity type the names of properties tell their types, and operators the kinds of nodes.
-/

set_option autoImplicit false

namespace OData

/-- Whether no property of a type has a word of the syntax for a name. -/
def EntityType.HasPlainNames (ty : EntityType) : Prop :=
  ∀ property ∈ ty.properties, property.name.text ∉ "not" :: Value.reserved

namespace BoundExpr

mutual

/-- Whether two expressions are the same up to literals that agree. -/
def agrees : BoundExpr → BoundExpr → Bool
  | literal v, literal w => v.agrees w
  | property name type, property name' type' => name == name' && type == type'
  | compare op l r, compare op' l' r' => op == op' && (l.agrees l' && r.agrees r')
  | and l r, and l' r' => l.agrees l' && r.agrees r'
  | or l r, or l' r' => l.agrees l' && r.agrees r'
  | not e, not e' => e.agrees e'
  | arithmetic op l r, arithmetic op' l' r' => op == op' && (l.agrees l' && r.agrees r')
  | negate e, negate e' => e.agrees e'
  | member e items, member e' items' => e.agrees e' && agreeLists items items'
  | call f arguments, call f' arguments' => f == f' && agreeLists arguments arguments'
  | _, _ => false

def agreeLists : List BoundExpr → List BoundExpr → Bool
  | [], [] => true
  | e :: rest, e' :: rest' => e.agrees e' && agreeLists rest rest'
  | _, _ => false

end

theorem toExprs_eq_map (items : List BoundExpr) : toExprs items = items.map toExpr := by
  induction items with
  | nil => simp [toExprs]
  | cons e rest ih => simp [toExprs, ih]

section Texts

variable {ty : EntityType} {calls : Prop}

theorem hasNames_toExpr (plain : ty.HasPlainNames) {e : BoundExpr}
    (built : Built ty calls e) : e.toExpr.hasNames = true := by
  induction built with
  | literal _ => rfl
  | @property property declared =>
    have free := plain property (List.mem_of_find?_eq_some declared)
    simpa [toExpr, Expr.hasNames, property.name.isIdentifier] using free
  | compare _ _ _ left right => simp [toExpr, Expr.hasNames, left, right]
  | arithmetic _ _ _ left right => simp [toExpr, Expr.hasNames, left, right]
  | and _ _ left right => simp [toExpr, Expr.hasNames, left, right]
  | or _ _ left right => simp [toExpr, Expr.hasNames, left, right]
  | not _ ih => rwa [toExpr, Expr.hasNames]
  | negate _ ih => rwa [toExpr, Expr.hasNames]
  | member _ _ element each =>
    rw [toExpr, Expr.hasNames, element, toExprs_eq_map, Bool.true_and, Expr.haveNames_iff]
    simpa using each
  | call _ _ each =>
    rw [toExpr, Expr.hasNames, toExprs_eq_map, Expr.haveNames_iff]
    simpa using each

theorem agreeLists_of_toExprs {items items' : List BoundExpr}
    (each : ∀ e ∈ items, ∀ {e' : BoundExpr}, Built ty calls e' →
      e.toExpr.agrees e'.toExpr = true → e.agrees e' = true)
    (built : ∀ e ∈ items', Built ty calls e)
    (equal : Expr.agreeLists (toExprs items) (toExprs items') = true) :
    agreeLists items items' = true := by
  induction items generalizing items' with
  | nil =>
    cases items' with
    | nil => rw [agreeLists]
    | cons e rest => simp [toExprs, Expr.agreeLists] at equal
  | cons e rest ih =>
    cases items' with
    | nil => simp [toExprs, Expr.agreeLists] at equal
    | cons e' rest' =>
      obtain ⟨here, later⟩ := List.forall_mem_cons.mp each
      obtain ⟨builtE, builtRest⟩ := List.forall_mem_cons.mp built
      rw [toExprs, toExprs, Expr.agreeLists, Bool.and_eq_true] at equal
      rw [agreeLists, here builtE equal.1, ih later builtRest equal.2]
      rfl

/-- The node that belongs to an operator. -/
def node (op : Operator) (l r : BoundExpr) : BoundExpr :=
  if op.isComparison then compare op l r
  else if op.isArithmetic then arithmetic op l r
  else if op = .and then and l r
  else or l r

theorem node_comparison {op : Operator} (comparison : op.isComparison = true) (l r : BoundExpr) :
    node op l r = compare op l r := if_pos comparison

theorem node_arithmetic {op : Operator} (numeric : op.isArithmetic = true) (l r : BoundExpr) :
    node op l r = arithmetic op l r := by
  cases op <;> first | rfl | cases numeric

theorem agrees_node {op : Operator} {l r e' : BoundExpr}
    (left : ∀ {e'}, Built ty calls e' → l.toExpr.agrees e'.toExpr = true →
      l.agrees e' = true)
    (right : ∀ {e'}, Built ty calls e' → r.toExpr.agrees e'.toExpr = true →
      r.agrees e' = true)
    (built' : Built ty calls e')
    (equal : (Expr.binary op l.toExpr r.toExpr).agrees e'.toExpr = true) :
    (node op l r).agrees e' = true := by
  cases built' with
  | compare comparison builtL builtR =>
    simp only [toExpr, Expr.agrees, Bool.and_eq_true, beq_iff_eq] at equal
    obtain ⟨rfl, first, second⟩ := equal
    simp [node_comparison comparison, agrees, left builtL first, right builtR second]
  | arithmetic numeric builtL builtR =>
    simp only [toExpr, Expr.agrees, Bool.and_eq_true, beq_iff_eq] at equal
    obtain ⟨rfl, first, second⟩ := equal
    simp [node_arithmetic numeric, agrees, left builtL first, right builtR second]
  | and builtL builtR =>
    simp only [toExpr, Expr.agrees, Bool.and_eq_true, beq_iff_eq] at equal
    obtain ⟨rfl, first, second⟩ := equal
    have kind : node .and l r = and l r := rfl
    simp [kind, agrees, left builtL first, right builtR second]
  | or builtL builtR =>
    simp only [toExpr, Expr.agrees, Bool.and_eq_true, beq_iff_eq] at equal
    obtain ⟨rfl, first, second⟩ := equal
    have kind : node .or l r = or l r := rfl
    simp [kind, agrees, left builtL first, right builtR second]
  | _ => simp [toExpr, Expr.agrees] at equal

/-- Built expressions whose trees agree do so themselves. -/
theorem agrees_of_toExpr_agrees {e e' : BoundExpr} (built : Built ty calls e)
    (built' : Built ty calls e') (equal : e.toExpr.agrees e'.toExpr = true) :
    e.agrees e' = true := by
  induction built generalizing e' with
  | literal _ =>
    cases built' with
    | literal _ => exact equal
    | _ => simp [toExpr, Expr.agrees] at equal
  | @property property declared =>
    cases built' with
    | @property property' declared' =>
      have names : property.name.text = property'.name.text := by
        simpa [toExpr, Expr.agrees] using equal
      rw [names, declared'] at declared
      cases declared
      simp [agrees]
    | _ => simp [toExpr, Expr.agrees] at equal
  | @compare op l r comparison _ _ left right =>
    rw [← node_comparison comparison]
    exact agrees_node left right built' equal
  | @arithmetic op l r numeric _ _ left right =>
    rw [← node_arithmetic numeric]
    exact agrees_node left right built' equal
  | @and l r _ _ left right =>
    have kind : node .and l r = and l r := rfl
    rw [← kind]
    exact agrees_node left right built' equal
  | @or l r _ _ left right =>
    have kind : node .or l r = or l r := rfl
    rw [← kind]
    exact agrees_node left right built' equal
  | not _ ih =>
    cases built' with
    | not operand => exact ih operand equal
    | _ => simp [toExpr, Expr.agrees] at equal
  | negate _ ih =>
    cases built' with
    | negate operand => exact ih operand equal
    | _ => simp [toExpr, Expr.agrees] at equal
  | member _ _ element each =>
    cases built' with
    | member builtE builtItems =>
      rw [toExpr, toExpr, Expr.agrees, Bool.and_eq_true] at equal
      rw [agrees, element builtE equal.1, agreeLists_of_toExprs each builtItems equal.2]
      rfl
    | _ => simp [toExpr, Expr.agrees] at equal
  | call _ _ each =>
    cases built' with
    | call _ builtArguments =>
      rw [toExpr, toExpr, Expr.agrees, Bool.and_eq_true, beq_iff_eq] at equal
      rw [agrees, equal.1, agreeLists_of_toExprs each builtArguments equal.2]
      simp
    | _ => simp [toExpr, Expr.agrees] at equal

end Texts

end BoundExpr

end OData
