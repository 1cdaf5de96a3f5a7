import OData.Proofs.Bound.Distinct
import OData.Proofs.Options.Soundness
import OData.Proofs.Order
import OData.Proofs.Paging

/-!
# Fingerprints tell plans apart

The text of a fingerprint is the filter, a bar and the order.  No bar stands in the order, whose
keys are names between a sign and a comma, so that plans of one entity type with the same text have
the same filter and order.
-/

set_option autoImplicit false

namespace OData

open BoundExpr (Built)

/-! ## Orders -/

namespace OrderKey

def toChars (key : OrderKey) : List Char :=
  (QueryPlan.directionSign key.direction).toList ++ (key.property.text.toList ++ [','])

theorem notMem_name {c : Char} (other : Text.isNameChar c = false) (name : Identifier) :
    c ∉ name.text.toList := by
  intro member
  have identifier := name.isIdentifier
  rw [← String.ofList_toList (s := name.text)] at identifier
  obtain ⟨d, rest, text, start, letters⟩ := Expr.isIdentifier_iff.mp identifier
  rw [text] at member
  have letter := List.all_eq_true.mp (Text.all_isNameChar_cons start letters) c member
  rw [other] at letter
  contradiction

theorem bar_notMem_toChars (key : OrderKey) : '|' ∉ key.toChars := by
  have noName : '|' ∉ key.property.text.toList := notMem_name (by decide) key.property
  have noSign : '|' ∉ (QueryPlan.directionSign key.direction).toList := by
    cases key.direction <;> decide
  simp [toChars, noName, noSign]

/-- A key over a known type is told by its text. -/
theorem eq_of_names {ty : EntityType} {key key' : OrderKey} (belongs : key.IsOver ty)
    (belongs' : key'.IsOver ty) (directions : key.direction = key'.direction)
    (names : key.property.text = key'.property.text) : key = key' := by
  obtain ⟨property, declared, name, type⟩ := belongs
  obtain ⟨property', declared', name', type'⟩ := belongs'
  rw [name, name'] at names
  rw [names, declared'] at declared
  cases declared
  cases key
  cases key'
  simp only at name name' type type' directions
  rw [name, name', type, type', directions]

theorem toChars_append_inj {key key' : OrderKey} {rest rest' : List Char}
    (equal : key.toChars ++ rest = key'.toChars ++ rest') :
    key.direction = key'.direction ∧ key.property.text = key'.property.text ∧ rest = rest' := by
  have signs : ∀ direction : Direction, ∃ c,
      (QueryPlan.directionSign direction).toList = [c] ∧
        (c = '+' ↔ direction = .ascending) := by
    intro direction
    cases direction
    · exact ⟨'+', rfl, by simp⟩
    · exact ⟨'-', rfl, by simp⟩
  obtain ⟨c, sign, which⟩ := signs key.direction
  obtain ⟨c', sign', which'⟩ := signs key'.direction
  rw [toChars, toChars, sign, sign'] at equal
  simp only [List.cons_append, List.append_assoc] at equal
  obtain ⟨same, tail⟩ := List.cons.inj equal
  obtain ⟨names, rests⟩ := Text.eq_of_append_cons (notMem_name (by decide) key.property)
    (notMem_name (by decide) key'.property) tail
  refine ⟨?_, String.toList_inj.mp names, rests⟩
  rw [same, which'] at which
  cases first : key.direction <;> cases second : key'.direction <;> simp_all

end OrderKey

namespace QueryPlan

def orderChars (order : List OrderKey) : List Char := order.flatMap OrderKey.toChars

theorem bar_notMem_orderChars (order : List OrderKey) : '|' ∉ orderChars order := by
  intro member
  obtain ⟨key, _, inside⟩ := List.mem_flatMap.mp member
  exact key.bar_notMem_toChars inside

theorem order_eq_of_orderChars_eq {ty : EntityType} {order order' : List OrderKey}
    (belongs : ∀ key ∈ order, key.IsOver ty) (belongs' : ∀ key ∈ order', key.IsOver ty)
    (equal : orderChars order = orderChars order') : order = order' := by
  have nonempty : ∀ (key : OrderKey) (rest : List OrderKey), orderChars (key :: rest) ≠ [] := by
    intro key rest
    cases sign : key.direction <;> simp [orderChars, OrderKey.toChars]
  induction order generalizing order' with
  | nil =>
    cases order' with
    | nil => rfl
    | cons key rest => exact absurd equal.symm (nonempty key rest)
  | cons key rest ih =>
    cases order' with
    | nil => exact absurd equal (nonempty key rest)
    | cons key' rest' =>
      obtain ⟨here, later⟩ := List.forall_mem_cons.mp belongs
      obtain ⟨here', later'⟩ := List.forall_mem_cons.mp belongs'
      rw [orderChars, orderChars, List.flatMap_cons, List.flatMap_cons] at equal
      obtain ⟨directions, names, rests⟩ := OrderKey.toChars_append_inj equal
      rw [OrderKey.eq_of_names here here' directions names, ih later later' rests]

theorem toList_fingerprintText (plan : QueryPlan) : plan.fingerprintText.toList =
    ((plan.filter.map BoundExpr.toText).getD "").toList ++ '|' :: orderChars plan.order := by
  have keys : orderChars plan.order = plan.order.flatMap fun key =>
      (directionSign key.direction).toList ++ (key.property.text.toList ++ [',']) := rfl
  simp [fingerprintText, keys, String.toList_join, List.flatMap_map]

end QueryPlan

/-! ## Filters -/

namespace BoundExpr

variable {ty : EntityType} {calls : Prop}

theorem toText_ne_empty (plain : ty.HasPlainNames) {e : BoundExpr}
    (built : Built ty calls e) : e.toText ≠ "" := by
  intro empty
  rw [toText, Expr.toText] at empty
  exact Expr.toChars_ne_nil (hasNames_toExpr plain built) (String.ofList_inj.mp empty)

end BoundExpr

namespace QueryPlan

/-- Whether both plans have no filter, or filters that agree. -/
def filtersAgree : Option BoundExpr → Option BoundExpr → Bool
  | none, none => true
  | some e, some e' => e.agrees e'
  | _, _ => false

/-- Whether two plans have the same filter, up to literals that agree, and the same order. -/
def Agrees (plan plan' : QueryPlan) : Prop :=
  filtersAgree plan.filter plan'.filter = true ∧ plan.order = plan'.order

/-- Plans whose filter and order are bound to an entity type.  The filter may be restricted to what
an entity is related to. -/
inductive IsBound (ty : EntityType) : QueryPlan → Prop
  | options {e? : Option Expr} {items : List OrderItem} {plan : QueryPlan}
    (filter : bindFilter? ty e? = .ok plan.filter) (order : bindOrder ty items = .ok plan.order) :
    IsBound ty plan
  | restrict {plan : QueryPlan} {source : Source} {scope : BoundExpr} (bound : IsBound ty plan)
    (made : source.scope ty = .ok scope) : IsBound ty (plan.restrict scope)

section Bound

variable {ty : EntityType}

theorem built_of_conjunction {conditions : List BoundExpr} {condition : BoundExpr}
    (each : ∀ e ∈ conditions, Built ty True e)
    (joined : BoundExpr.conjunction conditions = some condition) :
    Built ty True condition := by
  cases conditions with
  | nil => cases joined
  | cons first rest =>
    cases joined
    obtain ⟨here, later⟩ := List.forall_mem_cons.mp each
    induction rest generalizing first with
    | nil => exact here
    | cons next rest ih =>
      obtain ⟨second, others⟩ := List.forall_mem_cons.mp later
      have both : Built ty True (first.and next) := .and here second
      exact ih _ (List.forall_mem_cons.mpr ⟨both, others⟩) both others

theorem built_of_conditions {source : Source} {constraints : List ReferentialConstraint}
    {found : Option (List BoundExpr)} (made : source.conditions ty constraints = .ok found) :
    ∀ conditions ∈ found, ∀ e ∈ conditions, Built ty True e := by
  induction constraints generalizing found with
  | nil =>
    cases made
    simp
  | cons c rest ih =>
    rw [Source.conditions] at made
    split at made
    · cases made
    next property declared =>
      simp only at made
      split at made
      · cases made
        simp
      · obtain ⟨others, later, made⟩ := Result.bind_eq_ok.mp made
        cases made
        intro conditions member
        obtain ⟨rest, found, rfl⟩ := Option.map_eq_some_iff.mp member
        have named := List.find?_some declared
        rw [beq_iff_eq] at named
        refine List.forall_mem_cons.mpr ⟨?_, ih later rest found⟩
        exact .compare rfl (.property (named ▸ declared)) (.literal _)

theorem built_of_scope {source : Source} {scope : BoundExpr}
    (made : source.scope ty = .ok scope) : Built ty True scope := by
  obtain ⟨found, checked, made⟩ := Result.bind_eq_ok.mp made
  have each := built_of_conditions checked
  cases found with
  | none =>
    cases made
    exact .literal _
  | some conditions =>
    cases joined : BoundExpr.conjunction conditions with
    | none =>
      simp only [Option.map_some, joined] at made
      cases made
    | some condition =>
      simp only [Option.map_some, joined] at made
      cases made
      exact built_of_conjunction (each conditions rfl) joined

theorem built_of_bindFilter? {e? : Option Expr} {filter : Option BoundExpr}
    (bound : bindFilter? ty e? = .ok filter) : ∀ e ∈ filter, Built ty True e := by
  cases e? with
  | none =>
    cases bound
    simp
  | some e =>
    obtain ⟨checked, accepted, bound⟩ := Result.bind_eq_ok.mp bound
    cases bound
    obtain ⟨inner, boundE, accepted⟩ := Result.bind_eq_ok.mp accepted
    split at accepted
    · cases accepted
      intro e' member
      cases member
      exact BoundExpr.built_of_bind (.inr trivial) boundE
    · cases accepted

namespace IsBound

variable {plan plan' : QueryPlan}

theorem built (bound : IsBound ty plan) : ∀ e ∈ plan.filter, Built ty True e := by
  induction bound with
  | options filter _ => exact built_of_bindFilter? filter
  | @restrict plan source scope _ made ih =>
    intro e joined
    have each : ∀ e ∈ plan.filter.toList ++ [scope], Built ty True e := by
      intro e member
      rcases List.mem_append.mp member with given | last
      · exact ih e (Option.mem_toList.mp given)
      · rw [List.mem_singleton.mp last]
        exact built_of_scope made
    exact built_of_conjunction each joined

theorem isOver (bound : IsBound ty plan) : ∀ key ∈ plan.order, key.IsOver ty := by
  induction bound with
  | options _ order => exact isOver_of_bindOrder order
  | restrict _ _ ih => exact ih

end IsBound

end Bound

/-- The plan that a set makes for a request is bound to its entity type. -/
theorem isBound_of_plan {ctx : Context} {set : EntitySet} {options : QueryOptions}
    {plan : QueryPlan} (made : set.plan ctx options = .ok plan) : IsBound set.entityType plan := by
  obtain ⟨given, bound, made⟩ := Result.bind_eq_ok.mp made
  obtain ⟨filter, filtered, bound⟩ := Result.bind_eq_ok.mp bound
  obtain ⟨order, ordered, bound⟩ := Result.bind_eq_ok.mp bound
  obtain ⟨select, _, bound⟩ := Result.bind_eq_ok.mp bound
  obtain ⟨⟨⟩, _, bound⟩ := Result.bind_eq_ok.mp bound
  cases bound
  have before : IsBound set.entityType { filter, order, select } :=
    .options filtered ordered
  cases led : set.source with
  | none =>
    rw [led] at made
    cases made
    exact before
  | some source =>
    rw [led] at made
    obtain ⟨scope, scopes, made⟩ := Result.bind_eq_ok.mp made
    cases made
    exact before.restrict scopes

/-! ## Fingerprints -/

/-- What is hashed for the fingerprint. -/
def hashedBytes (plan : QueryPlan) : List UInt8 := Text.Utf8.encode plan.fingerprintText

/-- The first digits of the hash of some bytes. -/
def shortHash (bytes : List UInt8) : String :=
  String.ofList
    (((Digest.Sha256.digest bytes).flatMap fun w => Text.Hex.lowerDigits w.toNat 8).take 16)

theorem fingerprint_eq_shortHash (plan : QueryPlan) :
    plan.fingerprint = shortHash plan.hashedBytes := by
  rw [fingerprint, Digest.Sha256.hex, String.toList_ofList, shortHash, hashedBytes]

theorem fingerprintText_eq_of_hashedBytes_eq {plan plan' : QueryPlan}
    (equal : plan.hashedBytes = plan'.hashedBytes) :
    plan.fingerprintText = plan'.fingerprintText := by
  apply Option.some.inj
  rw [← Text.Utf8.decode?_encode, ← Text.Utf8.decode?_encode]
  exact congrArg Text.Utf8.decode? equal

/-- Whether different bytes are hashed for two plans, and their hashes begin alike. -/
def Collides (plan plan' : QueryPlan) : Prop :=
  plan.hashedBytes ≠ plan'.hashedBytes ∧ shortHash plan.hashedBytes = shortHash plan'.hashedBytes

section Texts

variable {ty : EntityType} {plan plan' : QueryPlan}

theorem filtersAgree_of_texts {filter filter' : Option BoundExpr} (plain : ty.HasPlainNames)
    (built : ∀ e ∈ filter, Built ty True e) (built' : ∀ e ∈ filter', Built ty True e)
    (equal : (filter.map BoundExpr.toText).getD "" = (filter'.map BoundExpr.toText).getD "") :
    filtersAgree filter filter' = true := by
  cases filter with
  | none =>
    cases filter' with
    | none => rfl
    | some e' => exact absurd equal.symm (BoundExpr.toText_ne_empty plain (built' e' rfl))
  | some e =>
    cases filter' with
    | none => exact absurd equal (BoundExpr.toText_ne_empty plain (built e rfl))
    | some e' =>
      have first := built e rfl
      have second := built' e' rfl
      exact BoundExpr.agrees_of_toExpr_agrees first second
        (Expr.agrees_of_toText_eq (BoundExpr.hasNames_toExpr plain first)
          (BoundExpr.hasNames_toExpr plain second) equal)

theorem agrees_of_bytes (plain : ty.HasPlainNames) (bound : IsBound ty plan)
    (bound' : IsBound ty plan') (equal : plan.hashedBytes = plan'.hashedBytes) :
    plan.Agrees plan' := by
  have chars := congrArg String.toList (fingerprintText_eq_of_hashedBytes_eq equal)
  rw [toList_fingerprintText, toList_fingerprintText] at chars
  obtain ⟨filters, orders⟩ := Text.eq_of_append_cons_last (bar_notMem_orderChars _)
    (bar_notMem_orderChars _) chars
  exact ⟨filtersAgree_of_texts plain bound.built bound'.built (String.toList_inj.mp filters),
    order_eq_of_orderChars_eq bound.isOver bound'.isOver orders⟩

/-- A pager opens with a token only if its plan has the fingerprint of the token. -/
theorem fingerprint_eq_of_open? {ctx : Context} {set : EntitySet} {options : QueryOptions}
    {pager : Pager} {token : SkipToken} (fits : token.Fits)
    (given : options.skipToken = some token.encode)
    (opened : Pager.open? ctx set options = .ok pager) :
    token.fingerprint = pager.plan.fingerprint := by
  obtain ⟨made, _, opened⟩ := Result.bind_eq_ok.mp opened
  obtain ⟨start, checked, opened⟩ := Result.bind_eq_ok.mp opened
  cases opened
  rw [Pager.startOf, given] at checked
  obtain ⟨read, decoded, checked⟩ := Result.bind_eq_ok.mp checked
  rw [SkipToken.decode_encode _ fits] at decoded
  cases decoded
  split at checked
  next same => exact same
  next => cases checked

/-- The same bytes are hashed for plans over one entity type only if their filters agree and their
orders are equal.  A pager opens with the token of another one only if this is so for their plans,
or if their hashes collide. -/
theorem agrees_of_hashedBytes_eq (plain : ty.HasPlainNames) (bound : IsBound ty plan)
    (bound' : IsBound ty plan') :
    (plan.hashedBytes = plan'.hashedBytes → plan.Agrees plan') ∧
      ∀ (issuer pager : Pager) (ctx : Context) (set : EntitySet) (options : QueryOptions)
        (offset : Nat) (remaining : Option Nat), issuer.plan = plan → pager.plan = plan' →
        (issuer.token offset remaining).Fits →
        options.skipToken = some (issuer.token offset remaining).encode →
        Pager.open? ctx set options = .ok pager → plan.Agrees plan' ∨ plan.Collides plan' := by
  refine ⟨agrees_of_bytes plain bound bound', ?_⟩
  rintro issuer pager ctx set options offset remaining rfl rfl fits given opened
  have fingerprints : (issuer.token offset remaining).fingerprint = pager.plan.fingerprint :=
    fingerprint_eq_of_open? fits given opened
  have hashes : shortHash issuer.plan.hashedBytes = shortHash pager.plan.hashedBytes := by
    rwa [← fingerprint_eq_shortHash, ← fingerprint_eq_shortHash]
  by_cases same : issuer.plan.hashedBytes = pager.plan.hashedBytes
  · exact .inl (agrees_of_bytes plain bound bound' same)
  · exact .inr ⟨same, hashes⟩

/-! The integers but two: an order by the key is the order that is taken without one. -/

def otherThanTwo : QueryOptions :=
  { QueryOptions.empty with
    filter := some (.binary .ne (.property "n") (.literal (.int 2))) }

def otherThanTwoByKey : QueryOptions := { otherThanTwo with orderBy := [⟨["n"], .ascending⟩] }

theorem agrees_otherThanTwo : ∃ issuer pager : Pager,
    Pager.open? Pager.inPagesOfTwo Pager.integers otherThanTwoByKey = .ok issuer ∧
      Pager.open? Pager.inPagesOfTwo Pager.integers
        (Pager.resume otherThanTwo (some (issuer.token 1 none).encode)) = .ok pager ∧
      issuer.plan.Agrees pager.plan ∧
      (issuer.plan.Agrees pager.plan ∨ issuer.plan.Collides pager.plan) := by
  let plan : QueryPlan :=
    ⟨some (.compare .ne (.property Pager.number.name .int64) (.literal (.int 2))),
      [⟨Pager.number.name, .int64, .ascending⟩], none⟩
  have issued : Pager.integers.plan Pager.inPagesOfTwo otherThanTwoByKey = .ok plan := rfl
  have planned : Pager.integers.plan Pager.inPagesOfTwo otherThanTwo = .ok plan := rfl
  have plain : Pager.integers.entityType.HasPlainNames := by
    rw [EntityType.HasPlainNames]
    decide
  let issuer : Pager := ⟨plan, .initial, (0, none), 0, 2⟩
  let pager : Pager := ⟨plan, .initial, (1, none), 0, 2⟩
  have begins : Pager.Begins Libraries.standard.tokenFault plan otherThanTwo
      (some (issuer.token 1 none).encode) 1 none :=
    Pager.begins_token _ (by decide) (by simp)
  have opened : Pager.open? Pager.inPagesOfTwo Pager.integers
      (Pager.resume otherThanTwo (some (issuer.token 1 none).encode)) = .ok pager :=
    Result.bind_eq_ok.mpr ⟨plan, planned, Result.bind_eq_ok.mpr ⟨(1, none), begins, rfl⟩⟩
  have began : Pager.open? Pager.inPagesOfTwo Pager.integers otherThanTwoByKey = .ok issuer :=
    Result.bind_eq_ok.mpr ⟨plan, issued, Result.bind_eq_ok.mpr ⟨(0, none), rfl, rfl⟩⟩
  have fits : (issuer.token 1 none).Fits :=
    ⟨(by decide : 1 < 2 ^ 64), by simp [Pager.token, issuer]⟩
  obtain ⟨same, accepted⟩ := agrees_of_hashedBytes_eq plain (isBound_of_plan issued)
    (isBound_of_plan planned)
  refine ⟨issuer, pager, began, opened, same rfl, ?_⟩
  exact accepted issuer pager _ _ _ 1 none rfl rfl fits rfl opened

end Texts

end QueryPlan

end OData
