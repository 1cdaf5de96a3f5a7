import OData.Proofs.Action
import OData.Key
import OData.Options.Limits
import OData.Plan
import OData.ResourcePath
import OData.SkipToken
import OData.Value.Json

/-!
# Extraordinary errors

Two kinds of errors are extraordinary: those of the configuration, and the one of expansions that
nest too deeply.  A result `Serves` a condition if it satisfies it or fails with an error that a
tolerance allows.  Reading paths, keys and bodies, binding names to properties and changing tables
only fail with ordinary errors, which every tolerance allows; so does checking expansions in a model
in which every navigation property has its target type.
-/

set_option autoImplicit false

namespace OData

namespace Error

/-- Whether an error is about how the model is declared. -/
def isConfiguration : Error → Bool
  | .configuration _ _ => true
  | _ => false

/-- Whether an error is about how deep expansions nest. -/
def isTooDeep (e : Error) : Bool := e.code == "expand_too_deep"

end Error

/-- Which extraordinary errors are allowed. -/
structure Tolerance where
  configuration : Bool
  depth : Bool

namespace Tolerance

def allows (lax : Tolerance) (e : Error) : Bool :=
  (!e.isConfiguration || lax.configuration) && (!e.isTooDeep || lax.depth)

variable {lax : Tolerance}

theorem not_isConfiguration_of_allows {e : Error} (allowed : lax.allows e = true)
    (strict : lax.configuration = false) : e.isConfiguration = false := by
  rw [allows, strict, Bool.or_false, Bool.and_eq_true, Bool.not_eq_true'] at allowed
  exact allowed.1

theorem not_isTooDeep_of_allows {e : Error} (allowed : lax.allows e = true)
    (strict : lax.depth = false) : e.isTooDeep = false := by
  rw [allows, strict, Bool.or_false, Bool.and_eq_true, Bool.not_eq_true'] at allowed
  exact allowed.2

@[simp] theorem allows_bad (code message : String) :
    lax.allows (.bad code message) = (!(code == "expand_too_deep") || lax.depth) := rfl

@[simp] theorem allows_notFound (code message : String) :
    lax.allows (.notFound code message) = (!(code == "expand_too_deep") || lax.depth) := rfl

@[simp] theorem allows_configuration (code message : String) :
    lax.allows (.configuration code message) =
      (lax.configuration && (!(code == "expand_too_deep") || lax.depth)) := rfl

@[simp] theorem allows_notImplemented (c : Capability) :
    lax.allows (.notImplemented c) = true := rfl

@[simp] theorem allows_driver (message : String) : lax.allows (.driver message) = true := rfl

@[simp] theorem allows_fault (reason : String) : lax.allows (.fault reason) = true := rfl

end Tolerance

namespace Result

variable {lax : Tolerance} {α β : Type} {good : α → Prop} {fine : β → Prop}

inductive Serves (lax : Tolerance) (good : α → Prop) : Result α → Prop
  | ok {a : α} (holds : good a) : Serves lax good (.ok a)
  | error {e : Error} (allowed : lax.allows e = true) : Serves lax good (.error e)

/-- Whatever comes, no error that is not allowed. -/
abbrev Harmless (lax : Tolerance) (x : Result α) : Prop := x.Serves lax fun _ => True

@[simp] theorem serves_ok {a : α} : Serves lax good (.ok a) ↔ good a :=
  ⟨fun | .ok holds => holds, .ok⟩

@[simp] theorem serves_pure {a : α} : Serves lax good (pure a) ↔ good a := serves_ok

@[simp] theorem serves_error {e : Error} :
    Serves lax good (.error e) ↔ lax.allows e = true :=
  ⟨fun | .error allowed => allowed, .error⟩

theorem Serves.bind {x : Result α} {f : α → Result β} (first : x.Serves lax good)
    (second : ∀ a, good a → (f a).Serves lax fine) : (x >>= f).Serves lax fine := by
  cases first with
  | error allowed => exact .error allowed
  | ok holds => exact second _ holds

theorem Serves.mono {x : Result α} {weaker : α → Prop} (serves : x.Serves lax good)
    (weakens : ∀ a, good a → weaker a) : x.Serves lax weaker := by
  cases serves with
  | error allowed => exact .error allowed
  | ok holds => exact .ok (weakens _ holds)

/-- What is known of a successful result may be used. -/
theorem Harmless.with_eq {x : Result α} (harmless : x.Harmless lax) :
    x.Serves lax fun a => x = .ok a := by
  cases harmless with
  | error allowed => exact .error allowed
  | ok => exact .ok rfl

end Result

open Result

/-! ## Reading -/

variable {lax : Tolerance}

namespace Text.Cursor

variable {α : Type} {good : α → Prop} (c : Cursor)

@[simp] theorem serves_error (message : String) : (c.error message : Result α).Serves lax good :=
  .error rfl

theorem harmless_expectChar (ch : Char) : (c.expectChar ch).Harmless lax := by
  rw [expectChar]
  split <;> simp

theorem harmless_expectName : c.expectName.Harmless lax := by
  rw [expectName]
  split <;> simp

theorem harmless_expectEnd : c.expectEnd.Harmless lax := by
  rw [expectEnd]
  split <;> simp

end Text.Cursor

namespace ResourcePath

open Text (Cursor)

theorem harmless_systemSegment (start next : Cursor) (segments : List Segment) (name : String) :
    (systemSegment start segments name next).Harmless lax := by
  have ended (path : ResourcePath) : (next.expectEnd >>= fun _ => pure path).Harmless lax :=
    next.harmless_expectEnd.bind fun _ _ => by simp
  rw [systemSegment.eq_def]
  split
  · exact ended _
  · exact ended _
  · exact ended _
  · exact start.serves_error _

theorem harmless_parseFrom (fuel : Nat) : ∀ (segments : List Segment) (c : Cursor),
    (parseFrom fuel segments c).Harmless lax := by
  induction fuel with
  | zero => exact fun segments c => by simp [parseFrom]
  | succ fuel ih =>
    intro segments c
    rw [parseFrom]
    split
    · exact harmless_systemSegment _ _ _ _
    · refine c.harmless_expectName.bind fun found _ => ?_
      have goesOn (segments : List Segment) (next : Cursor) :
          (if next.atEnd then pure (resource segments none)
            else next.expectChar '/' >>= parseFrom fuel segments : Result _).Harmless lax := by
        split
        · simp
        · exact (next.harmless_expectChar '/').bind fun next _ => ih segments next
      obtain ⟨name, next⟩ := found
      simp only
      split
      · exact goesOn _ _
      · exact goesOn _ _

theorem harmless_parse (text : String) : (parse text).Harmless lax := by
  rw [parse]
  split
  · simp
  · exact harmless_parseFrom _ _ _

end ResourcePath

namespace Value

theorem harmless_literal? (c : Text.Cursor) : (literal? c).Harmless lax := by
  rw [literal?]
  split
  · split <;> simp
  · simp

theorem harmless_coerceTo (ty : PrimitiveType) (v : Value) : (v.coerceTo ty).Harmless lax := by
  rw [coerceTo.eq_def]
  split
  · simp
  · split <;> simp
  · split <;> simp
  · split <;> simp

theorem harmless_ofJson (ty : PrimitiveType) (json : Json) : (ofJson ty json).Harmless lax := by
  rw [ofJson]
  split
  · simp
  · split <;> simp

end Value

namespace KeyPredicate

open Text (Cursor)

theorem harmless_value (c : Cursor) : (value c).Harmless lax := by
  refine (Value.harmless_literal? c).bind fun found _ => ?_
  cases found <;> simp

theorem harmless_pairs (fuel : Nat) : ∀ c : Cursor, (pairs fuel c).Harmless lax := by
  induction fuel with
  | zero => exact fun c => by simp [pairs]
  | succ fuel ih =>
    intro c
    rw [pairs]
    refine c.harmless_expectName.bind fun name _ => ?_
    refine (Cursor.harmless_expectChar _ _).bind fun next _ => ?_
    refine (harmless_value next).bind fun found _ => ?_
    simp only
    split
    · exact (ih _).bind fun _ _ => by simp
    · simp

theorem harmless_parse (text : String) : (parse text).Harmless lax := by
  rw [parse]
  simp only
  split
  · exact (harmless_pairs _ _).bind fun found _ =>
      (Cursor.harmless_expectEnd _).bind fun _ _ => by simp
  · exact (harmless_value _).bind fun found _ =>
      (Cursor.harmless_expectEnd _).bind fun _ _ => by simp

end KeyPredicate

namespace Key

variable (ty : EntityType)

theorem harmless_namedValues (predicate : KeyPredicate) :
    (namedValues ty predicate).Harmless lax := by
  cases predicate with
  | named values => simp [namedValues]
  | single v =>
    rw [namedValues]
    split
    · simp
    · exact .error rfl

theorem harmless_typedValue (property : Property) (values : List (String × Value)) :
    (typedValue property values).Harmless lax := by
  rw [typedValue]
  split
  · exact .error rfl
  · split
    · simp
    · exact .error rfl

theorem harmless_typedValues (values : List (String × Value)) (properties : List Property) :
    (typedValues values properties).Harmless lax := by
  induction properties with
  | nil => simp [typedValues]
  | cons property rest ih =>
    exact (harmless_typedValue property values).bind fun _ _ => ih.bind fun _ _ => by simp

theorem harmless_parse (text : String) : (parse ty text).Harmless lax := by
  refine (KeyPredicate.harmless_parse text).bind fun predicate _ => ?_
  refine (harmless_namedValues ty predicate).bind fun values _ => ?_
  split
  · exact (harmless_typedValues _ _).bind fun _ _ => by simp
  · exact .error rfl

theorem harmless_valuesOfRecord (record : Record) (names : List Identifier) :
    (valuesOfRecord ty record names).Harmless lax := by
  induction names with
  | nil => simp [valuesOfRecord]
  | cons name rest ih =>
    rw [valuesOfRecord]
    split
    · exact ih.bind fun _ _ => by simp
    · simp

theorem harmless_ofRecord (record : Record) : (ofRecord ty record).Harmless lax :=
  (harmless_valuesOfRecord ty record ty.key).bind fun _ _ => by simp

end Key

theorem SkipToken.harmless_decode (fault : String → String) (text : String) :
    (decode fault text).Harmless lax := by
  rw [decode]
  split
  · split
    · simp
    · exact .error rfl
  · exact .error rfl

/-! ## Binding -/

namespace EntityType

theorem harmless_resolve (ty : EntityType) (path : PropertyPath) :
    (ty.resolve path).Harmless lax := by
  rw [resolve.eq_def]
  split
  · split
    · simp
    · split <;> simp
  · simp

end EntityType

namespace BoundExpr

theorem harmless_literalFits (v : Value) (literal target : PrimitiveType) :
    (literalFits v literal target).Harmless lax := by
  rw [literalFits]
  split
  · exact Value.harmless_coerceTo _ _
  · exact .error rfl

theorem harmless_coerceNumbers (l r : BoundExpr) (lt rt : PrimitiveType) :
    (coerceNumbers l r lt rt).Harmless lax := by
  rw [coerceNumbers.eq_def]
  split
  · simp
  · exact (harmless_literalFits _ _ _).bind fun _ _ => by simp
  · exact (harmless_literalFits _ _ _).bind fun _ _ => by simp
  · simp

theorem harmless_coercePair (l r : BoundExpr) : (coercePair l r).Harmless lax := by
  rw [coercePair]
  split
  · split
    · simp
    · split
      · exact harmless_coerceNumbers _ _ _ _
      · exact .error rfl
  · simp

theorem harmless_requireBoolean (e : Expr) (bound : BoundExpr) :
    (requireBoolean e bound).Harmless lax := by
  rw [requireBoolean]
  split
  · simp
  · exact .error rfl

theorem harmless_requireNumber (e : Expr) (bound : BoundExpr) :
    (requireNumber e bound).Harmless lax := by
  rw [requireNumber]
  split
  · simp
  · split
    · simp
    · exact .error rfl

theorem harmless_checkCount (f : CanonicalFunction) (count : Nat) :
    (checkCount f count).Harmless lax := by
  rw [checkCount]
  split <;> simp

theorem harmless_checkArguments (f : CanonicalFunction) (arguments : List BoundExpr) :
    ∀ position, (checkArguments f position arguments).Harmless lax := by
  induction arguments with
  | nil => exact fun position => by simp [checkArguments]
  | cons argument rest ih =>
    intro position
    rw [checkArguments]
    split
    · exact ih _
    · split
      · exact ih _
      · simp

variable (ty : EntityType)

mutual

theorem harmless_bind : ∀ e : Expr, (bind ty e).Harmless lax
  | .literal v => by simp [bind]
  | .path p => by
    rw [bind]
    exact (ty.harmless_resolve p).bind fun _ _ => by simp
  | .binary op l r => by
    rw [bind]
    have left := harmless_bind l
    have right := harmless_bind r
    split
    · exact left.bind fun _ _ => (harmless_requireBoolean _ _).bind fun _ _ =>
        right.bind fun _ _ => (harmless_requireBoolean _ _).bind fun _ _ => by simp
    · split
      · exact left.bind fun _ _ => right.bind fun _ _ =>
          (harmless_coercePair _ _).bind fun _ _ => by simp
      · exact left.bind fun _ _ => (harmless_requireNumber _ _).bind fun _ _ =>
          right.bind fun _ _ => (harmless_requireNumber _ _).bind fun _ _ => by simp
  | .not e => by
    rw [bind]
    exact (harmless_bind e).bind fun _ _ => (harmless_requireBoolean _ _).bind fun _ _ => by simp
  | .negate e => by
    rw [bind]
    exact (harmless_bind e).bind fun _ _ => (harmless_requireNumber _ _).bind fun _ _ => by simp
  | .member e items => by
    rw [bind]
    exact (harmless_bind e).bind fun _ _ => (harmless_bindItems items _).bind fun _ _ => by simp
  | .call f arguments => by
    rw [bind]
    exact (harmless_checkCount _ _).bind fun _ _ => (harmless_bindAll arguments).bind fun _ _ =>
      (harmless_checkArguments _ _ _).bind fun _ _ => by simp

theorem harmless_bindItems : ∀ (items : List Expr) (element : BoundExpr),
    (bindItems ty element items).Harmless lax
  | [], element => by simp [bindItems]
  | e :: rest, element => by
    rw [bindItems]
    exact (harmless_bind e).bind fun _ _ => (harmless_coercePair _ _).bind fun _ _ =>
      (harmless_bindItems rest _).bind fun _ _ => by simp

theorem harmless_bindAll : ∀ items : List Expr, (bindAll ty items).Harmless lax
  | [] => by simp [bindAll]
  | e :: rest => by
    rw [bindAll]
    exact (harmless_bind e).bind fun _ _ => (harmless_bindAll rest).bind fun _ _ => by simp

end

theorem harmless_bindFilter (e : Expr) : (bindFilter ty e).Harmless lax := by
  refine (harmless_bind ty e).bind fun bound _ => ?_
  split <;> simp

end BoundExpr

namespace QueryPlan

variable (ty : EntityType)

theorem harmless_bindOrderItems (items : List OrderItem) :
    ∀ order, (bindOrderItems ty order items).Harmless lax := by
  induction items with
  | nil => exact fun order => by simp [bindOrderItems]
  | cons item rest ih => exact fun order => (ty.harmless_resolve _).bind fun _ _ => ih _

theorem harmless_bindOrder (items : List OrderItem) : (bindOrder ty items).Harmless lax :=
  (harmless_bindOrderItems ty items []).bind fun _ _ => by simp

theorem harmless_bindSelectPaths (paths : List PropertyPath) :
    ∀ selected, (bindSelectPaths ty selected paths).Harmless lax := by
  induction paths with
  | nil => exact fun selected => by simp [bindSelectPaths]
  | cons path rest ih => exact fun selected => (ty.harmless_resolve _).bind fun _ _ => ih _

theorem harmless_bindSelect (select : Option Select) : (bindSelect ty select).Harmless lax := by
  rw [bindSelect.eq_def]
  split
  · exact (harmless_bindSelectPaths ty _ _).bind fun _ _ => by simp
  · simp

theorem harmless_bindFilter? (filter : Option Expr) : (bindFilter? ty filter).Harmless lax := by
  cases filter with
  | none => simp [bindFilter?]
  | some e => exact (BoundExpr.harmless_bindFilter ty e).bind fun _ _ => by simp

/-- Whether every navigation property has its target type. -/
def HasTargets (model : Model) : Prop :=
  ∀ ty ∈ model.types, ∀ navigation ∈ ty.navigationProperties,
    ∃ target ∈ model.types, target.name = navigation.target

variable {model : Model} {ty}

theorem isSome_entityType? (targets : HasTargets model) (known : ty ∈ model.types) {name : String}
    {navigation : NavigationProperty} (declared : ty.navigation? name = some navigation) :
    (model.entityType? navigation.target.text).isSome = true := by
  obtain ⟨target, member, named⟩ := targets ty known navigation (List.mem_of_find?_eq_some declared)
  rw [Model.entityType?, List.find?_isSome]
  exact ⟨target, member, by rw [named]; exact beq_self_eq_true _⟩

mutual

theorem harmless_checkOptions {ty : EntityType}
    (joined : lax.configuration = true ∨ HasTargets model ∧ ty ∈ model.types) :
    ∀ options : QueryOptions, (checkOptions model ty options).Harmless lax
  | ⟨filter, orderBy, select, expand, _, _, _, _⟩ => by
    have rest : (do
        let _ ← bindOrder ty orderBy
        let _ ← bindSelect ty select
        checkExpansions model ty expand : Result Unit).Harmless lax :=
      (harmless_bindOrder ty orderBy).bind fun _ _ => (harmless_bindSelect ty select).bind
        fun _ _ => harmless_checkExpansions joined expand
    cases filter with
    | none =>
      rw [checkOptions.eq_def]
      exact rest
    | some e =>
      rw [checkOptions.eq_def]
      exact (BoundExpr.harmless_bindFilter ty e).bind fun _ _ => rest

theorem harmless_checkExpansions {ty : EntityType}
    (joined : lax.configuration = true ∨ HasTargets model ∧ ty ∈ model.types) :
    ∀ items : List Expansion, (checkExpansions model ty items).Harmless lax
  | [] => by simp [checkExpansions]
  | (name, options) :: rest => by
    rw [checkExpansions]
    cases declared : ty.navigation? name with
    | none => simp
    | some navigation =>
      simp only
      split
      · simp
      cases found : model.entityType? navigation.target.text with
      | none =>
        rcases joined with tolerant | ⟨targets, known⟩
        · simp [tolerant]
        · have some := isSome_entityType? targets known declared
          rw [found] at some
          cases some
      | some target =>
        have member : target ∈ model.types := List.mem_of_find?_eq_some found
        exact (harmless_checkOptions (joined.imp_right fun both => ⟨both.1, member⟩) options).bind
          fun _ _ => harmless_checkExpansions joined rest

end

theorem harmless_ofOptions (joined : lax.configuration = true ∨ HasTargets model ∧ ty ∈ model.types)
    (options : QueryOptions) : (ofOptions model ty options).Harmless lax :=
  (harmless_bindFilter? ty _).bind fun _ _ => (harmless_bindOrder ty _).bind fun _ _ =>
    (harmless_bindSelect ty _).bind fun _ _ =>
      (harmless_checkExpansions joined _).bind fun _ _ => by simp

end QueryPlan

/-! ## Tables -/

namespace Table

theorem harmless_create (ty : EntityType) (name : String) (drawn : Guid) (record : Record)
    (table : Table) : (create ty name drawn record table).Harmless lax := by
  have generated : (generateKey ty drawn table record).Harmless lax := by
    rw [generateKey]
    split
    · split
      · simp
      · split
        · have next : ∀ name, (nextInteger name table).Harmless lax := by
            intro name
            rw [nextInteger]
            split <;> simp
          exact (next _).bind fun _ _ => by simp
        · split <;> simp
    · simp
  refine generated.bind fun completed _ => (Key.harmless_ofRecord ty _).bind fun key _ => ?_
  split
  · exact .error rfl
  · simp

theorem harmless_update (name : String) (key : Key) (values : List (Identifier × Value))
    (table : Table) : (update name key values table).Harmless lax := by
  rw [update]
  split
  · simp
  · exact .error rfl

theorem harmless_delete (name : String) (key : Key) (table : Table) :
    (delete name key table).Harmless lax := by
  rw [delete]
  split
  · simp
  · exact .error rfl

end Table

theorem CapabilitySet.harmless_require (s : CapabilitySet) (c : Capability) :
    (s.require c).Harmless lax := by
  rw [require]
  split <;> simp

theorem QueryLimits.harmless_checkExpandDepth {limits : QueryLimits} {depth : Nat}
    (shallow : lax.depth = true ∨ depth ≤ limits.maxExpandDepth) :
    (limits.checkExpandDepth depth).Harmless lax := by
  rw [checkExpandDepth, require]
  split
  next => exact .ok trivial
  next deep =>
    rcases shallow with tolerant | shallow
    · simp [tolerant]
    · exact absurd (decide_eq_true shallow) deep

end OData
