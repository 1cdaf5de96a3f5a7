import Mathlib.Data.List.Nodup
import OData.Proofs.Result
import OData.Schema.EntityType

/-!
# Declared entity types

An entity type is `Declared` if it comes from an empty one by adding properties and navigation
properties and by choosing keys, also when a choice fails.  The key of a declared type is made of
its properties.  A failed choice has no effect but on properties that it names before one that is
not declared: these are required from then on.
-/

set_option autoImplicit false

namespace OData.EntityType

inductive Declared : EntityType → Prop where
  | empty (name : Identifier) : Declared (.empty name)
  | property {ty after : EntityType} {property : Property} :
      Declared ty → ty.addProperty property = .ok after → Declared after
  | navigation {ty after : EntityType} {navigation : NavigationProperty} :
      Declared ty → ty.addNavigation navigation = .ok after → Declared after
  | key {ty : EntityType} (names : List Identifier) :
      Declared ty → Declared (ty.markKey names).1

/-- The names of the properties. -/
def names (ty : EntityType) : List Identifier := ty.properties.map Property.name

theorem Identifier.eq_of_text {a b : Identifier} (same : a.text = b.text) : a = b := by
  cases a
  cases b
  cases same
  rfl

/-- Where keys are not shared, an item is the one that is found under its key. -/
theorem find?_key {α κ : Type} [BEq κ] [LawfulBEq κ] {key : α → κ} {items : List α}
    (distinct : (items.map key).Nodup) {a : α} (member : a ∈ items) :
    items.find? (key · == key a) = some a := by
  cases found : items.find? (key · == key a) with
  | none => exact absurd (beq_self_eq_true _) (List.find?_eq_none.mp found a member)
  | some first =>
    have same : key first = key a := by simpa using List.find?_some found
    rw [List.inj_on_of_nodup_map distinct (List.mem_of_find?_eq_some found) member same]

/-- Where names are not shared, an item is the one that is found by the text of its name. -/
theorem find?_name {α : Type} {name : α → Identifier} {items : List α}
    (distinct : (items.map name).Nodup) {a : α} (member : a ∈ items) :
    items.find? (fun b => (name b).text == (name a).text) = some a := by
  have texts : (items.map fun b => (name b).text).Nodup := by
    have mapped := distinct.map fun _ _ => Identifier.eq_of_text
    rwa [List.map_map] at mapped
  exact find?_key texts member

theorem isSome_property?_iff {ty : EntityType} {name : Identifier} :
    (ty.property? name.text).isSome ↔ name ∈ ty.names := by
  rw [property?, List.find?_isSome, names, List.mem_map]
  constructor
  · rintro ⟨property, member, same⟩
    exact ⟨property, member, Identifier.eq_of_text (beq_iff_eq.mp same)⟩
  · rintro ⟨property, member, rfl⟩
    exact ⟨property, member, beq_iff_eq.mpr rfl⟩

theorem name_of_property? {ty : EntityType} {name : Identifier} {property : Property}
    (found : ty.property? name.text = some property) : property.name = name :=
  Identifier.eq_of_text (by simpa using List.find?_some found)

/-! ## What each declaration does -/

/-- A name that may be declared names no property and no navigation property. -/
theorem requireUndeclared_eq_ok {ty : EntityType} {name : Identifier}
    (undeclared : ty.requireUndeclared name = .ok ()) :
    name ∉ ty.names ∧ ∀ navigation ∈ ty.navigationProperties, navigation.name ≠ name := by
  rw [requireUndeclared] at undeclared
  split at undeclared
  next => cases undeclared
  next neither =>
    rw [Bool.or_eq_true, not_or, isSome_property?_iff] at neither
    refine ⟨neither.1, fun navigation member same => neither.2 ?_⟩
    rw [navigation?, List.find?_isSome]
    exact ⟨navigation, member, beq_iff_eq.mpr (congrArg Identifier.text same)⟩

theorem addProperty_eq_ok {ty after : EntityType} {property : Property}
    (added : ty.addProperty property = .ok after) :
    ty.requireUndeclared property.name = .ok () ∧
      after = { ty with properties := ty.properties ++ [property] } := by
  obtain ⟨⟨⟩, undeclared, result⟩ := Result.bind_eq_ok.mp added
  exact ⟨undeclared, (Except.ok.inj result).symm⟩

theorem addNavigation_eq_ok {ty after : EntityType} {navigation : NavigationProperty}
    (added : ty.addNavigation navigation = .ok after) :
    ty.requireUndeclared navigation.name = .ok () ∧
      after = { ty with navigationProperties := ty.navigationProperties ++ [navigation] } := by
  obtain ⟨⟨⟩, undeclared, result⟩ := Result.bind_eq_ok.mp added
  exact ⟨undeclared, (Except.ok.inj result).symm⟩

theorem map_name_requireProperty (name : Identifier) (properties : List Property) :
    (requireProperty name properties).map Property.name = properties.map Property.name := by
  induction properties with
  | nil => rfl
  | cons property rest ih =>
    rw [requireProperty]
    split
    · rfl
    · rw [List.map_cons, ih, List.map_cons]

/-- Properties become required, but their names stay and so does all else. -/
theorem requireProperties_spec (chosen : List Identifier) :
    ∀ ty : EntityType, (requireProperties ty chosen).1.names = ty.names ∧
      (requireProperties ty chosen).1.key = ty.key ∧
      ((requireProperties ty chosen).2 = .ok () → ∀ name ∈ chosen, name ∈ ty.names) := by
  induction chosen with
  | nil => exact fun ty => ⟨rfl, rfl, by simp⟩
  | cons name rest ih =>
    intro ty
    rw [requireProperties]
    split
    next declared =>
      obtain ⟨names, key, all⟩ := ih { ty with properties := requireProperty name ty.properties }
      have same : EntityType.names { ty with
          properties := requireProperty name ty.properties } = ty.names :=
        map_name_requireProperty name ty.properties
      rw [same] at names all
      refine ⟨names, key, fun success => ?_⟩
      intro other member
      rcases List.mem_cons.mp member with rfl | later
      · exact isSome_property?_iff.mp declared
      · exact all success other later
    next => exact ⟨rfl, rfl, by simp⟩

theorem markKey_spec (ty : EntityType) (chosen : List Identifier) :
    (ty.markKey chosen).1.names = ty.names ∧
      ((ty.markKey chosen).1.key = ty.key ∨
        ((ty.markKey chosen).1.key = chosen ∧ ∀ name ∈ chosen, name ∈ ty.names)) := by
  obtain ⟨names, key, all⟩ := requireProperties_spec chosen ty
  rw [markKey]
  split
  · exact ⟨rfl, .inl rfl⟩
  · split
    next marked run =>
      rw [run] at names all
      exact ⟨names, .inr ⟨rfl, all rfl⟩⟩
    next failed =>
      exact ⟨names, .inl key⟩

/-- Choosing a key leaves the navigation properties. -/
theorem navigationProperties_markKey (ty : EntityType) (chosen : List Identifier) :
    (ty.markKey chosen).1.navigationProperties = ty.navigationProperties := by
  have kept : ∀ (names : List Identifier) (ty : EntityType),
      (requireProperties ty names).1.navigationProperties = ty.navigationProperties := by
    intro names
    induction names with
    | nil => exact fun _ => rfl
    | cons name rest ih =>
      intro ty
      rw [requireProperties]
      split
      · exact ih { ty with properties := requireProperty name ty.properties }
      · rfl
  have same := kept chosen ty
  rw [markKey]
  split
  · rfl
  · split
    next marked run => exact (congrArg (·.1.navigationProperties) run).symm.trans same
    next => exact same

/-! ## Names and keys -/

/-- No two properties of a declared type share their name. -/
theorem Declared.nodup_names {ty : EntityType} (declared : ty.Declared) : ty.names.Nodup := by
  induction declared with
  | empty name => exact List.nodup_nil
  | @property before after property _ added ih =>
    obtain ⟨undeclared, rfl⟩ := addProperty_eq_ok added
    obtain ⟨fresh, -⟩ := requireUndeclared_eq_ok undeclared
    rw [names, List.map_append, List.nodup_append_comm]
    exact List.nodup_cons.mpr ⟨fresh, ih⟩
  | navigation _ added ih =>
    obtain ⟨_, rfl⟩ := addNavigation_eq_ok added
    exact ih
  | key chosen _ ih =>
    rw [(markKey_spec _ chosen).1]
    exact ih

/-- The key of a declared type is made of its properties. -/
theorem Declared.key_subset {ty : EntityType} (declared : ty.Declared) :
    ∀ name ∈ ty.key, name ∈ ty.names := by
  induction declared with
  | empty name => simp [EntityType.empty]
  | property _ added ih =>
    obtain ⟨_, rfl⟩ := addProperty_eq_ok added
    intro name member
    rw [names, List.map_append]
    exact List.mem_append_left _ (ih name member)
  | navigation _ added ih =>
    obtain ⟨_, rfl⟩ := addNavigation_eq_ok added
    exact ih
  | key chosen _ ih =>
    rename_i ty _
    obtain ⟨names, same | ⟨key, all⟩⟩ := markKey_spec ty chosen
    · rw [names, same]
      exact ih
    · rw [names, key]
      exact all

theorem map_name_keyProperties {ty : EntityType} (known : ∀ name ∈ ty.key, name ∈ ty.names) :
    ty.keyProperties.map Property.name = ty.key := by
  rw [keyProperties]
  generalize ty.key = chosen at known ⊢
  induction chosen with
  | nil => rfl
  | cons name rest ih =>
    obtain ⟨property, found⟩ := Option.isSome_iff_exists.mp
      (isSome_property?_iff.mpr (known name List.mem_cons_self))
    rw [List.filterMap_cons, found]
    simp only [List.map_cons, name_of_property? found]
    rw [ih fun other member => known other (List.mem_cons_of_mem _ member)]

/-! ## Required properties -/

/-- Whether there is a property of the name that may be null. -/
def Nullable (ty : EntityType) (name : Identifier) : Prop :=
  ∃ property, ty.property? name.text = some property ∧ property.nullable = true

variable {ty : EntityType} {name other : Identifier}

theorem nullable_requireProperty {properties : List Property} {property : Property}
    (found : (requireProperty name properties).find? (·.name.text == other.text) = some property)
    (nullable : property.nullable = true) :
    other ≠ name ∧ properties.find? (·.name.text == other.text) = some property := by
  induction properties with
  | nil => cases found
  | cons first rest ih =>
    rw [requireProperty] at found
    split at found
    next here =>
      cases same : first.name.text == other.text with
      | true =>
        rw [List.find?_cons, same] at found
        cases found
        cases nullable
      | false =>
        rw [List.find?_cons, same] at found
        refine ⟨?_, ?_⟩
        · rintro rfl
          rw [here, beq_self_eq_true] at same
          cases same
        · rw [List.find?_cons, same]
          exact found
    next elsewhere =>
      cases same : first.name.text == other.text with
      | true =>
        rw [List.find?_cons, same] at found ⊢
        refine ⟨?_, found⟩
        rintro rfl
        exact elsewhere (Identifier.eq_of_text (beq_iff_eq.mp same))
      | false =>
        rw [List.find?_cons, same] at found ⊢
        exact ih found

/-- What is nullable afterwards was so before, and was not among the chosen names. -/
theorem nullable_requireProperties (chosen : List Identifier) :
    ∀ ty : EntityType, (requireProperties ty chosen).1.Nullable name →
      ty.Nullable name ∧ ((requireProperties ty chosen).2 = .ok () → name ∉ chosen) := by
  induction chosen with
  | nil => exact fun ty nullable => ⟨nullable, by simp⟩
  | cons first rest ih =>
    intro ty nullable
    rw [requireProperties] at nullable ⊢
    split at nullable
    next declared =>
      obtain ⟨⟨property, found, may⟩, outside⟩ := ih _ nullable
      obtain ⟨other, before⟩ := nullable_requireProperty found may
      rw [if_pos declared]
      refine ⟨⟨property, before, may⟩, fun success member => ?_⟩
      rcases List.mem_cons.mp member with same | later
      · exact other same
      · exact outside success later
    next missing =>
      rw [if_neg missing]
      exact ⟨nullable, by simp⟩

/-- The properties of the key of a declared type are required. -/
theorem Declared.not_nullable_of_key (declared : ty.Declared) :
    ∀ name ∈ ty.key, ¬ ty.Nullable name := by
  induction declared with
  | empty name => simp [EntityType.empty]
  | @property before after property isDeclared added ih =>
    obtain ⟨_, rfl⟩ := addProperty_eq_ok added
    intro name member nullable
    obtain ⟨found, isFound, may⟩ := nullable
    obtain ⟨old, known⟩ := Option.isSome_iff_exists.mp
      (isSome_property?_iff.mpr (isDeclared.key_subset name member))
    have first : EntityType.property?
        { before with properties := before.properties ++ [property] } name.text = some old := by
      rw [property?, List.find?_append, ← property?, known]
      rfl
    cases first.symm.trans isFound
    exact ih name member ⟨_, known, may⟩
  | navigation _ added ih =>
    obtain ⟨_, rfl⟩ := addNavigation_eq_ok added
    exact ih
  | @key before chosen _ ih =>
    intro name member nullable
    rw [markKey] at member nullable
    split at member
    next empty =>
      rw [if_pos empty] at nullable
      exact ih name member nullable
    next nonempty =>
      rw [if_neg nonempty] at nullable
      have spec : (requireProperties before chosen).1.Nullable name → _ :=
        nullable_requireProperties chosen before
      have kept := (requireProperties_spec chosen before).2.1
      split at member
      next marked run =>
        rw [run] at nullable spec
        exact (spec nullable).2 rfl member
      next failed =>
        split at nullable
        next marked run => exact failed _ run
        next =>
          rw [kept] at member
          exact ih name member (spec nullable).1

/-! ## Calls that fail -/

/-- A call that declares something of an entity type. -/
inductive Declaration where
  | property (property : Property)
  | key (names : List Identifier)
  | navigation (navigation : NavigationProperty)

/-- A type to which nothing is added if that is refused. -/
def orKept (ty : EntityType) : Result EntityType → EntityType × Result Unit
  | .ok after => (after, .ok ())
  | .error e => (ty, .error e)

theorem orKept_of_error {outcome : Result EntityType} {e : Error}
    (failed : (ty.orKept outcome).2 = .error e) : (ty.orKept outcome).1 = ty := by
  cases outcome with
  | ok after => cases failed
  | error _ => rfl

namespace Declaration

/-- The type after a call, and the outcome of the call. -/
def perform (ty : EntityType) : Declaration → EntityType × Result Unit
  | property p => ty.orKept (ty.addProperty p)
  | key names => ty.markKey names
  | navigation n => ty.orKept (ty.addNavigation n)

/-- The type after calls one after the other, whatever their outcomes. -/
def performAll (ty : EntityType) (calls : List Declaration) : EntityType :=
  calls.foldl (fun ty call => (call.perform ty).1) ty

/-- The properties that a call names for the key before the first name that is not declared. -/
def settled (ty : EntityType) : Declaration → List Identifier
  | property _ => []
  | key names => names.takeWhile (· ∈ ty.names)
  | navigation _ => []

theorem declared_perform (call : Declaration) (declared : ty.Declared) :
    (call.perform ty).1.Declared := by
  cases call with
  | property p =>
    rw [perform]
    cases added : ty.addProperty p with
    | ok after => exact .property declared added
    | error e => exact declared
  | key names => exact .key names declared
  | navigation n =>
    rw [perform]
    cases added : ty.addNavigation n with
    | ok after => exact .navigation declared added
    | error e => exact declared

theorem declared_performAll (calls : List Declaration) :
    ∀ {ty : EntityType}, ty.Declared → (performAll ty calls).Declared := by
  induction calls with
  | nil => exact fun declared => declared
  | cons call rest ih => exact fun declared => ih (declared_perform call declared)

end Declaration

/-- The type with the properties of some names required. -/
def withRequired (ty : EntityType) (chosen : List Identifier) : EntityType :=
  { ty with
    properties := ty.properties.map fun p =>
      if p.name ∈ chosen then { p with nullable := false } else p }

theorem withRequired_nil (ty : EntityType) : ty.withRequired [] = ty := by
  simp [withRequired]

theorem names_withRequired (ty : EntityType) (chosen : List Identifier) :
    (ty.withRequired chosen).names = ty.names := by
  rw [names, withRequired, List.map_map, names]
  refine List.map_congr_left fun p _ => ?_
  rw [Function.comp_apply]
  split <;> rfl

theorem withRequired_withRequired (ty : EntityType) (chosen others : List Identifier) :
    (ty.withRequired chosen).withRequired others = ty.withRequired (chosen ++ others) := by
  simp only [withRequired, List.map_map, mk.injEq, true_and, and_true]
  refine List.map_congr_left fun p _ => ?_
  simp only [Function.comp_apply, List.mem_append]
  by_cases first : p.name ∈ chosen
  · simp [first]
  · simp [first]

theorem map_eq_self_iff {α : Type} {f : α → α} {items : List α} :
    items.map f = items ↔ ∀ a ∈ items, f a = a := by
  conv => lhs; rhs; rw [← List.map_id items]
  exact List.map_inj_left

theorem withRequired_eq_iff {chosen : List Identifier} :
    ty.withRequired chosen = ty ↔
      ∀ p ∈ ty.properties, p.name ∈ chosen → p.nullable = false := by
  have each : ∀ p : Property, (if p.name ∈ chosen then { p with nullable := false } else p) = p ↔
      (p.name ∈ chosen → p.nullable = false) := by
    intro p
    cases p
    simp [eq_comm]
  have same :
      ty.withRequired chosen = ty ↔ (ty.withRequired chosen).properties = ty.properties := by
    cases ty
    simp [withRequired]
  rw [same, withRequired, map_eq_self_iff]
  exact forall₂_congr fun p _ => each p

/-- Where names are not shared, one property at most has a name. -/
theorem requireProperty_eq_map {properties : List Property}
    (distinct : (properties.map Property.name).Nodup) :
    requireProperty name properties = properties.map fun p =>
      if p.name ∈ [name] then { p with nullable := false } else p := by
  induction properties with
  | nil => rfl
  | cons first rest ih =>
    obtain ⟨fresh, distinct⟩ := List.nodup_cons.mp distinct
    rw [requireProperty, List.map_cons]
    split
    next here =>
      have others : rest.map (fun p =>
          if p.name ∈ [name] then { p with nullable := false } else p) = rest := by
        rw [map_eq_self_iff]
        intro p member
        refine if_neg fun same => fresh ?_
        rw [here, ← List.mem_singleton.mp same]
        exact List.mem_map_of_mem member
      rw [if_pos (List.mem_singleton.mpr here), others]
    next elsewhere => rw [if_neg (mt List.mem_singleton.mp elsewhere), ih distinct]

/-- The names before the first one that is not declared become required, and nothing else
happens. -/
theorem requireProperties_fst (chosen : List Identifier) :
    ∀ {ty : EntityType}, ty.names.Nodup →
      (requireProperties ty chosen).1 = ty.withRequired (chosen.takeWhile (· ∈ ty.names)) := by
  induction chosen with
  | nil => exact fun {ty} _ => (withRequired_nil ty).symm
  | cons name rest ih =>
    intro ty distinct
    rw [requireProperties]
    split
    next declared =>
      have one : { ty with properties := requireProperty name ty.properties } =
          ty.withRequired [name] := by
        rw [withRequired, requireProperty_eq_map distinct]
      have known : decide (name ∈ ty.names) = true :=
        decide_eq_true (isSome_property?_iff.mp declared)
      rw [one, ih (by rwa [names_withRequired]), names_withRequired, withRequired_withRequired,
        List.takeWhile_cons, if_pos known, List.singleton_append]
    next undeclared =>
      have unknown : ¬decide (name ∈ ty.names) = true := by
        rw [decide_eq_true_iff, ← isSome_property?_iff]
        exact undeclared
      rw [List.takeWhile_cons, if_neg unknown, withRequired_nil]

namespace Declaration

theorem perform_of_error {call : Declaration} {e : Error} (declared : ty.Declared)
    (failed : (call.perform ty).2 = .error e) :
    (call.perform ty).1 = ty.withRequired (call.settled ty) := by
  cases call with
  | property p => exact (orKept_of_error failed).trans (withRequired_nil ty).symm
  | navigation n => exact (orKept_of_error failed).trans (withRequired_nil ty).symm
  | key names =>
    rw [perform, markKey] at failed ⊢
    rw [settled]
    split
    next empty => rw [List.isEmpty_iff.mp empty, List.takeWhile_nil, withRequired_nil]
    next nonempty =>
      rw [if_neg nonempty] at failed
      split
      next marked run =>
        rw [run] at failed
        cases failed
      next other => exact requireProperties_fst names declared.nodup_names

/-- A call that fails, after any others on a new type, requires the properties that it names for a
key before the first name that is not declared, and has no other effect.  So it leaves the type as
it was if and only if all of these were required before. -/
theorem unchanged_iff_of_error (name : Identifier) (before : List Declaration)
    (call : Declaration) {e : Error}
    (failed : (call.perform (performAll (.empty name) before)).2 = .error e) :
    let ty := performAll (.empty name) before
    let after := (call.perform ty).1
    after = ty.withRequired (call.settled ty) ∧
      (after = ty ↔ ∀ p ∈ ty.properties, p.name ∈ call.settled ty → p.nullable = false) := by
  intro ty after
  have result : after = ty.withRequired (call.settled ty) :=
    perform_of_error (declared_performAll before (.empty name)) failed
  refine ⟨result, ?_⟩
  rw [result]
  exact withRequired_eq_iff

/-! A type with two properties that may be null, and a key of the first and of one that is not
there. -/

def code : Property := ⟨⟨"code", Eq.refl true⟩, .string, true⟩

def label : Property := ⟨⟨"label", Eq.refl true⟩, .string, true⟩

def missing : Identifier := ⟨"missing", Eq.refl true⟩

/-- The key is refused, and the property before the missing one is required all the same; if the
missing one comes first nothing happens. -/
theorem unchanged_iff_of_error_missing :
    let ty := performAll (.empty ⟨"Tag", Eq.refl true⟩) [property code, property label]
    (∃ e, ((key [code.name, missing]).perform ty).2 = .error e) ∧
      (∃ e, ((key [missing, code.name]).perform ty).2 = .error e) ∧
      ((key [code.name, missing]).perform ty).1 =
        { ty with properties := [{ code with nullable := false }, label] } ∧
      ((key [missing, code.name]).perform ty).1 = ty := by
  intro ty
  have first := unchanged_iff_of_error ⟨"Tag", Eq.refl true⟩ [property code, property label]
    (key [code.name, missing]) rfl
  have second := unchanged_iff_of_error ⟨"Tag", Eq.refl true⟩ [property code, property label]
    (key [missing, code.name]) rfl
  exact ⟨⟨_, rfl⟩, ⟨_, rfl⟩, first.1, second.2.mpr (by decide)⟩

end Declaration

end OData.EntityType
