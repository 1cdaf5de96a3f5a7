import OData.Proofs.Service.Resolution
import OData.Proofs.Value.Order

/-!
# Related entities

A navigation property relates two entities if it has constraints and the values that they join are
equal.  Exactly these entities are found through the navigation property.
-/

set_option autoImplicit false

namespace OData

open OData.Action

/-- Whether a constraint's values in two entities are equal. -/
def ReferentialConstraint.holds (c : ReferentialConstraint) (source target : Record) : Bool :=
  (target.value c.referenced).compare (source.value c.property) == some .eq

/-- Whether a navigation property leads from one entity to the other. -/
def NavigationProperty.relates (navigation : NavigationProperty) (source target : Record) : Bool :=
  !navigation.constraints.isEmpty && navigation.constraints.all (·.holds source target)

theorem NavigationProperty.relates_iff {navigation : NavigationProperty} {source target : Record} :
    navigation.relates source target = true ↔
      navigation.constraints ≠ [] ∧ ∀ c ∈ navigation.constraints,
        (target.value c.referenced).compare (source.value c.property) = some .eq := by
  simp [relates, ReferentialConstraint.holds]

namespace BoundExpr

theorem holds_foldl_and {record : Record} {rest : List BoundExpr} :
    ∀ {e : BoundExpr}, (rest.foldl and e).holds record =
      (e.holds record && rest.all (·.holds record)) := by
  induction rest with
  | nil => simp
  | cons next rest ih =>
    intro e
    have both : (and e next).holds record = (e.holds record && next.holds record) := by
      rw [holds, evaluate, holds, holds]
      cases isTrue (e.evaluate record) && isTrue (next.evaluate record) <;> rfl
    rw [List.foldl_cons, ih, both, List.all_cons, Bool.and_assoc]

theorem holds_conjunction {record : Record} {conditions : List BoundExpr} {condition : BoundExpr}
    (joined : conjunction conditions = some condition) :
    condition.holds record = conditions.all (·.holds record) := by
  cases conditions with
  | nil => cases joined
  | cons first rest =>
    cases joined
    rw [holds_foldl_and, List.all_cons]

/-- The condition on the value of one property. -/
theorem holds_compare_literal {record : Record} {name : Identifier} {ty : PrimitiveType} {v : Value}
    (known : v.isNull = false) :
    (compare .eq (property name ty) (literal v)).holds record =
      ((record.value name).compare v == some .eq) := by
  have notNull : (literal v).isNullLiteral = false := by
    cases v with
    | null => cases known
    | _ => rfl
  rw [holds, evaluate, notNull, evaluate, evaluate]
  cases compared : (record.value name).compare v with
  | none => simp [isNullLiteral, compareValues, compared, isTrue]
  | some order =>
    cases order <;> simp [isNullLiteral, compareValues, compared, isTrue, Operator.holds]

end BoundExpr

namespace Source

variable (source : Source) {target : EntityType}

/-- Whether all of some conditions hold; none that were found for a null hold. -/
def allHold (record : Record) : Option (List BoundExpr) → Bool
  | none => false
  | some conditions => conditions.all (·.holds record)

theorem conditions_eq {constraints : List ReferentialConstraint}
    (known : ∀ c ∈ constraints, (target.property? c.referenced.text).isSome = true) :
    ∃ found, source.conditions target constraints = .ok found ∧
      (∀ conditions, found = some conditions → conditions.isEmpty = constraints.isEmpty) ∧
      ∀ record, allHold record found = constraints.all (·.holds source.record record) := by
  induction constraints with
  | nil =>
    refine ⟨some [], rfl, ?_, fun _ => rfl⟩
    intro conditions same
    cases same
    rfl
  | cons c rest ih =>
    obtain ⟨found, others, -, spec⟩ :=
      ih fun other member => known other (List.mem_cons_of_mem _ member)
    obtain ⟨property, declared⟩ := Option.isSome_iff_exists.mp (known c List.mem_cons_self)
    have name : property.name = c.referenced := EntityType.name_of_property? declared
    simp only [conditions, declared, others]
    cases null : (source.record.value c.property).isNull with
    | true =>
      refine ⟨none, rfl, by simp, fun record => ?_⟩
      rw [List.all_cons, ReferentialConstraint.holds, Value.isNull_iff.mp null,
        Value.compare_null]
      rfl
    | false =>
      refine ⟨_, rfl, ?_, fun record => ?_⟩
      · intro conditions same
        obtain ⟨_, _, rfl⟩ := Option.map_eq_some_iff.mp same
        rfl
      · rw [List.all_cons, ← spec record]
        cases found with
        | none => exact (Bool.and_false _).symm
        | some conditions =>
          rw [Option.map_some, allHold, allHold, List.all_cons,
            BoundExpr.holds_compare_literal null, name]
          rfl

/-- The scope of an entity holds for the entities that it is related to. -/
theorem scope_eq (known : ∀ c ∈ source.navigation.constraints,
      (target.property? c.referenced.text).isSome = true) :
    (source.navigation.constraints.isEmpty = true ∧
      ∃ failure, source.scope target = .error failure) ∨
      ∃ scope, source.scope target = .ok scope ∧
        ∀ record, scope.holds record = source.navigation.relates source.record record := by
  obtain ⟨found, made, sizes, spec⟩ := source.conditions_eq known
  rw [scope, made]
  cases found with
  | none =>
    refine .inr ⟨_, rfl, fun record => ?_⟩
    rw [NavigationProperty.relates, ← spec record, allHold, Bool.and_false]
    rfl
  | some conditions =>
    have size := sizes conditions rfl
    cases conditions with
    | nil => exact .inl ⟨size.symm, _, rfl⟩
    | cons first rest =>
      refine .inr ⟨_, rfl, fun record => ?_⟩
      rw [NavigationProperty.relates, ← spec record, ← size]
      exact BoundExpr.holds_conjunction rfl

end Source

namespace EntitySet

variable {set : EntitySet} {key : Key} {store after : Store} {record : Record}

theorem runOn_readRecord_ok_iff :
    (set.readRecord key).runOn store = (.ok record, after) ↔
      set.require .read = .ok () ∧ (store.rows set.name.text).read key = some record ∧
        after = store := by
  rw [readRecord, read?, bind_assoc, runOn_lift_bind_ok_iff]
  constructor
  · rintro ⟨⟨⟩, able, run⟩
    rw [runOn_bind_of_ok (EntitySetDef.runOn_read _ store key)] at run
    cases found : (store.rows set.definition.name.text).read key with
    | none =>
      rw [found] at run
      cases run
    | some row =>
      rw [found] at run
      cases run
      exact ⟨able, found, rfl⟩
  · rintro ⟨able, found, rfl⟩
    refine ⟨(), able, ?_⟩
    rw [runOn_bind_of_ok (EntitySetDef.runOn_read _ after key)]
    rw [name] at found
    rw [found]
    rfl

/-- What is read as related is the record with the key. -/
theorem readRecord_of_readScoped (run : (set.readScoped key).runOn store = (.ok record, after)) :
    (set.readRecord key).runOn store = (.ok record, after) := by
  obtain ⟨row, middle, read, run⟩ := runOn_bind_ok_iff.mp run
  cases led : set.source with
  | none =>
    rw [led] at run
    cases run
    exact read
  | some source =>
    rw [led] at run
    obtain ⟨scope, _, run⟩ := runOn_lift_bind_ok_iff.mp run
    split at run
    next =>
      cases run
      exact read
    next => cases run

theorem runOn_readScoped_root_ok_iff (root : set.source = none) :
    (set.readScoped key).runOn store = (.ok record, after) ↔
      set.require .read = .ok () ∧ (store.rows set.name.text).read key = some record ∧
        after = store := by
  rw [readScoped, root, ← runOn_readRecord_ok_iff]
  simp only [bind_pure]

/-- Of the entities with a key exactly the related ones are read. -/
theorem runOn_readScoped_ok_iff {source : Source} (led : set.source = some source)
    (known : ∀ c ∈ source.navigation.constraints,
      (set.entityType.property? c.referenced.text).isSome = true) :
    (set.readScoped key).runOn store = (.ok record, after) ↔
      set.require .read = .ok () ∧ (store.rows set.name.text).read key = some record ∧
        source.navigation.relates source.record record = true ∧ after = store := by
  rw [readScoped, led, runOn_bind_ok_iff]
  constructor
  · rintro ⟨row, middle, read, run⟩
    obtain ⟨able, found, rfl⟩ := runOn_readRecord_ok_iff.mp read
    obtain ⟨scope, made, run⟩ := runOn_lift_bind_ok_iff.mp run
    rcases source.scope_eq known with ⟨-, failure, failed⟩ | ⟨other, same, spec⟩
    · cases failed.symm.trans made
    · cases same.symm.trans made
      split at run
      next holds =>
        cases run
        exact ⟨able, found, (spec record).symm.trans holds, rfl⟩
      next => cases run
  · rintro ⟨able, found, related, rfl⟩
    refine ⟨record, after, runOn_readRecord_ok_iff.mpr ⟨able, found, rfl⟩, ?_⟩
    rcases source.scope_eq known with ⟨none, _⟩ | ⟨scope, made, spec⟩
    · rw [NavigationProperty.relates, none] at related
      cases related
    · refine runOn_lift_bind_ok_iff.mpr ⟨scope, made, ?_⟩
      rw [if_pos ((spec record).trans related)]
      rfl

/-- Reads the entity with a key through a navigation property of another one. -/
def readRelated (ctx : Context) (definition : EntitySetDef) (key : Key) (navigation : String)
    (targetKey : Key) : Action Record := do
  let source ← (root definition).readScoped key
  let target ← (root definition).navigate ctx source navigation
  target.readScoped targetKey

variable {ctx : Context} {definition target : EntitySetDef} {navigation : NavigationProperty}
  {name : String} {targetKey : Key}

theorem navigate_root_eq (declared : definition.entityType.navigation? name = some navigation)
    (bound : ctx.model.bindingTarget definition navigation = .ok target) (source : Record) :
    (root definition).navigate ctx source name =
      .ok ⟨target, some ⟨definition, navigation, source⟩⟩ := by
  have type : (root definition).entityType.navigation? name = some navigation := declared
  have set : (root definition).definition = definition := rfl
  rw [navigate, type, set]
  simp only [bound]
  rfl

/-- The constraints of a navigation property join it to properties of its target. -/
theorem isSome_property?_of_bound (intact : ctx.model.Intact) (member : definition ∈ ctx.model.sets)
    (declared : definition.entityType.navigation? name = some navigation)
    (bound : ctx.model.bindingTarget definition navigation = .ok target) :
    ∀ c ∈ navigation.constraints,
      (target.entityType.property? c.referenced.text).isSome = true := by
  have named : navigation.name.text = name := by simpa using List.find?_some declared
  have found? : definition.entityType.navigation? navigation.name.text = some navigation := by
    rw [named]
    exact declared
  intro c among
  exact ModelDeclaration.isSome_of_joins (intact.joins member found? bound c among)

/-- In a model that is intact an entity is read through a navigation property if both keys are
found and the entities are related. -/
theorem runOn_readRelated_ok_iff (intact : ctx.model.Intact) (member : definition ∈ ctx.model.sets)
    (declared : definition.entityType.navigation? name = some navigation)
    (bound : ctx.model.bindingTarget definition navigation = .ok target) :
    (readRelated ctx definition key name targetKey).runOn store = (.ok record, after) ↔
      after = store ∧ ∃ source, (store.rows definition.name.text).read key = some source ∧
        (store.rows target.name.text).read targetKey = some record ∧
        navigation.relates source record = true := by
  have able := intact.readable definition member
  have ableTarget := intact.readable target (Model.mem_sets_of_bindingTarget bound)
  have known := isSome_property?_of_bound intact member declared bound
  rw [readRelated, runOn_bind_ok_iff]
  constructor
  · rintro ⟨source, middle, read, run⟩
    obtain ⟨-, found, rfl⟩ := (runOn_readScoped_root_ok_iff rfl).mp read
    rw [navigate_root_eq declared bound source] at run
    obtain ⟨-, foundTarget, related, rfl⟩ := (runOn_readScoped_ok_iff rfl known).mp run
    exact ⟨rfl, source, found, foundTarget, related⟩
  · rintro ⟨rfl, source, found, foundTarget, related⟩
    refine ⟨source, after, (runOn_readScoped_root_ok_iff rfl).mpr ⟨able, found, rfl⟩, ?_⟩
    rw [navigate_root_eq declared bound source]
    exact (runOn_readScoped_ok_iff rfl known).mpr ⟨ableTarget, foundTarget, related, rfl⟩

/-- An entity that is not related is not found. -/
theorem runOn_readScoped_unrelated {source : Source} (led : set.source = some source)
    (known : ∀ c ∈ source.navigation.constraints,
      (set.entityType.property? c.referenced.text).isSome = true)
    (constrained : source.navigation.constraints ≠ []) (able : set.require .read = .ok ())
    (found : (store.rows set.name.text).read key = some record)
    (apart : source.navigation.relates source.record record = false) :
    (set.readScoped key).runOn store = (.error (set.unrelated source key), store) := by
  have read : (set.readRecord key).runOn store = (.ok record, store) :=
    runOn_readRecord_ok_iff.mpr ⟨able, found, rfl⟩
  rw [readScoped, runOn_bind_of_ok read, led]
  rcases source.scope_eq known with ⟨none, _⟩ | ⟨scope, made, spec⟩
  · exact absurd (List.isEmpty_iff.mp none) constrained
  · have outside : scope.holds record = false := (spec record).trans apart
    simp only [made, lift_ok_bind, outside]
    rfl

theorem runOn_readRelated_unrelated (intact : ctx.model.Intact)
    (member : definition ∈ ctx.model.sets)
    (declared : definition.entityType.navigation? name = some navigation)
    (bound : ctx.model.bindingTarget definition navigation = .ok target)
    (constrained : navigation.constraints ≠ []) {source : Record}
    (foundSource : (store.rows definition.name.text).read key = some source)
    (foundTarget : (store.rows target.name.text).read targetKey = some record)
    (apart : navigation.relates source record = false) :
    (readRelated ctx definition key name targetKey).runOn store =
      (.error ((root target).unrelated ⟨definition, navigation, source⟩ targetKey), store) := by
  have able := intact.readable definition member
  have ableTarget := intact.readable target (Model.mem_sets_of_bindingTarget bound)
  have known := isSome_property?_of_bound intact member declared bound
  have read : ((root definition).readScoped key).runOn store = (.ok source, store) :=
    (runOn_readScoped_root_ok_iff rfl).mpr ⟨able, foundSource, rfl⟩
  rw [readRelated, runOn_bind_of_ok read, navigate_root_eq declared bound source, lift_ok_bind]
  exact runOn_readScoped_unrelated rfl known constrained ableTarget foundTarget apart

end EntitySet

namespace Service

variable {ctx : Context} {t : Transaction} {store after : Store} {place : Place}
  {setName keyText navigationName : String}

/-- The way to a set that a navigation property of one entity leads to. -/
theorem walk_pair_ok_iff {last : Option String} :
    (walk ctx t [⟨setName, some keyText⟩, ⟨navigationName, last⟩]).runOn store =
        (.ok place, after) ↔
      ∃ (source : Source) (key : Key) (target : EntitySetDef),
        ctx.model.entitySet? setName = some source.set ∧
        Key.parse source.set.entityType keyText = .ok key ∧
        ((EntitySet.root source.set).readScoped key).runOn store = (.ok source.record, after) ∧
        source.set.entityType.navigation? navigationName = some source.navigation ∧
        ctx.model.bindingTarget source.set source.navigation = .ok target ∧
        place = ⟨⟨target, some source⟩, last,
          some ⟨EntitySet.root source.set, key, navigationName⟩⟩ := by
  constructor
  · intro run
    obtain ⟨set, root, run⟩ := runOn_lift_bind_ok_iff.mp run
    obtain ⟨definition, found, rfl⟩ := rootSet_eq_ok_iff.mp root
    obtain ⟨reached, middle, stepped, run⟩ := runOn_bind_ok_iff.mp run
    cases run
    obtain ⟨key, record, first, target, named, read, led, rfl⟩ := step_eq_ok stepped
    have parsed : Key.parse definition.entityType keyText = .ok key := congrArg Prod.fst named
    have same : store = first := congrArg Prod.snd named
    cases same
    obtain ⟨navigation, reached, declared, bound, rfl⟩ := EntitySet.navigate_eq_ok led
    exact ⟨⟨definition, navigation, record⟩, key, reached, found, parsed, read, declared, bound,
      rfl⟩
  · rintro ⟨⟨definition, navigation, record⟩, key, target, found, parsed, read, declared, bound,
      rfl⟩
    have root : rootSet ctx setName = .ok (EntitySet.root definition) :=
      rootSet_eq_ok_iff.mpr ⟨definition, found, rfl⟩
    have stepped : (step ctx t ⟨EntitySet.root definition, some keyText, none⟩
        ⟨navigationName, last⟩).runOn store = (.ok ⟨⟨target, some ⟨definition, navigation, record⟩⟩,
          last, some ⟨EntitySet.root definition, key, navigationName⟩⟩, after) := by
      refine runOn_bind_ok_iff.mpr ⟨key, store, congrArg (·, store) parsed, ?_⟩
      refine runOn_bind_ok_iff.mpr ⟨record, after, read, ?_⟩
      exact runOn_lift_bind_ok_iff.mpr
        ⟨_, EntitySet.navigate_root_eq declared bound record, rfl⟩
    refine runOn_lift_bind_ok_iff.mpr ⟨_, root, ?_⟩
    exact runOn_bind_ok_iff.mpr ⟨_, after, stepped, rfl⟩

end Service

end OData
