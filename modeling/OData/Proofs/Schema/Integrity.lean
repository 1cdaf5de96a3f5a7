import Mathlib.Data.String.Basic
import OData.Proofs.Schema.EntityType
import OData.Schema.Declaration

/-!
# Built models are intact

The types of a built model are declared ones, and each set has one of them.  The types have names of
their own, and so have the sets, which can be read.  A navigation property of a set leads to a set
of its target type, and its constraints join properties of the two types.
-/

set_option autoImplicit false

namespace OData

/-! ## Items in the order of their names -/

section Named

variable {α : Type} {name : α → String} {item : α} {items : List α}

/-- Whether items stand in the order of their names, with no name twice. -/
def InOrder (name : α → String) (items : List α) : Prop :=
  items.Pairwise fun a b => name a < name b

theorem InOrder.nodup (ordered : InOrder name items) : (items.map name).Nodup :=
  List.pairwise_map.mpr (ordered.imp ne_of_lt)

theorem InOrder.nodup_names {name : α → Identifier}
    (ordered : InOrder (fun a => (name a).text) items) : (items.map name).Nodup := by
  refine List.Nodup.of_map Identifier.text ?_
  rw [List.map_map]
  exact ordered.nodup

theorem mem_insertNamed {a : α} (member : a ∈ insertNamed name item items) :
    a = item ∨ a ∈ items := by
  induction items with
  | nil => simpa [insertNamed] using member
  | cons first rest ih =>
    rw [insertNamed] at member
    split at member
    · rcases List.mem_cons.mp member with same | later
      · exact .inl same
      · exact .inr (List.mem_cons_of_mem _ later)
    · split at member
      · exact List.mem_cons.mp member
      · rcases List.mem_cons.mp member with same | later
        · exact .inr (by simp [same])
        · rcases ih later with same | among
          · exact .inl same
          · exact .inr (List.mem_cons_of_mem _ among)

theorem InOrder.insertNamed (ordered : InOrder name items) :
    InOrder name (insertNamed name item items) := by
  induction items with
  | nil => exact List.pairwise_singleton _ _
  | cons first rest ih =>
    obtain ⟨below, others⟩ := List.pairwise_cons.mp ordered
    rw [OData.insertNamed]
    split
    next same =>
      refine List.pairwise_cons.mpr ⟨fun a member => ?_, others⟩
      rw [same]
      exact below a member
    next other =>
      split
      next less =>
        refine List.pairwise_cons.mpr ⟨fun a member => ?_, ordered⟩
        rcases List.mem_cons.mp member with rfl | later
        · exact less
        · exact String.lt_trans less (below a later)
      next notLess =>
        have greater : name first < name item :=
          lt_of_le_of_ne (not_lt.mp notLess) (Ne.symm other)
        refine List.pairwise_cons.mpr ⟨fun a member => ?_, ih others⟩
        rcases mem_insertNamed member with rfl | later
        · exact greater
        · exact below a later

/-- An item with a name of its own takes the place of none. -/
theorem insertNamed_perm (fresh : ∀ a ∈ items, name item ≠ name a) :
    (insertNamed name item items).Perm (item :: items) := by
  induction items with
  | nil => exact .refl _
  | cons first rest ih =>
    have others := ih fun a member => fresh a (List.mem_cons_of_mem _ member)
    rw [insertNamed, if_neg (fresh first List.mem_cons_self)]
    split
    · exact .refl _
    · exact (others.cons first).trans (.swap _ _ _)

end Named

namespace ModelDeclaration

/-! ## Types -/

/-- Types that are added have keys and names of their own, and none of them is lost. -/
theorem addTypes_eq_ok {declared : List EntityType} :
    ∀ {added types : List EntityType}, addTypes added declared = .ok types →
      types.Perm (added ++ declared) ∧ (∀ ty ∈ declared, ty.key ≠ []) ∧
        (InOrder (·.name.text) added → InOrder (·.name.text) types) := by
  induction declared with
  | nil =>
    intro added types success
    cases success
    exact ⟨by rw [List.append_nil], by simp, id⟩
  | cons first rest ih =>
    intro added types success
    rw [addTypes] at success
    split at success
    next => cases success
    next keyed =>
      split at success
      next => cases success
      next absent =>
        have fresh : ∀ ty ∈ added, first.name.text ≠ ty.name.text := by
          intro ty member same
          have equal : ty.name = first.name := EntityType.Identifier.eq_of_text same.symm
          exact absent (List.any_eq_true.mpr ⟨ty, member, beq_iff_eq.mpr equal⟩)
        obtain ⟨perm, keys, ordered⟩ := ih success
        refine ⟨?_, ?_, fun before => ordered before.insertNamed⟩
        · exact perm.trans (((insertNamed_perm fresh).append_right rest).trans
            List.perm_middle.symm)
        · intro ty member
          rcases List.mem_cons.mp member with rfl | later
          · exact fun empty => keyed (by rw [empty]; rfl)
          · exact keys ty later

/-- A constraint joins a property of each type, and these are of one type or two integers. -/
theorem exists_of_joins {source target : EntityType} {c : ReferentialConstraint}
    (joined : joins source target c = true) :
    ∃ p q, source.property? c.property.text = some p ∧
      target.property? c.referenced.text = some q ∧
      (p.type = q.type ∨ p.type.isIntegral = true ∧ q.type.isIntegral = true) := by
  rw [joins] at joined
  split at joined
  next p q left right => exact ⟨p, q, left, right, by simpa using joined⟩
  next => cases joined

theorem isSome_of_joins {source target : EntityType} {c : ReferentialConstraint}
    (joined : joins source target c = true) :
    (target.property? c.referenced.text).isSome = true := by
  obtain ⟨p, q, -, right, -⟩ := exists_of_joins joined
  exact Option.isSome_of_eq_some right

theorem joins_of_checkConstraints {ty target : EntityType} {navigation : NavigationProperty}
    {constraints : List ReferentialConstraint}
    (checked : checkConstraints ty target navigation constraints = .ok ()) :
    ∀ c ∈ constraints, joins ty target c = true := by
  induction constraints with
  | nil => exact fun c member => absurd member (by simp)
  | cons first rest ih =>
    rw [checkConstraints] at checked
    split at checked
    next joined =>
      intro c member
      rcases List.mem_cons.mp member with rfl | later
      · exact joined
      · exact ih checked c later
    next => cases checked

theorem checkNavigation_eq_ok {types : List EntityType} {ty : EntityType}
    {navigation : NavigationProperty} (checked : checkNavigation types ty navigation = .ok ()) :
    ∃ target, types.find? (·.name == navigation.target) = some target ∧
      checkPartner ty target navigation = .ok () ∧
      ∀ c ∈ navigation.constraints, joins ty target c = true := by
  rw [checkNavigation] at checked
  split at checked
  next => cases checked
  next target found =>
    obtain ⟨⟨⟩, partner, checked⟩ := Result.bind_eq_ok.mp checked
    exact ⟨target, found, partner, joins_of_checkConstraints checked⟩

/-! ## Sets -/

theorem text_of_ofText {text : String} {name : Identifier}
    (named : Identifier.ofText text = .ok name) : name.text = text := by
  rw [Identifier.ofText] at named
  split at named
  · cases named
    rfl
  · cases named

/-- Each binding names a set that is declared to hold the target type. -/
theorem addBindings_eq_ok {sets : List EntitySetDeclaration} {name : Identifier}
    {ty : EntityType} {declared : List (String × String)} :
    ∀ {added bindings : List (Identifier × Identifier)},
      addBindings sets name ty added declared = .ok bindings →
        (InOrder (·.1.text) added → InOrder (·.1.text) bindings) ∧
        ∀ binding ∈ bindings, binding ∈ added ∨ ∃ navigation,
          ty.navigation? binding.1.text = some navigation ∧
            declaredType? sets binding.2.text = some navigation.target.text := by
  induction declared with
  | nil =>
    intro added bindings success
    cases success
    exact ⟨id, fun binding => .inl⟩
  | cons first rest ih =>
    intro added bindings success
    obtain ⟨navigationName, targetName⟩ := first
    rw [addBindings] at success
    split at success
    next => cases success
    next navigation found =>
      split at success
      next => cases success
      next targetType declaredType =>
        split at success
        next same =>
          obtain ⟨bound, named, success⟩ := Result.bind_eq_ok.mp success
          obtain ⟨ordered, each⟩ := ih success
          refine ⟨fun before => ordered before.insertNamed, fun binding member => ?_⟩
          rcases each binding member with before | later
          · rcases mem_insertNamed before with rfl | among
            · have name : navigation.name.text = navigationName := by
                simpa using List.find?_some found
              refine .inr ⟨navigation, ?_, ?_⟩
              · rw [name]
                exact found
              · rw [text_of_ofText named, same]
                exact declaredType
            · exact .inl among
          · exact .inr later
        next => cases success

theorem contains_of_checkCapabilities {name : Identifier} {capabilities : CapabilitySet}
    {needed : List Capability} (checked : checkCapabilities name capabilities needed = .ok ()) :
    ∀ c ∈ needed, capabilities.contains c = true := by
  induction needed with
  | nil => exact fun c member => absurd member (by simp)
  | cons first rest ih =>
    rw [checkCapabilities] at checked
    split at checked
    next able =>
      intro c member
      rcases List.mem_cons.mp member with rfl | later
      · exact able
      · exact ih checked c later
    next => cases checked

/-- How a set is made from its declaration. -/
structure Makes (types : List EntityType) (sets : List EntitySetDeclaration)
    (d : EntitySetDeclaration) (set : EntitySetDef) : Prop where
  name : set.name.text = d.name
  type : types.find? (·.name.text == d.entityType) = some set.entityType
  bindings : addBindings sets set.name set.entityType [] d.bindings = .ok set.bindings
  backing : set.backing = d.backing
  capabilities : set.capabilities = match d.mask with
    | some mask => d.backing.offered.inter mask
    | none => d.backing.offered
  able : ∀ c ∈ [Capability.read, .query], set.capabilities.contains c = true

theorem makes_of_buildSet {types : List EntityType} {sets : List EntitySetDeclaration}
    {d : EntitySetDeclaration} {set : EntitySetDef} (success : buildSet types sets d = .ok set) :
    Makes types sets d set := by
  obtain ⟨name, named, success⟩ := Result.bind_eq_ok.mp success
  cases found : types.find? (·.name.text == d.entityType) with
  | none =>
    simp only [found] at success
    cases success
  | some ty =>
    simp only [found] at success
    obtain ⟨bindings, bound, success⟩ := Result.bind_eq_ok.mp success
    obtain ⟨⟨⟩, capable, success⟩ := Result.bind_eq_ok.mp success
    cases success
    exact ⟨text_of_ofText named, found, bound, rfl, rfl, contains_of_checkCapabilities capable⟩

theorem Makes.typeName {types : List EntityType} {sets : List EntitySetDeclaration}
    {d : EntitySetDeclaration} {set : EntitySetDef} (makes : Makes types sets d set) :
    set.entityType.name.text = d.entityType := by
  simpa using List.find?_some makes.type

/-- Each declaration makes a set, whose name is its own. -/
theorem addSets_eq_ok {types : List EntityType} {all : List EntitySetDeclaration}
    {declarations : List EntitySetDeclaration} :
    ∀ {added sets : List EntitySetDef}, addSets types all added declarations = .ok sets →
      ∃ made, declarations.mapM (buildSet types all) = .ok made ∧ sets.Perm (added ++ made) ∧
        (InOrder (·.name.text) added → InOrder (·.name.text) sets) := by
  induction declarations with
  | nil =>
    intro added sets success
    cases success
    exact ⟨[], rfl, by rw [List.append_nil], id⟩
  | cons declaration rest ih =>
    intro added sets success
    obtain ⟨set, built, success⟩ := Result.bind_eq_ok.mp success
    split at success
    next => cases success
    next absent =>
      have fresh : ∀ other ∈ added, set.name.text ≠ other.name.text := by
        intro other member same
        have equal : other.name = set.name := EntityType.Identifier.eq_of_text same.symm
        exact absent (List.any_eq_true.mpr ⟨other, member, beq_iff_eq.mpr equal⟩)
      obtain ⟨made, others, perm, ordered⟩ := ih success
      refine ⟨set :: made, ?_, ?_, fun before => ordered before.insertNamed⟩
      · rw [List.mapM_cons, built]
        exact Result.bind_eq_ok.mpr ⟨set, rfl, Result.bind_eq_ok.mpr ⟨made, others, rfl⟩⟩
      · exact perm.trans (((insertNamed_perm fresh).append_right made).trans
          List.perm_middle.symm)

/-! ## Models -/

/-- What the checks of a declaration say about its model. -/
structure Checked (declaration : ModelDeclaration) (model : Model) : Prop where
  types : model.types.Perm declaration.types
  typeNames : InOrder (·.name.text) model.types
  keyed : ∀ ty ∈ model.types, ty.key ≠ []
  navigations : ∀ ty ∈ model.types, ∀ navigation ∈ ty.navigationProperties,
    checkNavigation model.types ty navigation = .ok ()
  sets : ∃ made, declaration.sets.mapM (buildSet model.types declaration.sets) = .ok made ∧
    model.sets.Perm made
  setNames : InOrder (·.name.text) model.sets

theorem checked_of_build {declaration : ModelDeclaration} {model : Model}
    (built : declaration.build = .ok model) : declaration.Checked model := by
  obtain ⟨⟨⟩, _, built⟩ := Result.bind_eq_ok.mp built
  obtain ⟨⟨⟩, _, built⟩ := Result.bind_eq_ok.mp built
  obtain ⟨types, added, built⟩ := Result.bind_eq_ok.mp built
  obtain ⟨⟨⟩, checked, built⟩ := Result.bind_eq_ok.mp built
  obtain ⟨sets, addedSets, built⟩ := Result.bind_eq_ok.mp built
  cases built
  obtain ⟨perm, keyed, ordered⟩ := addTypes_eq_ok added
  obtain ⟨made, each, sets, setsOrdered⟩ := addSets_eq_ok addedSets
  exact
    { types := perm
      typeNames := ordered .nil
      keyed := fun ty member => keyed ty (perm.mem_iff.mp member)
      navigations := fun ty member => Result.forM_eq_ok (Result.forM_eq_ok checked ty member)
      sets := ⟨made, each, sets⟩
      setNames := setsOrdered .nil }

theorem declaredType?_of_mem {sets : List EntitySetDeclaration}
    (distinct : (sets.map EntitySetDeclaration.name).Nodup) {d : EntitySetDeclaration}
    (member : d ∈ sets) : declaredType? sets d.name = some d.entityType := by
  have reversed : (sets.reverse.map EntitySetDeclaration.name).Nodup := by
    rwa [List.map_reverse, List.nodup_reverse]
  have found : sets.reverse.find? (·.name == d.name) = some d :=
    EntityType.find?_key reversed (List.mem_reverse.mpr member)
  rw [declaredType?, found]
  rfl

theorem mem_names_of_declaredType? {sets : List EntitySetDeclaration} {name type : String}
    (found : declaredType? sets name = some type) : name ∈ sets.map EntitySetDeclaration.name := by
  obtain ⟨d, last, -⟩ := Option.map_eq_some_iff.mp found
  have named : d.name = name := by simpa using List.find?_some last
  exact List.mem_map.mpr ⟨d, List.mem_reverse.mp (List.mem_of_find?_eq_some last), named⟩

theorem names_of_mapM {types : List EntityType} {all declarations : List EntitySetDeclaration}
    {made : List EntitySetDef} (each : declarations.mapM (buildSet types all) = .ok made) :
    made.map (·.name.text) = declarations.map EntitySetDeclaration.name := by
  have pairs := Result.mapM_eq_ok.mp each
  clear each
  induction pairs with
  | nil => rfl
  | cons built _ ih => rw [List.map_cons, List.map_cons, ih, (makes_of_buildSet built).name]

namespace Checked

variable {declaration : ModelDeclaration} {model : Model} {set : EntitySetDef}

/-- Each set is made from a declaration. -/
theorem exists_makes (checked : declaration.Checked model) (member : set ∈ model.sets) :
    ∃ d ∈ declaration.sets, Makes model.types declaration.sets d set := by
  obtain ⟨made, each, perm⟩ := checked.sets
  obtain ⟨d, among, built⟩ := Result.exists_of_mem_mapM each (perm.mem_iff.mp member)
  exact ⟨d, among, makes_of_buildSet built⟩

/-- The names of the sets are the declared ones. -/
theorem setNames_perm (checked : declaration.Checked model) :
    (model.sets.map (·.name.text)).Perm (declaration.sets.map EntitySetDeclaration.name) := by
  obtain ⟨made, each, perm⟩ := checked.sets
  exact names_of_mapM each ▸ perm.map _

/-- The type that is declared last for the name of a set is its own. -/
theorem declaredType?_name (checked : declaration.Checked model) (member : set ∈ model.sets) :
    declaredType? declaration.sets set.name.text = some set.entityType.name.text := by
  have distinct := checked.setNames_perm.nodup_iff.mp checked.setNames.nodup
  obtain ⟨d, among, makes⟩ := checked.exists_makes member
  rw [makes.name, declaredType?_of_mem distinct among, makes.typeName]

/-- A binding leads to a set of the target type. -/
theorem exists_bound (checked : declaration.Checked model) (member : set ∈ model.sets)
    {binding : Identifier × Identifier} (among : binding ∈ set.bindings) :
    ∃ navigation, set.entityType.navigation? binding.1.text = some navigation ∧
      ∃ target ∈ model.sets, target.name = binding.2 ∧
        target.entityType.name = navigation.target := by
  obtain ⟨d, -, makes⟩ := checked.exists_makes member
  rcases (addBindings_eq_ok makes.bindings).2 binding among with before | ⟨navigation, found, typed⟩
  · exact absurd before (by simp)
  · obtain ⟨target, targetMember, named⟩ := List.mem_map.mp
      (checked.setNames_perm.mem_iff.mpr (mem_names_of_declaredType? typed))
    have same := checked.declaredType?_name targetMember
    rw [named, typed] at same
    exact ⟨navigation, found, target, targetMember, EntityType.Identifier.eq_of_text named,
      EntityType.Identifier.eq_of_text (Option.some.inj same).symm⟩

end Checked

/-- The types of the sets of a built model are declared ones. -/
theorem entityType_mem_of_build {declaration : ModelDeclaration} {model : Model}
    (built : declaration.build = .ok model) :
    ∀ set ∈ model.sets, set.entityType ∈ declaration.types := by
  have checked := checked_of_build built
  intro set member
  obtain ⟨d, -, makes⟩ := checked.exists_makes member
  exact checked.types.mem_iff.mp (List.mem_of_find?_eq_some makes.type)

theorem key_ne_nil_of_build {declaration : ModelDeclaration} {model : Model}
    (built : declaration.build = .ok model) : ∀ ty ∈ model.types, ty.key ≠ [] :=
  (checked_of_build built).keyed

end ModelDeclaration

/-! ## Intact models -/

/-- A model whose names are unique and whose navigation properties lead where they should. -/
structure Model.Intact (model : Model) : Prop where
  types : (model.types.map EntityType.name).Nodup
  sets : (model.sets.map EntitySetDef.name).Nodup
  known : ∀ set ∈ model.sets, set.entityType ∈ model.types
  readable : ∀ set ∈ model.sets, set.capabilities.require .read = .ok ()
  bound : ∀ set ∈ model.sets, ∀ binding ∈ set.bindings, ∀ navigation,
    set.entityType.navigation? binding.1.text = some navigation →
      ∀ target ∈ model.sets, target.name = binding.2 → target.entityType.name = navigation.target
  joined : ∀ ty ∈ model.types, ∀ navigation ∈ ty.navigationProperties,
    ∃ target ∈ model.types, target.name = navigation.target ∧
      ∀ c ∈ navigation.constraints, ModelDeclaration.joins ty target c = true

theorem ModelDeclaration.intact_of_build {declaration : ModelDeclaration} {model : Model}
    (built : declaration.build = .ok model) : model.Intact := by
  have checked := checked_of_build built
  have distinct : (model.sets.map EntitySetDef.name).Nodup := checked.setNames.nodup_names
  refine ⟨checked.typeNames.nodup_names, distinct, ?_, ?_, ?_, ?_⟩
  · intro set member
    obtain ⟨d, -, makes⟩ := checked.exists_makes member
    exact List.mem_of_find?_eq_some makes.type
  · intro set member
    obtain ⟨d, -, makes⟩ := checked.exists_makes member
    exact if_pos (makes.able .read List.mem_cons_self)
  · intro set member binding among navigation found target targetMember named
    obtain ⟨other, same, first, firstMember, firstName, typed⟩ :=
      checked.exists_bound member among
    cases found.symm.trans same
    have equal : target = first := List.inj_on_of_nodup_map distinct targetMember firstMember
      (named.trans firstName.symm)
    rw [equal]
    exact typed
  · intro ty member navigation among
    obtain ⟨target, found, -, joined⟩ :=
      checkNavigation_eq_ok (checked.navigations ty member navigation among)
    exact ⟨target, List.mem_of_find?_eq_some found, by simpa using List.find?_some found, joined⟩

/-- A navigation property leads to the set that it is bound to, or else to the only set of its
type. -/
theorem Model.bindingTarget_eq_ok {model : Model} {set target : EntitySetDef}
    {navigation : NavigationProperty} (bound : model.bindingTarget set navigation = .ok target) :
    target ∈ model.sets ∧ ((navigation.name, target.name) ∈ set.bindings ∨
      target.entityType.name = navigation.target) := by
  rw [bindingTarget] at bound
  split at bound
  next name targetName binding =>
    split at bound
    next found =>
      cases bound
      have same : name = navigation.name := by simpa using List.find?_some binding
      have named : target.name = targetName :=
        EntityType.Identifier.eq_of_text (by simpa using List.find?_some found)
      rw [← same, named]
      exact ⟨List.mem_of_find?_eq_some found, .inl (List.mem_of_find?_eq_some binding)⟩
    next => cases bound
  next =>
    split at bound
    next only =>
      cases bound
      obtain ⟨member, type⟩ := List.mem_filter.mp (only ▸ List.mem_cons_self)
      exact ⟨member, .inr (beq_iff_eq.mp type)⟩
    next => cases bound

theorem Model.mem_sets_of_bindingTarget {model : Model} {set target : EntitySetDef}
    {navigation : NavigationProperty} (bound : model.bindingTarget set navigation = .ok target) :
    target ∈ model.sets :=
  (bindingTarget_eq_ok bound).1

namespace Model.Intact

variable {model : Model} {set target : EntitySetDef} {navigation : NavigationProperty}

theorem eq_of_name (intact : model.Intact) {a b : EntitySetDef} (left : a ∈ model.sets)
    (right : b ∈ model.sets) (same : a.name = b.name) : a = b :=
  List.inj_on_of_nodup_map intact.sets left right same

/-- A set is found by its name. -/
theorem entitySet?_name (intact : model.Intact) (member : set ∈ model.sets) :
    model.entitySet? set.name.text = some set :=
  EntityType.find?_name intact.sets member

/-- A type is found by its name. -/
theorem entityType?_name (intact : model.Intact) {ty : EntityType} (member : ty ∈ model.types) :
    model.entityType? ty.name.text = some ty :=
  EntityType.find?_name intact.types member

theorem type_of_bindingTarget (intact : model.Intact) (member : set ∈ model.sets)
    (found : set.entityType.navigation? navigation.name.text = some navigation)
    (led : model.bindingTarget set navigation = .ok target) :
    target.entityType.name = navigation.target := by
  obtain ⟨among, binding | type⟩ := bindingTarget_eq_ok led
  · exact intact.bound set member _ binding navigation found target among rfl
  · exact type

/-- The constraints of a navigation property join properties of the two sets. -/
theorem joins (intact : model.Intact) (member : set ∈ model.sets)
    (found : set.entityType.navigation? navigation.name.text = some navigation)
    (led : model.bindingTarget set navigation = .ok target) :
    ∀ c ∈ navigation.constraints,
      ModelDeclaration.joins set.entityType target.entityType c = true := by
  have among := mem_sets_of_bindingTarget led
  have named := intact.type_of_bindingTarget member found led
  obtain ⟨ty, known, same, joined⟩ := intact.joined set.entityType (intact.known set member)
    navigation (List.mem_of_find?_eq_some found)
  have equal : ty = target.entityType :=
    List.inj_on_of_nodup_map intact.types known (intact.known target among)
      (same.trans named.symm)
  rw [← equal]
  exact joined

end Model.Intact

end OData
