import OData.Proofs.Schema.Conformity
import OData.Proofs.Schema.Integrity

/-!
# References in built models

What a built model refers to is in the model.  Each navigation property leads to a type that it
connects with its own, each set holds the entities of a type of the model, and a navigation property
that leads from a set to another one finds the entities of its target type there.
-/

set_option autoImplicit false

namespace OData

/-- A navigation property that joins two types: its partner leads back, and its constraints are
about properties of both, which are of one type or integers. -/
structure NavigationProperty.Connects (navigation : NavigationProperty)
    (source target : EntityType) : Prop where
  partner : ∀ partner ∈ navigation.partner, ∃ back ∈ target.navigationProperties,
    back.name = partner ∧ back.target = source.name
  constraints : ∀ c ∈ navigation.constraints, ∃ p ∈ source.properties, ∃ q ∈ target.properties,
    p.name = c.property ∧ q.name = c.referenced ∧
      (p.type = q.type ∨ p.type.isIntegral = true ∧ q.type.isIntegral = true)

/-- A set whose type and whose targets are in the model, and which can be read and queried and does
no more than its rows allow. -/
structure EntitySetDef.Registered (model : Model) (set : EntitySetDef) : Prop where
  type : model.entityType? set.entityType.name.text = some set.entityType
  bindings : ∀ binding ∈ set.bindings, ∃ navigation ∈ set.entityType.navigationProperties,
    navigation.name = binding.1 ∧ ∃ target, model.entitySet? binding.2.text = some target ∧
      model.bindingTarget set navigation = .ok target
  targets : ∀ navigation ∈ set.entityType.navigationProperties, ∀ target,
    model.bindingTarget set navigation = .ok target →
      model.entitySet? target.name.text = some target ∧
        model.entityType? navigation.target.text = some target.entityType
  offered : ∀ c, set.capabilities.contains c = true → set.backing.offered.contains c = true
  able : ∀ c ∈ [Capability.read, .query], set.capabilities.contains c = true

/-- A model in which every reference leads to something of the right kind. -/
structure Model.Referential (model : Model) : Prop where
  keyed : ∀ ty ∈ model.types, ty.key ≠ []
  connected : ∀ ty ∈ model.types, ∀ navigation ∈ ty.navigationProperties, ∃ target,
    model.entityType? navigation.target.text = some target ∧ navigation.Connects ty target
  registered : ∀ set ∈ model.sets, set.Registered model

namespace ModelDeclaration

/-! ## Navigation properties -/

theorem back_of_checkPartner {ty target : EntityType} {navigation : NavigationProperty}
    (checked : checkPartner ty target navigation = .ok ()) :
    ∀ partner ∈ navigation.partner, ∃ back ∈ target.navigationProperties,
      back.name = partner ∧ back.target = ty.name := by
  rintro partner given
  rw [checkPartner, given] at checked
  simp only at checked
  split at checked
  next back found =>
    split at checked
    next returns =>
      have named : back.name.text = partner.text := by simpa using List.find?_some found
      exact ⟨back, List.mem_of_find?_eq_some found, EntityType.Identifier.eq_of_text named, returns⟩
    next => cases checked
  next => cases checked

theorem properties_of_joins {source target : EntityType} {c : ReferentialConstraint}
    (joined : joins source target c = true) :
    ∃ p ∈ source.properties, ∃ q ∈ target.properties, p.name = c.property ∧ q.name = c.referenced ∧
      (p.type = q.type ∨ p.type.isIntegral = true ∧ q.type.isIntegral = true) := by
  obtain ⟨p, q, left, right, types⟩ := exists_of_joins joined
  exact ⟨p, List.mem_of_find?_eq_some left, q, List.mem_of_find?_eq_some right,
    EntityType.name_of_property? left, EntityType.name_of_property? right, types⟩

theorem connects_of_checkNavigation {types : List EntityType} {ty : EntityType}
    {navigation : NavigationProperty} (checked : checkNavigation types ty navigation = .ok ()) :
    ∃ target, types.find? (·.name == navigation.target) = some target ∧
      navigation.Connects ty target := by
  obtain ⟨target, found, partner, joined⟩ := checkNavigation_eq_ok checked
  exact ⟨target, found, back_of_checkPartner partner,
    fun c member => properties_of_joins (joined c member)⟩

end ModelDeclaration

/-! ## Sets -/

namespace Model

variable {model : Model} {set target : EntitySetDef} {navigation : NavigationProperty}

/-- A navigation property with a binding leads to the set that it is bound to. -/
theorem bindingTarget_of_mem (ordered : InOrder (·.1.text) set.bindings)
    {binding : Identifier × Identifier} (member : binding ∈ set.bindings)
    (named : navigation.name = binding.1) (found : model.entitySet? binding.2.text = some target) :
    model.bindingTarget set navigation = .ok target := by
  have bound : set.bindings.find? (·.1 == navigation.name) = some binding := by
    rw [named]
    exact EntityType.find?_key ordered.nodup_names member
  rw [bindingTarget, bound]
  simp only [found]

end Model

namespace ModelDeclaration

variable {declaration : ModelDeclaration} {model : Model} {set : EntitySetDef}

theorem Makes.contains_offered {types : List EntityType} {sets : List EntitySetDeclaration}
    {d : EntitySetDeclaration} (makes : Makes types sets d set) {c : Capability}
    (able : set.capabilities.contains c = true) : set.backing.offered.contains c = true := by
  rw [makes.capabilities] at able
  rw [makes.backing]
  split at able
  · rw [CapabilitySet.contains_inter, Bool.and_eq_true] at able
    exact able.1
  · exact able

theorem registered_of_build (declared : ∀ ty ∈ declaration.types, ty.Declared)
    (built : declaration.build = .ok model) (member : set ∈ model.sets) : set.Registered model := by
  have checked := checked_of_build built
  have intact := intact_of_build built
  obtain ⟨d, -, makes⟩ := checked.exists_makes member
  have type := List.mem_of_find?_eq_some makes.type
  have isDeclared := declared _ (checked.types.mem_iff.mp type)
  have ordered := (addBindings_eq_ok makes.bindings).1 .nil
  refine ⟨intact.entityType?_name type, ?_, ?_, fun c => makes.contains_offered, makes.able⟩
  · intro binding among
    obtain ⟨navigation, found, target, targetMember, named, -⟩ :=
      checked.exists_bound member among
    have name : navigation.name = binding.1 :=
      EntityType.Identifier.eq_of_text (by simpa using List.find?_some found)
    have listed : model.entitySet? binding.2.text = some target := by
      rw [← named]
      exact intact.entitySet?_name targetMember
    exact ⟨navigation, List.mem_of_find?_eq_some found, name, target, listed,
      Model.bindingTarget_of_mem ordered among name listed⟩
  · intro navigation among target led
    have targetMember := Model.mem_sets_of_bindingTarget led
    have typed := intact.type_of_bindingTarget member (isDeclared.navigation?_name among) led
    rw [← typed]
    exact ⟨intact.entitySet?_name targetMember,
      intact.entityType?_name (intact.known target targetMember)⟩

/-- A model that is built has the declared types and a set for each declared one, and all its
references lead to something of the right kind. -/
theorem referential_of_build (declared : ∀ ty ∈ declaration.types, ty.Declared)
    (built : declaration.build = .ok model) :
    model.types.Perm declaration.types ∧
      (model.sets.map (·.name.text)).Perm (declaration.sets.map (·.name)) ∧
      model.Referential := by
  have checked := checked_of_build built
  have intact := intact_of_build built
  refine ⟨checked.types, checked.setNames_perm, checked.keyed, ?_, ?_⟩
  · intro ty member navigation among
    obtain ⟨target, found, connects⟩ :=
      connects_of_checkNavigation (checked.navigations ty member navigation among)
    have named : target.name = navigation.target := by simpa using List.find?_some found
    rw [← named]
    exact ⟨target, intact.entityType?_name (List.mem_of_find?_eq_some found), connects⟩
  · exact fun set => registered_of_build declared built

/-! Owners and their pets, with one set of the owners and two of the pets. -/

def ownerId : Property := ⟨⟨"id", Eq.refl true⟩, .int64, false⟩

def petId : Property := ⟨⟨"id", Eq.refl true⟩, .int32, false⟩

def petOwner : Property := ⟨⟨"owner_id", Eq.refl true⟩, .int32, true⟩

def petsOfOwner : NavigationProperty :=
  { name := ⟨"Pets", Eq.refl true⟩, target := ⟨"Pet", Eq.refl true⟩, collection := true,
    expandable := true, nullable := true, partner := some ⟨"Owner", Eq.refl true⟩,
    constraints := [⟨ownerId.name, petOwner.name⟩] }

def ownerOfPet : NavigationProperty :=
  { name := ⟨"Owner", Eq.refl true⟩, target := ⟨"Owner", Eq.refl true⟩, collection := false,
    expandable := true, nullable := true, partner := some petsOfOwner.name,
    constraints := [⟨petOwner.name, ownerId.name⟩] }

def owner : EntityType := ⟨⟨"Owner", Eq.refl true⟩, [ownerId], [ownerId.name], [petsOfOwner]⟩

def pet : EntityType := ⟨⟨"Pet", Eq.refl true⟩, [petId, petOwner], [petId.name], [ownerOfPet]⟩

/-- The set of the owners comes first, with a binding to one that is declared later. -/
def shelter : ModelDeclaration :=
  { space := "Shelter", alias? := none, references := [], types := [pet, owner],
    sets := [⟨"Owners", "Owner", [("Pets", "Dogs")], .table .all, none, none⟩,
      ⟨"Dogs", "Pet", [], .table .all, none, none⟩,
      ⟨"Cats", "Pet", [], .table .all, none, some .readOnly⟩] }

def cats : EntitySetDef :=
  ⟨⟨"Cats", Eq.refl true⟩, pet, [], .table .all, CapabilitySet.all.inter .readOnly, none⟩

def dogs : EntitySetDef := ⟨⟨"Dogs", Eq.refl true⟩, pet, [], .table .all, .all, none⟩

def owners : EntitySetDef :=
  ⟨⟨"Owners", Eq.refl true⟩, owner, [(petsOfOwner.name, dogs.name)], .table .all, .all, none⟩

def shelterModel : Model :=
  { space := "Shelter", alias? := none, references := [], types := [owner, pet],
    sets := [cats, dogs, owners] }

theorem declared_shelter : ∀ ty ∈ shelter.types, ty.Declared := by
  have idOfOwner : (EntityType.empty owner.name).addProperty ownerId =
      .ok ⟨owner.name, [ownerId], [], []⟩ := rfl
  have toPets : EntityType.addNavigation ⟨owner.name, [ownerId], [], []⟩ petsOfOwner =
      .ok ⟨owner.name, [ownerId], [], [petsOfOwner]⟩ := rfl
  have idOfPet : (EntityType.empty pet.name).addProperty petId =
      .ok ⟨pet.name, [petId], [], []⟩ := rfl
  have itsOwner : EntityType.addProperty ⟨pet.name, [petId], [], []⟩ petOwner =
      .ok ⟨pet.name, [petId, petOwner], [], []⟩ := rfl
  have toOwner : EntityType.addNavigation ⟨pet.name, [petId, petOwner], [], []⟩ ownerOfPet =
      .ok ⟨pet.name, [petId, petOwner], [], [ownerOfPet]⟩ := rfl
  intro ty member
  rcases List.mem_cons.mp member with rfl | later
  · exact .key [petId.name]
      (.navigation (.property (.property (.empty pet.name) idOfPet) itsOwner) toOwner)
  · cases List.mem_singleton.mp later
    exact .key [ownerId.name] (.navigation (.property (.empty owner.name) idOfOwner) toPets)

theorem referential_shelter :
    (∀ ty ∈ shelter.types, ty.Declared) ∧ shelter.build = .ok shelterModel ∧
      shelterModel.types.Perm shelter.types ∧
      (shelterModel.sets.map (·.name.text)).Perm (shelter.sets.map (·.name)) ∧
      shelterModel.Referential ∧ shelterModel.bindingTarget owners petsOfOwner = .ok dogs := by
  have built : shelter.build = .ok shelterModel := rfl
  obtain ⟨types, sets, referential⟩ := referential_of_build declared_shelter built
  exact ⟨declared_shelter, built, types, sets, referential, rfl⟩

end ModelDeclaration

end OData
