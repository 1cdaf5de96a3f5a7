import OData.Proofs.Schema.References
import OData.Proofs.Service.Unlinking

/-!
# Relationships from both ends

Entities that are found through a navigation property are those that its relationship is about, and
a partner that joins the same properties finds the one entity from the other.  Null relates to
nothing from either end.
-/

set_option autoImplicit false

namespace OData

namespace NavigationProperty

/-- Whether a navigation property joins the properties that another one joins, from the other
end. -/
def Mirrors (back navigation : NavigationProperty) : Prop :=
  ∀ a b, ⟨a, b⟩ ∈ back.constraints ↔ ⟨b, a⟩ ∈ navigation.constraints

variable {back navigation : NavigationProperty}

theorem Mirrors.constrained (mirrors : back.Mirrors navigation)
    (constrained : navigation.constraints ≠ []) : back.constraints ≠ [] := by
  obtain ⟨c, member⟩ := List.exists_mem_of_ne_nil _ constrained
  exact List.ne_nil_of_mem ((mirrors c.referenced c.property).mpr member)

/-- A mirrored navigation property relates the same entities. -/
theorem Mirrors.relates_eq (mirrors : back.Mirrors navigation)
    (constrained : navigation.constraints ≠ []) (source target : Record) :
    back.relates target source = navigation.relates source target := by
  rw [Bool.eq_iff_iff, relates_iff, relates_iff]
  constructor
  · rintro ⟨-, equal⟩
    refine ⟨constrained, fun c member => ?_⟩
    exact Value.compare_eq_comm.mp (equal ⟨c.referenced, c.property⟩ ((mirrors _ _).mpr member))
  · rintro ⟨-, equal⟩
    refine ⟨mirrors.constrained constrained, fun c member => ?_⟩
    exact Value.compare_eq_comm.mp (equal ⟨c.referenced, c.property⟩ ((mirrors _ _).mp member))

end NavigationProperty

namespace Source

variable (source : Source) {target : EntityType}

/-- With constraints the related entities have a condition, and it holds for exactly those. -/
theorem exists_scope (constrained : source.navigation.constraints ≠ [])
    (known : ∀ c ∈ source.navigation.constraints,
      (target.property? c.referenced.text).isSome = true) :
    ∃ scope, source.scope target = .ok scope ∧
      ∀ record, scope.holds record = source.navigation.relates source.record record := by
  rcases source.scope_eq known with ⟨none, -⟩ | found
  · exact absurd (List.isEmpty_iff.mp none) constrained
  · exact found

end Source

namespace ModelDeclaration

theorem target_of_checkPartner {ty target : EntityType} {navigation back : NavigationProperty}
    {partner : Identifier} (checked : checkPartner ty target navigation = .ok ())
    (given : navigation.partner = some partner)
    (found : target.navigation? partner.text = some back) : back.target = ty.name := by
  rw [checkPartner, given] at checked
  simp only [found] at checked
  split at checked
  next returns => exact returns
  next => cases checked

theorem isSome_property?_of_joins {source target : EntityType} {c : ReferentialConstraint}
    (joined : joins source target c = true) :
    (source.property? c.property.text).isSome = true := by
  obtain ⟨p, q, left, -⟩ := exists_of_joins joined
  exact Option.isSome_of_eq_some left

/-- In a built model the condition on the entities that a navigation property leads to holds for
exactly those that its relationship is about, and the condition of a partner that mirrors it holds
for the entity at the other end. -/
theorem scope_holds_iff_relates {declaration : ModelDeclaration} {model : Model}
    (built : declaration.build = .ok model) {ty : EntityType} (member : ty ∈ model.types)
    {navigation : NavigationProperty} (among : navigation ∈ ty.navigationProperties)
    (constrained : navigation.constraints ≠ []) :
    ∃ target, model.entityType? navigation.target.text = some target ∧
      ∀ (set : EntitySetDef) (source record : Record), ∃ scope,
        Source.scope ⟨set, navigation, source⟩ target = .ok scope ∧
        (∀ r : Relationship, r.source = ⟨set, navigation, source⟩ →
          (scope.holds record = true ↔ r.relates record = true)) ∧
        ∀ partner back, navigation.partner = some partner →
          target.navigation? partner.text = some back → back.Mirrors navigation →
            model.entityType? back.target.text = some ty ∧
            ∀ targetSet : EntitySetDef, ∃ backScope,
              Source.scope ⟨targetSet, back, record⟩ ty = .ok backScope ∧
              (scope.holds record = true ↔ backScope.holds source = true) := by
  have checked := checked_of_build built
  have intact := intact_of_build built
  obtain ⟨target, found, partnered, joined⟩ :=
    checkNavigation_eq_ok (checked.navigations ty member navigation among)
  have named : target.name = navigation.target := by simpa using List.find?_some found
  have listed : model.entityType? navigation.target.text = some target := by
    rw [← named]
    exact intact.entityType?_name (List.mem_of_find?_eq_some found)
  refine ⟨target, listed, fun set source record => ?_⟩
  obtain ⟨scope, made, holds⟩ := Source.exists_scope ⟨set, navigation, source⟩ constrained
    fun c among => isSome_of_joins (joined c among)
  refine ⟨scope, made, ?_, ?_⟩
  · rintro r led
    have joins : r.constraints ≠ [] := by rwa [Relationship.constraints, led]
    rw [holds, Relationship.relates_eq joins, led]
  · intro partner back given led mirrors
    have returns := target_of_checkPartner partnered given led
    refine ⟨by rw [returns]; exact intact.entityType?_name member, fun targetSet => ?_⟩
    obtain ⟨backScope, backMade, backHolds⟩ := Source.exists_scope ⟨targetSet, back, record⟩
      (mirrors.constrained constrained) fun c among =>
        isSome_property?_of_joins (joined _ ((mirrors c.property c.referenced).mp among))
    refine ⟨backScope, backMade, ?_⟩
    rw [holds, backHolds, mirrors.relates_eq constrained]

/-! An owner, a pet of this owner and one of nobody. -/

def ownerRow : Record := [(ownerId.name, .int 7)]

def petRow (owner : Value) : Record := [(petId.name, .int 1), (petOwner.name, owner)]

/-- The owner finds the pet and the pet its owner; the pet of nobody is not found. -/
theorem scope_holds_iff_relates_pets :
    shelter.build = .ok shelterModel ∧ owner ∈ shelterModel.types ∧
      petsOfOwner ∈ owner.navigationProperties ∧ petsOfOwner.constraints ≠ [] ∧
      ownerOfPet.Mirrors petsOfOwner ∧
      ∃ scope backScope, Source.scope ⟨owners, petsOfOwner, ownerRow⟩ pet = .ok scope ∧
        Source.scope ⟨dogs, ownerOfPet, petRow (.int 7)⟩ owner = .ok backScope ∧
        scope.holds (petRow (.int 7)) = true ∧ backScope.holds ownerRow = true ∧
        scope.holds (petRow .null) = false := by
  have built : shelter.build = .ok shelterModel := rfl
  have member : owner ∈ shelterModel.types := List.mem_cons_self
  have among : petsOfOwner ∈ owner.navigationProperties := List.mem_cons_self
  have constrained : petsOfOwner.constraints ≠ [] := List.cons_ne_nil _ _
  have mirrors : ownerOfPet.Mirrors petsOfOwner := by
    intro a b
    simp [ownerOfPet, petsOfOwner, and_comm]
  obtain ⟨target, listed, spec⟩ := scope_holds_iff_relates built member among constrained
  have same : some pet = some target := by rw [← listed]; rfl
  cases same
  let r : Relationship := .through ⟨[]⟩ ⟨owners, petsOfOwner, ownerRow⟩ dogs
  obtain ⟨scope, made, related, partnered⟩ := spec owners ownerRow (petRow (.int 7))
  obtain ⟨-, returned⟩ := partnered ownerOfPet.name ownerOfPet rfl rfl mirrors
  obtain ⟨backScope, backMade, returns⟩ := returned dogs
  have holds : scope.holds (petRow (.int 7)) = true := (related r rfl).mpr rfl
  refine ⟨built, member, among, constrained, mirrors, scope, backScope, made, backMade, holds,
    returns.mp holds, ?_⟩
  obtain ⟨other, otherMade, apart, -⟩ := spec owners ownerRow (petRow .null)
  cases made.symm.trans otherMade
  refine Bool.eq_false_iff.mpr fun found => ?_
  have wrong : r.relates (petRow .null) = true := (apart r rfl).mp found
  cases wrong

end ModelDeclaration

end OData
