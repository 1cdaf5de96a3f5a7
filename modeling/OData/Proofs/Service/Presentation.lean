import OData.Proofs.ResourcePath
import OData.Proofs.Schema.Conformity
import OData.Proofs.Service.Serving
import OData.Proofs.Service.Selection

/-!
# What the object of a row shows

The object of a row shows the key of the row and other values of it, and under the name of an
expansion nothing but objects of rows that the navigation property relates to it, of which the same
holds.  An entity is made of a row in this way, and so is its object.
-/

set_option autoImplicit false

namespace OData

open OData.Action

/-- Whether a request names no target of a navigation property. -/
structure Request.Plain (request : Request) : Prop where
  method : request.method = .get
  noReference : EntitySet.parameterReference? request = none

theorem EntitySet.explicitTarget_of_plain {request : Request} (plain : request.Plain)
    (ctx : Context) (target : EntitySet) : target.explicitTarget ctx request none = .ok none := by
  have noBody : bodyReference? request = none := if_pos plain.method
  rw [explicitTarget.eq_def]
  simp only [plain.noReference, noBody]

variable {ctx : Context} {store : Store} {definition : EntitySetDef} {request : Request}
  {row : Record}

/-! ## The entities of a set -/

namespace EntitySet

/-- Whether a row is related to the entity that led to a set, if one did. -/
def includes (set : EntitySet) (row : Record) : Bool :=
  match set.source with
  | none => true
  | some source => source.navigation.relates source.record row

/-- Whether a row is that of an entity of a set. -/
def Holds (store : Store) (set : EntitySet) (row : Record) : Prop :=
  row ∈ store.rows set.definition.name.text ∧ set.includes row = true

variable {set : EntitySet} {options : QueryOptions} {plan : QueryPlan}

theorem bindSelect_of_plan (accepted : set.plan ctx options = .ok plan) :
    QueryPlan.bindSelect set.entityType options.select = .ok plan.select := by
  obtain ⟨whole, bound, accepted⟩ := Result.bind_eq_ok.mp accepted
  have select : whole.select = plan.select := by
    cases led : set.source with
    | none =>
      rw [led] at accepted
      cases accepted
      rfl
    | some source =>
      rw [led] at accepted
      obtain ⟨scope, _, result⟩ := Result.bind_eq_ok.mp accepted
      cases result
      rfl
  rw [← select]
  obtain ⟨_, _, bound⟩ := Result.bind_eq_ok.mp bound
  obtain ⟨_, _, bound⟩ := Result.bind_eq_ok.mp bound
  obtain ⟨_, chosen, bound⟩ := Result.bind_eq_ok.mp bound
  obtain ⟨_, _, bound⟩ := Result.bind_eq_ok.mp bound
  cases bound
  exact chosen

theorem Reached.isSome_property? (intact : ctx.model.Intact) (reached : set.Reached ctx.model)
    {source : Source} (led : set.source = some source) :
    ∀ c ∈ source.navigation.constraints,
      (set.entityType.property? c.referenced.text).isSome = true := by
  obtain ⟨known, declared, bound⟩ := reached.led source led
  exact fun c among => ModelDeclaration.isSome_of_joins (intact.joins known declared bound c among)

/-- A plan admits the entities of the set that it would admit without the scope. -/
theorem admits_of_plan (intact : ctx.model.Intact) (reached : set.Reached ctx.model)
    (accepted : set.plan ctx options = .ok plan) :
    ∃ whole, QueryPlan.ofOptions ctx.model set.entityType options = .ok whole ∧
      ∀ row, plan.admits row = (whole.admits row && set.includes row) := by
  obtain ⟨whole, bound, accepted⟩ := Result.bind_eq_ok.mp accepted
  refine ⟨whole, bound, fun row => ?_⟩
  rw [includes]
  cases led : set.source with
  | none =>
    rw [led] at accepted
    cases accepted
    exact (Bool.and_true _).symm
  | some source =>
    rw [led] at accepted
    obtain ⟨scope, made, result⟩ := Result.bind_eq_ok.mp accepted
    cases result
    rcases source.scope_eq (reached.isSome_property? intact led) with
      ⟨-, failure, failed⟩ | ⟨other, same, spec⟩
    · cases failed.symm.trans made
    · cases same.symm.trans made
      simp only [← spec]
      rw [QueryPlan.admits, QueryPlan.restrict, QueryPlan.admits]
      cases whole.filter with
      | none =>
        have joined : BoundExpr.conjunction [scope] = some scope := rfl
        exact (BoundExpr.holds_conjunction joined).trans (by simp)
      | some filter =>
        have joined : BoundExpr.conjunction [filter, scope] = some (.and filter scope) := rfl
        exact (BoundExpr.holds_conjunction joined).trans (by simp)

/-- What a plan selects are entities of the set. -/
theorem holds_of_plan (intact : ctx.model.Intact) (reached : set.Reached ctx.model)
    (accepted : set.plan ctx options = .ok plan)
    (selected : row ∈ plan.matching (store.rows set.definition.name.text)) :
    set.Holds store row := by
  obtain ⟨stored, admitted⟩ := QueryPlan.mem_matching_iff.mp selected
  obtain ⟨whole, -, spec⟩ := admits_of_plan intact reached accepted
  rw [spec, Bool.and_eq_true] at admitted
  exact ⟨stored, admitted.2⟩

end EntitySet

/-! ## Where navigation properties lead -/

/-- The set of the entities that are related to a record. -/
def EntitySetDef.related (definition target : EntitySetDef) (navigation : NavigationProperty)
    (record : Record) : EntitySet := ⟨target, some ⟨definition, navigation, record⟩⟩

/-- Whether a name is that of a navigation property, which leads to a set. -/
structure EntitySetDef.LeadsTo (ctx : Context) (definition : EntitySetDef) (name : String)
    (navigation : NavigationProperty) (target : EntitySetDef) : Prop where
  declared : definition.entityType.navigation? name = some navigation
  bound : ctx.model.bindingTarget definition navigation = .ok target

namespace EntitySetDef.LeadsTo

variable {name : String} {navigation : NavigationProperty} {target : EntitySetDef}
  (leads : definition.LeadsTo ctx name navigation target)

include leads

theorem name_eq : navigation.name.text = name := by simpa using List.find?_some leads.declared

theorem known : target ∈ ctx.model.sets := Model.mem_sets_of_bindingTarget leads.bound

theorem reached (known : definition ∈ ctx.model.sets) (record : Record) :
    (definition.related target navigation record).Reached ctx.model := by
  refine ⟨leads.known, ?_⟩
  rintro source ⟨⟩
  exact ⟨known, by rw [leads.name_eq]; exact leads.declared, leads.bound⟩

end EntitySetDef.LeadsTo

/-- Whether what a navigation property leads to is in a set: an entity that is made of a row there,
or the whole set. -/
def Related.FoundIn (store : Store) (set : EntitySet) (made : Record → Entity → Prop) :
    Related Entity → Prop
  | .one none => True
  | .one (some entity) => ∃ row, set.Holds store row ∧ made row entity
  | .many other => other = set

/-! ## Entities of rows -/

mutual

/-- Whether an entity is made of a row with some options: it has the key of the row, other values of
it, and what its expansions lead to is found among the related entities. -/
def Entity.MadeOf (ctx : Context) (store : Store) (definition : EntitySetDef) :
    QueryOptions → Record → Entity → Prop
  | ⟨_, _, _, expand, _, _, _, _⟩, row, entity =>
    (∀ name ∈ definition.entityType.key, (name, row.value name) ∈ entity.values) ∧
      (∀ entry ∈ entity.values, ∃ property ∈ definition.entityType.properties,
        entry = (property.name, row.value property.name)) ∧
      Entity.ExpandedFrom ctx store definition expand row entity.expansions

/-- Whether expansions lead to entities that are related to a row. -/
def Entity.ExpandedFrom (ctx : Context) (store : Store) (definition : EntitySetDef) :
    List Expansion → Record → List (Identifier × Related Entity) → Prop
  | (name, options) :: items, row, (property, related) :: rest =>
    (∃ navigation target, definition.LeadsTo ctx name navigation target ∧ property.text = name ∧
      related.FoundIn store (definition.related target navigation row)
        fun other entity => Entity.MadeOf ctx store target options other entity) ∧
      Entity.ExpandedFrom ctx store definition items row rest
  | [], _, [] => True
  | _, _, _ => False

end

namespace EntitySet

variable {set : EntitySet}

/-- The single entity that a navigation property leads to is made of a related row. -/
theorem ensures_resolve (intact : ctx.model.Intact) (plain : request.Plain)
    (reached : set.Reached ctx.model) {source : Source} (led : set.source = some source)
    {options : QueryOptions} {make : Maker} {made : Record → Entity → Prop}
    (makes : ∀ select row, QueryPlan.bindSelect set.entityType options.select = .ok select →
      set.Holds store row → Ensures store (made row) (make select row)) :
    Ensures store (Related.FoundIn store set made) (set.resolve ctx request none options make) := by
  rw [resolve, explicitTarget_of_plain plain, lift_ok_bind, resolveScoped, led]
  simp only
  split
  · exact ensures_pure rfl
  · refine (ensures_firstEntity fun plan accepted row selected => makes plan.select row
      (bindSelect_of_plan accepted) (holds_of_plan intact reached accepted selected)).map
        fun found of_row => ?_
    cases found with
    | none => exact trivial
    | some entity =>
      obtain ⟨plan, accepted, row, selected, is_made⟩ := of_row entity rfl
      exact ⟨row, holds_of_plan intact reached accepted selected, is_made⟩

theorem expandedName_eq_ok {target : EntitySet} {source : Source}
    (led : target.source = some source) {name : Identifier}
    (named : target.expandedName = .ok name) : name = source.navigation.name := by
  rw [expandedName, led] at named
  simp only at named
  split at named
  · cases named
    rfl
  · cases named

/-- A selection has the key. -/
theorem mem_of_bindSelect {ty : EntityType} {chosen : Option Select} {names : List Identifier}
    (selected : QueryPlan.bindSelect ty chosen = .ok (some names)) :
    ∀ name ∈ ty.key, name ∈ names := by
  have kept : ∀ (paths : List PropertyPath) {start names : List Identifier},
      QueryPlan.bindSelectPaths ty start paths = .ok names → ∀ name ∈ start, name ∈ names := by
    intro paths
    induction paths with
    | nil =>
      intro start names bound
      cases bound
      exact fun name member => member
    | cons path rest ih =>
      intro start names bound name member
      obtain ⟨property, _, bound⟩ := Result.bind_eq_ok.mp bound
      refine ih bound name ?_
      split
      · exact member
      · exact List.mem_append_left _ member
  rw [QueryPlan.bindSelect.eq_def] at selected
  split at selected
  · obtain ⟨bound, found, result⟩ := Result.bind_eq_ok.mp selected
    cases result
    exact kept _ found
  · cases selected

theorem mem_selectedValues {chosen : Option Select} {select : Option (List Identifier)}
    (declared : set.entityType.Declared)
    (selected : QueryPlan.bindSelect set.entityType chosen = .ok select) :
    ∀ name ∈ set.entityType.key, (name, row.value name) ∈ set.selectedValues select row := by
  intro name member
  obtain ⟨property, -, among, rfl, -⟩ := declared.exists_key_property member
  refine List.mem_map.mpr ⟨property, List.mem_filter.mpr ⟨among, ?_⟩, rfl⟩
  cases select with
  | none => rfl
  | some names => exact List.contains_iff_mem.mpr (mem_of_bindSelect selected _ member)

mutual

theorem ensures_materialize (intact : ctx.model.Intact)
    (declared : ∀ ty ∈ ctx.model.types, ty.Declared) (plain : request.Plain) (depth : Nat)
    {set : EntitySet} (known : set.definition ∈ ctx.model.sets) : ∀ (options : QueryOptions)
    (select : Option (List Identifier)) (row : Record),
    QueryPlan.bindSelect set.entityType options.select = .ok select →
    Ensures store (Entity.MadeOf ctx store set.definition options row)
      (set.materialize ctx request depth options select row)
  | ⟨_, _, _, expand, _, _, _, _⟩, select, row, selected => by
    rw [materialize]
    refine Ensures.lift_bind fun key _ => ?_
    refine (ensures_expandAll intact declared plain (depth + 1) known row expand).map
      fun entries expanded => ?_
    rw [Entity.MadeOf]
    refine ⟨mem_selectedValues (declared _ (intact.known _ known)) selected, ?_, expanded⟩
    intro entry member
    obtain ⟨property, among, rfl⟩ := List.mem_map.mp member
    exact ⟨property, List.mem_of_mem_filter among, rfl⟩

theorem ensures_expandAll (intact : ctx.model.Intact)
    (declared : ∀ ty ∈ ctx.model.types, ty.Declared) (plain : request.Plain) (depth : Nat)
    {set : EntitySet} (known : set.definition ∈ ctx.model.sets) (row : Record) :
    ∀ items : List Expansion,
    Ensures store (Entity.ExpandedFrom ctx store set.definition items row)
      (set.expandAll ctx request depth row items)
  | [] => by
    rw [expandAll]
    refine ensures_pure ?_
    rw [Entity.ExpandedFrom]
    trivial
  | (name, options) :: rest => by
    rw [expandAll]
    refine Ensures.lift_bind fun _ _ => Ensures.lift_bind fun target led =>
      Ensures.lift_bind fun property named => ?_
    obtain ⟨navigation, goal, found, bound, rfl⟩ := navigate_eq_ok led
    have leads : set.definition.LeadsTo ctx name navigation goal := ⟨found, bound⟩
    have same := expandedName_eq_ok rfl named
    have reached := leads.reached known row
    refine (ensures_resolve intact plain reached rfl fun select other selected _ =>
      ensures_materialize intact declared plain depth reached.known options select other
        selected).bind fun related here => ?_
    refine (ensures_expandAll intact declared plain depth known row rest).map
      fun entries others => ?_
    rw [Entity.ExpandedFrom]
    exact ⟨⟨navigation, goal, leads, same ▸ leads.name_eq, here⟩, others⟩

end

end EntitySet

/-! ## Objects of rows -/

namespace Json

/-- Whether a value shows related entities: none, one, or an array of some. -/
def ShowsRelated (shows : Json → Prop) (value : Json) : Prop :=
  value = .null ∨ shows value ∨ ∃ items, value = .array items ∧ ∀ item ∈ items, shows item

/-- Whether a member shows a value of a row. -/
def ShowsValue (ty : EntityType) (row : Record) (member : String × Json) : Prop :=
  ∃ property ∈ ty.properties, member = (property.name.text, (row.value property.name).toJson)

mutual

/-- Whether a value is the object of a row with some options: it shows the key of the row, and its
members are values of the row, annotations, and related entities. -/
def Presents (ctx : Context) (store : Store) (definition : EntitySetDef) :
    QueryOptions → Record → Json → Prop
  | ⟨_, _, _, expand, _, _, _, _⟩, row, json => ∃ members : Members, json = .object members ∧
      (∀ name ∈ definition.entityType.key, members.get? name.text = some (row.value name).toJson) ∧
      ∀ member ∈ members, ShowsValue definition.entityType row member ∨
        EntitySet.isAnnotation member.1 = true ∨
        PresentsRelated ctx store definition expand row member

/-- Whether a member is that of an expansion, and shows objects of rows that are related to a
row. -/
def PresentsRelated (ctx : Context) (store : Store) (definition : EntitySetDef) :
    List Expansion → Record → String × Json → Prop
  | [], _, _ => False
  | (name, options) :: rest, row, member =>
    (member.1 = name ∧ ∃ navigation target, definition.LeadsTo ctx name navigation target ∧
      ShowsRelated (fun json => ∃ other,
        (definition.related target navigation row).Holds store other ∧
          Presents ctx store target options other json) member.2) ∨
      PresentsRelated ctx store definition rest row member

end

variable {members : Members} {member : String × Json} {options : QueryOptions}

theorem isAnnotation_eq_false (name : Identifier) : EntitySet.isAnnotation name.text = false := by
  rw [EntitySet.isAnnotation, Bool.eq_false_iff, ne_eq, List.contains_iff_mem]
  exact name.at_not_mem

theorem Presents.exists_members {json : Json}
    (presents : Presents ctx store definition options row json) :
    ∃ members, json = .object members := by
  obtain ⟨_, _, _, expand, _, _, _, _⟩ := options
  rw [Presents] at presents
  obtain ⟨members, same, _⟩ := presents
  exact ⟨members, same⟩

/-- An object of a row may be annotated. -/
theorem Presents.annotate {name : String}
    (presents : Presents ctx store definition options row (.object members))
    (marked : EntitySet.isAnnotation name = true) (value : Json) :
    Presents ctx store definition options row (.object (members.insert name value)) := by
  obtain ⟨_, _, _, expand, _, _, _, _⟩ := options
  rw [Presents] at presents ⊢
  obtain ⟨_, same, key, shown⟩ := presents
  cases same
  refine ⟨_, rfl, fun property among => ?_, fun member among => ?_⟩
  · have apart : property.text ≠ name := by
      rintro rfl
      rw [isAnnotation_eq_false] at marked
      cases marked
    rw [Members.get?_insert_of_ne apart]
    exact key property among
  · rcases Members.mem_insert among with rfl | before
    · exact .inr (.inl marked)
    · exact shown member before

end Json

namespace Entity

open Json (Members)

/-- Whether the members for some expansions of a row are all that was added to others. -/
structure Adds (ctx : Context) (store : Store) (definition : EntitySetDef) (items : List Expansion)
    (row : Record) (members shown : Members) : Prop where
  shows : ∀ member ∈ shown, member ∈ members ∨ EntitySet.isAnnotation member.1 = true ∨
    Json.PresentsRelated ctx store definition items row member
  others : ∀ name : Identifier, definition.entityType.navigation? name.text = none →
    shown.get? name.text = members.get? name.text

variable {members shown last : Members} {item : Expansion} {items : List Expansion}

theorem adds_refl : Adds ctx store definition items row members members :=
  ⟨fun _ among => .inl among, fun _ _ => rfl⟩

theorem Adds.trans (first : Adds ctx store definition items row members shown)
    (others : Adds ctx store definition items row shown last) :
    Adds ctx store definition items row members last := by
  refine ⟨fun member among => ?_, fun name absent => ?_⟩
  · rcases others.shows member among with before | later
    · exact first.shows member before
    · exact .inr later
  · exact (others.others name absent).trans (first.others name absent)

theorem adds_marked {name : String} (marked : EntitySet.isAnnotation name = true)
    (value : Option Json) :
    Adds ctx store definition items row members (insertIf name value members) := by
  cases value with
  | none => exact adds_refl
  | some json =>
    refine ⟨fun member among => ?_, fun property _ => Members.get?_insert_of_ne ?_⟩
    · rcases Members.mem_insert among with rfl | before
      · exact .inr (.inl marked)
      · exact .inl before
    · rintro rfl
      rw [Json.isAnnotation_eq_false] at marked
      cases marked

/-- One expansion after the other. -/
theorem Adds.cons (first : Adds ctx store definition [item] row members shown)
    (others : Adds ctx store definition items row shown last) :
    Adds ctx store definition (item :: items) row members last := by
  obtain ⟨name, options⟩ := item
  refine ⟨fun member among => ?_, fun name absent => ?_⟩
  · rw [Json.PresentsRelated]
    rcases others.shows member among with before | marked | later
    · rcases first.shows member before with before | marked | here
      · exact .inl before
      · exact .inr (.inl marked)
      · rw [Json.PresentsRelated, Json.PresentsRelated, or_false] at here
        exact .inr (.inr (.inl here))
    · exact .inr (.inl marked)
    · exact .inr (.inr (.inr later))
  · exact (others.others name absent).trans (first.others name absent)

section Leading

variable {name : String} {options : QueryOptions} {navigation : NavigationProperty}
  {target : EntitySetDef} (leads : definition.LeadsTo ctx name navigation target)

include leads

theorem adds_insert {value : Json} (shows : Json.ShowsRelated (fun json => ∃ other,
      (definition.related target navigation row).Holds store other ∧
        Json.Presents ctx store target options other json) value) :
    Adds ctx store definition [(name, options)] row members (members.insert name value) := by
  refine ⟨fun member among => ?_, fun property absent => ?_⟩
  · rcases Members.mem_insert among with rfl | before
    · rw [Json.PresentsRelated]
      exact .inr (.inr (.inl ⟨rfl, navigation, target, leads, shows⟩))
    · exact .inl before
  · apply Members.get?_insert_of_ne
    rintro rfl
    rw [leads.declared] at absent
    cases absent

/-- A page of related entities is shown with its count and a link. -/
theorem adds_collection {page : Page} {shown : List Json} (link : Option String)
    (shows : ∀ json ∈ shown, ∃ other, (definition.related target navigation row).Holds store other ∧
      Json.Presents ctx store target options other json) :
    Adds ctx store definition [(name, options)] row members
      (collectionMembers name page shown link members) := by
  have annotated (text : List Char) :
      EntitySet.isAnnotation (name ++ String.ofList ('@' :: text)) = true := by
    simp [EntitySet.isAnnotation]
  have count : Adds ctx store definition [(name, options)] row members
      (insertIf (name ++ "@odata.count") (page.count.map fun n => Json.int n) members) :=
    adds_marked (annotated "odata.count".toList) _
  exact (count.trans (adds_marked (annotated "odata.nextLink".toList) (link.map Json.str))).trans
    (adds_insert leads (.inr (.inr ⟨shown, rfl, shows⟩)))

end Leading

/-- The members for the values of an entity show the row that it is made of. -/
theorem get?_valueMembers_of_mem {values : List (Identifier × Value)} {name : Identifier}
    (given : (name, row.value name) ∈ values) (only : ∀ entry ∈ values,
      ∃ property ∈ definition.entityType.properties,
        entry = (property.name, row.value property.name)) :
    (valueMembers values).get? name.text = some (row.value name).toJson := by
  apply Members.get?_ofList_of_mem
  · exact List.mem_map.mpr ⟨_, given, rfl⟩
  · intro other among
    obtain ⟨entry, member, same⟩ := List.mem_map.mp among
    obtain ⟨property, _, rfl⟩ := only entry member
    cases EntityType.Identifier.eq_of_text (Prod.mk.inj same).1
    exact (Prod.mk.inj same).2.symm

mutual

theorem ensures_toJson (intact : ctx.model.Intact) (declared : ∀ ty ∈ ctx.model.types, ty.Declared)
    (plain : request.Plain) (depth : Nat) {definition : EntitySetDef}
    (known : definition ∈ ctx.model.sets) : ∀ (options : QueryOptions) (row : Record)
    (entity : Entity), entity.MadeOf ctx store definition options row →
    Ensures store (Json.Presents ctx store definition options row)
      (entity.toJson ctx request depth options)
  | ⟨_, _, _, expand, _, _, _, _⟩, row, entity, is_made => by
    rw [MadeOf] at is_made
    obtain ⟨key, values, expanded⟩ := is_made
    rw [toJson]
    refine (ensures_expandedMembers intact declared plain (depth + 1) known row expand _ _
      expanded).map fun members adds => ?_
    rw [Json.Presents]
    refine ⟨members, rfl, fun name member => ?_, fun member among => ?_⟩
    · have typed := declared _ (intact.known _ known)
      rw [adds.others name (typed.navigation?_eq_none name (typed.key_subset name member))]
      exact get?_valueMembers_of_mem (key name member) values
    · rcases adds.shows member among with value | other
      · obtain ⟨entry, inside, rfl⟩ := List.mem_map.mp (Members.mem_ofList value)
        obtain ⟨property, declares, rfl⟩ := values entry inside
        exact .inl ⟨property, declares, rfl⟩
      · exact .inr other

theorem ensures_expandedMembers (intact : ctx.model.Intact)
    (declared : ∀ ty ∈ ctx.model.types, ty.Declared) (plain : request.Plain) (depth : Nat)
    {definition : EntitySetDef} (known : definition ∈ ctx.model.sets) (row : Record) :
    ∀ (items : List Expansion) (expansions : List (Identifier × Related Entity))
      (members : Members), ExpandedFrom ctx store definition items row expansions →
      Ensures store (Adds ctx store definition items row members)
        (expandedMembers ctx request depth items expansions members)
  | [], expansions, members, _ => by
    rw [expandedMembers]
    · exact ensures_pure adds_refl
    · simp
  | _ :: _, [], members, expanded => by
    rw [ExpandedFrom] at expanded
    · exact expanded.elim
    · simp
    · simp
  | (name, options) :: items, (property, related) :: rest, members, expanded => by
    rw [ExpandedFrom] at expanded
    obtain ⟨⟨navigation, target, leads, rfl, found⟩, expanded⟩ := expanded
    have others (members : Members) :=
      ensures_expandedMembers intact declared plain depth known row items rest members expanded
    cases related with
    | one entity =>
      cases entity with
      | none =>
        rw [expandedMembers]
        exact (others _).mono fun last adds => (adds_insert leads (.inl rfl)).cons adds
      | some entity =>
        obtain ⟨other, holds, is_made⟩ := found
        rw [expandedMembers]
        refine (ensures_toJson intact declared plain depth leads.known options other entity
          is_made).bind fun json presents => ?_
        rw [pure_bind]
        refine (others _).mono fun last adds => Adds.cons ?_ adds
        exact adds_insert leads (.inr (.inl ⟨other, holds, presents⟩))
    | many set =>
      cases found
      have reached := leads.reached known row
      rw [expandedMembers]
      simp only [pure_bind]
      refine (Pager.ensures_firstPage fun plan accepted other _ =>
        EntitySet.ensures_materialize intact declared plain depth reached.known options plan.select
          other (EntitySet.bindSelect_of_plan accepted)).bind fun page paged => ?_
      obtain ⟨plan, accepted, of_rows, _⟩ := paged
      refine (Ensures.mapM (fun entity json => ∃ other,
          (definition.related target navigation row).Holds store other ∧
            Json.Presents ctx store target options other json) fun entity member => ?_).bind
        fun shown presents => ?_
      · obtain ⟨other, selected, is_made⟩ := of_rows entity member
        exact (ensures_toJson intact declared plain depth leads.known options other entity
          is_made).mono fun json presents =>
            ⟨other, EntitySet.holds_of_plan intact reached accepted selected, presents⟩
      · refine Ensures.lift_bind fun link _ => (others _).mono fun last adds => Adds.cons ?_ adds
        refine adds_collection leads link fun json member => ?_
        obtain ⟨_, _, shows⟩ := presents json member
        exact shows

end

end Entity

end OData
