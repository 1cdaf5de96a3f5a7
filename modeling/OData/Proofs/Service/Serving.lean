import OData.Proofs.Service.Atomicity
import OData.Proofs.Service.Scope
import OData.Proofs.Serving

/-!
# Extraordinary errors at run time

A request fails with an extraordinary error for two reasons only.  One lies in the model, if it is
not intact or has navigation properties without constraints or without a set to which they lead.
The other lies in the options, if their expansions nest deeper than the limit.
-/

set_option autoImplicit false

namespace OData

open Result

variable {lax : Tolerance}

/-! ## Actions that serve -/

namespace Action

variable {α β : Type} {good : α → Prop} {fine : β → Prop}

/-- In every store the action yields what satisfies the condition, or fails with an error that is
allowed. -/
def Serves (lax : Tolerance) (good : α → Prop) (action : Action α) : Prop :=
  ∀ store, Result.Serves lax good (runOn action store).1

abbrev Harmless (lax : Tolerance) (action : Action α) : Prop :=
  Action.Serves lax (fun _ => True) action

theorem serves_pure {a : α} (holds : good a) : Action.Serves lax good (pure a) := fun _ => .ok holds

theorem serves_throw {e : Error} (allowed : lax.allows e = true) :
    Action.Serves lax good (throw e) := fun _ => .error allowed

theorem serves_lift {r : Result α} (serves : r.Serves lax good) :
    Action.Serves lax good (liftM r) := fun _ => serves

theorem Serves.bind {x : Action α} {f : α → Action β} (first : Action.Serves lax good x)
    (second : ∀ a, good a → Action.Serves lax fine (f a)) : Action.Serves lax fine (x >>= f) := by
  intro store
  have served := first store
  rw [runOn_bind]
  rcases run : runOn x store with ⟨e | a, after⟩
  · rw [run] at served
    exact .error (serves_error.mp served)
  · rw [run] at served
    exact second a (serves_ok.mp served) after

theorem Serves.allows_of_error {x : Action α} (serves : Action.Serves lax good x)
    {store after : Store} {e : Error} (failed : runOn x store = (.error e, after)) :
    lax.allows e = true := by
  have served := serves store
  rw [failed] at served
  exact serves_error.mp served

theorem Serves.map {x : Action α} (serves : Action.Serves lax good x) {f : α → β}
    (image : ∀ a, good a → fine (f a)) : Action.Serves lax fine (x >>= fun a => pure (f a)) :=
  serves.bind fun a holds => serves_pure (image a holds)

theorem Serves.mapM {f : α → Action β} {items : List α}
    (each : ∀ a ∈ items, Action.Serves lax fine (f a)) :
    Action.Serves lax (fun found => ∀ b ∈ found, fine b) (items.mapM f) := by
  induction items with
  | nil => exact serves_pure (by simp)
  | cons item rest ih =>
    rw [List.mapM_cons]
    refine (each item List.mem_cons_self).bind fun b holds => ?_
    refine (ih fun a member => each a (List.mem_cons_of_mem _ member)).map fun found others => ?_
    intro c member
    rcases List.mem_cons.mp member with rfl | later
    · exact holds
    · exact others c later

theorem harmless_write {set : EntitySetDef} {kind : Capability}
    {operation : Table → Result (α × Table)} (served : ∀ table, (operation table).Harmless lax) :
    Harmless lax (set.write kind operation) := by
  rw [EntitySetDef.write]
  split
  · exact serves_throw rfl
  · have table : Harmless lax set.table := fun store => by simp
    refine table.bind fun rows _ => ?_
    refine (serves_lift (served rows)).bind fun written _ => ?_
    exact fun store => by simp [runOn_map, Except.map]

end Action

open OData.Action

/-- Whether every navigation property of a set has constraints and leads to one set. -/
def Model.Navigable (model : Model) : Prop :=
  ∀ set ∈ model.sets, ∀ name navigation, set.entityType.navigation? name = some navigation →
    navigation.constraints ≠ [] ∧ ∃ target, model.bindingTarget set navigation = .ok target

/-- A model that is intact and can be navigated everywhere. -/
structure Model.Sound (model : Model) : Prop where
  intact : model.Intact
  navigable : model.Navigable

/-- Whether a model is sound, or errors of the configuration are allowed. -/
abbrev Tolerance.Trusts (lax : Tolerance) (model : Model) : Prop :=
  lax.configuration = true ∨ model.Sound

/-- Whether a depth of expansion is within the limits, or need not be. -/
abbrev Tolerance.Reaches (lax : Tolerance) (limits : QueryLimits) (depth : Nat) : Prop :=
  lax.depth = true ∨ depth ≤ limits.maxExpandDepth

theorem Tolerance.Reaches.of_mem_expand {limits : QueryLimits} {depth : Nat} {o : QueryOptions}
    (shallow : lax.Reaches limits (depth + o.expandDepth)) :
    ∀ item ∈ o.expand, lax.Reaches limits (depth + 1 + item.2.expandDepth) := by
  intro item member
  have deeper := QueryOptions.lt_depthOfList_of_mem member
  rw [← QueryOptions.expandDepth_eq] at deeper
  exact shallow.imp_right fun within => by omega

theorem Model.Intact.hasTargets {model : Model} (intact : model.Intact) :
    QueryPlan.HasTargets model := by
  intro ty known navigation declared
  obtain ⟨target, member, named, -⟩ := intact.joined ty known navigation declared
  exact ⟨target, member, named⟩

theorem Model.harmless_bindingTarget {model : Model} {set : EntitySetDef}
    {navigation : NavigationProperty} (tolerant : lax.configuration = true) :
    (model.bindingTarget set navigation).Harmless lax := by
  rw [bindingTarget]
  split
  · split <;> simp [tolerant]
  · split <;> simp [tolerant]

theorem Source.harmless_scope {source : Source} {target : EntityType}
    (tolerant : lax.configuration = true) : (source.scope target).Harmless lax := by
  have conditions (constraints : List ReferentialConstraint) :
      (source.conditions target constraints).Harmless lax := by
    induction constraints with
    | nil => exact .ok trivial
    | cons c rest ih =>
      rw [Source.conditions]
      split
      · simp [unknownProperty, tolerant]
      · simp only
        split
        · exact .ok trivial
        · exact ih.bind fun _ _ => .ok trivial
  refine (conditions source.navigation.constraints).bind fun found _ => ?_
  split <;> simp [tolerant]

namespace EntitySet

variable {ctx : Context} {set : EntitySet} {request : Request}

theorem harmless_require (c : Capability) : (set.require c).Harmless lax :=
  CapabilitySet.harmless_require _ c

variable (sound : lax.Trusts ctx.model)

include sound

theorem serves_navigate (known : set.definition ∈ ctx.model.sets) (record : Record)
    (name : String) : (set.navigate ctx record name).Serves lax fun target =>
      target.Reached ctx.model := by
  have harmless : (set.navigate ctx record name).Harmless lax := by
    rw [navigate]
    cases declared : set.entityType.navigation? name with
    | none => exact .error rfl
    | some navigation =>
      have bound : (ctx.model.bindingTarget set.definition navigation).Harmless lax := by
        rcases sound with tolerant | sound
        · exact Model.harmless_bindingTarget tolerant
        · obtain ⟨target, bound⟩ := (sound.navigable _ known name navigation declared).2
          rw [bound]
          exact .ok trivial
      exact bound.bind fun _ _ => .ok trivial
  exact harmless.with_eq.mono fun target led => reached_of_navigate known led

/-- A set that is reached has a scope. -/
theorem harmless_scope (reached : set.Reached ctx.model) {source : Source}
    (led : set.source = some source) : (source.scope set.entityType).Harmless lax := by
  rcases sound with tolerant | sound
  · exact Source.harmless_scope tolerant
  · obtain ⟨known, declared, bound⟩ := reached.led source led
    have constrained := (sound.navigable _ known _ _ declared).1
    have joined : ∀ c ∈ source.navigation.constraints,
        (set.entityType.property? c.referenced.text).isSome = true := fun c among =>
      ModelDeclaration.isSome_of_joins (sound.intact.joins known declared bound c among)
    rcases source.scope_eq joined with ⟨none, _⟩ | ⟨scope, made, _⟩
    · exact absurd (List.isEmpty_iff.mp none) constrained
    · rw [made]
      exact .ok trivial

theorem harmless_plan (reached : set.Reached ctx.model) (options : QueryOptions) :
    (set.plan ctx options).Harmless lax := by
  have joined : lax.configuration = true ∨
      QueryPlan.HasTargets ctx.model ∧ set.entityType ∈ ctx.model.types :=
    sound.imp_right fun sound => ⟨sound.intact.hasTargets, sound.intact.known _ reached.known⟩
  refine (QueryPlan.harmless_ofOptions joined options).bind fun plan _ => ?_
  cases led : set.source with
  | none => exact .ok trivial
  | some source => exact (harmless_scope sound reached led).bind fun _ _ => .ok trivial

omit sound

/-! ## Records -/

theorem harmless_read? (key : Key) : Action.Harmless lax (set.read? key) :=
  (serves_lift (harmless_require _)).bind fun _ _ => fun store => by simp

theorem harmless_readRecord (key : Key) : Action.Harmless lax (set.readRecord key) := by
  refine (harmless_read? key).bind fun found _ => ?_
  cases found with
  | none => exact serves_throw rfl
  | some record => exact serves_pure trivial

theorem harmless_count (plan : QueryPlan) : Action.Harmless lax (set.count plan) :=
  (serves_lift (harmless_require _)).bind fun _ _ => fun store => by simp

theorem harmless_streamNext (sorting : Sorting) (chunk : Nat) (s : Stream) :
    Action.Harmless lax (s.next sorting set chunk) := by
  have fetch (plan : QueryPlan) (offset limit : Nat) :
      Action.Harmless lax (set.definition.fetch sorting plan offset limit) := by
    intro store
    rw [EntitySetDef.runOn_fetch]
    split
    · exact .error rfl
    · split
      · exact .ok trivial
      · exact .error rfl
  have filled : Action.Harmless lax (s.fill sorting set chunk) := by
    rw [Stream.fill]
    split
    · rw [Stream.pull]
      split
      · exact serves_pure trivial
      · exact (fetch _ _ _).bind fun _ _ => serves_pure trivial
    · exact serves_pure trivial
  refine filled.bind fun t _ => ?_
  split <;> exact serves_pure trivial

theorem harmless_takeRecords (sorting : Sorting) (chunk count : Nat) : ∀ s : Stream,
    Action.Harmless lax (s.takeRecords sorting set chunk count) := by
  induction count with
  | zero => exact fun s => serves_pure trivial
  | succ count ih =>
    intro s
    refine (harmless_streamNext sorting chunk s).bind fun next _ => ?_
    obtain ⟨record, t⟩ := next
    cases record with
    | none => exact serves_pure trivial
    | some record => exact (ih t).bind fun _ _ => serves_pure trivial

theorem harmless_records (sorting : Sorting) (chunk : Nat) (s : Stream) :
    Action.Harmless lax (s.records sorting set chunk) := by
  have table : Action.Harmless lax set.definition.table := fun store => by simp
  exact table.bind fun _ _ => harmless_takeRecords sorting chunk _ s

theorem harmless_start (plan : QueryPlan) (offset : Nat) (limit : Option Nat) :
    (Stream.start set plan offset limit).Harmless lax :=
  (harmless_require _).bind fun _ _ => .ok trivial

theorem harmless_first (plan : QueryPlan) : Action.Harmless lax (set.first ctx plan) :=
  (serves_lift (harmless_start plan 0 (some 1))).bind fun s _ =>
    (harmless_streamNext _ _ s).bind fun _ _ => serves_pure trivial

include sound in
theorem harmless_readScoped (reached : set.Reached ctx.model) (key : Key) :
    Action.Harmless lax (set.readScoped key) := by
  refine (harmless_readRecord key).bind fun record _ => ?_
  cases led : set.source with
  | none => exact serves_pure trivial
  | some source =>
    refine (serves_lift (harmless_scope sound reached led)).bind fun scope _ => ?_
    split
    · exact serves_pure trivial
    · exact serves_throw rfl

theorem harmless_explicitTarget (inlineKey : Option String) :
    (set.explicitTarget ctx request inlineKey).Harmless lax := by
  have reference (text : String) : (set.parseReference ctx text).Harmless lax := by
    rw [parseReference]
    split
    · exact .error rfl
    · split
      · exact .error rfl
      · split
        · exact Key.harmless_parse _ _
        · exact .error rfl
  rw [explicitTarget.eq_def]
  split
  · exact (Key.harmless_parse _ _).bind fun _ _ => by simp
  · exact (reference _).bind fun _ _ => by simp
  · exact (reference _).bind fun _ _ => by simp
  · simp

end EntitySet

/-! ## Entities -/

/-- Whether the sets of all expansions of an entity are reached in a model. -/
inductive Entity.Known (model : Model) : Entity → Prop
  | intro {entity : Entity}
      (sets : ∀ name set, (name, Related.many set) ∈ entity.expansions → set.Reached model)
      (entities : ∀ name inner, (name, Related.one (some inner)) ∈ entity.expansions →
        Known model inner) : Known model entity

/-- The same of what one expansion leads to. -/
def Related.Known (model : Model) : Related Entity → Prop
  | .one none => True
  | .one (some entity) => entity.Known model
  | .many set => set.Reached model

theorem Entity.known_iff {model : Model} {entity : Entity} :
    entity.Known model ↔ ∀ entry ∈ entity.expansions, entry.2.Known model := by
  constructor
  · rintro ⟨sets, entities⟩ ⟨name, related⟩ member
    cases related with
    | many set => exact sets name set member
    | one inner =>
      cases inner with
      | none => exact trivial
      | some inner => exact entities name inner member
  · intro each
    exact ⟨fun name set member => each _ member, fun name inner member => each _ member⟩

namespace EntitySet

variable {ctx : Context} {set : EntitySet} {request : Request} {make : Maker}
  (sound : lax.Trusts ctx.model)
  (makes : ∀ select record, Action.Serves lax (Entity.Known ctx.model) (make select record))

include sound makes

theorem serves_firstEntity (reached : set.Reached ctx.model) (options : QueryOptions) :
    Action.Serves lax (fun found => (Related.one found).Known ctx.model)
      (set.firstEntity ctx options make) := by
  refine (serves_lift (harmless_plan sound reached options)).bind fun plan _ => ?_
  refine (harmless_first plan).bind fun found _ => ?_
  cases found with
  | none => exact serves_pure trivial
  | some record => exact (makes _ record).map fun entity known => known

theorem serves_resolveScoped (reached : set.Reached ctx.model) (options : QueryOptions) :
    Action.Serves lax (Related.Known ctx.model) (set.resolveScoped ctx options make) := by
  have one : Action.Serves lax (Related.Known ctx.model)
      (set.firstEntity ctx options make >>= fun found => pure (Related.one found)) :=
    (serves_firstEntity sound makes reached options).map fun found known => known
  rw [resolveScoped]
  cases set.source with
  | none => exact one
  | some source =>
    simp only
    split
    · exact serves_pure reached
    · exact one

theorem serves_resolve (reached : set.Reached ctx.model) (inlineKey : Option String)
    (options : QueryOptions) :
    Action.Serves lax (Related.Known ctx.model)
      (set.resolve ctx request inlineKey options make) := by
  refine (serves_lift (harmless_explicitTarget inlineKey)).bind fun named _ => ?_
  cases named with
  | none => exact serves_resolveScoped sound makes reached options
  | some target =>
    refine (harmless_read? target.1).bind fun found _ => ?_
    cases found with
    | none => exact serves_resolveScoped sound makes reached options
    | some record =>
      refine (serves_lift (harmless_plan sound reached options)).bind fun plan _ => ?_
      exact (makes _ record).map fun entity known => known

omit sound makes

theorem harmless_expandedName : (set.expandedName).Harmless lax := by
  rw [expandedName]
  split
  · split
    · exact .ok trivial
    · exact .error rfl
  · exact .error rfl

mutual

theorem serves_materialize (sound : lax.Trusts ctx.model) (depth : Nat) {set : EntitySet}
    (known : set.definition ∈ ctx.model.sets) : ∀ (options : QueryOptions)
    (_ : lax.Reaches ctx.config.limits (depth + options.expandDepth))
    (select : Option (List Identifier)) (record : Record),
    Action.Serves lax (Entity.Known ctx.model)
      (set.materialize ctx request depth options select record)
  | ⟨_, _, _, expand, _, _, _, _⟩, shallow, select, record => by
    rw [materialize]
    refine (serves_lift (Key.harmless_ofRecord _ record)).bind fun key _ => ?_
    have inside := shallow.of_mem_expand
    exact (serves_expandAll sound (depth + 1) known record expand inside).map fun found each =>
      Entity.known_iff.mpr each

theorem serves_expandAll (sound : lax.Trusts ctx.model) (depth : Nat) {set : EntitySet}
    (known : set.definition ∈ ctx.model.sets) (record : Record) : ∀ (items : List Expansion)
    (_ : ∀ item ∈ items, lax.Reaches ctx.config.limits (depth + item.2.expandDepth)),
    Action.Serves lax (fun found => ∀ entry ∈ found, entry.2.Known ctx.model)
      (set.expandAll ctx request depth record items)
  | [], _ => by
    rw [expandAll]
    exact serves_pure (by simp)
  | (name, options) :: rest, shallow => by
    rw [expandAll]
    have first : lax.Reaches ctx.config.limits (depth + options.expandDepth) :=
      shallow _ List.mem_cons_self
    have here := first.imp_right (Nat.le_trans (Nat.le_add_right depth _))
    have later := fun item member => shallow item (List.mem_cons_of_mem _ member)
    refine (serves_lift (QueryLimits.harmless_checkExpandDepth here)).bind fun _ _ => ?_
    refine (serves_lift (serves_navigate sound known record name)).bind fun target reached => ?_
    refine (serves_lift harmless_expandedName).bind fun property _ => ?_
    have makes (select : Option (List Identifier)) (record : Record) :=
      serves_materialize sound depth reached.known options first select record
    refine (serves_resolve sound makes reached none options).bind fun related found => ?_
    refine (serves_expandAll sound depth known record rest later).map fun others each => ?_
    intro entry member
    rcases List.mem_cons.mp member with rfl | other
    · exact found
    · exact each entry other

end

end EntitySet

/-! ## Pages -/

namespace Pager

variable {ctx : Context} {set : EntitySet}

theorem harmless_open? (sound : lax.Trusts ctx.model) (reached : set.Reached ctx.model)
    (options : QueryOptions) : (open? ctx set options).Harmless lax := by
  refine (EntitySet.harmless_plan sound reached options).bind fun plan _ => ?_
  have start : (startOf ctx.libraries.tokenFault plan.fingerprint options).Harmless lax := by
    rw [startOf]
    split
    · simp
    · refine (SkipToken.harmless_decode _ _).bind fun token _ => ?_
      split
      · simp
      · exact .error rfl
  exact start.bind fun _ _ => by simp

theorem harmless_fetchSize (take : Nat) : (fetchSize take).Harmless lax := by
  rw [fetchSize]
  split <;> simp

theorem harmless_fetchRecords (plan : QueryPlan) (offset take : Nat) :
    Action.Harmless lax (fetchRecords ctx set plan offset take) := by
  rw [fetchRecords]
  split
  · exact serves_pure trivial
  · exact (serves_lift (harmless_fetchSize take)).bind fun size _ =>
      (serves_lift (EntitySet.harmless_start plan offset _)).bind fun s _ =>
        EntitySet.harmless_records _ _ s

theorem harmless_countFor (options : QueryOptions) (plan : QueryPlan) :
    Action.Harmless lax (countFor set options plan) := by
  rw [countFor]
  split
  · exact (EntitySet.harmless_count plan).bind fun _ _ => serves_pure trivial
  · exact serves_pure trivial

theorem harmless_nextRecords (options : QueryOptions) (pager : Pager) :
    Action.Harmless lax (pager.nextRecords ctx set options) := by
  rw [nextRecords]
  split
  · exact serves_pure trivial
  · exact (harmless_countFor options _).bind fun _ _ =>
      (harmless_fetchRecords _ _ _).bind fun _ _ => serves_pure trivial
  · exact (harmless_fetchRecords _ _ _).bind fun _ _ => serves_pure trivial

theorem serves_firstPage (sound : lax.Trusts ctx.model) (reached : set.Reached ctx.model)
    {make : EntitySet.Maker}
    (makes : ∀ select record, Action.Serves lax (Entity.Known ctx.model) (make select record))
    (options : QueryOptions) :
    Action.Serves lax (fun page => ∀ entity ∈ page.entities, entity.Known ctx.model)
      (firstPage ctx set options make) := by
  refine (serves_lift (harmless_open? sound reached options)).bind fun pager _ => ?_
  have next : Action.Serves lax
      (fun found => ∀ page, found.1 = some page → ∀ entity ∈ page.entities, entity.Known ctx.model)
      (pager.next ctx set options make) := by
    refine (harmless_nextRecords options pager).bind fun found _ => ?_
    cases found with
    | none => exact serves_pure fun page same => by cases same
    | some found =>
      refine (Action.Serves.mapM fun record _ => makes _ record).map fun entities known => ?_
      rintro page ⟨⟩
      exact known
  refine next.map fun found known => ?_
  obtain ⟨page, _⟩ := found
  cases page with
  | none => exact fun entity member => by cases member
  | some page => exact known page rfl

end Pager

/-! ## Rendering -/

namespace Entity

variable {ctx : Context} {request : Request}

theorem harmless_pageLink (set : EntitySet) (options : QueryOptions) (page : Page) :
    (pageLink ctx set options page).Harmless lax := by
  rw [pageLink]
  split
  · rw [EntitySet.nextLink]
    split
    · exact .ok trivial
    · exact (Key.harmless_ofRecord _ _).bind fun _ _ => .ok trivial
  · exact .ok trivial

mutual

theorem harmless_toJson (sound : lax.Trusts ctx.model) (depth : Nat) : ∀ (options : QueryOptions)
    (_ : lax.Reaches ctx.config.limits (depth + options.expandDepth))
    (entity : Entity), entity.Known ctx.model →
    Action.Harmless lax (entity.toJson ctx request depth options)
  | ⟨_, _, _, expand, _, _, _, _⟩, shallow, entity, known => by
    rw [toJson]
    have inside := shallow.of_mem_expand
    exact (harmless_expandedMembers sound (depth + 1) expand inside _ _ (known_iff.mp known)).bind
      fun _ _ => serves_pure trivial

theorem harmless_expandedMembers (sound : lax.Trusts ctx.model) (depth : Nat) :
    ∀ (items : List Expansion)
      (_ : ∀ item ∈ items, lax.Reaches ctx.config.limits (depth + item.2.expandDepth))
      (expansions : List (Identifier × Related Entity))
      (members : Json.Members), (∀ entry ∈ expansions, entry.2.Known ctx.model) →
      Action.Harmless lax (expandedMembers ctx request depth items expansions members)
  | [], _, expansions, members, _ => by
    rw [expandedMembers]
    · exact serves_pure trivial
    · simp
  | _ :: _, _, [], members, _ => by
    rw [expandedMembers]
    · exact serves_pure trivial
    · simp
  | (item, options) :: items, shallow, (name, related) :: rest, members, known => by
    have first : lax.Reaches ctx.config.limits (depth + options.expandDepth) :=
      shallow _ List.mem_cons_self
    have others (members : Json.Members) := harmless_expandedMembers sound depth items
      (fun item member => shallow item (List.mem_cons_of_mem _ member)) rest members
      fun entry member => known entry (List.mem_cons_of_mem _ member)
    have here := known (name, related) List.mem_cons_self
    cases related with
    | one entity =>
      cases entity with
      | none =>
        rw [expandedMembers]
        exact others _
      | some entity =>
        rw [expandedMembers]
        refine (harmless_toJson sound depth options first entity here).bind fun json _ => ?_
        exact others _
    | many set =>
      have reached : set.Reached ctx.model := here
      have makes (select : Option (List Identifier)) (record : Record) :
          Action.Serves lax (Entity.Known ctx.model)
            (set.materialize ctx request depth options select record) :=
        EntitySet.serves_materialize sound depth reached.known options first select record
      rw [expandedMembers]
      refine (Pager.serves_firstPage sound reached makes options).bind fun page known => ?_
      have shown : Action.Serves lax (fun found => ∀ json ∈ found, True)
          (page.entities.mapM fun entity => toJson ctx request depth options entity) :=
        Action.Serves.mapM fun entity member =>
          harmless_toJson sound depth options first entity (known entity member)
      refine shown.bind fun json _ => ?_
      exact (serves_lift (harmless_pageLink set options page)).bind fun link _ => others _

end

end Entity

/-! ## Writing -/

namespace EntitySet

variable {ctx : Context} {set : EntitySet} {request : Request} {make : Maker}

theorem harmless_readBodyMembers (ty : EntityType) (members : Json.Members) :
    ∀ record, (readBodyMembers ty record members).Harmless lax := by
  induction members with
  | nil => exact fun record => .ok trivial
  | cons entry rest ih =>
    obtain ⟨name, json⟩ := entry
    intro record
    have property : (bodyProperty ty name).Harmless lax := by
      rw [bodyProperty]
      split
      · exact .error rfl
      · split
        · exact .ok trivial
        · exact .error rfl
    have read (property : Property) : (bodyValue property json).Harmless lax := by
      refine (Value.harmless_ofJson _ json).bind fun v _ => ?_
      split
      · exact .error rfl
      · exact .ok trivial
    rw [readBodyMembers]
    split
    · exact ih record
    · exact property.bind fun property _ => (read property).bind fun v _ => ih _

theorem harmless_readBody (ty : EntityType) (body : Option Json) :
    (readBody ty body).Harmless lax := by
  rw [readBody]
  split
  · exact harmless_readBodyMembers ty _ []
  · exact .error rfl

theorem harmless_withoutKey (values : List (Identifier × Value)) :
    ∀ changes, (withoutKey values changes).Harmless lax := by
  induction values with
  | nil => exact fun changes => .ok trivial
  | cons entry rest ih =>
    obtain ⟨name, v⟩ := entry
    intro changes
    rw [withoutKey]
    split
    · exact ih changes
    · split
      · exact ih _
      · exact .error rfl

theorem harmless_createRecord (drawn : Guid) (body : Option Json) :
    Action.Harmless lax (set.createRecord drawn body) := by
  have complete (record : Record) : (checkComplete set.entityType record).Harmless lax := by
    rw [checkComplete]
    split
    · exact .error rfl
    · exact .ok trivial
  refine (serves_lift (harmless_require _)).bind fun _ _ => ?_
  refine (serves_lift (harmless_readBody _ body)).bind fun record _ => ?_
  exact (serves_lift (complete _)).bind fun _ _ =>
    harmless_write fun table => Table.harmless_create _ _ _ _ table

variable (sound : lax.Trusts ctx.model) (reached : set.Reached ctx.model)

include sound reached

theorem harmless_updateRecord (key : Key) (body : Option Json) :
    Action.Harmless lax (set.updateRecord body key) := by
  refine (serves_lift (harmless_require _)).bind fun _ _ => ?_
  refine (serves_lift (harmless_readBody _ body)).bind fun changes _ => ?_
  refine (harmless_readScoped sound reached key).bind fun _ _ => ?_
  exact (serves_lift (harmless_withoutKey _ changes)).bind fun changes _ =>
    harmless_write fun table => Table.harmless_update _ key changes table

theorem harmless_delete (key : Key) : Action.Harmless lax (set.delete key) := by
  refine (serves_lift (harmless_require _)).bind fun _ _ => ?_
  refine (harmless_readScoped sound reached key).bind fun _ _ => ?_
  exact (harmless_write fun table => Table.harmless_delete _ key table).map fun _ _ => trivial

end EntitySet

/-! ## Linking -/

namespace EntitySet

variable {ctx : Context} {set : EntitySet} {request : Request}
  (sound : lax.Trusts ctx.model) (reached : set.Reached ctx.model)

include sound reached

theorem serves_open? (key : Key) (name : String) :
    Action.Serves lax (fun r => r.target.Reached ctx.model)
      (Relationship.open? ctx set key name) := by
  refine (harmless_readScoped sound reached key).bind fun record _ => ?_
  refine (serves_lift (serves_navigate sound reached.known record name)).bind fun target led => ?_
  cases target.source with
  | none => exact serves_throw rfl
  | some source => exact serves_pure led

omit sound reached

theorem harmless_assign (r : Relationship) (record : Record) (clear : Bool) :
    Action.Harmless lax (r.assign record clear) := by
  have keeper : (r.keeper record).Harmless lax := by
    rw [Relationship.keeper]
    split
    · exact .ok trivial
    · exact (Key.harmless_ofRecord _ record).bind fun _ _ => .ok trivial
  refine (serves_lift keeper).bind fun found _ => ?_
  refine (serves_lift (CapabilitySet.harmless_require _ _)).bind fun _ _ => ?_
  exact (harmless_write fun table => Table.harmless_update _ _ _ table).map fun _ _ => trivial

include sound reached

theorem harmless_link (key : Key) (navigation : String) (inlineKey : Option String) :
    Action.Harmless lax (set.link ctx request key navigation inlineKey) := by
  refine (serves_open? sound reached key navigation).bind fun r _ => ?_
  refine (serves_lift (harmless_explicitTarget inlineKey)).bind fun named _ => ?_
  cases named with
  | none => exact serves_throw rfl
  | some target =>
    exact (harmless_readRecord target.1).bind fun record _ => harmless_assign r record false

theorem harmless_unlink (options : QueryOptions) (key : Key) (navigation : String)
    (inlineKey : Option String) :
    Action.Harmless lax (set.unlink ctx request options key navigation inlineKey) := by
  refine (serves_open? sound reached key navigation).bind fun r led => ?_
  have found : Action.Harmless lax (unlinkTarget ctx request options r inlineKey) := by
    refine (serves_lift (harmless_explicitTarget inlineKey)).bind fun named _ => ?_
    cases named with
    | some target => exact (harmless_readRecord target.1).map fun _ _ => trivial
    | none =>
      simp only
      split
      · exact serves_throw rfl
      · exact (serves_lift (harmless_plan sound led options)).bind fun plan _ => harmless_first plan
  refine found.bind fun record _ => ?_
  cases record with
  | none =>
    simp only
    split
    · exact serves_pure trivial
    · exact serves_throw rfl
  | some record =>
    simp only
    split
    · exact serves_pure trivial
    · exact serves_throw rfl
    · exact serves_throw rfl
    · exact harmless_assign r record true

end EntitySet

/-! ## Requests -/

namespace Service

variable {ctx : Context} {t : Transaction} (sound : lax.Trusts ctx.model)
  (shallow : lax.Reaches ctx.config.limits (t.depth + t.options.expandDepth))

include sound

theorem harmless_keyOf {set : EntitySet} (reached : set.Reached ctx.model) (text : Option String) :
    Action.Harmless lax (keyOf ctx t set text) := by
  cases text with
  | some text => exact serves_lift (Key.harmless_parse _ text)
  | none =>
    rw [keyOf]
    split
    · refine (serves_lift (EntitySet.harmless_plan sound reached _)).bind fun plan _ => ?_
      refine (EntitySet.harmless_first plan).bind fun found _ => ?_
      cases found with
      | none => exact serves_throw rfl
      | some record => exact serves_lift (Key.harmless_ofRecord _ record)
    · exact serves_throw rfl

theorem serves_step {place : Place} (reached : Place.Reached ctx.model place) (segment : Segment) :
    Action.Serves lax (Place.Reached ctx.model) (step ctx t place segment) := by
  refine (harmless_keyOf sound reached.set place.key).bind fun key _ => ?_
  refine (EntitySet.harmless_readScoped sound reached.set key).bind fun record _ => ?_
  refine (serves_lift (EntitySet.serves_navigate sound reached.set.known record _)).map
    fun target led => ⟨led, ?_⟩
  rintro parent ⟨⟩
  exact reached.set

theorem serves_walkFrom (segments : List Segment) : ∀ place, Place.Reached ctx.model place →
    Action.Serves lax (Place.Reached ctx.model) (walkFrom ctx t place segments) := by
  induction segments with
  | nil => exact fun place reached => serves_pure reached
  | cons segment rest ih =>
    exact fun place reached => (serves_step sound reached segment).bind ih

theorem serves_walk (segments : List Segment) :
    Action.Serves lax (Place.Reached ctx.model) (walk ctx t segments) := by
  cases segments with
  | nil => exact serves_throw rfl
  | cons segment rest =>
    have root : (rootSet ctx segment.name).Serves lax fun set => set.Reached ctx.model := by
      rw [rootSet]
      split
      next definition found => exact .ok (EntitySet.reached_root (List.mem_of_find?_eq_some found))
      next => exact .error rfl
    refine (serves_lift root).bind fun set reached => ?_
    exact serves_walkFrom sound rest _ ⟨reached, fun parent led => by cases led⟩

include shallow

theorem harmless_entityResponse (status : Nat) {entity : Entity} (known : entity.Known ctx.model) :
    Action.Harmless lax (entityResponse ctx t status entity) := by
  have json : Action.Harmless lax (entityJson ctx t entity) := by
    refine (Entity.harmless_toJson sound t.depth t.options shallow entity known).bind
      fun json _ => ?_
    cases json <;> exact serves_pure trivial
  exact json.bind fun _ _ => serves_pure trivial

theorem serves_maker {set : EntitySet} (reached : set.Reached ctx.model)
    (select : Option (List Identifier)) (record : Record) :
    Action.Serves lax (Entity.Known ctx.model) (maker ctx t set select record) :=
  EntitySet.serves_materialize sound t.depth reached.known t.options shallow select record

theorem harmless_pageResponse {set : EntitySet} (reached : set.Reached ctx.model)
    (path : ResourcePath) (fragment : String) {render : Entity → Action Json}
    (renders : ∀ entity, entity.Known ctx.model → Action.Harmless lax (render entity)) :
    Action.Harmless lax (pageResponse ctx t path set fragment render) := by
  refine (Pager.serves_firstPage sound reached (serves_maker sound shallow reached) t.options).bind
    fun page known => ?_
  have shown : Action.Serves lax (fun found => ∀ json ∈ found, True) (page.entities.mapM render) :=
    Action.Serves.mapM fun entity member => renders entity (known entity member)
  exact shown.bind fun _ _ => serves_pure trivial

theorem harmless_entityPage {set : EntitySet} (reached : set.Reached ctx.model)
    (path : ResourcePath) : Action.Harmless lax (entityPage ctx t path set) :=
  harmless_pageResponse sound shallow reached path _ fun entity known =>
    Entity.harmless_toJson sound t.depth t.options shallow entity known

theorem serves_readEntity {set : EntitySet} (reached : set.Reached ctx.model) (key : Key) :
    Action.Serves lax (Entity.Known ctx.model) (readEntity ctx t set key) :=
  (EntitySet.harmless_readScoped sound reached key).bind fun record _ =>
    (serves_lift (EntitySet.harmless_plan sound reached t.options)).bind fun plan _ =>
      serves_maker sound shallow reached plan.select record

theorem harmless_getRequest {place : Place} (reached : place.set.Reached ctx.model)
    (path : ResourcePath) : Action.Harmless lax (getRequest ctx t path place) := by
  rw [getRequest]
  cases place.key with
  | some text =>
    refine (serves_lift (Key.harmless_parse _ text)).bind fun key _ => ?_
    exact (serves_readEntity sound shallow reached key).bind fun entity known =>
      harmless_entityResponse sound shallow 200 known
  | none =>
    cases led : place.set.source with
    | none => exact harmless_entityPage sound shallow reached path
    | some source =>
      -- A collection is found again as the set itself, which is reached.
      have found : Action.Serves lax (Related.Known ctx.model)
          (place.set.resolve ctx t.request none t.options (maker ctx t place.set)) :=
        EntitySet.serves_resolve sound (serves_maker sound shallow reached) reached none t.options
      refine found.bind fun related known => ?_
      cases related with
      | many target => exact harmless_entityPage sound shallow known path
      | one entity =>
        cases entity with
        | none => exact serves_pure trivial
        | some entity => exact harmless_entityResponse sound shallow 200 known

theorem harmless_answer {place : Place} (reached : place.set.Reached ctx.model)
    (record : Record) : Action.Harmless lax (answer ctx t place record) :=
  (serves_maker sound shallow reached none record).bind fun _ known =>
    harmless_entityResponse sound shallow _ known

omit shallow in
theorem harmless_storeAt {place : Place} (reached : place.set.Reached ctx.model) :
    Action.Harmless lax (storeAt ctx t place) := by
  rw [storeAt]
  split
  · split
    · exact serves_throw rfl
    · exact EntitySet.harmless_createRecord _ _
  · exact (harmless_keyOf sound reached _).bind fun key _ =>
      EntitySet.harmless_updateRecord sound reached key _
  · exact (harmless_keyOf sound reached _).bind fun key _ =>
      EntitySet.harmless_updateRecord sound reached key _
  · exact serves_throw rfl

theorem harmless_entityRequest {place : Place} (reached : place.set.Reached ctx.model)
    (path : ResourcePath) : Action.Harmless lax (entityRequest ctx t path place) := by
  by_cases writes : stores t.request.method = true
  · rw [entityRequest_of_stores ctx t path place writes]
    exact (harmless_storeAt sound reached).bind fun record _ =>
      harmless_answer sound shallow reached record
  · rw [entityRequest]
    cases method : t.request.method with
    | post => exact absurd (by rw [method]; rfl) writes
    | put => exact absurd (by rw [method]; rfl) writes
    | patch => exact absurd (by rw [method]; rfl) writes
    | get => exact harmless_getRequest sound shallow reached path
    | delete =>
      refine (harmless_keyOf sound reached _).bind fun key _ => ?_
      exact (EntitySet.harmless_delete sound reached key).bind fun _ _ => serves_pure trivial
    | other name => exact serves_throw rfl

omit sound shallow in
theorem harmless_requireGet : (requireGet t).Harmless lax := by
  rw [requireGet]
  split
  · exact .ok trivial
  · exact .error rfl

omit shallow in
theorem harmless_countRequest {place : Place} (reached : place.set.Reached ctx.model) :
    Action.Harmless lax (countRequest ctx t place) := by
  refine (serves_lift harmless_requireGet).bind fun _ _ => ?_
  split
  · exact serves_throw rfl
  · refine (serves_lift (EntitySet.harmless_plan sound reached _)).bind fun plan _ => ?_
    exact (EntitySet.harmless_count plan).bind fun _ _ => serves_pure trivial

theorem harmless_referenceRequest {place : Place} (reached : Place.Reached ctx.model place)
    (path : ResourcePath) : Action.Harmless lax (referenceRequest ctx t path place) := by
  rw [referenceRequest]
  split
  next =>
    rw [getReference]
    split
    · refine (harmless_keyOf sound reached.set _).bind fun key _ => ?_
      exact (serves_readEntity sound shallow reached.set key).bind fun _ _ => serves_pure trivial
    · exact harmless_pageResponse sound shallow reached.set path _ fun _ _ => serves_pure trivial
  next => exact serves_throw rfl
  next parent _ led =>
    exact (EntitySet.harmless_link sound (reached.parent parent led) _ _ _).bind fun _ _ =>
      serves_pure trivial
  next parent _ led =>
    exact (EntitySet.harmless_link sound (reached.parent parent led) _ _ _).bind fun _ _ =>
      serves_pure trivial
  next parent _ led =>
    exact (EntitySet.harmless_unlink sound (reached.parent parent led) _ _ _ _).bind fun _ _ =>
      serves_pure trivial
  next => exact serves_throw rfl

theorem harmless_execute : Action.Harmless lax (execute ctx t) := by
  refine (serves_lift (ResourcePath.harmless_parse _)).bind fun path _ => ?_
  cases path with
  | service =>
    exact (serves_lift harmless_requireGet).bind fun _ _ => serves_pure trivial
  | metadata =>
    refine (serves_lift harmless_requireGet).bind fun _ _ => serves_lift ?_
    rw [metadata]
    split
    · exact .ok trivial
    · exact .error rfl
    · exact .ok trivial
  | resource segments suffix =>
    refine (serves_walk sound segments).bind fun place reached => ?_
    cases suffix with
    | none => exact harmless_entityRequest sound shallow reached.set _
    | some suffix =>
      cases suffix with
      | count => exact harmless_countRequest sound reached.set
      | ref => exact harmless_referenceRequest sound shallow reached _

end Service

end OData
