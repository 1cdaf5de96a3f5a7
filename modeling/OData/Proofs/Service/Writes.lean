import OData.Proofs.Service.Keys

/-!
# What requests write

A request writes at most once: it creates, updates or deletes an entity, or assigns or clears a
foreign key, and that in a set of the model, by whatever path it reaches it.  So the tables before a
request and those after it, whether it succeeds or not, are in any relation in which each of these
writes leaves them.
-/

set_option autoImplicit false

namespace OData

/-! ## Actions and the stores around them -/

namespace Action

variable {α β : Type} {R : Store → Store → Prop}

/-- Whether the store after an action is related to the one before, whatever the outcome. -/
def Relates (R : Store → Store → Prop) (action : Action α) : Prop :=
  ∀ store, R store (runOn action store).2

/-- The relation of two stores of which the later one keeps a property. -/
def Keeps (P : Store → Prop) (store after : Store) : Prop := P store → P after

/-- A relation of the tables of two stores, in which they are if the tables stay. -/
structure OfTables (R : Store → Store → Prop) : Prop where
  stays : ∀ {store after : Store}, after.tables = store.tables → R store after
  congr : ∀ {store middle after last : Store}, middle.tables = store.tables → R middle after →
    last.tables = after.tables → R store last

theorem ofTables_keeps {P : Store → Prop}
    (tables : ∀ store after : Store, after.tables = store.tables → P store → P after) :
    OfTables (Keeps P) where
  stays same := tables _ _ same
  congr before keeps later holds := tables _ _ later (keeps (tables _ _ before holds))

section

variable (tables : OfTables R)

include tables

theorem relates_of_reads {x : Action α} (reads : Reads x) : Relates R x :=
  fun store => tables.stays (reads store)

theorem relates_throw (e : Error) : Relates R (throw e : Action α) :=
  fun _ => tables.stays rfl

theorem relates_pure (a : α) : Relates R (pure a : Action α) :=
  fun _ => tables.stays rfl

/-- What only reads may come before, and what comes then may rely on what was read. -/
theorem relates_reads_bind {x : Action α} {f : α → Action β} (reads : Reads x)
    (second : ∀ a store after, runOn x store = (.ok a, after) → Relates R (f a)) :
    Relates R (x >>= f) := by
  intro store
  have kept := reads store
  rw [runOn_bind]
  rcases run : runOn x store with ⟨_ | a, after⟩
  · rw [run] at kept
    exact tables.stays kept
  · rw [run] at kept
    exact tables.congr kept (second a store after run after) rfl

/-- What only reads may come after. -/
theorem relates_bind_reads {x : Action α} {f : α → Action β} (first : Relates R x)
    (second : ∀ a, Reads (f a)) : Relates R (x >>= f) := by
  intro store
  have related := first store
  rw [runOn_bind]
  rcases run : runOn x store with ⟨_ | a, after⟩
  · rw [run] at related
    exact related
  · rw [run] at related
    exact tables.congr rfl related (second a after)

theorem relates_lift_bind {r : Result α} {f : α → Action β}
    (second : ∀ a, r = .ok a → Relates R (f a)) : Relates R (liftM r >>= f) := by
  cases r with
  | error e => exact relates_throw tables e
  | ok a => exact second a rfl

/-- A write leaves the tables as its operation makes them, or as they were. -/
theorem relates_write {set : EntitySetDef} {kind : Capability}
    {operation : Table → Result (α × Table)}
    (writes : ∀ store answer table, operation (store.rows set.name.text) = .ok (answer, table) →
      R store (store.put set.name.text table)) :
    Relates R (set.write kind operation) := by
  intro store
  rcases run : runOn (set.write kind operation) store with ⟨e | answer, after⟩
  · exact tables.stays (EntitySetDef.atomic_write set kind operation store e after run)
  · obtain ⟨table, done, rfl⟩ := EntitySetDef.runOn_write_ok set run
    exact writes store answer table done

end

end Action

open OData.Action

/-! ## Writes -/

theorem CapabilitySet.contains_of_require {granted : CapabilitySet} {c : Capability}
    (required : granted.require c = .ok ()) : granted.contains c = true := by
  rw [require] at required
  split at required
  next able => exact able
  next => cases required

section Writes

variable {R : Store → Store → Prop} (tables : OfTables R)

include tables

namespace EntitySet

variable {set : EntitySet}

theorem relates_createRecord (drawn : Guid) (body : Option Json)
    (creates : set.definition.capabilities.contains .create = true → ∀ record,
      Relates R (set.definition.create drawn record)) :
    Relates R (set.createRecord drawn body) := by
  refine relates_lift_bind tables fun _ required => ?_
  refine relates_lift_bind tables fun given _ => relates_lift_bind tables fun _ _ => ?_
  exact creates (CapabilitySet.contains_of_require required) _

/-- An update writes what its body has, without the values of the key. -/
theorem relates_updateRecord {body : Option Json} {key : Key}
    (updates : set.definition.capabilities.contains .update = true → ∀ given changes,
      readBody set.entityType body = .ok given → withoutKey key.values given = .ok changes →
      Relates R (set.definition.update key changes)) :
    Relates R (set.updateRecord body key) := by
  refine relates_lift_bind tables fun _ required => relates_lift_bind tables fun given read => ?_
  refine relates_reads_bind tables (reads_readScoped set key) fun _ _ _ _ => ?_
  refine relates_lift_bind tables fun changes checked => ?_
  exact updates (CapabilitySet.contains_of_require required) given changes read checked

theorem relates_delete {key : Key}
    (deletes : set.definition.capabilities.contains .delete = true →
      Relates R (set.definition.delete key)) : Relates R (set.delete key) := by
  refine relates_lift_bind tables fun _ required => ?_
  refine relates_reads_bind tables (reads_readScoped set key) fun _ _ _ _ => ?_
  exact relates_bind_reads tables (deletes (CapabilitySet.contains_of_require required)) fun _ =>
    reads_pure _

end EntitySet

/-- An assignment is a write to the set that keeps the foreign key. -/
theorem Relationship.relates_assign {r : Relationship} {record : Record} {clear : Bool}
    (assigns : r.keeperSet.capabilities.contains .link = true → ∀ key,
      Relates R (r.keeperSet.assign key (r.foreignKey record clear))) :
    Relates R (r.assign record clear) := by
  refine relates_lift_bind tables fun ⟨keeper, key⟩ kept => ?_
  cases keeper_eq_ok kept
  refine relates_lift_bind tables fun ⟨⟩ required => ?_
  exact relates_bind_reads tables (assigns (CapabilitySet.contains_of_require required) key)
    fun _ => reads_pure _

end Writes

/-! ## Requests -/

namespace Service

/-- Whether a request may be a link: it puts or posts a reference. -/
def LinksEntities (ctx : Context) (t : Transaction) : Prop :=
  ∃ segments, ResourcePath.parse (ctx.config.endpoint.resourcePath t.request.path) =
    .ok (.resource segments (some .ref)) ∧ isLink t (some .ref)

/-- The store after some requests, whatever their outcomes. -/
def afterAll (ctx : Context) : List Transaction → Store → Store
  | [], store => store
  | t :: rest, store => afterAll ctx rest ((execute ctx t).runOn store).2

theorem afterAll_append (ctx : Context) (earlier later : List Transaction) :
    ∀ store, afterAll ctx (earlier ++ later) store =
      afterAll ctx later (afterAll ctx earlier store) := by
  induction earlier with
  | nil => exact fun _ => rfl
  | cons t rest ih => exact fun store => ih _

end Service

/-- A relation of tables in which each write of one request leaves them. -/
structure Service.RelatesWrites (ctx : Context) (t : Transaction) (R : Store → Store → Prop) :
    Prop where
  tables : OfTables R
  creates : t.request.method = .post → ¬ LinksEntities ctx t → ∀ set : EntitySet,
    set.definition ∈ ctx.model.sets → Relates R (set.createRecord t.drawn t.request.body)
  updates : ∀ (set : EntitySet) (key : Key), set.definition ∈ ctx.model.sets →
    Relates R (set.updateRecord t.request.body key)
  deletes : ∀ (set : EntitySet) (key : Key), set.definition ∈ ctx.model.sets →
    Relates R (set.delete key)
  links : LinksEntities ctx t → ∀ (r : Relationship) (record : Record),
    r.keeperSet ∈ ctx.model.sets → Relates R (r.assign record false)
  unlinks : ∀ (r : Relationship) (record : Record), r.keeperSet ∈ ctx.model.sets →
    r.isOptional = true → Relates R (r.assign record true)

namespace Service.RelatesWrites

variable {ctx : Context} {t : Transaction} {R : Store → Store → Prop}

theorem relates_link (writes : RelatesWrites ctx t R) (linking : LinksEntities ctx t)
    {set : EntitySet} (member : set.definition ∈ ctx.model.sets) (key : Key) (navigation : String)
    (inlineKey : Option String) :
    Relates R (set.link ctx t.request key navigation inlineKey) := by
  refine relates_reads_bind writes.tables (Relationship.reads_open? ctx set key navigation)
    fun r _ _ opened => ?_
  have keeper := EntitySet.keeperSet_mem_of_open? member opened
  refine relates_lift_bind writes.tables fun named _ => ?_
  cases named with
  | none => exact relates_throw writes.tables _
  | some target =>
    exact relates_reads_bind writes.tables (EntitySet.reads_readRecord _ _) fun record _ _ _ =>
      writes.links linking r record keeper

/-- Only a foreign key that may be cleared is. -/
theorem relates_unlink (writes : RelatesWrites ctx t R) {set : EntitySet}
    (member : set.definition ∈ ctx.model.sets) (options : QueryOptions) (key : Key)
    (navigation : String) (inlineKey : Option String) :
    Relates R (set.unlink ctx t.request options key navigation inlineKey) := by
  refine relates_reads_bind writes.tables (Relationship.reads_open? ctx set key navigation)
    fun r _ _ opened => ?_
  have keeper := EntitySet.keeperSet_mem_of_open? member opened
  refine relates_reads_bind writes.tables
    (EntitySet.reads_unlinkTarget ctx t.request inlineKey options r) fun found _ _ _ => ?_
  cases found with
  | none =>
    simp only
    split
    · exact relates_pure writes.tables ()
    · exact relates_throw writes.tables _
  | some record =>
    simp only
    split
    · exact relates_pure writes.tables ()
    · exact relates_throw writes.tables _
    · exact relates_throw writes.tables _
    next optional => exact writes.unlinks r record keeper optional

theorem relates_storeAt (writes : RelatesWrites ctx t R) (other : ¬ LinksEntities ctx t)
    {place : Place} (member : place.set.definition ∈ ctx.model.sets) :
    Relates R (storeAt ctx t place) := by
  have keyed (key : Option String) := reads_keyOf ctx t place.set key
  rw [storeAt]
  split
  next post =>
    split
    · exact relates_throw writes.tables _
    · exact writes.creates post other place.set member
  · exact relates_reads_bind writes.tables (keyed _) fun key _ _ _ =>
      writes.updates _ key member
  · exact relates_reads_bind writes.tables (keyed _) fun key _ _ _ =>
      writes.updates _ key member
  · exact relates_throw writes.tables _

theorem relates_entityRequest (writes : RelatesWrites ctx t R) (other : ¬ LinksEntities ctx t)
    {place : Place} (member : place.set.definition ∈ ctx.model.sets) (path : ResourcePath) :
    Relates R (entityRequest ctx t path place) := by
  cases stored : stores t.request.method with
  | true =>
    rw [entityRequest_of_stores ctx t path place stored]
    exact relates_bind_reads writes.tables (writes.relates_storeAt other member)
      (reads_answer ctx t place)
  | false =>
    rw [entityRequest]
    split
    · exact relates_of_reads writes.tables (reads_getRequest ctx t path place)
    next post => rw [post] at stored; cases stored
    next patch => rw [patch] at stored; cases stored
    next put => rw [put] at stored; cases stored
    · exact relates_reads_bind writes.tables (reads_keyOf ctx t _ _) fun key _ _ _ =>
        relates_bind_reads writes.tables (writes.deletes _ key member) fun _ => reads_pure _
    · exact relates_throw writes.tables _

theorem relates_referenceRequest (writes : RelatesWrites ctx t R)
    (linking : isLink t (some .ref) → LinksEntities ctx t) {place : Place}
    (known : ∀ parent, place.parent = some parent → parent.set.definition ∈ ctx.model.sets)
    (path : ResourcePath) : Relates R (referenceRequest ctx t path place) := by
  have linked {method : Method} {parent : Parent} (named : t.request.method = method)
      (link : method = .post ∨ method = .put) (reached : place.parent = some parent) :=
    writes.relates_link (linking ⟨rfl, named ▸ link⟩) (known parent reached)
  rw [referenceRequest]
  split
  · exact relates_of_reads writes.tables (reads_getReference ctx t path place)
  · exact relates_throw writes.tables _
  next parent post reached =>
    exact relates_bind_reads writes.tables (linked post (.inl rfl) reached _ _ _) fun _ =>
      reads_pure _
  next parent put reached =>
    exact relates_bind_reads writes.tables (linked put (.inr rfl) reached _ _ _) fun _ =>
      reads_pure _
  next parent _ reached =>
    exact relates_bind_reads writes.tables
      (writes.relates_unlink (known parent reached) _ _ _ _) fun _ => reads_pure _
  · exact relates_throw writes.tables _

/-- Any path of a request leads to sets of the model, and the request writes at its end only. -/
theorem relates_execute (writes : RelatesWrites ctx t R) : Relates R (execute ctx t) := by
  refine relates_lift_bind writes.tables fun path parsed => ?_
  cases path with
  | service =>
    exact relates_of_reads writes.tables ((reads_lift _).bind fun _ => reads_pure _)
  | metadata =>
    exact relates_of_reads writes.tables ((reads_lift _).bind fun _ => reads_lift _)
  | resource segments suffix =>
    refine relates_reads_bind writes.tables (reads_walk ctx t segments)
      fun place _ _ walked => ?_
    cases suffix with
    | none =>
      have other : ¬ LinksEntities ctx t := by
        rintro ⟨others, reference, -⟩
        cases parsed.symm.trans reference
      exact writes.relates_entityRequest other (mem_sets_of_walk walked) _
    | some suffix =>
      cases suffix with
      | count => exact relates_of_reads writes.tables (reads_countRequest ctx t place)
      | ref =>
        exact writes.relates_referenceRequest (fun link => ⟨segments, parsed, link⟩)
          (fun parent => parent_mem_sets_of_walk walked) _

end Service.RelatesWrites

end OData
