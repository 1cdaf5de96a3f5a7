import OData.Proofs.Options.Roundtrip
import OData.Proofs.Paging
import OData.Proofs.Service.Presentation
import OData.Proofs.Service.Resolution

/-!
# Requests that agree

Two actions `Agree` if they have one outcome in every store with the tables of a given one, and
leave them.  Making and rendering the entity of a record agree in all requests that name no target,
and at all depths where the expansions are within the limits, if all sets of the model are in
memory.
-/

set_option autoImplicit false

namespace OData

namespace Action

variable {α β : Type} {store : Store} {good : α → Prop} {fine : β → Prop}

/-- In every store with the tables of a given one the action has the outcome, and leaves them. -/
def Settles (action : Action α) (store : Store) (result : Result α) : Prop :=
  ∀ other : Store, other.tables = store.tables →
    ∃ after, runOn action other = (result, after) ∧ after.tables = store.tables

/-- Two actions have the same outcome, and what they yield satisfies a condition. -/
def Agree (store : Store) (good : α → Prop) (x y : Action α) : Prop :=
  ∃ result, (∀ a, result = .ok a → good a) ∧ Settles x store result ∧ Settles y store result

theorem settles_lift (result : Result α) : Settles (liftM result) store result :=
  fun other same => ⟨other, rfl, same⟩

theorem settles_of_yields {action : Action α} {a : α}
    (yields : ∀ other : Store, other.tables = store.tables → Yields action other a) :
    Settles action store (.ok a) := by
  intro other same
  obtain ⟨after, run, kept⟩ := yields other same
  exact ⟨after, run, kept.trans same⟩

/-- The outcome is the one in the store itself. -/
theorem Settles.runOn_eq {action : Action α} {result : Result α}
    (settles : Settles action store result) {other : Store} (same : other.tables = store.tables) :
    (runOn action other).1 = result := by
  obtain ⟨after, run, _⟩ := settles other same
  rw [run]

theorem Settles.bind {x : Action α} {f : α → Action β} {first : Result α} {last : α → Result β}
    (settles : Settles x store first)
    (others : ∀ a, first = .ok a → Settles (f a) store (last a)) :
    Settles (x >>= f) store (first >>= last) := by
  intro other same
  obtain ⟨middle, run, kept⟩ := settles other same
  cases first with
  | error e => exact ⟨middle, runOn_bind_of_error run, kept⟩
  | ok a =>
    obtain ⟨after, runs, keeps⟩ := others a rfl middle kept
    exact ⟨after, (runOn_bind_of_ok run).trans runs, keeps⟩

theorem Settles.mapM {f : α → Action β} {g : α → Result β} {items : List α}
    (each : ∀ a ∈ items, Settles (f a) store (g a)) :
    Settles (items.mapM f) store (items.mapM g) := by
  induction items with
  | nil => exact settles_lift (.ok [])
  | cons item rest ih =>
    rw [List.mapM_cons, List.mapM_cons]
    refine (each item List.mem_cons_self).bind fun b _ => ?_
    exact (ih fun a member => each a (List.mem_cons_of_mem _ member)).bind fun others _ =>
      settles_lift (.ok (b :: others))

theorem agree_of_settles {x y : Action α} {result : Result α} (left : Settles x store result)
    (right : Settles y store result) (holds : ∀ a, result = .ok a → good a) :
    Agree store good x y := ⟨result, holds, left, right⟩

theorem agree_pure {a : α} (holds : good a) : Agree store good (pure a) (pure a) :=
  agree_of_settles (settles_lift (.ok a)) (settles_lift (.ok a)) fun _ same => by
    cases same
    exact holds

theorem agree_lift {result : Result α} (holds : ∀ a, result = .ok a → good a) :
    Agree store good (liftM result) (liftM result) :=
  agree_of_settles (settles_lift result) (settles_lift result) holds

theorem Agree.bind {x y : Action α} {f g : α → Action β} (first : Agree store good x y)
    (second : ∀ a, good a → Agree store fine (f a) (g a)) :
    Agree store fine (x >>= f) (y >>= g) := by
  obtain ⟨result, holds, left, right⟩ := first
  cases result with
  | error e =>
    have stops {z : Action α} {h : α → Action β} (settles : Settles z store (.error e)) :
        Settles (z >>= h) store (.error e) := by
      intro other same
      obtain ⟨after, run, kept⟩ := settles other same
      exact ⟨after, runOn_bind_of_error run, kept⟩
    exact agree_of_settles (stops left) (stops right) fun b same => by cases same
  | ok a =>
    obtain ⟨outcome, fits, forth, back⟩ := second a (holds a rfl)
    have passes {z : Action α} {h : α → Action β} (settles : Settles z store (.ok a))
        (goes : Settles (h a) store outcome) : Settles (z >>= h) store outcome := by
      intro other same
      obtain ⟨middle, run, kept⟩ := settles other same
      rw [runOn_bind_of_ok run]
      exact goes middle kept
    exact agree_of_settles (passes left forth) (passes right back) fits

theorem Agree.lift_bind {result : Result α} {f g : α → Action β}
    (second : ∀ a, result = .ok a → Agree store fine (f a) (g a)) :
    Agree store fine (liftM result >>= f) (liftM result >>= g) := by
  have first : Agree store (fun a => result = .ok a) (liftM result) (liftM result) :=
    agree_lift fun _ same => same
  exact first.bind second

theorem Agree.map {x y : Action α} {f : α → β} (agree : Agree store good x y)
    (image : ∀ a, good a → fine (f a)) :
    Agree store fine (x >>= fun a => pure (f a)) (y >>= fun a => pure (f a)) :=
  agree.bind fun a holds => agree_pure (image a holds)

theorem Agree.mapM {f g : α → Action β} {items : List α}
    (each : ∀ a ∈ items, Agree store fine (f a) (g a)) :
    Agree store (fun found => ∀ b ∈ found, fine b) (items.mapM f) (items.mapM g) := by
  induction items with
  | nil => exact agree_pure (by simp)
  | cons item rest ih =>
    rw [List.mapM_cons, List.mapM_cons]
    refine (each item List.mem_cons_self).bind fun b holds => ?_
    refine (ih fun a member => each a (List.mem_cons_of_mem _ member)).map fun found others => ?_
    intro c member
    rcases List.mem_cons.mp member with rfl | later
    · exact holds
    · exact others c later

/-- Of two actions that agree each has the outcome that the other one has in the store. -/
theorem Agree.settles {x y : Action α} (agree : Agree store good x y) :
    Settles x store (runOn y store).1 ∧ ∀ a, (runOn y store).1 = .ok a → good a := by
  obtain ⟨result, holds, left, right⟩ := agree
  rw [right.runOn_eq rfl]
  exact ⟨left, holds⟩

end Action

open OData.Action

/-- Whether the rows of all sets are in memory. -/
def Model.InMemory (model : Model) : Prop :=
  ∀ set ∈ model.sets, ∃ offered, set.backing = .table offered

variable {ctx : Context} {store : Store} {set : EntitySet}

/-! ## Records -/

section Records

variable {offered : CapabilitySet} (table : set.definition.backing = .table offered)

include table

theorem EntitySet.agree_first (plan : QueryPlan) :
    Agree store (fun _ => True) (set.first ctx plan) (set.first ctx plan) := by
  have settles :
      Settles (set.first ctx plan) store ((set.first ctx plan).runOn store).1 := by
    intro other same
    have works (store : Store) := set.definition.fetchFails_of_table store table
    rw [EntitySet.runOn_first, EntitySet.runOn_first]
    cases set.require .query with
    | error e => exact ⟨other, rfl, same⟩
    | ok _ =>
      simp only [works, Bool.false_eq_true, if_false, Store.rows_congr same]
      exact ⟨_, rfl, same⟩
  exact agree_of_settles settles settles fun _ _ => trivial

theorem Pager.agree_fetchRecords (plan : QueryPlan) (offset take : Nat) :
    Agree store (fun _ => True) (fetchRecords ctx set plan offset take)
      (fetchRecords ctx set plan offset take) := by
  rw [fetchRecords]
  split
  · exact agree_pure trivial
  · refine Agree.lift_bind fun size sized => Agree.lift_bind fun s started => ?_
    obtain ⟨-, rfl⟩ := Stream.start_eq_ok_iff.mp started
    obtain ⟨rfl, -⟩ := fetchSize_eq_ok_iff.mp sized
    have chunk : 0 < set.chunkSize ctx := Nat.le_max_left 1 _
    cases sorts : plan.run ctx.libraries.sorting (store.rows set.definition.name.text) with
    | some selected =>
      have settles := settles_of_yields fun other same => Stream.yields_records table chunk
        (by rwa [Store.rows_congr same]) offset (some (take + 1))
      exact agree_of_settles settles settles fun _ _ => trivial
    | none =>
      have settles : Settles (Stream.records ctx.libraries.sorting set (set.chunkSize ctx)
          ⟨plan, offset, some (take + 1), [], false⟩) store (.error QueryPlan.unsortable) := by
        intro other same
        exact ⟨_, Stream.runOn_records_unsortable table chunk (by simp)
          (by rwa [Store.rows_congr same]), same⟩
      exact agree_of_settles settles settles fun _ _ => trivial

omit table in
theorem Pager.agree_countFor (options : QueryOptions) (plan : QueryPlan) :
    Agree store (fun _ => True) (countFor set options plan) (countFor set options plan) := by
  have counts : Agree store (fun _ => True) (set.count plan) (set.count plan) := by
    refine Agree.lift_bind fun _ _ => ?_
    have settles : Settles (set.definition.count plan) store
        (.ok ((store.rows set.definition.name.text).countP plan.admits)) := by
      intro other same
      rw [EntitySetDef.runOn_count, Store.rows_congr same]
      exact ⟨other, rfl, same⟩
    exact agree_of_settles settles settles fun _ _ => trivial
  rw [countFor]
  split
  · exact counts.map fun _ _ => trivial
  · exact agree_pure trivial

theorem Pager.agree_nextRecords (options : QueryOptions) (pager : Pager) :
    Agree store (fun _ => True) (pager.nextRecords ctx set options)
      (pager.nextRecords ctx set options) := by
  rw [nextRecords]
  split
  · exact agree_pure trivial
  · exact (agree_countFor options _).bind fun _ _ =>
      (agree_fetchRecords table _ _ _).map fun _ _ => trivial
  · exact (agree_fetchRecords table _ _ _).map fun _ _ => trivial

/-- Pages agree if the entities on them do. -/
theorem Pager.agree_firstPage {make other : EntitySet.Maker} {good : Entity → Prop}
    (makes : ∀ select record, Agree store good (make select record) (other select record))
    (options : QueryOptions) :
    Agree store (fun page => ∀ entity ∈ page.entities, good entity)
      (firstPage ctx set options make) (firstPage ctx set options other) := by
  refine Agree.lift_bind fun pager _ => ?_
  have next : Agree store
      (fun found => ∀ page, found.1 = some page → ∀ entity ∈ page.entities, good entity)
      (pager.next ctx set options make) (pager.next ctx set options other) := by
    refine (agree_nextRecords table options pager).bind fun found _ => ?_
    cases found with
    | none => exact agree_pure fun page same => by cases same
    | some found =>
      refine (Agree.mapM fun record _ => makes _ record).map fun entities known => ?_
      rintro page ⟨⟩
      exact known
  refine next.map fun found known => ?_
  obtain ⟨page, _⟩ := found
  cases page with
  | none => exact fun entity member => by cases member
  | some page => exact known page rfl

end Records

/-! ## Entities -/

namespace EntitySet

section Makers

variable {offered : CapabilitySet} (table : set.definition.backing = .table offered)
  (reached : set.Reached ctx.model) {make other : Maker}
  (makes : ∀ select record, Agree store (Entity.Known ctx.model) (make select record)
    (other select record))

include table makes

theorem agree_firstEntity (options : QueryOptions) :
    Agree store (fun found => (Related.one found).Known ctx.model)
      (set.firstEntity ctx options make) (set.firstEntity ctx options other) := by
  refine Agree.lift_bind fun plan _ => ?_
  refine (agree_first table plan).bind fun found _ => ?_
  cases found with
  | none => exact agree_pure trivial
  | some record => exact (makes _ record).map fun entity known => known

include reached

theorem agree_resolve {request sibling : Request} (plain : request.Plain) (alike : sibling.Plain)
    (options : QueryOptions) :
    Agree store (Related.Known ctx.model) (set.resolve ctx request none options make)
      (set.resolve ctx sibling none options other) := by
  have one : Agree store (Related.Known ctx.model)
      (set.firstEntity ctx options make >>= fun found => pure (Related.one found))
      (set.firstEntity ctx options other >>= fun found => pure (Related.one found)) :=
    (agree_firstEntity table makes options).map fun found known => known
  rw [resolve, resolve, explicitTarget_of_plain plain, explicitTarget_of_plain alike, lift_ok_bind,
    lift_ok_bind]
  simp only [resolveScoped]
  cases set.source with
  | none => exact one
  | some source =>
    simp only
    split
    · exact agree_pure reached
    · exact one

end Makers

variable {request sibling : Request}

mutual

/-- The entity of a record is the same in every request and at every depth. -/
theorem agree_materialize (stored : ctx.model.InMemory) (plain : request.Plain)
    (alike : sibling.Plain) {set : EntitySet} (known : set.definition ∈ ctx.model.sets) :
    ∀ (options : QueryOptions) {depth below : Nat},
      ctx.config.limits.checkList (depth + 1) options.expand = .ok () →
      ctx.config.limits.checkList (below + 1) options.expand = .ok () →
      ∀ (select : Option (List Identifier)) (record : Record),
        Agree store (Entity.Known ctx.model)
          (set.materialize ctx request depth options select record)
          (set.materialize ctx sibling below options select record)
  | ⟨_, _, _, expand, _, _, _, _⟩, depth, below, within, inside, select, record => by
    rw [materialize, materialize]
    refine Agree.lift_bind fun key _ => ?_
    have expansions := agree_expandAll stored plain alike known record expand within inside
    exact expansions.map fun found each => Entity.known_iff.mpr each

theorem agree_expandAll (stored : ctx.model.InMemory) (plain : request.Plain)
    (alike : sibling.Plain) {set : EntitySet} (known : set.definition ∈ ctx.model.sets)
    (record : Record) : ∀ (items : List Expansion) {depth below : Nat},
      ctx.config.limits.checkList depth items = .ok () →
      ctx.config.limits.checkList below items = .ok () →
        Agree store (fun found => ∀ entry ∈ found, entry.2.Known ctx.model)
          (set.expandAll ctx request depth record items)
          (set.expandAll ctx sibling below record items)
  | [], _, _, _, _ => by
    rw [expandAll, expandAll]
    exact agree_pure (by simp)
  | (name, options) :: rest, depth, below, within, inside => by
    rw [QueryLimits.checkList] at within inside
    obtain ⟨⟨⟩, here, others⟩ := Result.bind_eq_ok.mp within
    obtain ⟨⟨⟩, there, siblings⟩ := Result.bind_eq_ok.mp inside
    rw [expandAll, expandAll, QueryLimits.checkExpandDepth_of_check here,
      QueryLimits.checkExpandDepth_of_check there, lift_ok_bind, lift_ok_bind]
    refine Agree.lift_bind fun target led => ?_
    have reached := reached_of_navigate known led
    refine Agree.lift_bind fun property _ => ?_
    obtain ⟨offered, table⟩ := stored _ reached.known
    have makes := agree_materialize stored plain alike reached.known options
      (QueryLimits.checkList_of_check here) (QueryLimits.checkList_of_check there)
    refine (agree_resolve table reached makes plain alike options).bind fun related kept => ?_
    have later := agree_expandAll stored plain alike known record rest others siblings
    refine later.map fun found each => ?_
    intro entry member
    rcases List.mem_cons.mp member with rfl | later
    · exact kept
    · exact each entry later

end

end EntitySet

/-! ## Rendering -/

namespace Entity

variable {request sibling : Request}

mutual

/-- An entity is rendered as the same object in every request and at every depth. -/
theorem agree_toJson (stored : ctx.model.InMemory) (plain : request.Plain)
    (alike : sibling.Plain) : ∀ (options : QueryOptions) {depth below : Nat},
    ctx.config.limits.checkList (depth + 1) options.expand = .ok () →
    ctx.config.limits.checkList (below + 1) options.expand = .ok () →
    ∀ entity : Entity, entity.Known ctx.model →
      Agree store (fun _ => True) (entity.toJson ctx request depth options)
        (entity.toJson ctx sibling below options)
  | ⟨_, _, _, expand, _, _, _, _⟩, depth, below, within, inside, entity, known => by
    rw [toJson, toJson]
    exact (agree_expandedMembers stored plain alike expand within inside _ _
      (known_iff.mp known)).map fun _ _ => trivial

theorem agree_expandedMembers (stored : ctx.model.InMemory) (plain : request.Plain)
    (alike : sibling.Plain) : ∀ (items : List Expansion) {depth below : Nat},
    ctx.config.limits.checkList depth items = .ok () →
    ctx.config.limits.checkList below items = .ok () →
    ∀ (expansions : List (Identifier × Related Entity)) (members : Json.Members),
      (∀ entry ∈ expansions, entry.2.Known ctx.model) →
      Agree store (fun _ => True) (expandedMembers ctx request depth items expansions members)
        (expandedMembers ctx sibling below items expansions members)
  | [], _, _, _, _, expansions, members, _ => by
    rw [expandedMembers, expandedMembers]
    · exact agree_pure trivial
    · simp
    · simp
  | _ :: _, _, _, _, _, [], members, _ => by
    rw [expandedMembers, expandedMembers]
    · exact agree_pure trivial
    · simp
    · simp
  | (item, options) :: items, depth, below, within, inside, (name, related) :: rest, members,
      known => by
    rw [QueryLimits.checkList] at within inside
    obtain ⟨⟨⟩, first, others⟩ := Result.bind_eq_ok.mp within
    obtain ⟨⟨⟩, second, siblings⟩ := Result.bind_eq_ok.mp inside
    have later (members : Json.Members) := agree_expandedMembers stored plain alike items others
      siblings rest members fun entry member => known entry (List.mem_cons_of_mem _ member)
    have here := known (name, related) List.mem_cons_self
    have renders := agree_toJson stored plain alike options (QueryLimits.checkList_of_check first)
      (QueryLimits.checkList_of_check second)
    cases related with
    | one entity =>
      cases entity with
      | none =>
        rw [expandedMembers, expandedMembers]
        exact later _
      | some entity =>
        rw [expandedMembers, expandedMembers]
        exact (renders entity here).bind fun json _ => later _
    | many set =>
      have reached : set.Reached ctx.model := here
      obtain ⟨offered, table⟩ := stored _ reached.known
      rw [expandedMembers, expandedMembers]
      refine (Pager.agree_firstPage table (EntitySet.agree_materialize stored plain alike
        reached.known options (QueryLimits.checkList_of_check first)
        (QueryLimits.checkList_of_check second)) options).bind fun page known => ?_
      refine (Agree.mapM fun entity member => renders entity (known entity member)).bind
        fun shown _ => ?_
      exact Agree.lift_bind fun link _ => later _

end

end Entity

end OData
