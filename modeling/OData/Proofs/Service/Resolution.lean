import OData.Proofs.Schema.Integrity
import OData.Proofs.Service.Reads

/-!
# Which entities a path goes through

A walk `visits` the places before the last segment and finds an entity at each.  The query options
have no part in that but at a place without a key, where the only related entity is looked for:
`entities_eq_iff` compares the walks of two requests along one path.  Every set that a walk reaches
belongs to the model.
-/

set_option autoImplicit false

namespace OData

open OData.Action

/-! ## The sets that a walk reaches -/

namespace EntitySet

variable {ctx : Context} {set target : EntitySet} {record : Record} {name : String}

theorem navigate_eq_ok (led : set.navigate ctx record name = .ok target) :
    ∃ navigation definition, set.entityType.navigation? name = some navigation ∧
      ctx.model.bindingTarget set.definition navigation = .ok definition ∧
      target = ⟨definition, some ⟨set.definition, navigation, record⟩⟩ := by
  rw [navigate] at led
  split at led
  next => cases led
  next navigation declared =>
    obtain ⟨definition, bound, result⟩ := Result.bind_eq_ok.mp led
    cases result
    exact ⟨navigation, definition, declared, bound, rfl⟩

/-- Whether a set is one of the model's, reached through one of the model's navigation properties if
through any. -/
structure Reached (model : Model) (set : EntitySet) : Prop where
  known : set.definition ∈ model.sets
  led : ∀ source, set.source = some source → source.set ∈ model.sets ∧
    source.set.entityType.navigation? source.navigation.name.text = some source.navigation ∧
    model.bindingTarget source.set source.navigation = .ok set.definition

theorem reached_root {definition : EntitySetDef} (member : definition ∈ ctx.model.sets) :
    (root definition).Reached ctx.model := ⟨member, fun _ led => by cases led⟩

theorem reached_of_navigate {target : EntitySet} {record : Record} {name : String}
    (known : set.definition ∈ ctx.model.sets) (led : set.navigate ctx record name = .ok target) :
    target.Reached ctx.model := by
  obtain ⟨navigation, definition, declared, bound, rfl⟩ := navigate_eq_ok led
  have named : navigation.name.text = name := by simpa using List.find?_some declared
  refine ⟨Model.mem_sets_of_bindingTarget bound, ?_⟩
  rintro source ⟨⟩
  exact ⟨known, by rw [named]; exact declared, bound⟩

end EntitySet

namespace Service

/-- Whether a place and the entity from which it was reached are the model's. -/
structure Place.Reached (model : Model) (place : Place) : Prop where
  set : place.set.Reached model
  parent : ∀ parent, place.parent = some parent → parent.set.Reached model

variable {ctx : Context} {t : Transaction} {store after : Store} {place next : Place}

/-- A path begins at a set of the model. -/
theorem rootSet_eq_ok_iff {name : String} {set : EntitySet} :
    rootSet ctx name = .ok set ↔
      ∃ definition, ctx.model.entitySet? name = some definition ∧ set = .root definition := by
  rw [rootSet]
  split
  next definition found => simp [found, eq_comm]
  next absent => simp [absent]

theorem step_eq_ok {segment : Segment}
    (run : (step ctx t place segment).runOn store = (.ok next, after)) :
    ∃ key record middle target, (keyOf ctx t place.set place.key).runOn store = (.ok key, middle) ∧
      (place.set.readScoped key).runOn middle = (.ok record, after) ∧
      place.set.navigate ctx record segment.name = .ok target ∧
      next = ⟨target, segment.key, some ⟨place.set, key, segment.name⟩⟩ := by
  obtain ⟨key, middle, named, run⟩ := runOn_bind_ok_iff.mp run
  obtain ⟨record, last, read, run⟩ := runOn_bind_ok_iff.mp run
  obtain ⟨target, led, run⟩ := runOn_lift_bind_ok_iff.mp run
  cases run
  exact ⟨key, record, middle, target, named, read, led, rfl⟩

theorem reached_of_step {segment : Segment} (reached : Place.Reached ctx.model place)
    (run : (step ctx t place segment).runOn store = (.ok next, after)) :
    Place.Reached ctx.model next := by
  obtain ⟨key, record, _, target, _, _, led, rfl⟩ := step_eq_ok run
  refine ⟨EntitySet.reached_of_navigate reached.set.known led, ?_⟩
  rintro _ ⟨⟩
  exact reached.set

theorem reached_of_walkFrom {segments : List Segment} :
    ∀ {place : Place} {store : Store}, Place.Reached ctx.model place →
      (walkFrom ctx t place segments).runOn store = (.ok next, after) →
      Place.Reached ctx.model next := by
  induction segments with
  | nil =>
    intro place store reached run
    cases run
    exact reached
  | cons segment rest ih =>
    intro place store reached run
    obtain ⟨_, middle, stepped, run⟩ := runOn_bind_ok_iff.mp run
    exact ih (reached_of_step reached stepped) run

/-- Every set that a walk reaches belongs to the model, and so does the one it comes from. -/
theorem reached_of_walk {segments : List Segment}
    (run : (walk ctx t segments).runOn store = (.ok place, after)) :
    Place.Reached ctx.model place := by
  cases segments with
  | nil => cases run
  | cons segment rest =>
    obtain ⟨set, root, run⟩ := runOn_lift_bind_ok_iff.mp run
    obtain ⟨definition, found, rfl⟩ := rootSet_eq_ok_iff.mp root
    have start := EntitySet.reached_root (List.mem_of_find?_eq_some found)
    exact reached_of_walkFrom ⟨start, fun parent led => by cases led⟩ run

theorem mem_sets_of_walk {segments : List Segment}
    (run : (walk ctx t segments).runOn store = (.ok place, after)) :
    place.set.definition ∈ ctx.model.sets :=
  (reached_of_walk run).set.known

theorem parent_mem_sets_of_walk {parent : Parent} {segments : List Segment}
    (run : (walk ctx t segments).runOn store = (.ok place, after))
    (reached : place.parent = some parent) : parent.set.definition ∈ ctx.model.sets :=
  ((reached_of_walk run).parent parent reached).known

end Service

/-! ## The entities that a walk finds -/

theorem Stream.runOn_next_one (sorting : Sorting) (set : EntitySet) {chunk : Nat}
    (positive : 0 < chunk) (plan : QueryPlan) (store : Store) :
    runOn (Stream.next sorting set chunk ⟨plan, 0, some 1, [], false⟩ >>= fun found =>
        pure found.1) store =
      if set.definition.fetchFails store then (.error (.driver "disk full"), store)
      else (match plan.run sorting (store.rows set.definition.name.text) with
        | some selected => .ok selected.head?
        | none => .error QueryPlan.unsortable,
          EntitySetDef.recordFetch set.definition.name.text store) := by
  have one : min 1 chunk = 1 := Nat.min_eq_left positive
  by_cases fails : set.definition.fetchFails store = true
  · simp [next, fill, pull, wanted, one, runOn_bind, EntitySetDef.runOn_fetch, fails]
  · rcases sorts : plan.run sorting (store.rows set.definition.name.text) with
      _ | (_ | ⟨record, rest⟩) <;>
      simp [next, fill, pull, wanted, one, runOn_bind, EntitySetDef.runOn_fetch, fails, sorts]

namespace EntitySet

/-- The first record is looked for by one fetch. -/
theorem runOn_first (ctx : Context) (set : EntitySet) (plan : QueryPlan) (store : Store) :
    (set.first ctx plan).runOn store = match set.require .query with
      | .error e => (.error e, store)
      | .ok () =>
        if set.definition.fetchFails store then (.error (.driver "disk full"), store)
        else (match plan.run ctx.libraries.sorting (store.rows set.definition.name.text) with
          | some selected => .ok selected.head?
          | none => .error QueryPlan.unsortable,
            EntitySetDef.recordFetch set.definition.name.text store) := by
  have chunk : 0 < set.chunkSize ctx := Nat.le_max_left 1 _
  rw [first, runOn_lift_bind, Stream.start]
  cases set.require .query with
  | error e => rfl
  | ok _ => exact Stream.runOn_next_one ctx.libraries.sorting set chunk plan store

end EntitySet

namespace Service

variable {ctx : Context} {t u : Transaction} {store after : Store}

/-- Without a text the key is that of the only related entity. -/
theorem keyOf_none_eq_ok {set : EntitySet} {key : Key}
    (run : (keyOf ctx t set none).runOn store = (.ok key, after)) :
    ∃ plan record, (set.first ctx plan).runOn store = (.ok (some record), after) ∧
      Key.ofRecord set.entityType record = .ok key := by
  rw [keyOf] at run
  split at run
  · obtain ⟨plan, _, run⟩ := runOn_lift_bind_ok_iff.mp run
    obtain ⟨found, middle, first, run⟩ := runOn_bind_ok_iff.mp run
    cases found with
    | none => cases run
    | some record =>
      have made : Key.ofRecord set.entityType record = .ok key := congrArg Prod.fst run
      have same : middle = after := congrArg Prod.snd run
      cases same
      exact ⟨plan, record, first, made⟩
  · cases run

/-- The store after a key was found: it was looked for, unless it was given. -/
def afterKey (set : EntitySet) (text : Option String) (store : Store) : Store :=
  match text with
  | some _ => store
  | none => EntitySetDef.recordFetch set.definition.name.text store

theorem keyOf_after {set : EntitySet} {text : Option String} {key : Key}
    (run : (keyOf ctx t set text).runOn store = (.ok key, after)) :
    after = afterKey set text store := by
  cases text with
  | some text => exact (congrArg Prod.snd run).symm
  | none =>
    obtain ⟨plan, record, first, -⟩ := keyOf_none_eq_ok run
    rw [EntitySet.runOn_first] at first
    split at first
    · cases first
    · split at first
      · cases first
      · exact (congrArg Prod.snd first).symm

/-- The entity at a place, with its key. -/
def entityAt (ctx : Context) (t : Transaction) (place : Place) : Action (Key × Record) := do
  let key ← keyOf ctx t place.set place.key
  let record ← place.set.readScoped key
  pure (key, record)

/-- Where a navigation property leads from an entity that was found at a place. -/
def leave (ctx : Context) (place : Place) (segment : Segment) (found : Key × Record) :
    Result Place := do
  let target ← place.set.navigate ctx found.2 segment.name
  pure ⟨target, segment.key, some ⟨place.set, found.1, segment.name⟩⟩

theorem step_eq (place : Place) (segment : Segment) :
    step ctx t place segment =
      entityAt ctx t place >>= fun found => liftM (leave ctx place segment found) := by
  simp only [step, entityAt, bind_assoc, pure_bind]
  refine congrArg _ (funext fun key => congrArg _ (funext fun record => ?_))
  rw [leave]
  cases place.set.navigate ctx record segment.name <;> rfl

/-- Two requests that find the same entity leave the same store. -/
theorem entityAt_congr {place : Place} {found : Key × Record} {other : Store}
    (run : (entityAt ctx t place).runOn store = (.ok found, after))
    (again : (entityAt ctx u place).runOn store = (.ok found, other)) : after = other := by
  obtain ⟨key, middle, named, run⟩ := runOn_bind_ok_iff.mp run
  obtain ⟨key', middle', named', again⟩ := runOn_bind_ok_iff.mp again
  obtain ⟨record, last, read, run⟩ := runOn_bind_ok_iff.mp run
  obtain ⟨record', last', read', again⟩ := runOn_bind_ok_iff.mp again
  cases run
  cases again
  rw [keyOf_after named] at read
  rw [keyOf_after named'] at read'
  rw [read] at read'
  cases read'
  rfl

/-- The places before the last segment that a walk comes to, each with the store there. -/
def visitsFrom (ctx : Context) (t : Transaction) :
    Place → List Segment → Store → List (Place × Store)
  | _, [], _ => []
  | place, segment :: rest, store =>
    (place, store) :: match (step ctx t place segment).runOn store with
      | (.ok next, after) => visitsFrom ctx t next rest after
      | (.error _, _) => []

def visits (ctx : Context) (t : Transaction) (segments : List Segment) (store : Store) :
    List (Place × Store) :=
  match segments with
  | [] => []
  | segment :: rest =>
    match rootSet ctx segment.name with
    | .ok set => visitsFrom ctx t ⟨set, segment.key, none⟩ rest store
    | .error _ => []

/-- What a request finds at a place: an entity or an error. -/
def foundAt (ctx : Context) (t : Transaction) (visit : Place × Store) : Result (Key × Record) :=
  ((entityAt ctx t visit.1).runOn visit.2).1

/-- What a request finds at the places before the last segment. -/
def entities (ctx : Context) (t : Transaction) (segments : List Segment) (store : Store) :
    List (Result (Key × Record)) :=
  (visits ctx t segments store).map (foundAt ctx t)

/-- Whether a place is that of the only related entity, without a key in the path. -/
def lacksKey (place : Place) : Prop := place.key = none ∧ place.set.isSingle = true

theorem foundAt_of_not_lacksKey {visit : Place × Store} (given : ¬ lacksKey visit.1) :
    foundAt ctx t visit = foundAt ctx u visit := by
  have same : keyOf ctx t visit.1.set visit.1.key = keyOf ctx u visit.1.set visit.1.key := by
    cases key : visit.1.key with
    | some text => rfl
    | none =>
      have many : ¬ visit.1.set.isSingle = true := fun single => given ⟨key, single⟩
      simp only [keyOf, many]
      rfl
  rw [foundAt, foundAt, entityAt, entityAt, same]

/-- Requests that find the same at a place go on alike. -/
theorem runOn_step_congr {place : Place} (segment : Segment)
    (same : foundAt ctx t (place, store) = foundAt ctx u (place, store)) :
    (∃ next after, (step ctx t place segment).runOn store = (.ok next, after) ∧
      (step ctx u place segment).runOn store = (.ok next, after)) ∨
    (∃ e middle last, (step ctx t place segment).runOn store = (.error e, middle) ∧
      (step ctx u place segment).runOn store = (.error e, last)) := by
  rw [foundAt, foundAt] at same
  rcases first : (entityAt ctx t place).runOn store with ⟨failure | found, middle⟩
  · rw [first] at same
    rcases second : (entityAt ctx u place).runOn store with ⟨failure' | found', last⟩
    · rw [second] at same
      cases same
      refine .inr ⟨failure, middle, last, ?_, ?_⟩
      · rw [step_eq, runOn_bind_of_error first]
      · rw [step_eq, runOn_bind_of_error second]
    · rw [second] at same
      cases same
  · rw [first] at same
    rcases second : (entityAt ctx u place).runOn store with ⟨failure' | found', last⟩
    · rw [second] at same
      cases same
    · rw [second] at same
      cases same
      cases entityAt_congr first second
      rw [step_eq, step_eq, runOn_bind_of_ok first, runOn_bind_of_ok second, runOn_lift]
      cases led : leave ctx place segment found with
      | error e => exact .inr ⟨e, middle, middle, rfl, rfl⟩
      | ok next => exact .inl ⟨next, middle, rfl, rfl⟩

/-- From one place on, requests find the same entities if they do so where the path gives no key. -/
theorem entitiesFrom_eq_iff (segments : List Segment) :
    ∀ (place : Place) (store : Store),
      (visitsFrom ctx t place segments store).map (foundAt ctx t) =
          (visitsFrom ctx u place segments store).map (foundAt ctx u) ↔
        ∀ visit ∈ visitsFrom ctx t place segments store, lacksKey visit.1 →
          foundAt ctx t visit = foundAt ctx u visit := by
  induction segments with
  | nil => simp [visitsFrom]
  | cons segment rest ih =>
    intro place store
    rw [visitsFrom, visitsFrom, List.map_cons, List.map_cons, List.cons.injEq]
    constructor
    · rintro ⟨head, tail⟩ visit member lacks
      rcases List.mem_cons.mp member with rfl | later
      · exact head
      · rcases runOn_step_congr segment head with ⟨next, after, one, two⟩ | ⟨e, _, _, one, _⟩
        · rw [one, two] at tail
          rw [one] at later
          exact (ih next after).mp tail visit later lacks
        · rw [one] at later
          cases later
    · intro alike
      have head : foundAt ctx t (place, store) = foundAt ctx u (place, store) := by
        by_cases lacks : lacksKey place
        · exact alike (place, store) List.mem_cons_self lacks
        · exact foundAt_of_not_lacksKey lacks
      refine ⟨head, ?_⟩
      rcases runOn_step_congr segment head with ⟨next, after, one, two⟩ | ⟨e, _, _, one, two⟩
      · rw [one, two]
        rw [one] at alike
        exact (ih next after).mpr fun visit later => alike visit (List.mem_cons_of_mem _ later)
      · rw [one, two]
        rfl

theorem walkFrom_congr (segments : List Segment) :
    ∀ (place : Place) (store : Store),
      (visitsFrom ctx t place segments store).map (foundAt ctx t) =
        (visitsFrom ctx u place segments store).map (foundAt ctx u) →
      ((walkFrom ctx t place segments).runOn store).1 =
        ((walkFrom ctx u place segments).runOn store).1 := by
  induction segments with
  | nil => exact fun place store _ => rfl
  | cons segment rest ih =>
    intro place store same
    rw [visitsFrom, visitsFrom, List.map_cons, List.map_cons, List.cons.injEq] at same
    obtain ⟨head, tail⟩ := same
    rw [walkFrom, walkFrom]
    rcases runOn_step_congr segment head with ⟨next, after, one, two⟩ | ⟨e, _, _, one, two⟩
    · rw [one, two] at tail
      rw [runOn_bind_of_ok one, runOn_bind_of_ok two]
      exact ih next after tail
    · rw [runOn_bind_of_error one, runOn_bind_of_error two]

theorem entities_eq_iff (segments : List Segment) (store : Store) :
    entities ctx t segments store = entities ctx u segments store ↔
      ∀ visit ∈ visits ctx t segments store, lacksKey visit.1 →
        foundAt ctx t visit = foundAt ctx u visit := by
  cases segments with
  | nil => simp [entities, visits]
  | cons segment rest =>
    rw [entities, entities, visits, visits]
    cases rootSet ctx segment.name with
    | error e => simp
    | ok set => exact entitiesFrom_eq_iff rest _ store

theorem walk_congr {segments : List Segment}
    (same : entities ctx t segments store = entities ctx u segments store) :
    ((walk ctx t segments).runOn store).1 = ((walk ctx u segments).runOn store).1 := by
  cases segments with
  | nil => rfl
  | cons segment rest =>
    rw [entities, entities, visits, visits] at same
    rw [walk, walk, runOn_lift_bind, runOn_lift_bind]
    cases root : rootSet ctx segment.name with
    | error e => rfl
    | ok set =>
      rw [root] at same
      exact walkFrom_congr rest _ store same

/-- Requests along one path find the same entities, or the same error, before its last segment if
and only if they do so at the places where the path gives no key.  Then they come to the same place
at its end. -/
theorem entities_eq_iff_alike_without_keys (ctx : Context) (t u : Transaction)
    (segments : List Segment) (store : Store) :
    (entities ctx t segments store = entities ctx u segments store ↔
      ∀ visit ∈ visits ctx t segments store, lacksKey visit.1 →
        foundAt ctx t visit = foundAt ctx u visit) ∧
    (entities ctx t segments store = entities ctx u segments store →
      ((walk ctx t segments).runOn store).1 = ((walk ctx u segments).runOn store).1) :=
  ⟨entities_eq_iff segments store, walk_congr⟩

/-! ## Options that have no part -/

theorem key_mem_of_visitsFrom (segments : List Segment) :
    ∀ (place : Place) (store : Store), ∀ visit ∈ visitsFrom ctx t place segments store,
      visit.1.key ∈ (place.key :: segments.map Segment.key).dropLast := by
  induction segments with
  | nil => simp [visitsFrom]
  | cons segment rest ih =>
    intro place store visit member
    rw [visitsFrom] at member
    rw [List.map_cons, List.dropLast_cons_of_ne_nil (List.cons_ne_nil _ _), List.mem_cons]
    rcases List.mem_cons.mp member with rfl | later
    · exact .inl rfl
    · rcases run : (step ctx t place segment).runOn store with ⟨failure | next, after⟩
      · rw [run] at later
        cases later
      · rw [run] at later
        obtain ⟨_, _, _, _, _, _, _, rfl⟩ := step_eq_ok run
        exact .inr (ih _ after visit later)

/-- Along a path that gives the keys of all entities before its last segment, the options have no
part in which entities are found. -/
theorem entities_eq_of_keys (ctx : Context) (t u : Transaction) {segments : List Segment}
    (given : ∀ segment ∈ segments.dropLast, segment.key ≠ none) (store : Store) :
    entities ctx t segments store = entities ctx u segments store := by
  apply (entities_eq_iff segments store).mpr
  intro visit member lacks
  cases segments with
  | nil => cases member
  | cons segment rest =>
    rw [visits] at member
    cases root : rootSet ctx segment.name with
    | error e => rw [root] at member; cases member
    | ok set =>
      rw [root] at member
      have among : visit.1.key ∈ ((segment :: rest).map Segment.key).dropLast :=
        key_mem_of_visitsFrom rest _ store visit member
      rw [← List.map_dropLast] at among
      obtain ⟨other, inside, same⟩ := List.mem_map.mp among
      exact absurd (same.trans lacks.1) (given other inside)

theorem plan_congr {set : EntitySet} {o p : QueryOptions} (filter : o.filter = p.filter)
    (orderBy : o.orderBy = p.orderBy) (select : o.select = p.select)
    (expand : o.expand = p.expand) : set.plan ctx o = set.plan ctx p := by
  rw [EntitySet.plan, EntitySet.plan, QueryPlan.ofOptions, QueryPlan.ofOptions, filter, orderBy,
    select, expand]

/-- Paging and counting have no part in which entities are found. -/
theorem entities_eq_of_options (ctx : Context) {t u : Transaction}
    (filter : t.options.filter = u.options.filter) (orderBy : t.options.orderBy = u.options.orderBy)
    (select : t.options.select = u.options.select) (expand : t.options.expand = u.options.expand)
    (segments : List Segment) (store : Store) :
    entities ctx t segments store = entities ctx u segments store := by
  apply (entities_eq_iff segments store).mpr
  intro visit _ _
  have same (text : Option String) :
      keyOf ctx t visit.1.set text = keyOf ctx u visit.1.set text := by
    cases text with
    | some text => rfl
    | none => rw [keyOf, keyOf, plan_congr filter orderBy select expand]
  rw [foundAt, foundAt, entityAt, entityAt, same]

end Service

end OData
