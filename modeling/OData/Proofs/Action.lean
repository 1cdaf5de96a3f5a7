import Mathlib.Data.List.Forall2
import OData.Store.Basic

/-!
# Runs of actions

`runOn_bind` takes a run apart at its first step.  An action that `Reads` leaves all tables as they
are, whatever its outcome; one that is `Atomic` leaves them if it fails; one that `Yields` a value
in a store succeeds there and leaves the tables as they are; one that `Ensures` something gives such
values if it succeeds; one that `Gives` a value can do so over some tables.  They are closed under
sequencing, so that larger actions inherit them.
-/

set_option autoImplicit false

namespace OData.Action

variable {α β : Type}

@[simp] theorem runOn_pure (a : α) (store : Store) :
    runOn (pure a) store = (.ok a, store) := rfl

@[simp] theorem runOn_throw (e : Error) (store : Store) :
    runOn (throw e : Action α) store = (.error e, store) := rfl

@[simp] theorem runOn_lift (r : Result α) (store : Store) :
    runOn (liftM r : Action α) store = (r, store) := rfl

@[simp] theorem runOn_get (store : Store) :
    runOn (get : Action Store) store = (.ok store, store) := rfl

@[simp] theorem runOn_modify (f : Store → Store) (store : Store) :
    runOn (modify f : Action Unit) store = (.ok (), f store) := rfl

theorem runOn_bind (x : Action α) (f : α → Action β) (store : Store) :
    runOn (x >>= f) store = match runOn x store with
      | (.ok a, after) => runOn (f a) after
      | (.error e, after) => (.error e, after) := by
  simp only [runOn, ExceptT.run_bind, StateT.run_bind]
  rcases StateT.run (ExceptT.run x) store with ⟨_ | _, _⟩ <;> rfl

theorem runOn_map (f : α → β) (x : Action α) (store : Store) :
    runOn (f <$> x) store = ((runOn x store).1.map f, (runOn x store).2) := by
  rw [map_eq_pure_bind, runOn_bind]
  rcases runOn x store with ⟨_ | _, _⟩ <;> rfl

theorem runOn_bind_of_ok {x : Action α} {f : α → Action β} {store after : Store} {a : α}
    (first : runOn x store = (.ok a, after)) :
    runOn (x >>= f) store = runOn (f a) after := by
  rw [runOn_bind, first]

theorem runOn_bind_of_error {x : Action α} {f : α → Action β} {store after : Store} {e : Error}
    (first : runOn x store = (.error e, after)) :
    runOn (x >>= f) store = (.error e, after) := by
  rw [runOn_bind, first]

/-- A sequence fails in its first action, or in the second one after a success of the first. -/
theorem runOn_bind_error_iff {x : Action α} {f : α → Action β} {store after : Store} {e : Error} :
    runOn (x >>= f) store = (.error e, after) ↔
      runOn x store = (.error e, after) ∨
        ∃ a middle, runOn x store = (.ok a, middle) ∧ runOn (f a) middle = (.error e, after) := by
  rw [runOn_bind]
  rcases runOn x store with ⟨_ | _, _⟩ <;> simp [and_assoc]

theorem runOn_bind_ok_iff {x : Action α} {f : α → Action β} {store after : Store} {b : β} :
    runOn (x >>= f) store = (.ok b, after) ↔
      ∃ a middle, runOn x store = (.ok a, middle) ∧ runOn (f a) middle = (.ok b, after) := by
  rw [runOn_bind]
  rcases runOn x store with ⟨_ | _, _⟩ <;> simp [and_assoc]

theorem runOn_lift_bind (r : Result α) (f : α → Action β) (store : Store) :
    runOn (liftM r >>= f) store = match r with
      | .ok a => runOn (f a) store
      | .error e => (.error e, store) := by
  rw [runOn_bind, runOn_lift]
  cases r <;> rfl

theorem runOn_lift_bind_ok_iff {r : Result α} {f : α → Action β} {store after : Store} {b : β} :
    runOn (liftM r >>= f) store = (.ok b, after) ↔
      ∃ a, r = .ok a ∧ runOn (f a) store = (.ok b, after) := by
  rw [runOn_lift_bind]
  cases r <;> simp

theorem lift_ok_bind (a : α) (f : α → Action β) :
    (liftM (.ok a : Result α) : Action α) >>= f = f a := rfl

/-! ## Actions that leave the tables -/

def Reads (action : Action α) : Prop :=
  ∀ store, (runOn action store).2.tables = store.tables

theorem reads_pure (a : α) : Reads (pure a) := fun _ => rfl

theorem reads_throw (e : Error) : Reads (throw e : Action α) := fun _ => rfl

theorem reads_lift (r : Result α) : Reads (liftM r : Action α) := fun _ => rfl

theorem Reads.bind {x : Action α} {f : α → Action β} (first : Reads x)
    (second : ∀ a, Reads (f a)) : Reads (x >>= f) := by
  intro store
  have kept := first store
  rw [runOn_bind]
  rcases run : runOn x store with ⟨_ | a, after⟩
  · simpa [run] using kept
  · rw [run] at kept
    exact (second a after).trans kept

theorem Reads.mapM {f : α → Action β} (each : ∀ a, Reads (f a)) (items : List α) :
    Reads (items.mapM f) := by
  induction items with
  | nil => exact reads_pure []
  | cons item rest ih =>
    rw [List.mapM_cons]
    exact (each item).bind fun _ => ih.bind fun _ => reads_pure _

theorem Reads.tables_eq {action : Action α} (reads : Reads action) {store after : Store}
    {result : Result α} (run : runOn action store = (result, after)) :
    after.tables = store.tables := by
  simpa [run] using reads store

/-! ## Actions that leave the tables if they fail -/

def Atomic (action : Action α) : Prop :=
  ∀ store e after, runOn action store = (.error e, after) → after.tables = store.tables

theorem Reads.atomic {action : Action α} (reads : Reads action) : Atomic action := by
  intro store e after run
  exact reads.tables_eq run

/-- What only reads may come before. -/
theorem Reads.bind_atomic {x : Action α} {f : α → Action β} (first : Reads x)
    (second : ∀ a, Atomic (f a)) : Atomic (x >>= f) := by
  intro store e after run
  rcases runOn_bind_error_iff.mp run with fails | ⟨a, middle, succeeds, fails⟩
  · exact first.tables_eq fails
  · exact (second a middle e after fails).trans (first.tables_eq succeeds)

theorem Atomic.lift_bind {r : Result α} {f : α → Action β}
    (each : ∀ a, r = .ok a → Atomic (f a)) : Atomic (liftM r >>= f) := by
  cases r with
  | error e => exact (reads_throw e).atomic
  | ok a =>
    intro store e after run
    rw [runOn_lift_bind] at run
    exact each a rfl store e after run

/-- What cannot fail may come after. -/
theorem Atomic.map {x : Action α} (atomic : Atomic x) (f : α → β) :
    Atomic (x >>= fun a => pure (f a)) := by
  intro store e after run
  rcases runOn_bind_error_iff.mp run with fails | ⟨a, middle, _, fails⟩
  · exact atomic store e after fails
  · cases fails

/-! ## Actions that succeed -/

def Yields (action : Action α) (store : Store) (value : α) : Prop :=
  ∃ after, runOn action store = (.ok value, after) ∧ after.tables = store.tables

theorem yields_pure (a : α) (store : Store) : Yields (pure a) store a := ⟨store, rfl, rfl⟩

theorem yields_lift (a : α) (store : Store) : Yields (liftM (.ok a : Result α)) store a :=
  ⟨store, rfl, rfl⟩

theorem Yields.bind {x : Action α} {f : α → Action β} {store : Store} {a : α} {b : β}
    (first : Yields x store a)
    (second : ∀ after : Store, after.tables = store.tables → Yields (f a) after b) :
    Yields (x >>= f) store b := by
  obtain ⟨middle, run, kept⟩ := first
  obtain ⟨after, runs, keeps⟩ := second middle kept
  exact ⟨after, (runOn_bind_of_ok run).trans runs, keeps.trans kept⟩

theorem Yields.runOn_eq {action : Action α} {store : Store} {a : α}
    (yields : Yields action store a) : (runOn action store).1 = .ok a := by
  obtain ⟨after, run, _⟩ := yields
  rw [run]

/-! ## What a success gives -/

/-- Whether an action over the tables of a store gives only good values, and leaves the tables. -/
def Ensures (store : Store) (good : α → Prop) (action : Action α) : Prop :=
  ∀ other a after, other.tables = store.tables → runOn action other = (.ok a, after) →
    after.tables = store.tables ∧ good a

section Ensures

variable {store : Store} {good : α → Prop} {later : β → Prop}

theorem ensures_pure {a : α} (holds : good a) : Ensures store good (pure a) := by
  rintro other _ _ same ⟨⟩
  exact ⟨same, holds⟩

theorem ensures_throw (e : Error) : Ensures store good (throw e) := by
  intro other a after _ run
  cases run

theorem Reads.ensures {action : Action α} (reads : Reads action)
    (holds : ∀ other a after, other.tables = store.tables → runOn action other = (.ok a, after) →
      good a) : Ensures store good action :=
  fun other a after same run => ⟨(reads.tables_eq run).trans same, holds other a after same run⟩

theorem Ensures.bind {x : Action α} {f : α → Action β} (first : Ensures store good x)
    (second : ∀ a, good a → Ensures store later (f a)) : Ensures store later (x >>= f) := by
  intro other b after same run
  obtain ⟨a, middle, succeeds, run⟩ := runOn_bind_ok_iff.mp run
  obtain ⟨kept, holds⟩ := first other a middle same succeeds
  exact second a holds middle b after kept run

theorem Ensures.lift_bind {r : Result α} {f : α → Action β}
    (second : ∀ a, r = .ok a → Ensures store later (f a)) :
    Ensures store later (liftM r >>= f) := by
  intro other b after same run
  obtain ⟨a, found, run⟩ := runOn_lift_bind_ok_iff.mp run
  exact second a found other b after same run

theorem Reads.bind_ensures {x : Action α} {f : α → Action β} (reads : Reads x)
    (second : ∀ a, Ensures store later (f a)) : Ensures store later (x >>= f) := by
  have first : Ensures store (fun _ => True) x := reads.ensures fun _ _ _ _ _ => trivial
  exact first.bind fun a _ => second a

theorem Ensures.mono {x : Action α} {weaker : α → Prop} (ensures : Ensures store good x)
    (weakens : ∀ a, good a → weaker a) : Ensures store weaker x :=
  fun other a after same run => (ensures other a after same run).imp_right (weakens a)

theorem Ensures.map {x : Action α} {f : α → β} (ensures : Ensures store good x)
    (holds : ∀ a, good a → later (f a)) : Ensures store later (x >>= fun a => pure (f a)) :=
  ensures.bind fun a is_good => ensures_pure (holds a is_good)

/-- What is made of some items is made of one of them each. -/
theorem Ensures.mapM (gives : α → β → Prop) {f : α → Action β} {items : List α}
    (each : ∀ a ∈ items, Ensures store (gives a) (f a)) :
    Ensures store (fun made => ∀ b ∈ made, ∃ a ∈ items, gives a b) (items.mapM f) := by
  induction items with
  | nil => exact ensures_pure (by simp)
  | cons item rest ih =>
    rw [List.mapM_cons]
    refine (each item List.mem_cons_self).bind fun b given => ?_
    refine (ih fun a member => each a (List.mem_cons_of_mem _ member)).map fun made others => ?_
    intro c member
    rcases List.mem_cons.mp member with rfl | among
    · exact ⟨item, List.mem_cons_self, given⟩
    · obtain ⟨a, inside, given⟩ := others c among
      exact ⟨a, List.mem_cons_of_mem _ inside, given⟩

end Ensures

/-! ## What can be given -/

section Gives

variable {store : Store}

/-- Whether an action gives a value over the tables of a store. -/
def Gives (store : Store) (action : Action α) (a : α) : Prop :=
  ∃ other after, other.tables = store.tables ∧ runOn action other = (.ok a, after)

theorem gives_pure {a b : α} (gives : Gives store (pure a) b) : b = a := by
  obtain ⟨other, _, _, ⟨⟩⟩ := gives
  rfl

theorem gives_lift_bind {r : Result α} {f : α → Action β} {b : β}
    (gives : Gives store (liftM r >>= f) b) : ∃ a, r = .ok a ∧ Gives store (f a) b := by
  obtain ⟨other, after, same, run⟩ := gives
  obtain ⟨a, found, run⟩ := runOn_lift_bind_ok_iff.mp run
  exact ⟨a, found, other, after, same, run⟩

theorem Reads.gives_bind {x : Action α} {f : α → Action β} {b : β} (reads : Reads x)
    (gives : Gives store (x >>= f) b) : ∃ a, Gives store x a ∧ Gives store (f a) b := by
  obtain ⟨other, after, same, run⟩ := gives
  obtain ⟨a, middle, first, run⟩ := runOn_bind_ok_iff.mp run
  exact ⟨a, ⟨other, middle, same, first⟩, middle, after, (reads.tables_eq first).trans same, run⟩

/-- What is given for the items of a list is given for them one by one. -/
theorem Reads.gives_mapM {f : α → Action β} (each : ∀ a, Reads (f a)) {items : List α} :
    ∀ {made : List β}, Gives store (items.mapM f) made →
      List.Forall₂ (fun a b => Gives store (f a) b) items made := by
  induction items with
  | nil =>
    intro made gives
    rw [gives_pure gives]
    exact .nil
  | cons item rest ih =>
    intro made gives
    rw [List.mapM_cons] at gives
    obtain ⟨b, first, gives⟩ := (each item).gives_bind gives
    obtain ⟨others, later, gives⟩ := (Reads.mapM each rest).gives_bind gives
    rw [gives_pure gives]
    exact .cons first (ih later)

/-- What is given for each item of a list in any store is given for the list. -/
theorem exists_mapM {f : α → Action β} (reads : ∀ a, Reads (f a)) {items : List α}
    (each : ∀ a ∈ items, ∀ other : Store, other.tables = store.tables →
      ∃ b after, runOn (f a) other = (.ok b, after)) :
    ∀ {other : Store}, other.tables = store.tables →
      ∃ made after, runOn (items.mapM f) other = (.ok made, after) := by
  induction items with
  | nil => exact fun _ => ⟨[], _, rfl⟩
  | cons item rest ih =>
    intro other same
    obtain ⟨b, middle, first⟩ := each item List.mem_cons_self other same
    obtain ⟨made, after, later⟩ := ih (fun a member => each a (List.mem_cons_of_mem _ member))
      (((reads item).tables_eq first).trans same)
    refine ⟨b :: made, after, ?_⟩
    rw [List.mapM_cons, runOn_bind_of_ok first, runOn_bind_of_ok later]
    rfl

end Gives

end OData.Action

namespace OData

theorem Store.rows_congr {store after : Store} (same : after.tables = store.tables)
    (name : String) : after.rows name = store.rows name := by
  simp [Store.rows, same]

namespace EntitySetDef

open OData.Action

variable (set : EntitySetDef) (store : Store)

@[simp] theorem runOn_table : runOn set.table store = (.ok (store.rows set.name.text), store) := by
  simp [table, runOn_map, Except.map]

@[simp] theorem runOn_read (key : Key) :
    runOn (set.read key) store = (.ok ((store.rows set.name.text).read key), store) := by
  simp [read, runOn_map, Except.map]

@[simp] theorem runOn_count (plan : QueryPlan) :
    runOn (set.count plan) store =
      (.ok ((store.rows set.name.text).countP plan.admits), store) := by
  simp [count, runOn_map, Except.map]

/-- Tables in memory do not fail to be fetched from. -/
theorem fetchFails_of_table {offered : CapabilitySet} (table : set.backing = .table offered) :
    set.fetchFails store = false := by
  rw [fetchFails, table]

/-- A fetch fails, or takes a slice of what the plan selects and is recorded then; the program
stops if the records cannot be sorted. -/
theorem runOn_fetch (sorting : Sorting) (plan : QueryPlan) (offset limit : Nat) :
    runOn (set.fetch sorting plan offset limit) store =
      if set.fetchFails store then (.error (.driver "disk full"), store)
      else (match plan.run sorting (store.rows set.name.text) with
        | some selected => .ok ((selected.drop offset).take limit)
        | none => .error QueryPlan.unsortable, recordFetch set.name.text store) := by
  rw [fetch, runOn_bind, runOn_get]
  by_cases fails : set.fetchFails store = true
  · simp [fails]
  · cases sorts : plan.run sorting (store.rows set.name.text) with
    | none => simp [fails, runOn_bind, sorts]
    | some selected => simp [fails, runOn_map, Except.map, sorts]

/-- A write to a table does what its operation does to the rows. -/
theorem runOn_write_table {α : Type} {offered : CapabilitySet}
    (backed : set.backing = .table offered) (kind : Capability)
    (operation : Table → Result (α × Table)) (store : Store) :
    runOn (set.write kind operation) store =
      match operation (store.rows set.name.text) with
      | .ok (answer, table) => (.ok answer, store.put set.name.text table)
      | .error e => (.error e, store) := by
  rw [write, backed]
  simp only [runOn_bind, runOn_table, runOn_lift, runOn_modify, runOn_pure]
  rcases operation (store.rows set.name.text) with _ | ⟨answer, table⟩ <;> rfl

/-- A write that succeeds puts the table of its operation in place of the old one. -/
theorem runOn_write_ok {α : Type} {kind : Capability} {operation : Table → Result (α × Table)}
    {store after : Store} {answer : α}
    (run : runOn (set.write kind operation) store = (.ok answer, after)) :
    ∃ table, operation (store.rows set.name.text) = .ok (answer, table) ∧
      after = store.put set.name.text table := by
  cases backed : set.backing with
  | failing n =>
    rw [write, backed] at run
    cases run
  | table offered =>
    rw [set.runOn_write_table backed] at run
    split at run
    next written table done =>
      cases run
      exact ⟨table, done, rfl⟩
    next => cases run

/-- A write that fails has changed nothing. -/
theorem atomic_write {α : Type} (kind : Capability) (operation : Table → Result (α × Table)) :
    Atomic (set.write kind operation) := by
  intro store e after run
  cases backed : set.backing with
  | failing n =>
    rw [write, backed] at run
    cases run
    rfl
  | table offered =>
    rw [set.runOn_write_table backed] at run
    split at run
    next => cases run
    next =>
      cases run
      rfl

theorem reads_table : Reads set.table := fun store => by simp

theorem reads_read (key : Key) : Reads (set.read key) := fun store => by simp

theorem reads_count (plan : QueryPlan) : Reads (set.count plan) := fun store => by simp

theorem reads_fetch (sorting : Sorting) (plan : QueryPlan) (offset limit : Nat) :
    Reads (set.fetch sorting plan offset limit) := by
  intro store
  rw [runOn_fetch]
  split <;> rfl

end EntitySetDef

end OData
