import Mathlib.Data.List.Forall2
import OData.Proofs.Service.Writes

/-!
# Capabilities along a sequence of requests

The rows of a set change only as its capabilities allow: without `create` none is added, without
`delete` none is lost, and without `update` and `link` no value of a row changes.  A request makes
at most one such write, by whatever path it reaches the set, and so from any time of a sequence of
requests to any later one the rows can be matched with those that they were.
-/

set_option autoImplicit false

namespace OData

open OData.Action

/-! ## Tables -/

/-- Whether a record is another one with some values put into it. -/
def Record.Revises (before after : Record) : Prop := ∃ values, after = before.insertAll values

theorem Record.Revises.trans {first second third : Record} (early : first.Revises second)
    (late : second.Revises third) : first.Revises third := by
  obtain ⟨values, rfl⟩ := early
  obtain ⟨others, rfl⟩ := late
  exact ⟨values ++ others, (List.foldl_append ..).symm⟩

namespace Table

/-- The writes that some capabilities allow. -/
inductive Write (granted : CapabilitySet) : Table → Table → Prop
  | create (rows : Table) (row : Record) (may : granted.contains .create = true) :
      Write granted rows (rows ++ [row])
  | change (before rest : Table) (row : Record) (values : List (Identifier × Value))
      (may : granted.contains .update = true ∨ granted.contains .link = true) :
      Write granted (before ++ row :: rest) (before ++ row.insertAll values :: rest)
  | delete (before rest : Table) (row : Record) (may : granted.contains .delete = true) :
      Write granted (before ++ row :: rest) (before ++ rest)

/-- Whether a table can become another one by such writes, row by row. -/
inductive Follows (granted : CapabilitySet) : Table → Table → Prop
  | added {rows : Table} (may : rows ≠ [] → granted.contains .create = true) :
      Follows granted [] rows
  | kept {row : Record} {before after : Table} (rest : Follows granted before after) :
      Follows granted (row :: before) (row :: after)
  | revised {row other : Record} {before after : Table} (revises : row.Revises other)
      (may : granted.contains .update = true ∨ granted.contains .link = true)
      (rest : Follows granted before after) : Follows granted (row :: before) (other :: after)
  | gone {row : Record} {before after : Table} (may : granted.contains .delete = true)
      (rest : Follows granted before after) : Follows granted (row :: before) after

namespace Follows

variable {granted : CapabilitySet} {first second third before after : Table}

theorem refl (table : Table) : Follows granted table table := by
  induction table with
  | nil => exact .added fun absent => absurd rfl absent
  | cons row rest ih => exact .kept ih

theorem trans (early : Follows granted first second) (late : Follows granted second third) :
    Follows granted first third := by
  induction early generalizing third with
  | added may =>
    cases late with
    | added still => exact .added still
    | kept => exact .added fun _ => may (by simp)
    | revised => exact .added fun _ => may (by simp)
    | gone => exact .added fun _ => may (by simp)
  | kept _ ih =>
    cases late with
    | kept rest => exact .kept (ih rest)
    | revised revises may rest => exact .revised revises may (ih rest)
    | gone may rest => exact .gone may (ih rest)
  | revised revises may _ ih =>
    cases late with
    | kept rest => exact .revised revises may (ih rest)
    | revised again _ rest => exact .revised (revises.trans again) may (ih rest)
    | gone may rest => exact .gone may (ih rest)
  | gone may _ ih => exact .gone may (ih late)

theorem append_left (rows : Table) (follows : Follows granted before after) :
    Follows granted (rows ++ before) (rows ++ after) := by
  induction rows with
  | nil => exact follows
  | cons row rest ih => exact .kept ih

theorem of_write (write : Write granted before after) : Follows granted before after := by
  cases write with
  | create _ row may =>
    have added : Follows granted (before ++ []) (before ++ [row]) :=
      .append_left before (.added fun _ => may)
    rwa [List.append_nil] at added
  | change rows rest row values may =>
    exact .append_left rows (.revised ⟨values, rfl⟩ may (.refl rest))
  | delete rows rest row may => exact .append_left rows (.gone may (.refl rest))

theorem of_reflGen (once : Relation.ReflGen (Write granted) before after) :
    Follows granted before after := by
  cases once with
  | refl => exact .refl _
  | single write => exact .of_write write

end Follows

/-- The rows of a set that are left, as they were and as they are, and those that are new, all as
its capabilities allow. -/
structure Aligned (granted : CapabilitySet) (before after kept revised added : Table) : Prop where
  left : kept.Sublist before
  revises : List.Forall₂ Record.Revises kept revised
  now : after = revised ++ added
  gains_none : granted.contains .create = false → added = []
  loses_none : granted.contains .delete = false → kept = before
  changes_none : granted.contains .update = false → granted.contains .link = false → revised = kept

/-- What the capabilities of a set say of its rows at some time and at a later one. -/
structure Respects (granted : CapabilitySet) (before after : Table) : Prop where
  aligned : ∃ kept revised added, Aligned granted before after kept revised added
  stays : (∀ c ∈ [Capability.create, .update, .delete, .link], granted.contains c = false) →
    after = before

theorem Follows.exists_aligned {granted : CapabilitySet} {before after : Table}
    (follows : Follows granted before after) :
    ∃ kept revised added, Aligned granted before after kept revised added := by
  induction follows with
  | @added rows may =>
    refine ⟨[], [], rows, .slnil, .nil, rfl, fun lacks => ?_, fun _ => rfl, fun _ _ => rfl⟩
    by_contra some
    rw [may some] at lacks
    cases lacks
  | @kept row _ _ _ ih =>
    obtain ⟨kept, revised, added, left, revises, rfl, creates, deletes, changes⟩ := ih
    refine ⟨row :: kept, row :: revised, added, left.cons_cons row, .cons ⟨[], rfl⟩ revises, rfl,
      creates, fun lacks => by rw [deletes lacks], fun update link => by rw [changes update link]⟩
  | @revised row other _ _ changed may _ ih =>
    obtain ⟨kept, revised, added, left, revises, rfl, creates, deletes, -⟩ := ih
    refine ⟨row :: kept, other :: revised, added, left.cons_cons row, .cons changed revises, rfl,
      creates, fun lacks => by rw [deletes lacks], fun update link => ?_⟩
    rw [update, link] at may
    simp at may
  | @gone row _ _ may _ ih =>
    obtain ⟨kept, revised, added, left, revises, same, creates, -, changes⟩ := ih
    refine ⟨kept, revised, added, left.cons row, revises, same, creates, fun lacks => ?_, changes⟩
    rw [may] at lacks
    cases lacks

theorem Follows.respects {granted : CapabilitySet} {before after : Table}
    (follows : Follows granted before after) : Respects granted before after := by
  refine ⟨follows.exists_aligned, fun lacks => ?_⟩
  obtain ⟨kept, revised, added, aligned⟩ := follows.exists_aligned
  have unchanged : revised = kept := aligned.changes_none (lacks _ (by simp)) (lacks _ (by simp))
  rw [aligned.now, aligned.gains_none (lacks _ (by simp)), List.append_nil, unchanged,
    aligned.loses_none (lacks _ (by simp))]

end Table

/-! ## Requests -/

namespace Model

variable {model : Model} {store after : Store} {set : EntitySetDef}

/-- Whether each set has the rows that it had, or those after one write that its capabilities
allow. -/
def WritesOnce (model : Model) (store after : Store) : Prop :=
  ∀ set ∈ model.sets, Relation.ReflGen (Table.Write set.capabilities)
    (store.rows set.name.text) (after.rows set.name.text)

theorem ofTables_writesOnce (model : Model) : OfTables model.WritesOnce where
  stays same set _ := by rw [Store.rows_congr same]
  congr before once later set member := by
    rw [← Store.rows_congr before, Store.rows_congr later]
    exact once set member

theorem writesOnce_put {table : Table} (intact : model.Intact) (member : set ∈ model.sets)
    (write : Table.Write set.capabilities (store.rows set.name.text) table) :
    model.WritesOnce store (store.put set.name.text table) :=
  intact.forall_put (Q := fun other rows => Relation.ReflGen (Table.Write other.capabilities)
    (store.rows other.name.text) rows) member (fun _ _ => .refl) (.single write)

/-- An update of a row is a write for those who may update or link. -/
theorem writesOnce_update {key : Key} {name : String} {values : List (Identifier × Value)}
    {stored : Record} {table : Table} (intact : model.Intact) (member : set ∈ model.sets)
    (may : set.capabilities.contains .update = true ∨ set.capabilities.contains .link = true)
    (updated : Table.update name key values (store.rows set.name.text) = .ok (stored, table)) :
    model.WritesOnce store (store.put set.name.text table) := by
  obtain ⟨before, row, rest, split, -, -, -, -, rfl⟩ := Table.update_eq_ok updated
  refine writesOnce_put intact member ?_
  rw [split]
  exact .change before rest row values may

end Model

/-- The four writes ask for the capability of what they do. -/
theorem Service.relatesWrites_writesOnce {ctx : Context} (intact : ctx.model.Intact)
    (t : Transaction) : RelatesWrites ctx t ctx.model.WritesOnce := by
  have tables := ctx.model.ofTables_writesOnce
  have assigns (r : Relationship) (record : Record) (clear : Bool)
      (member : r.keeperSet ∈ ctx.model.sets) :
      Relates ctx.model.WritesOnce (r.assign record clear) :=
    Relationship.relates_assign tables fun may key => relates_write tables fun _ _ _ updated =>
      Model.writesOnce_update intact member (.inr may) updated
  refine ⟨tables, ?creates, ?updates, ?deletes, fun _ r record => assigns r record false,
    fun r record member _ => assigns r record true member⟩
  case creates =>
    intro _ _ set member
    refine EntitySet.relates_createRecord tables _ _ fun may record => ?_
    refine relates_write tables fun store stored table created => ?_
    obtain ⟨_, _, -, -, -, -, rfl⟩ := Table.create_eq_ok created
    exact Model.writesOnce_put intact member (.create _ stored may)
  case updates =>
    intro set key member
    refine EntitySet.relates_updateRecord tables fun may _ _ _ _ => ?_
    exact relates_write tables fun _ _ _ updated =>
      Model.writesOnce_update intact member (.inl may) updated
  case deletes =>
    intro set key member
    refine EntitySet.relates_delete tables fun may => ?_
    refine relates_write tables fun store removed table deleted => ?_
    obtain ⟨before, rest, split, -, -, rfl⟩ := Table.delete_eq_ok deleted
    refine Model.writesOnce_put intact member ?_
    rw [split]
    exact .delete before rest removed may

/-! ## Sequences of requests -/

/-- Whether a declared set is to have a capability: its table offers it and no mask excludes it. -/
def EntitySetDeclaration.grants (d : EntitySetDeclaration) (c : Capability) : Bool :=
  d.backing.offered.contains c && d.mask.all (·.contains c)

namespace ModelDeclaration

theorem Makes.contains {types : List EntityType} {sets : List EntitySetDeclaration}
    {d : EntitySetDeclaration} {set : EntitySetDef} (makes : Makes types sets d set)
    (c : Capability) : set.capabilities.contains c = d.grants c := by
  rw [makes.capabilities, EntitySetDeclaration.grants]
  cases d.mask with
  | none => simp
  | some mask => simp

/-- A set of a model has the capabilities that the declaration of its name grants. -/
theorem exists_grants_of_build {declaration : ModelDeclaration} {model : Model}
    (built : declaration.build = .ok model) {set : EntitySetDef} (member : set ∈ model.sets) :
    ∃ d ∈ declaration.sets, d.name = set.name.text ∧
      ∀ c, set.capabilities.contains c = d.grants c := by
  obtain ⟨d, among, makes⟩ := (checked_of_build built).exists_makes member
  exact ⟨d, among, makes.name.symm, makes.contains⟩

end ModelDeclaration

namespace Service

variable {ctx : Context} {store : Store}

/-- Along a sequence of requests the rows of a set follow those that it had before. -/
theorem follows_afterAll (intact : ctx.model.Intact) {set : EntitySetDef}
    (member : set ∈ ctx.model.sets) (requests : List Transaction) (store : Store) :
    Table.Follows set.capabilities (store.rows set.name.text)
      ((afterAll ctx requests store).rows set.name.text) := by
  induction requests generalizing store with
  | nil => exact .refl _
  | cons t rest ih =>
    have once := (relatesWrites_writesOnce intact t).relates_execute store set member
    exact (Table.Follows.of_reflGen once).trans (ih _)

/-- At any time of a sequence of requests the next one makes no write to the rows of a set but one
that the capabilities of the set allow, which are those that its declaration grants; and at any
later time the rows are as these capabilities say. -/
theorem respects_afterAll {declaration : ModelDeclaration}
    (built : declaration.build = .ok ctx.model) {set : EntitySetDef}
    (member : set ∈ ctx.model.sets) (earlier : List Transaction) (store : Store) :
    let rows requests := (afterAll ctx requests store).rows set.name.text
    (∃ d ∈ declaration.sets, d.name = set.name.text ∧
        ∀ c, set.capabilities.contains c = d.grants c) ∧
      (∀ t, Relation.ReflGen (Table.Write set.capabilities) (rows earlier)
        (rows (earlier ++ [t]))) ∧
      ∀ later, Table.Respects set.capabilities (rows earlier) (rows (earlier ++ later)) := by
  intro rows
  have intact := ModelDeclaration.intact_of_build built
  refine ⟨ModelDeclaration.exists_grants_of_build built member, fun t => ?_, fun later => ?_⟩
  · simp only [rows, afterAll_append]
    exact (relatesWrites_writesOnce intact t).relates_execute _ set member
  · simp only [rows, afterAll_append]
    exact (follows_afterAll intact member later _).respects

/-! Customers whose orders may only be read. -/

def archiveDeclaration : ModelDeclaration :=
  { EntitySet.orderDeclaration with
    sets := [⟨"Customers", "Customer", [], .table .all, none, none⟩,
      ⟨"Orders", "Order", [], .table .all, none, some .readOnly⟩] }

def archivedOrders : EntitySetDef :=
  { EntitySet.orders with capabilities := CapabilitySet.all.inter .readOnly }

def archiveContext : Context :=
  ⟨{ EntitySet.orderModel with sets := [EntitySet.customers, archivedOrders] }, Config.standard,
    none, .standard⟩

/-- Requests that give an order to the customer, add one and remove one. -/
def archiveRequests : List Transaction :=
  [{ request := EntitySet.assignRequest, options := QueryOptions.empty, depth := 0, drawn := .nil },
    { request := ⟨.post, "/Customers(1)/Orders", [], some (.object [("id", .int 7)])⟩,
      options := QueryOptions.empty, depth := 0, drawn := .nil },
    { request := ⟨.delete, "/Customers(1)/Orders(6)", [], none⟩, options := QueryOptions.empty,
      depth := 0, drawn := .nil }]

theorem respects_afterAll_archive :
    (afterAll archiveContext archiveRequests EntitySet.unassignedStore).rows "Orders" =
      EntitySet.unassignedStore.rows "Orders" := by
  have built : archiveDeclaration.build = .ok archiveContext.model := rfl
  have member : archivedOrders ∈ archiveContext.model.sets := by simp [archiveContext]
  obtain ⟨-, -, respects⟩ := respects_afterAll built member [] EntitySet.unassignedStore
  exact (respects archiveRequests).stays (by decide)

end Service

end OData
