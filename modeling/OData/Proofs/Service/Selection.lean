import OData.Proofs.Paging
import OData.Proofs.Result
import OData.Proofs.Service.Reads

/-!
# What queries select

Whatever a stream yields, or a page shows, is made of rows that the plan of the query selects, and
what is counted are the rows that its filter admits.
-/

set_option autoImplicit false

namespace OData

open OData.Action

theorem QueryPlan.mem_matching_iff {plan : QueryPlan} {rows : List Record} {row : Record} :
    row ∈ plan.matching rows ↔ row ∈ rows ∧ plan.admits row = true :=
  List.mem_filter

variable {ctx : Context} {store : Store} {set : EntitySet} {plan : QueryPlan}
  {sorting : Sorting} {chunk : Nat}

theorem EntitySetDef.ensures_fetch (sorting : Sorting) (definition : EntitySetDef)
    (plan : QueryPlan) (offset limit : Nat) :
    Ensures store
      (fun fetched => ∀ row ∈ fetched, row ∈ plan.matching (store.rows definition.name.text))
      (definition.fetch sorting plan offset limit) := by
  refine (reads_fetch definition sorting plan offset limit).ensures
    fun other fetched after same run => ?_
  rw [runOn_fetch, Store.rows_congr same] at run
  split at run
  · cases run
  · split at run
    next selected sorts =>
      cases run
      exact fun row member => (QueryPlan.run_perm sorts).mem_iff.mp
        (List.mem_of_mem_drop (List.mem_of_mem_take member))
    next => cases run

/-! ## Streams -/

namespace Stream

/-- Whether a stream fetches the rows of a plan and has some of these in its buffer. -/
structure Selects (plan : QueryPlan) (rows : List Record) (s : Stream) : Prop where
  fetches : s.plan = plan
  buffer : ∀ row ∈ s.buffer, row ∈ plan.matching rows

theorem selects_start (plan : QueryPlan) (rows : List Record) (offset : Nat) (limit : Option Nat) :
    Selects plan rows ⟨plan, offset, limit, [], false⟩ :=
  ⟨rfl, fun _ member => absurd member (by simp)⟩

variable {s : Stream} (selects : s.Selects plan (store.rows set.definition.name.text))

include selects

theorem ensures_pull :
    Ensures store (Selects plan (store.rows set.definition.name.text))
      (s.pull sorting set chunk) := by
  rw [pull]
  split
  · exact ensures_pure ⟨selects.fetches, selects.buffer⟩
  · refine (EntitySetDef.ensures_fetch _ _ _ _ _).map fun fetched chosen => ⟨selects.fetches, ?_⟩
    intro row member
    rcases List.mem_append.mp member with before | fresh
    · exact selects.buffer row before
    · rw [← selects.fetches]
      exact chosen row fresh

theorem ensures_fill :
    Ensures store (Selects plan (store.rows set.definition.name.text))
      (s.fill sorting set chunk) := by
  rw [fill]
  split
  · exact ensures_pull selects
  · exact ensures_pure selects

theorem ensures_next :
    Ensures store (fun found =>
        (∀ row, found.1 = some row → row ∈ plan.matching (store.rows set.definition.name.text)) ∧
          found.2.Selects plan (store.rows set.definition.name.text))
      (s.next sorting set chunk) := by
  refine (ensures_fill selects).bind fun t filled => ?_
  cases buffer : t.buffer with
  | nil => exact ensures_pure (And.intro (by simp) filled)
  | cons first rest =>
    refine ensures_pure (And.intro ?_ ⟨filled.fetches, ?_⟩)
    · rintro _ ⟨⟩
      exact filled.buffer first (buffer ▸ List.mem_cons_self)
    · exact fun row member => filled.buffer row (buffer ▸ List.mem_cons_of_mem _ member)

omit selects in
theorem ensures_takeRecords (count : Nat) : ∀ s : Stream,
    s.Selects plan (store.rows set.definition.name.text) →
    Ensures store
      (fun taken => ∀ row ∈ taken, row ∈ plan.matching (store.rows set.definition.name.text))
      (s.takeRecords sorting set chunk count) := by
  induction count with
  | zero => exact fun _ _ => ensures_pure (by simp)
  | succ count ih =>
    intro s selects
    refine (ensures_next selects).bind ?_
    rintro ⟨found, t⟩ ⟨chosen, later⟩
    cases found with
    | none => exact ensures_pure (by simp)
    | some first =>
      refine (ih t later).map fun rest others row member => ?_
      rcases List.mem_cons.mp member with rfl | among
      · exact chosen row rfl
      · exact others row among

theorem ensures_records :
    Ensures store
      (fun taken => ∀ row ∈ taken, row ∈ plan.matching (store.rows set.definition.name.text))
      (s.records sorting set chunk) :=
  (EntitySetDef.reads_table _).bind_ensures fun _ => ensures_takeRecords _ s selects

end Stream

/-! ## Sets -/

namespace EntitySet

theorem ensures_first (plan : QueryPlan) :
    Ensures store (fun found =>
        ∀ row, found = some row → row ∈ plan.matching (store.rows set.definition.name.text))
      (set.first ctx plan) := by
  refine Ensures.lift_bind fun s started => ?_
  obtain ⟨_, _, started⟩ := Result.bind_eq_ok.mp started
  cases started
  exact (Stream.ensures_next (Stream.selects_start plan _ 0 (some 1))).map fun found chosen =>
    chosen.1

theorem ensures_count (plan : QueryPlan) :
    Ensures store (fun n => n = (store.rows set.definition.name.text).countP plan.admits)
      (set.count plan) := by
  refine (reads_count set plan).ensures fun other n after same run => ?_
  obtain ⟨⟨⟩, _, run⟩ := runOn_lift_bind_ok_iff.mp run
  rw [EntitySetDef.runOn_count, Store.rows_congr same] at run
  cases run
  rfl

/-- The entity that is found first is made of a row that a plan for the options selects. -/
theorem ensures_firstEntity {options : QueryOptions} {make : Maker} {made : Record → Entity → Prop}
    (makes : ∀ plan, set.plan ctx options = .ok plan →
      ∀ row ∈ plan.matching (store.rows set.definition.name.text),
        Ensures store (made row) (make plan.select row)) :
    Ensures store (fun found => ∀ entity, found = some entity →
        ∃ plan, set.plan ctx options = .ok plan ∧
          ∃ row ∈ plan.matching (store.rows set.definition.name.text), made row entity)
      (set.firstEntity ctx options make) := by
  refine Ensures.lift_bind fun plan accepted => ?_
  refine (ensures_first plan).bind fun found chosen => ?_
  cases found with
  | none => exact ensures_pure (by simp)
  | some row =>
    refine (makes plan accepted row (chosen row rfl)).map fun entity is_made => ?_
    rintro _ ⟨⟩
    exact ⟨plan, accepted, row, chosen row rfl, is_made⟩

end EntitySet

/-! ## Pages -/

namespace Pager

theorem ensures_fetchRecords (plan : QueryPlan) (offset take : Nat) :
    Ensures store (fun fetched =>
        ∀ row ∈ fetched, row ∈ plan.matching (store.rows set.definition.name.text))
      (fetchRecords ctx set plan offset take) := by
  rw [fetchRecords]
  split
  · exact ensures_pure (by simp)
  · refine Ensures.lift_bind fun size _ => Ensures.lift_bind fun s started => ?_
    obtain ⟨_, _, started⟩ := Result.bind_eq_ok.mp started
    cases started
    exact Stream.ensures_records (Stream.selects_start plan _ _ _)

theorem ensures_countFor (options : QueryOptions) (plan : QueryPlan) :
    Ensures store (fun count => count =
        if options.count then some ((store.rows set.definition.name.text).countP plan.admits)
        else none)
      (countFor set options plan) := by
  rw [countFor]
  cases options.count with
  | true => exact (EntitySet.ensures_count plan).map fun n counted => by simp [counted]
  | false => exact ensures_pure rfl

theorem mem_of_mem_pageOf {pager : Pager} {offset : Nat} {remaining count : Option Nat}
    {fetched : List Record} {row : Record}
    (member : row ∈ (pager.pageOf offset remaining count fetched).1.records) : row ∈ fetched := by
  have records : (pager.pageOf offset remaining count fetched).1.records =
      if pager.take remaining < fetched.length then fetched.dropLast else fetched := by
    rw [pageOf, apply_ite Prod.fst, apply_ite RecordPage.records, ite_self]
  rw [records] at member
  split at member
  · exact List.dropLast_subset _ member
  · exact member

theorem count_pageOf (pager : Pager) (offset : Nat) (remaining count : Option Nat)
    (fetched : List Record) : (pager.pageOf offset remaining count fetched).1.count = count := by
  rw [pageOf, apply_ite Prod.fst, apply_ite RecordPage.count, ite_self]

/-- The records of the first page are rows that the plan selects. -/
theorem ensures_nextRecords {pager : Pager} (options : QueryOptions)
    (initial : pager.state = .initial) :
    Ensures store (fun found => ∃ page next, found = some (page, next) ∧ next.plan = pager.plan ∧
        (∀ row ∈ page.records, row ∈ pager.plan.matching (store.rows set.definition.name.text)) ∧
        page.count = if options.count then
          some ((store.rows set.definition.name.text).countP pager.plan.admits) else none)
      (pager.nextRecords ctx set options) := by
  rw [nextRecords, initial]
  refine (ensures_countFor options pager.plan).bind fun count counted => ?_
  refine (ensures_fetchRecords pager.plan pager.start.1 (pager.take pager.start.2)).map
    fun fetched chosen => ?_
  let shown := pager.pageOf pager.start.1 pager.start.2 count fetched
  refine ⟨shown.1, shown.2, rfl, plan_pageOf pager _ _ count fetched, ?_, ?_⟩
  · exact fun row member => chosen row (mem_of_mem_pageOf member)
  · exact (count_pageOf pager _ _ count fetched).trans counted

/-- The entities on a page are made of rows that a plan for the options selects. -/
theorem ensures_firstPage {options : QueryOptions} {make : EntitySet.Maker}
    {made : Record → Entity → Prop} (makes : ∀ plan, set.plan ctx options = .ok plan →
      ∀ row ∈ plan.matching (store.rows set.definition.name.text),
        Ensures store (made row) (make plan.select row)) :
    Ensures store (fun page => ∃ plan, set.plan ctx options = .ok plan ∧
        (∀ entity ∈ page.entities,
          ∃ row ∈ plan.matching (store.rows set.definition.name.text), made row entity) ∧
        page.count = if options.count then
          some ((store.rows set.definition.name.text).countP plan.admits) else none)
      (firstPage ctx set options make) := by
  refine Ensures.lift_bind fun pager opens => ?_
  obtain ⟨plan, accepted, opens⟩ := Result.bind_eq_ok.mp opens
  obtain ⟨start, _, result⟩ := Result.bind_eq_ok.mp opens
  cases result
  rw [next, bind_assoc]
  refine (ensures_nextRecords options rfl).bind ?_
  rintro _ ⟨page, next, rfl, same, chosen, counted⟩
  simp only [bind_assoc, pure_bind, same]
  refine (Ensures.mapM made fun row member =>
    makes plan accepted row (chosen row member)).map fun entities each => ?_
  refine ⟨plan, accepted, fun entity member => ?_, counted⟩
  obtain ⟨row, among, is_made⟩ := each entity member
  exact ⟨row, chosen row among, is_made⟩

end Pager

end OData
