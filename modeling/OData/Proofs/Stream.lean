import OData.Proofs.Action
import OData.Proofs.Result
import OData.Service.EntitySet

/-!
# What a stream yields

`Stream.left` is what is still to come out of a stream over the records that a plan selects.
Fetching a chunk keeps it and `next` takes its head, so a stream over a table yields the selected
records from its offset on, at most `limit` of them, whatever the size of the chunks.
-/

set_option autoImplicit false

namespace OData

/-- At most so many items, if that is limited. -/
def limited {α : Type} (limit : Option Nat) (items : List α) : List α :=
  match limit with
  | some n => items.take n
  | none => items

theorem limited_length_le {α : Type} (limit : Option Nat) (items : List α) :
    (limited limit items).length ≤ items.length := by
  cases limit with
  | none => exact Nat.le_refl _
  | some n => exact List.length_take_le' n items

/-- A slice and what is left after it. -/
theorem take_append_limited {α : Type} {limit : Option Nat} {n : Nat} (items : List α)
    (within : ∀ m, limit = some m → n ≤ m) :
    items.take n ++ limited (limit.map (· - (items.take n).length)) (items.drop n) =
      limited limit items := by
  cases limit with
  | none => simp [limited]
  | some m =>
    have le := within m rfl
    simp only [limited, Option.map_some, List.length_take]
    rcases Nat.le_total items.length n with short | long
    · rw [List.take_of_length_le short, List.drop_of_length_le short, List.take_nil,
        List.append_nil, List.take_of_length_le (Nat.le_trans short le)]
    · rw [Nat.min_eq_left long, ← List.take_add, Nat.add_sub_cancel' le]

namespace QueryPlan

variable {plan : QueryPlan} {sorting : Sorting} {records selected : List Record}

/-- A plan selects each record that its filter admits once. -/
theorem run_perm (sorts : plan.run sorting records = some selected) :
    selected.Perm (plan.matching records) :=
  sorting.perm sorts

theorem length_of_run (sorts : plan.run sorting records = some selected) :
    selected.length = records.countP plan.admits := by
  rw [(run_perm sorts).length_eq, matching, List.countP_eq_length_filter]

/-- All sorts give the same records where the order of the plan is total. -/
theorem run_of_orders (sorting : Sorting) (total : plan.Orders records) :
    plan.run sorting records = some (plan.arrange records) :=
  sorting.stable total

end QueryPlan

open OData.Action

/-- A fetch from a table gives a slice of its rows if these can be sorted. -/
theorem EntitySetDef.yields_fetch {set : EntitySetDef} {offered : CapabilitySet} {sorting : Sorting}
    {plan : QueryPlan} {store : Store} {selected : List Record}
    (table : set.backing = .table offered)
    (sorts : plan.run sorting (store.rows set.name.text) = some selected) (offset limit : Nat) :
    Yields (set.fetch sorting plan offset limit) store ((selected.drop offset).take limit) := by
  have works := set.fetchFails_of_table store table
  exact ⟨recordFetch set.name.text store, by simp [runOn_fetch, works, sorts], rfl⟩

namespace Stream

theorem start_eq_ok_iff {set : EntitySet} {plan : QueryPlan} {offset : Nat} {limit : Option Nat}
    {s : Stream} : Stream.start set plan offset limit = .ok s ↔
      set.require .query = .ok () ∧ s = ⟨plan, offset, limit, [], false⟩ := by
  constructor
  · intro started
    obtain ⟨⟨⟩, able, same⟩ := Result.bind_eq_ok.mp started
    cases same
    exact ⟨able, rfl⟩
  · rintro ⟨able, rfl⟩
    exact Result.bind_eq_ok.mpr ⟨(), able, rfl⟩

/-- What is still to come out of a stream over some selected records. -/
def left (selected : List Record) (s : Stream) : List Record :=
  s.buffer ++ if s.drained then [] else limited s.remaining (selected.drop s.offset)

theorem wanted_le_remaining {chunk : Nat} {s : Stream} :
    ∀ n, s.remaining = some n → s.wanted chunk ≤ n := by
  intro n remains
  simp only [wanted, remains]
  exact Nat.min_le_left n chunk

/-- With chunks of some size nothing is wanted only where nothing remains. -/
theorem remaining_of_wanted_zero {chunk : Nat} {s : Stream} (positive : 0 < chunk)
    (zero : s.wanted chunk = 0) : s.remaining = some 0 := by
  unfold wanted at zero
  cases remains : s.remaining with
  | none =>
    simp only [remains] at zero
    omega
  | some n =>
    simp only [remains] at zero
    rw [show n = 0 by omega]

variable {sorting : Sorting} {set : EntitySet} {chunk : Nat} {store : Store}
  {selected : List Record}

theorem fill_of_empty {s : Stream} (empty : s.buffer = []) (undrained : s.drained = false) :
    s.fill sorting set chunk = s.pull sorting set chunk := by
  simp [fill, empty, undrained]

/-- The stream after a chunk of records. -/
def pulled (s : Stream) (take : Nat) (records : List Record) : Stream :=
  { s with offset := s.offset + records.length, buffer := s.buffer ++ records,
           remaining := s.remaining.map (· - records.length),
           drained := s.drained || decide (records.length < take) }

theorem left_pulled {s : Stream} {take : Nat} (selected : List Record)
    (undrained : s.drained = false) (within : ∀ n, s.remaining = some n → take ≤ n) :
    (s.pulled take ((selected.drop s.offset).take take)).left selected = s.left selected := by
  have split := take_append_limited (selected.drop s.offset) within
  simp only [left, pulled, undrained, Bool.false_or, decide_eq_true_eq, Bool.false_eq_true,
    if_false, List.append_assoc, List.append_cancel_left_eq]
  by_cases short : ((selected.drop s.offset).take take).length < take
  · -- a chunk that is not full was the last one
    have all : (selected.drop s.offset).length ≤ take := by
      rw [List.length_take] at short; omega
    rw [if_pos short, List.append_nil, ← split, List.drop_of_length_le all]
    cases s.remaining <;> simp [limited]
  · have full : ((selected.drop s.offset).take take).length = take := by
      have := List.length_take_le take (selected.drop s.offset)
      omega
    rw [if_neg short, full, ← List.drop_drop, ← split, full]

theorem yields_fill {offered : CapabilitySet} (table : set.definition.backing = .table offered)
    (positive : 0 < chunk) (s : Stream)
    (sorts : s.plan.run sorting (store.rows set.definition.name.text) = some selected) :
    ∃ t : Stream, Yields (s.fill sorting set chunk) store t ∧ t.plan = s.plan ∧
      t.left selected = s.left selected ∧ (t.buffer = [] → t.left selected = []) := by
  by_cases stale : s.buffer = [] ∧ s.drained = false
  · obtain ⟨empty, undrained⟩ := stale
    rw [fill_of_empty empty undrained, pull]
    by_cases zero : s.wanted chunk = 0
    · have remains := remaining_of_wanted_zero positive zero
      refine ⟨{ s with drained := true }, ?_, rfl, ?_, ?_⟩
      · simpa [zero] using yields_pure _ store
      · simp [left, undrained, remains, limited]
      · simp [left, empty]
    · have fetched := EntitySetDef.yields_fetch table sorts s.offset (s.wanted chunk)
      refine ⟨s.pulled (s.wanted chunk) ((selected.drop s.offset).take (s.wanted chunk)), ?_, rfl,
        left_pulled selected undrained wanted_le_remaining, ?_⟩
      · simp only [zero, if_false]
        exact fetched.bind fun after _ => yields_pure _ after
      · intro nothing
        have none : (selected.drop s.offset).take (s.wanted chunk) = [] := by
          simpa [pulled, empty] using nothing
        simp [left, pulled, none, undrained, Nat.pos_of_ne_zero zero, empty]
  · have keeps : s.fill sorting set chunk = pure s := by
      have ready : (s.buffer.isEmpty && !s.drained) = false := by
        simpa [List.isEmpty_iff] using stale
      simp [fill, ready]
    refine ⟨s, keeps ▸ yields_pure s store, rfl, rfl, fun empty => ?_⟩
    have drained : s.drained = true := by simpa [empty] using stale
    simp [left, empty, drained]

theorem yields_next {offered : CapabilitySet} (table : set.definition.backing = .table offered)
    (positive : 0 < chunk) (s : Stream)
    (sorts : s.plan.run sorting (store.rows set.definition.name.text) = some selected) :
    ∃ t : Stream, Yields (s.next sorting set chunk) store ((s.left selected).head?, t) ∧
      t.plan = s.plan ∧ t.left selected = (s.left selected).tail := by
  obtain ⟨t, fills, plan, kept, dry⟩ := yields_fill table positive s sorts
  cases buffer : t.buffer with
  | nil =>
    have nothing : s.left selected = [] := kept ▸ dry buffer
    refine ⟨t, ?_, plan, ?_⟩
    · rw [nothing]
      exact fills.bind fun after _ => by simpa [buffer] using yields_pure _ after
    · rw [nothing]
      exact dry buffer
  | cons record rest =>
    have shape : s.left selected = record :: left selected { t with buffer := rest } := by
      rw [← kept]
      simp [left, buffer]
    refine ⟨{ t with buffer := rest }, ?_, plan, by rw [shape]; rfl⟩
    rw [shape]
    exact fills.bind fun after _ => by simpa [buffer] using yields_pure _ after

theorem yields_takeRecords {offered : CapabilitySet}
    (table : set.definition.backing = .table offered) (positive : 0 < chunk) :
    ∀ (count : Nat) (s : Stream) (store : Store),
      s.plan.run sorting (store.rows set.definition.name.text) = some selected →
      Yields (s.takeRecords sorting set chunk count) store ((s.left selected).take count) := by
  intro count
  induction count with
  | zero => exact fun s store _ => yields_pure [] store
  | succ count ih =>
    intro s store sorts
    obtain ⟨t, yields, plan, tail⟩ := yields_next table positive s sorts
    rw [takeRecords]
    apply yields.bind
    intro after same
    cases shape : s.left selected with
    | nil => exact yields_pure [] after
    | cons record rest =>
      have others := ih t after (by rwa [plan, Store.rows_congr same])
      rw [tail, shape] at others
      exact others.bind fun last _ => yields_pure _ last

/-- A stream over a table yields the selected records from its offset on, at most `limit` of
them. -/
theorem yields_records {offered : CapabilitySet} {plan : QueryPlan}
    (table : set.definition.backing = .table offered) (positive : 0 < chunk)
    (sorts : plan.run sorting (store.rows set.definition.name.text) = some selected)
    (offset : Nat) (limit : Option Nat) :
    Yields (Stream.records sorting set chunk ⟨plan, offset, limit, [], false⟩) store
      (limited limit (selected.drop offset)) := by
  have rows : Yields set.definition.table store (store.rows set.definition.name.text) :=
    ⟨store, by simp, rfl⟩
  apply rows.bind
  intro after same
  have taken := yields_takeRecords table positive
    ((store.rows set.definition.name.text).length + 1) ⟨plan, offset, limit, [], false⟩ after
    (by rwa [Store.rows_congr same])
  -- there are fewer records than steps
  have enough : (limited limit (selected.drop offset)).length ≤
      (store.rows set.definition.name.text).length + 1 := by
    have few := QueryPlan.length_of_run sorts
    have admitted := List.countP_le_length (p := plan.admits)
      (l := store.rows set.definition.name.text)
    have := limited_length_le limit (selected.drop offset)
    rw [List.length_drop] at this
    omega
  simpa [left, List.take_of_length_le enough] using taken

/-! ## Records that cannot be sorted -/

/-- A new stream that wants a record stops the program if the rows cannot be sorted. -/
theorem runOn_next_unsortable {offered : CapabilitySet} {s : Stream}
    (table : set.definition.backing = .table offered) (empty : s.buffer = [])
    (undrained : s.drained = false) (wants : s.wanted chunk ≠ 0)
    (stops : s.plan.run sorting (store.rows set.definition.name.text) = none) :
    (s.next sorting set chunk).runOn store = (.error QueryPlan.unsortable,
      EntitySetDef.recordFetch set.definition.name.text store) := by
  have works := set.definition.fetchFails_of_table store table
  have fetch := set.definition.runOn_fetch store sorting s.plan s.offset (s.wanted chunk)
  rw [works, stops] at fetch
  rw [next, fill_of_empty empty undrained, pull]
  simp only [wants, if_false, bind_assoc]
  exact runOn_bind_of_error fetch

theorem runOn_records_unsortable {offered : CapabilitySet} {plan : QueryPlan} {offset : Nat}
    {limit : Option Nat} (table : set.definition.backing = .table offered) (positive : 0 < chunk)
    (wants : limit ≠ some 0)
    (stops : plan.run sorting (store.rows set.definition.name.text) = none) :
    (Stream.records sorting set chunk ⟨plan, offset, limit, [], false⟩).runOn store =
      (.error QueryPlan.unsortable,
        EntitySetDef.recordFetch set.definition.name.text store) := by
  have some : wanted chunk ⟨plan, offset, limit, [], false⟩ ≠ 0 :=
    fun zero => wants (remaining_of_wanted_zero positive zero)
  have rows : runOn set.definition.table store =
      (.ok (store.rows set.definition.name.text), store) := by simp
  rw [Stream.records, runOn_bind_of_ok rows, takeRecords,
    runOn_bind_of_error (runOn_next_unsortable table rfl rfl some stops)]

end Stream

end OData
