import OData.Proofs.Paging
import OData.Proofs.Service.Reads

/-!
# The arithmetic of pages

Places of records and numbers of them are of 64 bits.  No fetch reaches past the last row, so the
places stay in range if the rows can be counted, and a page never begins before the skipped records
end.  The one more record that is fetched for a page is in range unless the page may hold as many
records as there are numbers; then the program stops instead of the page.
-/

set_option autoImplicit false

namespace OData

open OData.Action

variable {set : EntitySet} {offered : CapabilitySet} {plan : QueryPlan} {store after : Store}

/-- Whether the rows of a set have numbers of 64 bits. -/
def EntitySet.IsCounted (set : EntitySet) (store : Store) : Prop :=
  (store.rows set.definition.name.text).length < recordLimit

/-- No slice of the selected records goes past the last row. -/
theorem add_length_drop_le {sorting : Sorting} {rows selected : List Record}
    (sorts : plan.run sorting rows = some selected) (offset : Nat) :
    offset + (selected.drop offset).length ≤ max offset rows.length := by
  have admitted := List.countP_le_length (p := plan.admits) (l := rows)
  rw [List.length_drop, QueryPlan.length_of_run sorts]
  omega

theorem EntitySetDef.add_length_fetch_le {definition : EntitySetDef} {sorting : Sorting}
    {offset take : Nat} {records : List Record}
    (fetched : (definition.fetch sorting plan offset take).runOn store = (.ok records, after)) :
    offset + records.length ≤ max offset (store.rows definition.name.text).length := by
  rw [runOn_fetch] at fetched
  split at fetched
  next => cases fetched
  next =>
    split at fetched
    next selected sorts =>
      cases fetched
      have slice := add_length_drop_le sorts offset
      have few := List.length_take_le' take (selected.drop offset)
      omega
    next => cases fetched

/-! ## Streams -/

namespace Stream

variable {sorting : Sorting} {chunk : Nat} {s t : Stream}

/-- The streams over a set, as they start and after each record, while the rows may change. -/
inductive Reachable (sorting : Sorting) (set : EntitySet) (chunk : Nat) : Stream → Prop where
  | started {plan : QueryPlan} {offset : Nat} {limit : Option Nat} {s : Stream} :
      Stream.start set plan offset limit = .ok s → offset < recordLimit →
      Reachable sorting set chunk s
  | next {s t : Stream} {record : Option Record} {store after : Store} :
      Reachable sorting set chunk s → set.IsCounted store →
      (s.next sorting set chunk).runOn store = (.ok (record, t), after) →
      Reachable sorting set chunk t

theorem offset_pull_le (pulled : (s.pull sorting set chunk).runOn store = (.ok t, after)) :
    t.offset ≤ max s.offset (store.rows set.definition.name.text).length := by
  rw [pull] at pulled
  split at pulled
  next =>
    cases pulled
    exact Nat.le_max_left _ _
  next =>
    obtain ⟨records, middle, fetched, same⟩ := runOn_bind_ok_iff.mp pulled
    cases same
    exact EntitySetDef.add_length_fetch_le fetched

theorem offset_next_le {record : Option Record}
    (found : (s.next sorting set chunk).runOn store = (.ok (record, t), after)) :
    t.offset ≤ max s.offset (store.rows set.definition.name.text).length := by
  obtain ⟨filled, middle, fills, rest⟩ := runOn_bind_ok_iff.mp found
  have bound : filled.offset ≤ max s.offset (store.rows set.definition.name.text).length := by
    rw [fill] at fills
    split at fills
    next => exact offset_pull_le fills
    next =>
      cases fills
      exact Nat.le_max_left _ _
  split at rest
  next =>
    cases rest
    exact bound
  next =>
    cases rest
    exact bound

theorem Reachable.offset_lt (reachable : Reachable sorting set chunk s) :
    s.offset < recordLimit := by
  induction reachable with
  | started starts small =>
    obtain ⟨-, rfl⟩ := Stream.start_eq_ok_iff.mp starts
    exact small
  | next _ counted found ih =>
    exact Nat.lt_of_le_of_lt (offset_next_le found) (Nat.max_lt.mpr ⟨ih, counted⟩)

end Stream

/-! ## Pagers -/

namespace Pager

variable {ctx : Context} {options : QueryOptions} {pager first : Pager}

/-- Where the next page begins, and how many entities are wanted from there. -/
def position? (pager : Pager) : Option (Nat × Option Nat) :=
  match pager.state with
  | .initial => some pager.start
  | .paging offset remaining => some (offset, remaining)
  | .exhausted => none

/-- The pagers of some options, as opened and after each page, while the rows may change. -/
inductive Reachable (ctx : Context) (set : EntitySet) (options : QueryOptions) : Pager → Prop where
  | opened {pager : Pager} : open? ctx set options = .ok pager → Reachable ctx set options pager
  | next {pager after : Pager} {page : RecordPage} {store last : Store} :
      Reachable ctx set options pager → set.IsCounted store →
      (pager.nextRecords ctx set options).runOn store = (.ok (some (page, after)), last) →
      Reachable ctx set options after

/-- A page is made of what is fetched at the position of the pager. -/
theorem nextRecords_eq_ok {page : RecordPage} {next : Pager}
    (run : (pager.nextRecords ctx set options).runOn store = (.ok (some (page, next)), after)) :
    ∃ offset remaining count fetched middle, pager.position? = some (offset, remaining) ∧
      middle.tables = store.tables ∧
      (fetchRecords ctx set pager.plan offset (pager.take remaining)).runOn middle =
        (.ok fetched, after) ∧ pager.pageOf offset remaining count fetched = (page, next) := by
  rw [nextRecords] at run
  split at run
  next => cases run
  next initial =>
    obtain ⟨count, middle, counted, run⟩ := runOn_bind_ok_iff.mp run
    obtain ⟨fetched, last, fetches, made⟩ := runOn_bind_ok_iff.mp run
    rw [runOn_pure, Prod.mk.injEq, Except.ok.injEq, Option.some.injEq] at made
    obtain ⟨made, rfl⟩ := made
    have position : pager.position? = some pager.start := by rw [position?, initial]
    have kept : middle.tables = store.tables :=
      (reads_countFor set options pager.plan).tables_eq counted
    exact ⟨_, _, count, fetched, middle, position, kept, fetches, made⟩
  next offset remaining paging =>
    obtain ⟨fetched, last, fetches, made⟩ := runOn_bind_ok_iff.mp run
    rw [runOn_pure, Prod.mk.injEq, Except.ok.injEq, Option.some.injEq] at made
    obtain ⟨made, rfl⟩ := made
    have position : pager.position? = some (offset, remaining) := by rw [position?, paging]
    exact ⟨offset, remaining, none, fetched, store, position, rfl, fetches, made⟩

theorem length_pageOf_le (pager : Pager) (offset : Nat) (remaining count : Option Nat)
    (fetched : List Record) :
    (pager.pageOf offset remaining count fetched).1.records.length ≤ fetched.length := by
  have cut : (if pager.take remaining < fetched.length then fetched.dropLast
      else fetched).length ≤ fetched.length := by
    split
    · rw [List.length_dropLast]
      omega
    · exact Nat.le_refl _
  rw [pageOf, apply_ite Prod.fst, apply_ite RecordPage.records, ite_self]
  exact cut

/-- The next page begins after the records of the last one. -/
structure Follows (next pager : Pager) (offset : Nat) (remaining : Option Nat) (produced : Nat) :
    Prop where
  skip : next.skip = pager.skip
  pageSize : next.pageSize = pager.pageSize
  position : ∀ place, next.position? = some place →
    place = (offset + produced, remaining.map (· - produced))

theorem follows_pageOf (pager : Pager) (offset : Nat) (remaining count : Option Nat)
    (fetched : List Record) :
    let made := pager.pageOf offset remaining count fetched
    made.2.Follows pager offset remaining made.1.records.length := by
  simp only [pageOf]
  -- The records of the page matter only in their number here.
  generalize (if pager.take remaining < fetched.length then fetched.dropLast else fetched) = records
  split
  · refine ⟨rfl, rfl, ?_⟩
    rintro _ ⟨⟩
    rfl
  · refine ⟨rfl, rfl, ?_⟩
    rintro _ ⟨⟩

/-- What is fetched for a page does not go past the last row, nor past the size of the fetch. -/
theorem fetchRecords_bounds (table : set.definition.backing = .table offered)
    {offset take : Nat} {fetched : List Record}
    (fetches : (fetchRecords ctx set plan offset take).runOn store = (.ok fetched, after)) :
    offset + fetched.length ≤ max offset (store.rows set.definition.name.text).length ∧
      fetched.length ≤ take + 1 := by
  by_cases zero : take = 0
  · rw [fetchRecords, if_pos zero] at fetches
    cases fetches
    exact ⟨Nat.le_max_left _ _, Nat.zero_le _⟩
  · obtain ⟨small, able, selected, sorts⟩ := exists_run_of_fetchRecords table zero fetches
    have size : fetchSize take = .ok (take + 1) := fetchSize_eq_ok_iff.mpr ⟨rfl, small⟩
    rw [fetchRecords, if_neg zero, size, lift_ok_bind, Stream.start_eq_ok_iff.mpr ⟨able, rfl⟩,
      lift_ok_bind] at fetches
    obtain ⟨last, run, -⟩ := Stream.yields_records table
      (Nat.le_max_left 1 _ : 0 < set.chunkSize ctx) sorts offset (some (take + 1))
    cases fetches.symm.trans run
    have slice := add_length_drop_le sorts offset
    rw [length_limited]
    simp only
    omega

/-- What holds of all pagers of some options. -/
structure Regular (first pager : Pager) : Prop where
  pageSize : pager.pageSize = first.pageSize
  position : ∀ offset remaining, pager.position? = some (offset, remaining) →
    pager.skip ≤ offset ∧ offset < recordLimit ∧
      pager.take remaining ≤ first.take first.start.2

theorem take_map_le {next : Pager} (same : next.pageSize = pager.pageSize)
    (remaining : Option Nat) (n : Nat) :
    next.take (remaining.map (· - n)) ≤ pager.take remaining := by
  cases remaining with
  | none => exact Nat.le_of_eq same
  | some m =>
    simp only [take, Option.map_some, same]
    omega

theorem startOf_bounds {fault : String → String} {fingerprint : String} {start : Nat × Option Nat}
    (skip : ∀ n ∈ options.skip, n < recordLimit) (top : ∀ n ∈ options.top, n < recordLimit)
    (starts : startOf fault fingerprint options = .ok start) :
    options.skip.getD 0 ≤ start.1 ∧ start.1 < recordLimit ∧ ∀ n ∈ start.2, n < recordLimit := by
  have small : options.skip.getD 0 < recordLimit := by
    cases given : options.skip with
    | none => decide
    | some n => exact skip n given
  rw [startOf] at starts
  split at starts
  next =>
    cases starts
    exact ⟨Nat.le_refl _, small, top⟩
  next text =>
    obtain ⟨token, read, rest⟩ := Result.bind_eq_ok.mp starts
    split at rest
    next =>
      cases rest
      refine ⟨?_, ?_, (SkipToken.fits_of_decode read).2⟩
      · exact Nat.le_min.mpr ⟨Nat.le_add_right _ _, Nat.le_sub_one_of_lt small⟩
      · exact Nat.lt_of_le_of_lt (Nat.min_le_right _ _) (by decide)
    next => cases rest

theorem regular_of_open? (skip : ∀ n ∈ options.skip, n < recordLimit)
    (top : ∀ n ∈ options.top, n < recordLimit) (opened : open? ctx set options = .ok first) :
    first.Regular first := by
  obtain ⟨plan, _, rest⟩ := Result.bind_eq_ok.mp opened
  obtain ⟨start, starts, same⟩ := Result.bind_eq_ok.mp rest
  obtain ⟨past, small, -⟩ := startOf_bounds skip top starts
  cases same
  refine ⟨rfl, ?_⟩
  rintro offset remaining ⟨⟩
  exact ⟨past, small, Nat.le_refl _⟩

theorem Regular.next (table : set.definition.backing = .table offered)
    (regular : first.Regular pager) (counted : set.IsCounted store) {page : RecordPage}
    {next : Pager}
    (run : (pager.nextRecords ctx set options).runOn store = (.ok (some (page, next)), after)) :
    first.Regular next := by
  obtain ⟨offset, remaining, count, fetched, middle, position, kept, fetches, made⟩ :=
    nextRecords_eq_ok run
  obtain ⟨past, small, taken⟩ := regular.position offset remaining position
  have follows := follows_pageOf pager offset remaining count fetched
  have fewer := length_pageOf_le pager offset remaining count fetched
  have within := (fetchRecords_bounds table fetches).1
  rw [Store.rows_congr kept] at within
  rw [made] at follows fewer
  refine ⟨follows.pageSize.trans regular.pageSize, fun place left found => ?_⟩
  cases follows.position _ found
  rw [follows.skip]
  refine ⟨Nat.le_trans past (Nat.le_add_right _ _), ?_, ?_⟩
  · have bound : (store.rows set.definition.name.text).length < recordLimit := counted
    simp only at fewer ⊢
    omega
  · exact Nat.le_trans (take_map_le follows.pageSize remaining _) taken

theorem Reachable.regular (table : set.definition.backing = .table offered)
    (skip : ∀ n ∈ options.skip, n < recordLimit) (top : ∀ n ∈ options.top, n < recordLimit)
    (opened : open? ctx set options = .ok first) (reachable : Reachable ctx set options pager) :
    first.Regular pager := by
  induction reachable with
  | opened again =>
    cases opened.symm.trans again
    exact regular_of_open? skip top opened
  | next _ counted run ih => exact ih.next table counted run

/-! ### The size of a fetch -/

/-- Whether the first page of some options may hold as many records as there are numbers. -/
structure IsWidest (ctx : Context) (options : QueryOptions) (first : Pager) : Prop where
  largest : ctx.config.pagination.maxPageSize + 1 = recordLimit
  wanted : ∀ n ∈ options.top.or ctx.config.pagination.defaultPageSize, n + 1 = recordLimit
  start : ∀ n ∈ first.start.2, n + 1 = recordLimit

theorem sizes_of_validate {config : Config} (valid : config.validate = .ok ()) :
    0 < config.pagination.maxPageSize ∧ ∀ n ∈ config.pagination.defaultPageSize,
      0 < n ∧ n ≤ config.pagination.maxPageSize := by
  rw [Config.validate] at valid
  split at valid
  next => cases valid
  next positive =>
    refine ⟨by omega, fun n standard => ?_⟩
    rw [standard] at valid
    simp only at valid
    split at valid
    next => cases valid
    next within => omega

theorem pageSizeOf_succ_eq_iff {pagination : Pagination} {top : Option Nat}
    (wanted : ∀ n ∈ top.or pagination.defaultPageSize, n < recordLimit)
    (largest : pagination.maxPageSize < recordLimit) :
    pageSizeOf pagination top < recordLimit ∧
      (pageSizeOf pagination top + 1 = recordLimit ↔
        pagination.maxPageSize + 1 = recordLimit ∧
          ∀ n ∈ top.or pagination.defaultPageSize, n + 1 = recordLimit) := by
  have many : 2 < recordLimit := by decide
  have either : (top.orElse fun _ => pagination.defaultPageSize) =
      top.or pagination.defaultPageSize := by cases top <;> rfl
  rw [pageSizeOf, either]
  cases given : top.or pagination.defaultPageSize with
  | none =>
    simp only [Option.getD_none, Option.not_mem_none, false_implies, implies_true, and_true]
    omega
  | some n =>
    have small := wanted n given
    simp only [Option.getD_some, Option.mem_some_iff, forall_eq']
    omega

theorem take_lt_iff (pager : Pager) {remaining : Option Nat}
    (wanted : ∀ n ∈ remaining, n < recordLimit) (size : pager.pageSize < recordLimit) :
    pager.take remaining < recordLimit ∧ (pager.take remaining + 1 < recordLimit ↔
      ¬ (pager.pageSize + 1 = recordLimit ∧ ∀ n ∈ remaining, n + 1 = recordLimit)) := by
  cases remaining with
  | none =>
    simp only [take, Option.not_mem_none, false_implies, implies_true, and_true]
    omega
  | some n =>
    have small := wanted n rfl
    simp only [take, Option.mem_some_iff, forall_eq']
    omega

/-- The fetch of the first page is out of range if and only if the page is the widest. -/
theorem take_first_lt_iff (valid : ctx.config.validate = .ok ())
    (largest : ctx.config.pagination.maxPageSize < recordLimit)
    (skip : ∀ n ∈ options.skip, n < recordLimit) (top : ∀ n ∈ options.top, n < recordLimit)
    (opened : open? ctx set options = .ok first) :
    first.take first.start.2 < recordLimit ∧
      (first.take first.start.2 + 1 < recordLimit ↔ ¬ first.IsWidest ctx options) := by
  obtain ⟨plan, _, rest⟩ := Result.bind_eq_ok.mp opened
  obtain ⟨start, starts, same⟩ := Result.bind_eq_ok.mp rest
  obtain ⟨-, -, fits⟩ := startOf_bounds skip top starts
  have wanted : ∀ n ∈ options.top.or ctx.config.pagination.defaultPageSize, n < recordLimit := by
    intro n member
    rcases Option.or_eq_some_iff.mp member with given | ⟨_, standard⟩
    · exact top n given
    · exact Nat.lt_of_le_of_lt ((sizes_of_validate valid).2 n standard).2 largest
  obtain ⟨size, full⟩ := pageSizeOf_succ_eq_iff wanted largest
  cases same
  obtain ⟨small, fetch⟩ := take_lt_iff ⟨plan, .initial, start, _, _⟩ fits size
  refine ⟨small, fetch.trans (not_congr ?_)⟩
  constructor
  · rintro ⟨page, start⟩
    obtain ⟨largest, wanted⟩ := full.mp page
    exact ⟨largest, wanted, start⟩
  · rintro ⟨largest, wanted, start⟩
    exact ⟨full.mpr ⟨largest, wanted⟩, start⟩

/-- There is no first page if its fetch is out of range. -/
theorem take_lt_of_nextRecords (table : set.definition.backing = .table offered)
    (positive : 0 < first.take first.start.2) (initial : first.state = .initial)
    {found : Option (RecordPage × Pager)}
    (run : (first.nextRecords ctx set options).runOn store = (.ok found, after)) :
    first.take first.start.2 + 1 < recordLimit := by
  rw [nextRecords, initial] at run
  obtain ⟨count, middle, _, run⟩ := runOn_bind_ok_iff.mp run
  obtain ⟨fetched, last, fetches, _⟩ := runOn_bind_ok_iff.mp run
  exact (exists_run_of_fetchRecords table positive.ne' fetches).1

/-! ### What pages compute -/

/-- The numbers of a page are in range: where it begins and ends, and what its token counts. -/
structure PageInRange (ctx : Context) (set : EntitySet) (store : Store) (pager : Pager)
    (offset : Nat) (remaining : Option Nat) : Prop where
  begins : offset < recordLimit
  ends : ∀ count fetched after, (fetchRecords ctx set pager.plan offset
      (pager.take remaining)).runOn store = (.ok fetched, after) →
    let produced := (pager.pageOf offset remaining count fetched).1.records.length
    offset + produced < recordLimit ∧ pager.skip ≤ offset + produced

theorem Regular.pageInRange (table : set.definition.backing = .table offered)
    (regular : first.Regular pager) (counted : set.IsCounted store) {offset : Nat}
    {remaining : Option Nat} (position : pager.position? = some (offset, remaining)) :
    pager.PageInRange ctx set store offset remaining := by
  obtain ⟨past, small, -⟩ := regular.position offset remaining position
  refine ⟨small, fun count fetched after fetches => ?_⟩
  have fewer := length_pageOf_le pager offset remaining count fetched
  have within := (fetchRecords_bounds table fetches).1
  have bound : (store.rows set.definition.name.text).length < recordLimit := counted
  simp only
  omega

/-- All places of records that pages and streams compute are in range, and none lies before the
skipped records.  The one more record that a page fetches is out of range if and only if the page
may hold as many records as there are numbers: the program stops then, and there is no page. -/
theorem inRange_of_reachable (table : set.definition.backing = .table offered)
    (valid : ctx.config.validate = .ok ())
    (largest : ctx.config.pagination.maxPageSize < recordLimit)
    (skip : ∀ n ∈ options.skip, n < recordLimit) (top : ∀ n ∈ options.top, n < recordLimit)
    (opened : open? ctx set options = .ok first) :
    ((∀ pager, Reachable ctx set options pager → ∀ offset remaining,
        pager.position? = some (offset, remaining) → pager.take remaining + 1 < recordLimit) ↔
      ¬ first.IsWidest ctx options) ∧
    (first.IsWidest ctx options → ∀ store found after,
      (first.nextRecords ctx set options).runOn store ≠ (.ok found, after)) ∧
    (∀ pager, Reachable ctx set options pager → ∀ store, set.IsCounted store →
      ∀ offset remaining, pager.position? = some (offset, remaining) →
        pager.PageInRange ctx set store offset remaining) ∧
    ∀ sorting chunk s, Stream.Reachable sorting set chunk s → ∀ store, set.IsCounted store →
      ∀ records after, (set.definition.fetch sorting s.plan s.offset (s.wanted chunk)).runOn store =
        (.ok records, after) → s.offset + records.length < recordLimit := by
  have regular (pager) (reachable : Reachable ctx set options pager) : first.Regular pager :=
    reachable.regular table skip top opened
  have initial : first.state = .initial := by
    obtain ⟨_, _, rest⟩ := Result.bind_eq_ok.mp opened
    obtain ⟨_, _, same⟩ := Result.bind_eq_ok.mp rest
    cases same
    rfl
  have position : first.position? = some first.start := by rw [position?, initial]
  obtain ⟨small, wide⟩ := take_first_lt_iff valid largest skip top opened
  refine ⟨?_, ?_, ?_, ?_⟩
  · rw [← wide]
    constructor
    · exact fun all => all first (.opened opened) _ _ position
    · intro fits pager reachable offset remaining found
      obtain ⟨-, -, taken⟩ := (regular pager reachable).position offset remaining found
      exact Nat.lt_of_le_of_lt (Nat.succ_le_succ taken) fits
  · intro widest store found after run
    have beyond : ¬ first.take first.start.2 + 1 < recordLimit := fun fits => wide.mp fits widest
    have many : 1 < recordLimit := by decide
    exact beyond (take_lt_of_nextRecords table (by omega) initial run)
  · intro pager reachable store counted offset remaining found
    exact (regular pager reachable).pageInRange table counted found
  · intro sorting chunk s reachable store counted records after fetched
    exact Nat.lt_of_le_of_lt (EntitySetDef.add_length_fetch_le fetched)
      (Nat.max_lt.mpr ⟨reachable.offset_lt, counted⟩)

/-! The integers one to three, in pages of as many as there are numbers. -/

def inOnePage : Context :=
  { inPagesOfTwo with
    config := { Config.standard with pagination := ⟨none, recordLimit - 1, 1000⟩ } }

def widePager : Pager :=
  { plan := ⟨none, [⟨number.name, .int64, .ascending⟩], none⟩, state := .initial,
    start := (0, none), skip := 0, pageSize := recordLimit - 1 }

/-- The largest page that a valid configuration allows stops the program. -/
theorem not_take_lt_inOnePage :
    let store : Store := ⟨[("Integers", oneToThree)], []⟩
    inOnePage.config.validate = .ok () ∧
      open? inOnePage integers QueryOptions.empty = .ok widePager ∧
      ¬ widePager.take widePager.start.2 + 1 < recordLimit ∧
      ∀ found after, (widePager.nextRecords inOnePage integers QueryOptions.empty).runOn store ≠
        (.ok found, after) := by
  intro store
  have opened : open? inOnePage integers QueryOptions.empty = .ok widePager := rfl
  have widest : widePager.IsWidest inOnePage QueryOptions.empty :=
    ⟨by decide, by simp [QueryOptions.empty, inOnePage], by simp [widePager]⟩
  obtain ⟨fits, stops, -, -⟩ := inRange_of_reachable
    (rfl : integers.definition.backing = .table .all) (by decide) (by decide)
    (by simp [QueryOptions.empty]) (by simp [QueryOptions.empty]) opened
  exact ⟨by decide, opened, by decide, stops widest store⟩

end Pager

end OData
