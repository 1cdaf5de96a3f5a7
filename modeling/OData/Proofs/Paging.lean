import OData.Proofs.Order
import OData.Proofs.Result
import OData.Proofs.Service.Reads
import OData.Proofs.SkipToken
import OData.Proofs.Stream
import OData.Service.Pager

/-!
# Walking through the pages of a query

`pageOf` cuts the first `pageSize` records off what is left of a query, and its skip token says
where the rest begins.  A `Walk` requests one page after the other, each with the token of the
page before it; `exists_walk` is its whole course.
-/

set_option autoImplicit false

namespace OData

open OData.Action

theorem limited_drop {α : Type} (limit : Option Nat) (n : Nat) (items : List α) :
    limited (limit.map (· - n)) (items.drop n) = (limited limit items).drop n := by
  cases limit with
  | none => rfl
  | some m => exact List.drop_take.symm

theorem length_limited {α : Type} (limit : Option Nat) (items : List α) :
    (limited limit items).length = match limit with
      | some n => min n items.length
      | none => items.length := by
  cases limit with
  | none => rfl
  | some n => exact List.length_take

namespace Pager

/-! ## One page -/

/-- What is fetched for a page from the records that are left. -/
def fetchedOf (pager : Pager) (remaining : Option Nat) (items : List Record) : List Record :=
  if pager.take remaining = 0 then [] else items.take (pager.take remaining + 1)

/-- The overfetched record is there if more is left than the page holds, or than is wanted. -/
theorem take_lt_fetched (pager : Pager) (remaining : Option Nat) (items : List Record) :
    pager.take remaining < (pager.fetchedOf remaining items).length ↔
      0 < pager.take remaining ∧ pager.take remaining < items.length := by
  rw [fetchedOf]
  split
  next zero => simp [zero]
  next some =>
    rw [List.length_take]
    omega

theorem records_fetchedOf (pager : Pager) (remaining : Option Nat) (items : List Record) :
    (if pager.take remaining < (pager.fetchedOf remaining items).length
      then (pager.fetchedOf remaining items).dropLast else pager.fetchedOf remaining items) =
      (limited remaining items).take pager.pageSize := by
  have cut : (limited remaining items).take pager.pageSize =
      items.take (pager.take remaining) := by
    cases remaining with
    | none => rfl
    | some n => rw [limited, take, List.take_take, Nat.min_comm]
  rw [cut]
  by_cases zero : pager.take remaining = 0
  · simp [fetchedOf, zero]
  · have some : pager.fetchedOf remaining items = items.take (pager.take remaining + 1) := by
      rw [fetchedOf, if_neg zero]
    split
    next more =>
      have long := ((take_lt_fetched pager remaining items).mp more).2
      rw [some, List.dropLast_eq_take, List.take_take, List.length_take]
      congr 1
      omega
    next enough =>
      rw [take_lt_fetched] at enough
      rw [some, List.take_of_length_le (by omega), List.take_of_length_le (by omega)]

/-- A page holds the first records that are left, and has a token if there are more of them. -/
theorem pageOf_fetchedOf (pager : Pager) (offset : Nat) (remaining count : Option Nat)
    (items : List Record) (positive : 0 < pager.pageSize) :
    let left := limited remaining items
    (pager.pageOf offset remaining count (pager.fetchedOf remaining items)).1 =
      { records := left.take pager.pageSize, count,
        skipToken := if left.length ≤ pager.pageSize then none
          else some (pager.token (offset + pager.pageSize)
            (remaining.map (· - pager.pageSize))).encode } := by
  intro left
  have records := records_fetchedOf pager remaining items
  have size : left.length = _ := length_limited remaining items
  have more := take_lt_fetched pager remaining items
  rw [pageOf]
  simp only [records]
  by_cases short : left.length ≤ pager.pageSize
  · have last : ¬ (pager.take remaining < (pager.fetchedOf remaining items).length ∧
        remaining.map (· - (left.take pager.pageSize).length) ≠ some 0) := by
      rintro ⟨beyond, budget⟩
      rw [List.take_of_length_le short] at budget
      cases remaining with
      | none =>
        rw [more, take] at beyond
        simp only at size
        omega
      | some n =>
        rw [more, take] at beyond
        simp only [Option.map_some, ne_eq, Option.some.injEq] at size budget
        omega
    rw [if_neg last, if_pos short]
  · have page : (left.take pager.pageSize).length = pager.pageSize := by
      rw [List.length_take]
      omega
    have next : pager.take remaining < (pager.fetchedOf remaining items).length ∧
        remaining.map (· - pager.pageSize) ≠ some 0 := by
      cases remaining with
      | none =>
        rw [more, take]
        simp only at size
        exact ⟨by omega, by simp⟩
      | some n =>
        rw [more, take]
        simp only [Option.map_some, ne_eq, Option.some.injEq] at size ⊢
        omega
    rw [page, if_pos next, if_neg short]

theorem plan_pageOf (pager : Pager) (offset : Nat) (remaining count : Option Nat)
    (fetched : List Record) :
    (pager.pageOf offset remaining count fetched).2.plan = pager.plan := by
  rw [pageOf, apply_ite Prod.snd, apply_ite Pager.plan, ite_self]

/-! ## One request -/

/-- The options of the request for the page that a token begins. -/
def resume (options : QueryOptions) (token : Option String) : QueryOptions :=
  { options with skipToken := token }

/-- A token of a plan takes up the query a number of records past the skipped ones. -/
def Begins (fault : String → String) (plan : QueryPlan) (options : QueryOptions)
    (token : Option String) (consumed : Nat) (remaining : Option Nat) : Prop :=
  startOf fault plan.fingerprint (resume options token) =
    .ok (options.skip.getD 0 + consumed, remaining)

theorem begins_first (fault : String → String) (plan : QueryPlan) (options : QueryOptions) :
    Begins fault plan options none 0 options.top := rfl

theorem begins_token (fault : String → String) {plan : QueryPlan} {options : QueryOptions}
    {consumed : Nat} {remaining : Option Nat} (small : options.skip.getD 0 + consumed < recordLimit)
    (budget : ∀ n ∈ remaining, n < recordLimit) :
    Begins fault plan options (some (SkipToken.encode ⟨consumed, remaining, plan.fingerprint⟩))
      consumed remaining := by
  have fits : SkipToken.Fits ⟨consumed, remaining, plan.fingerprint⟩ :=
    ⟨Nat.lt_of_le_of_lt (Nat.le_add_left _ _) small, budget⟩
  have unchanged : saturate (options.skip.getD 0 + consumed) = options.skip.getD 0 + consumed :=
    Nat.min_eq_left (Nat.le_sub_one_of_lt small)
  rw [Begins, startOf]
  simp only [resume, SkipToken.decode_encode fault fits, bind, Except.bind, if_true]
  rw [unchanged]
  rfl

variable {ctx : Context} {set : EntitySet} {offered : CapabilitySet} {plan : QueryPlan}
  {options : QueryOptions} {store : Store} {selected : List Record}

theorem plan_resume (options : QueryOptions) (token : Option String) :
    set.plan ctx (resume options token) = set.plan ctx options := rfl

theorem fetchSize_eq_ok_iff {take size : Nat} :
    fetchSize take = .ok size ↔ size = take + 1 ∧ take + 1 < recordLimit := by
  rw [fetchSize]
  split
  next small => simp [small, eq_comm]
  next wide => simp [wide]

/-- Rows that are fetched for a page were sorted, and one more than the page holds has a number. -/
theorem exists_run_of_fetchRecords {offset take : Nat} {fetched : List Record} {after : Store}
    (table : set.definition.backing = .table offered) (wanted : take ≠ 0)
    (run : (fetchRecords ctx set plan offset take).runOn store = (.ok fetched, after)) :
    take + 1 < recordLimit ∧ set.require .query = .ok () ∧
      ∃ selected, plan.run ctx.libraries.sorting (store.rows set.definition.name.text) =
        some selected := by
  rw [fetchRecords, if_neg wanted] at run
  obtain ⟨size, fits, run⟩ := runOn_lift_bind_ok_iff.mp run
  obtain ⟨s, starts, run⟩ := runOn_lift_bind_ok_iff.mp run
  obtain ⟨able, rfl⟩ := Stream.start_eq_ok_iff.mp starts
  obtain ⟨rfl, small⟩ := fetchSize_eq_ok_iff.mp fits
  have chunk : 0 < set.chunkSize ctx := Nat.le_max_left 1 _
  refine ⟨small, able, Option.ne_none_iff_exists'.mp fun stops => ?_⟩
  rw [Stream.runOn_records_unsortable table chunk (by simp) stops] at run
  cases run

theorem yields_fetchRecords (ctx : Context) {pager : Pager}
    (table : set.definition.backing = .table offered) (offset : Nat) (remaining : Option Nat)
    (sorts : pager.take remaining ≠ 0 →
      pager.plan.run ctx.libraries.sorting (store.rows set.definition.name.text) = some selected)
    (query : pager.take remaining ≠ 0 → set.require .query = .ok ())
    (size : pager.take remaining + 1 < recordLimit) :
    Yields (fetchRecords ctx set pager.plan offset (pager.take remaining)) store
      (pager.fetchedOf remaining (selected.drop offset)) := by
  rw [fetchRecords, fetchedOf]
  by_cases zero : pager.take remaining = 0
  · rw [if_pos zero, if_pos zero]
    exact yields_pure [] store
  · have fetch : fetchSize (pager.take remaining) = .ok (pager.take remaining + 1) :=
      fetchSize_eq_ok_iff.mpr ⟨rfl, size⟩
    have chunk : 0 < set.chunkSize ctx := Nat.le_max_left 1 _
    rw [if_neg zero, if_neg zero, fetch]
    apply (yields_lift _ store).bind
    intro middle kept
    rw [Stream.start_eq_ok_iff.mpr ⟨query zero, rfl⟩]
    apply (yields_lift _ middle).bind
    intro after same
    have sorts := sorts zero
    rw [← Store.rows_congr kept, ← Store.rows_congr same] at sorts
    exact Stream.yields_records table chunk sorts offset (some (pager.take remaining + 1))

theorem take_le_pageSize (pager : Pager) (remaining : Option Nat) :
    pager.take remaining ≤ pager.pageSize := by
  cases remaining with
  | none => exact Nat.le_refl _
  | some n => exact Nat.min_le_right n _

theorem yields_countFor (plan : QueryPlan) (options : QueryOptions)
    (counts : options.count = true → set.require .count = .ok ()) :
    Yields (countFor set options plan) store
      (if options.count then some ((store.rows set.definition.name.text).countP plan.admits)
        else none) := by
  rw [countFor]
  by_cases asked : options.count = true
  · have count : Yields (set.count plan) store
        ((store.rows set.definition.name.text).countP plan.admits) := by
      rw [EntitySet.count, counts asked]
      exact ⟨store, by simp [runOn_lift_bind], rfl⟩
    rw [if_pos asked, if_pos asked]
    exact count.bind fun after _ => yields_pure _ after
  · rw [if_neg asked, if_neg asked]
    exact yields_pure none store

/-- The request for the page that a token begins. -/
def pageAt (ctx : Context) (set : EntitySet) (request : Request) (depth : Nat)
    (options : QueryOptions) (token : Option String) : Action Page :=
  firstPage ctx set (resume options token)
    (set.materialize ctx request depth (resume options token))

/-- What is left of the selected records of a query after some of them. -/
def leftOf (options : QueryOptions) (selected : List Record) (consumed : Nat)
    (remaining : Option Nat) : List Record :=
  limited remaining (selected.drop (options.skip.getD 0 + consumed))

/-- The token of a page that is cut off what is left. -/
def nextToken (plan : QueryPlan) (size consumed : Nat) (remaining : Option Nat)
    (left : List Record) : Option String :=
  if left.length ≤ size then none
  else some (SkipToken.encode ⟨consumed + size, remaining.map (· - size), plan.fingerprint⟩)

/-- The pager of a request, before its page. -/
def opened (plan : QueryPlan) (options : QueryOptions) (size consumed : Nat)
    (remaining : Option Nat) : Pager :=
  { plan, state := .initial, start := (options.skip.getD 0 + consumed, remaining),
    skip := options.skip.getD 0, pageSize := size }

theorem open?_resume {token : Option String} {consumed : Nat} {remaining : Option Nat}
    (accepted : set.plan ctx options = .ok plan)
    (begins : Begins ctx.libraries.tokenFault plan options token consumed remaining) :
    open? ctx set (resume options token) =
      .ok (opened plan options (pageSizeOf ctx.config.pagination options.top) consumed
        remaining) := by
  rw [open?, plan_resume, accepted]
  simp only [bind, Except.bind]
  rw [begins]
  rfl

/-- The rows of a set as a plan selects them, if any of them is wanted. -/
def Sorted (ctx : Context) (set : EntitySet) (store : Store) (plan : QueryPlan)
    (remaining : Option Nat) (selected : List Record) : Prop :=
  remaining ≠ some 0 →
    plan.run ctx.libraries.sorting (store.rows set.definition.name.text) = some selected

theorem Sorted.of_tables {remaining : Option Nat} {other : Store}
    (sorted : Sorted ctx set store plan remaining selected) (same : other.tables = store.tables) :
    Sorted ctx set other plan remaining selected := by
  intro wanted
  rw [Store.rows_congr same]
  exact sorted wanted

/-- Rows of which any are left were sorted. -/
theorem Sorted.run_of_lt {remaining : Option Nat} {size consumed : Nat}
    (sorted : Sorted ctx set store plan remaining selected)
    (more : size < (leftOf options selected consumed remaining).length) :
    plan.run ctx.libraries.sorting (store.rows set.definition.name.text) = some selected := by
  refine sorted fun zero => ?_
  rw [zero, leftOf, limited, List.take_zero] at more
  exact Nat.not_lt_zero size more

/-- The records of a page and its token. -/
def recordPage (plan : QueryPlan) (size consumed : Nat) (remaining count : Option Nat)
    (left : List Record) : RecordPage :=
  { records := left.take size, count, skipToken := nextToken plan size consumed remaining left }

/-- Whether a set offers what a page with some options takes. -/
structure Offers (set : EntitySet) (options : QueryOptions) (remaining : Option Nat) : Prop where
  count : options.count = true → set.require .count = .ok ()
  query : remaining ≠ some 0 → set.require .query = .ok ()

theorem take_eq_zero_iff {pager : Pager} (positive : 0 < pager.pageSize) {remaining : Option Nat} :
    pager.take remaining = 0 ↔ remaining = some 0 := by
  cases remaining with
  | none => simp [take, positive.ne']
  | some n =>
    simp only [take, Option.some.injEq]
    omega

theorem yields_nextRecords (ctx : Context)
    (table : set.definition.backing = .table offered) {size : Nat} (positive : 0 < size)
    (bound : size + 1 < recordLimit) (options : QueryOptions) (consumed : Nat)
    (remaining : Option Nat) (sorted : Sorted ctx set store plan remaining selected)
    (offers : Offers set options remaining) :
    let rows := store.rows set.definition.name.text
    let count := if options.count then some (rows.countP plan.admits) else none
    ∃ after : Pager, after.plan = plan ∧
      Yields ((opened plan options size consumed remaining).nextRecords ctx set options) store
        (some (recordPage plan size consumed remaining count
          (leftOf options selected consumed remaining), after)) := by
  intro rows count
  let pager := opened plan options size consumed remaining
  let items := selected.drop (options.skip.getD 0 + consumed)
  let result := pager.pageOf (options.skip.getD 0 + consumed) remaining count
    (pager.fetchedOf remaining items)
  have page : result.1 = recordPage plan size consumed remaining count
      (leftOf options selected consumed remaining) := by
    have cut := pageOf_fetchedOf pager (options.skip.getD 0 + consumed) remaining count items
      positive
    have past : options.skip.getD 0 + consumed + size - options.skip.getD 0 = consumed + size := by
      omega
    simp only [pager, opened, token, past] at cut
    exact cut
  refine ⟨result.2, ?_, ?_⟩
  · exact plan_pageOf pager _ remaining count _
  · rw [← page]
    apply (yields_countFor plan options offers.count).bind
    intro middle same
    have within : pager.take remaining + 1 < recordLimit :=
      Nat.lt_of_le_of_lt (Nat.succ_le_succ (pager.take_le_pageSize remaining)) bound
    have wanted : pager.take remaining ≠ 0 → remaining ≠ some 0 :=
      fun some zero => some ((take_eq_zero_iff positive).mpr zero)
    have fetches := yields_fetchRecords ctx table (options.skip.getD 0 + consumed) remaining
      (fun some => sorted.of_tables same (wanted some)) (fun some => offers.query (wanted some))
      within
    exact fetches.bind fun after _ => yields_pure _ after

/-- A page needs what its options take, and rows that are sorted if it takes any. -/
theorem offers_of_nextRecords {size consumed : Nat} (positive : 0 < size)
    (table : set.definition.backing = .table offered) {remaining : Option Nat}
    {found : Option (RecordPage × Pager)} {after : Store}
    (run : ((opened plan options size consumed remaining).nextRecords ctx set
      options).runOn store = (.ok found, after)) :
    Offers set options remaining ∧ ∃ selected, Sorted ctx set store plan remaining selected := by
  obtain ⟨count, middle, counted, run⟩ := runOn_bind_ok_iff.mp run
  obtain ⟨fetched, last, fetches, _⟩ := runOn_bind_ok_iff.mp run
  have counts : options.count = true → set.require .count = .ok () := by
    intro asked
    rw [countFor, if_pos asked] at counted
    obtain ⟨_, _, counts, _⟩ := runOn_bind_ok_iff.mp counted
    obtain ⟨⟨⟩, able, _⟩ := runOn_lift_bind_ok_iff.mp counts
    exact able
  by_cases zero : remaining = some 0
  · exact ⟨⟨counts, absurd zero⟩, [], absurd zero⟩
  · have wanted : (opened plan options size consumed remaining).take remaining ≠ 0 :=
      fun none => zero ((take_eq_zero_iff positive).mp none)
    obtain ⟨-, able, selected, sorts⟩ := exists_run_of_fetchRecords table wanted fetches
    rw [Store.rows_congr ((reads_countFor set options plan).tables_eq counted)] at sorts
    exact ⟨⟨counts, fun _ => able⟩, selected, fun _ => sorts⟩

theorem pageSizeOf_lt {pagination : Pagination} (top : Option Nat)
    (large : pagination.maxPageSize + 1 < recordLimit) :
    pageSizeOf pagination top + 1 < recordLimit := by
  have smaller : pageSizeOf pagination top ≤ max 1 pagination.maxPageSize := by
    simp only [pageSizeOf]
    omega
  have : 2 < recordLimit := by decide
  omega

theorem pageSizeOf_pos (pagination : Pagination) (top : Option Nat) :
    0 < pageSizeOf pagination top :=
  Nat.le_max_left 1 _

/-- A request for a page makes something of the first records that are left. -/
theorem runOn_firstPage (make : EntitySet.Maker) (table : set.definition.backing = .table offered)
    (large : ctx.config.pagination.maxPageSize + 1 < recordLimit)
    (accepted : set.plan ctx options = .ok plan) {token : Option String} {consumed : Nat}
    {remaining : Option Nat}
    (begins : Begins ctx.libraries.tokenFault plan options token consumed remaining)
    (offers : Offers set options remaining)
    (sorted : Sorted ctx set store plan remaining selected) {other : Store}
    (same : other.tables = store.tables) :
    let rows := store.rows set.definition.name.text
    let size := pageSizeOf ctx.config.pagination options.top
    let left := leftOf options selected consumed remaining
    ∃ middle : Store, middle.tables = store.tables ∧
      (firstPage ctx set (resume options token) make).runOn other =
        ((left.take size).mapM (make plan.select) >>= fun entities => pure
          { entities, count := if options.count then some (rows.countP plan.admits) else none,
            skipToken := nextToken plan size consumed remaining left }).runOn middle := by
  intro rows size left
  obtain ⟨pager, kept, middle, next, keeps⟩ := yields_nextRecords ctx table
    (pageSizeOf_pos ctx.config.pagination options.top) (pageSizeOf_lt options.top large)
    (resume options token) consumed remaining (sorted.of_tables same)
    ⟨offers.count, offers.query⟩
  rw [Store.rows_congr same] at next
  have found : (nextRecords ctx set (resume options token) (opened plan options size consumed
      remaining)).runOn other = (.ok (some (recordPage plan size consumed remaining
        (if options.count then some (rows.countP plan.admits) else none) left, pager)), middle) :=
    next
  refine ⟨middle, keeps.trans same, ?_⟩
  rw [firstPage, open?_resume accepted begins, lift_ok_bind, Pager.next, bind_assoc,
    runOn_bind_of_ok found]
  simp only [kept, bind_assoc, pure_bind]
  rfl

theorem yields_pageAt (request : Request) (depth : Nat)
    (table : set.definition.backing = .table offered) (query : set.require .query = .ok ())
    (counts : set.require .count = .ok ()) (accepted : set.plan ctx options = .ok plan)
    (plain : options.expand = []) (large : ctx.config.pagination.maxPageSize + 1 < recordLimit)
    {token : Option String} {consumed : Nat} {remaining : Option Nat} {entities : List Entity}
    (sorted : Sorted ctx set store plan remaining selected)
    (begins : Begins ctx.libraries.tokenFault plan options token consumed remaining) :
    let rows := store.rows set.definition.name.text
    let size := pageSizeOf ctx.config.pagination options.top
    let left := leftOf options selected consumed remaining
    (left.take size).mapM (set.plainEntity plan.select) = .ok entities →
    Yields (pageAt ctx set request depth options token) store
      { entities, count := if options.count then some (rows.countP plan.admits) else none,
        skipToken := nextToken plan size consumed remaining left } := by
  intro rows size left made
  obtain ⟨middle, kept, run⟩ := runOn_firstPage
    (set.materialize ctx request depth (resume options token)) table large accepted begins
    ⟨fun _ => counts, fun _ => query⟩ sorted (rfl : store.tables = store.tables)
  have plain : (resume options token).expand = [] := plain
  obtain ⟨after, shown, keeps⟩ :=
    EntitySet.yields_mapM_materialize ctx request depth plain _ entities middle made
  exact ⟨after, run.trans (runOn_bind_of_ok shown), keeps.trans kept⟩

/-! ## All pages -/

/-- Requests one after the other, each with the token of the page before it and in a store of its
own, up to a page without a token. -/
inductive Walk (request : Option String → Action Page) :
    (Nat → Store) → Option String → List Page → Prop where
  | last {stores : Nat → Store} {token : Option String} {page : Page} :
      ((request token).runOn (stores 0)).1 = .ok page → page.skipToken = none →
      Walk request stores token [page]
  | step {stores : Nat → Store} {token : Option String} {page : Page} {next : String}
      {pages : List Page} :
      ((request token).runOn (stores 0)).1 = .ok page → page.skipToken = some next →
      Walk request (fun i => stores (i + 1)) (some next) pages →
      Walk request stores token (page :: pages)

/-- Requests in the same stores have the same pages. -/
theorem Walk.unique {request : Option String → Action Page} {stores : Nat → Store}
    {token : Option String} {pages others : List Page} (walk : Walk request stores token pages)
    (other : Walk request stores token others) : others = pages := by
  induction walk generalizing others with
  | last run ends =>
    cases other with
    | last same _ =>
      rw [run] at same
      cases same
      rfl
    | step same more _ =>
      rw [run] at same
      cases same
      rw [ends] at more
      cases more
  | step run more _ ih =>
    cases other with
    | last same ends =>
      rw [run] at same
      cases same
      rw [more] at ends
      cases ends
    | step same again rest =>
      rw [run] at same
      cases same
      rw [more] at again
      cases again
      rw [ih rest]

/-- Pages that hold the entities of some records, each of them once and in their order. -/
structure Covers (set : EntitySet) (select : Option (List Identifier)) (size : Nat)
    (count : Option Nat) (records : List Record) (pages : List Page) : Prop where
  entities : records.mapM (set.plainEntity select) = .ok (pages.flatMap (·.entities))
  sizes : ∀ page ∈ pages, page.entities.length ≤ size
  filled : ∀ page ∈ pages.tail, page.entities ≠ []
  counts : ∀ page ∈ pages, page.count = count

theorem covers_one {select : Option (List Identifier)} {size : Nat} {count : Option Nat}
    {records : List Record} {page : Page}
    (made : records.mapM (set.plainEntity select) = .ok page.entities)
    (length : page.entities.length ≤ size) (counted : page.count = count) :
    Covers set select size count records [page] where
  entities := by simpa using made
  sizes := by simpa using length
  filled := by simp
  counts := by simpa using counted

theorem covers_cons {select : Option (List Identifier)} {size : Nat} {count : Option Nat}
    {records others : List Record} {page : Page} {pages : List Page}
    (made : records.mapM (set.plainEntity select) = .ok page.entities)
    (length : page.entities.length ≤ size) (counted : page.count = count)
    (covers : Covers set select size count others pages)
    (filled : ∀ page ∈ pages, page.entities ≠ []) :
    Covers set select size count (records ++ others) (page :: pages) where
  entities := by
    rw [List.mapM_append, made, covers.entities]
    rfl
  sizes := by simpa using ⟨length, covers.sizes⟩
  filled := filled
  counts := by simpa using ⟨counted, covers.counts⟩

theorem leftOf_drop (options : QueryOptions) (selected : List Record)
    (size consumed : Nat) (remaining : Option Nat) :
    leftOf options selected (consumed + size) (remaining.map (· - size)) =
      (leftOf options selected consumed remaining).drop size := by
  rw [leftOf, leftOf, ← limited_drop, List.drop_drop, Nat.add_assoc]

theorem mem_of_mem_leftOf {consumed : Nat} {remaining : Option Nat} {record : Record}
    (member : record ∈ leftOf options selected consumed remaining) : record ∈ selected := by
  cases remaining with
  | none => exact List.mem_of_mem_drop member
  | some n => exact List.mem_of_mem_drop (List.mem_of_mem_take member)

theorem Sorted.mem_rows {consumed : Nat} {remaining : Option Nat} {record : Record}
    (sorted : Sorted ctx set store plan remaining selected)
    (member : record ∈ leftOf options selected consumed remaining) :
    record ∈ store.rows set.definition.name.text := by
  have wanted : remaining ≠ some 0 := by
    rintro rfl
    simp [leftOf, limited] at member
  exact List.mem_of_mem_filter
    ((QueryPlan.run_perm (sorted wanted)).mem_iff.mp (mem_of_mem_leftOf member))

/-- A page that is followed by others ends before the last selected record. -/
theorem consumed_lt_length {size consumed : Nat} {remaining : Option Nat}
    (more : size < (leftOf options selected consumed remaining).length) :
    options.skip.getD 0 + (consumed + size) < selected.length := by
  have few := limited_length_le remaining (selected.drop (options.skip.getD 0 + consumed))
  rw [List.length_drop] at few
  rw [leftOf] at more
  omega

/-- A token with which a query of a set goes on. -/
structure GoesOn (fault : String → String) (set : EntitySet) (plan : QueryPlan)
    (options : QueryOptions) (token : Option String) (consumed : Nat) (remaining : Option Nat) :
    Prop where
  begins : Begins fault plan options token consumed remaining
  offers : Offers set options remaining
  budget : ∀ n ∈ remaining, n < recordLimit

theorem goesOn_first (fault : String → String) (plan : QueryPlan)
    (offers : Offers set options options.top) (budget : ∀ n ∈ options.top, n < recordLimit) :
    GoesOn fault set plan options none 0 options.top :=
  ⟨begins_first fault plan options, offers, budget⟩

/-- A query goes on with the token of a page, which is there if more is left. -/
theorem GoesOn.next {fault : String → String} {token : Option String} {size consumed : Nat}
    {remaining : Option Nat} (goesOn : GoesOn fault set plan options token consumed remaining)
    (few : selected.length < recordLimit) {next : String}
    (more : nextToken plan size consumed remaining (leftOf options selected consumed remaining) =
      some next) :
    size < (leftOf options selected consumed remaining).length ∧
      GoesOn fault set plan options (some next) (consumed + size) (remaining.map (· - size)) := by
  rw [nextToken] at more
  split at more
  next => cases more
  next short =>
    cases more
    have past := consumed_lt_length (Nat.lt_of_not_le short)
    have budget : ∀ n ∈ remaining.map (· - size), n < recordLimit := by
      intro n member
      obtain ⟨m, among, rfl⟩ := Option.map_eq_some_iff.mp member
      exact Nat.lt_of_le_of_lt (Nat.sub_le m size) (goesOn.budget m among)
    refine ⟨Nat.lt_of_not_le short, begins_token fault (by omega) budget,
      ⟨goesOn.offers.count, ?_⟩, budget⟩
    intro some
    apply goesOn.offers.query
    rintro rfl
    exact some (by simp)

section Walks

variable (table : set.definition.backing = .table offered)
  (query : set.require .query = .ok ()) (counts : set.require .count = .ok ())
  (accepted : set.plan ctx options = .ok plan) (plain : options.expand = [])
  (large : ctx.config.pagination.maxPageSize + 1 < recordLimit)

include table query counts accepted plain large

theorem exists_page (request : Request) (depth : Nat) {rows : List Record}
    (complete : ∀ record ∈ rows, set.HasKey record)
    (sorts : plan.run ctx.libraries.sorting rows = some selected)
    (same : store.rows set.definition.name.text = rows) {token : Option String} {consumed : Nat}
    {remaining : Option Nat}
    (begins : Begins ctx.libraries.tokenFault plan options token consumed remaining) :
    let size := pageSizeOf ctx.config.pagination options.top
    let left := leftOf options selected consumed remaining
    ∃ page : Page, ((pageAt ctx set request depth options token).runOn store).1 = .ok page ∧
      (left.take size).mapM (set.plainEntity plan.select) = .ok page.entities ∧
      page.entities.length = (left.take size).length ∧
      page.count = (if options.count then some (rows.countP plan.admits) else none) ∧
      page.skipToken = nextToken plan size consumed remaining left := by
  intro size left
  obtain ⟨entities, made, length⟩ := EntitySet.exists_mapM_plainEntity plan.select
    (left.take size) fun record member => complete record (List.mem_of_mem_filter
      ((QueryPlan.run_perm sorts).mem_iff.mp (mem_of_mem_leftOf (List.mem_of_mem_take member))))
  have sorted : Sorted ctx set store plan remaining selected := fun _ => by rw [same]; exact sorts
  have yields := yields_pageAt request depth table query counts accepted plain large sorted begins
    made
  rw [same] at yields
  exact ⟨_, yields.runOn_eq, made, length, rfl, rfl⟩

/-- From any token of the query, the pages up to the last one cover what is left.  The induction
is on how much that is; each page takes a positive number of records off it. -/
theorem exists_walk_from (request : Request) (depth : Nat) {rows : List Record}
    (complete : ∀ record ∈ rows, set.HasKey record)
    (sorts : plan.run ctx.libraries.sorting rows = some selected)
    (few : selected.length < recordLimit) :
    ∀ (length : Nat) (stores : Nat → Store) (token : Option String) (consumed : Nat)
      (remaining : Option Nat),
      (leftOf options selected consumed remaining).length = length →
      (∀ i, (stores i).rows set.definition.name.text = rows) →
      GoesOn ctx.libraries.tokenFault set plan options token consumed remaining →
      ∃ pages, Walk (pageAt ctx set request depth options) stores token pages ∧
        Covers set plan.select (pageSizeOf ctx.config.pagination options.top)
          (if options.count then some (rows.countP plan.admits) else none)
          (leftOf options selected consumed remaining) pages ∧
        (leftOf options selected consumed remaining ≠ [] →
          ∀ page ∈ pages, page.entities ≠ []) := by
  have positive : 0 < pageSizeOf ctx.config.pagination options.top := Nat.le_max_left 1 _
  intro length
  induction length using Nat.strongRecOn with
  | ind length ih =>
    intro stores token consumed remaining long same goesOn
    obtain ⟨page, run, made, held, counted, next⟩ := exists_page table query counts accepted plain
      large request depth complete sorts (same 0) goesOn.begins
    rw [List.length_take] at held
    have within : page.entities.length ≤ pageSizeOf ctx.config.pagination options.top := by omega
    have filled : leftOf options selected consumed remaining ≠ [] → page.entities ≠ [] := by
      intro some none
      have := List.length_pos_of_ne_nil some
      rw [none, List.length_nil] at held
      omega
    by_cases short : (leftOf options selected consumed remaining).length ≤
        pageSizeOf ctx.config.pagination options.top
    · rw [nextToken, if_pos short] at next
      rw [List.take_of_length_le short] at made
      exact ⟨[page], .last run next, covers_one made within counted, by simpa using filled⟩
    · have rest := leftOf_drop options selected (pageSizeOf ctx.config.pagination options.top)
        consumed remaining
      obtain ⟨following, more⟩ : ∃ next,
          nextToken plan (pageSizeOf ctx.config.pagination options.top) consumed remaining
            (leftOf options selected consumed remaining) = some next :=
        ⟨_, if_neg short⟩
      rw [more] at next
      obtain ⟨pages, walk, covers, others⟩ := ih _ (by rw [rest, List.length_drop]; omega)
        (fun i => stores (i + 1)) _ _ _ rfl (fun i => same (i + 1)) (goesOn.next few more).2
      have nonempty : leftOf options selected
          (consumed + pageSizeOf ctx.config.pagination options.top)
          (remaining.map (· - pageSizeOf ctx.config.pagination options.top)) ≠ [] := by
        intro none
        rw [rest, List.drop_eq_nil_iff] at none
        exact short none
      refine ⟨page :: pages, .step run next walk, ?_, ?_⟩
      · have all := covers_cons made within counted covers (others nonempty)
        rw [rest, List.take_append_drop] at all
        exact all
      · intro some
        simpa using ⟨filled some, others nonempty⟩

/-- A query that is followed page by page comes to an end if the order of its plan is total on the
rows that its filter admits, and its pages hold these rows, in the order of the plan, after the
skipped ones and as many as are wanted. -/
theorem exists_walk (request : Request) (depth : Nat) {rows : List Record}
    (complete : ∀ record ∈ rows, set.HasKey record) (total : plan.Orders rows)
    (few : rows.length < 2 ^ 63) (budget : ∀ n ∈ options.top, n < recordLimit)
    (stores : Nat → Store) (same : ∀ i, (stores i).rows set.definition.name.text = rows) :
    ∃ pages, Walk (pageAt ctx set request depth options) stores none pages ∧
      Covers set plan.select (pageSizeOf ctx.config.pagination options.top)
        (if options.count then some (rows.countP plan.admits) else none)
        (limited options.top ((plan.arrange rows).drop (options.skip.getD 0))) pages ∧
      (plan.arrange rows).Perm (rows.filter plan.admits) ∧
      (plan.arrange rows).Pairwise fun a b => (plan.compare a b).isLE = true := by
  have perm : (plan.arrange rows).Perm (plan.matching rows) := sortBy_perm _ _
  have bound : (plan.arrange rows).length < recordLimit := by
    have admitted := List.length_filter_le plan.admits rows
    rw [← QueryPlan.matching, ← perm.length_eq] at admitted
    exact Nat.lt_of_le_of_lt admitted (Nat.lt_trans few (by decide))
  obtain ⟨pages, walk, covers, _⟩ := exists_walk_from table query counts accepted plain large
    request depth complete (QueryPlan.run_of_orders _ total) bound _ stores none 0 options.top rfl
    same (goesOn_first _ plan ⟨fun _ => counts, fun _ => query⟩ budget)
  exact ⟨pages, walk, covers, perm, total.pairwise_sortBy⟩

end Walks

/-! The integers one to three, in pages of two. -/

def number : Property := ⟨⟨"n", by decide⟩, .int64, false⟩

def integers : EntitySet :=
  EntitySet.root
    { name := ⟨"Integers", by decide⟩,
      entityType := ⟨⟨"Integer", by decide⟩, [number], [number.name], []⟩,
      bindings := [], backing := .table .all, capabilities := .readOnly, chunkSize := some 2 }

def inPagesOfTwo : Context :=
  { model := ⟨"Numbers", none, [], [integers.definition.entityType], [integers.definition]⟩,
    config := { Config.standard with pagination := ⟨none, 2, 1000⟩ }, document := none,
    libraries := .standard }

def oneToThree : List Record := [3, 1, 2].map fun n => [(number.name, .int n)]

theorem exists_walk_integers :
    ∃ pages, Walk (pageAt inPagesOfTwo integers ⟨.get, "/Integers", [], none⟩ 0
        { QueryOptions.empty with count := true }) (fun _ => ⟨[("Integers", oneToThree)], []⟩) none
        pages ∧
      Covers integers none 2 (some 3)
        (([1, 2, 3] : List Int64).map fun n => [(number.name, .int n)]) pages := by
  have complete : ∀ record ∈ oneToThree, integers.HasKey record := by
    intro record member
    obtain ⟨n, _, rfl⟩ := List.mem_map.mp member
    exact ⟨⟨[(number.name, .int n)]⟩, rfl⟩
  have accepted : integers.plan inPagesOfTwo { QueryOptions.empty with count := true } =
      .ok ⟨none, [⟨number.name, .int64, .ascending⟩], none⟩ := rfl
  have table : integers.definition.backing = .table .all := rfl
  have types : ∀ record ∈ oneToThree, integers.entityType.Types record := by
    intro record member property declared
    obtain ⟨n, _, rfl⟩ := List.mem_map.mp member
    rw [List.mem_singleton.mp declared]
    exact .inr (.inl rfl)
  have total : QueryPlan.Orders ⟨none, [⟨number.name, .int64, .ascending⟩], none⟩ oneToThree := by
    have bound : QueryPlan.bindOrder integers.entityType [] =
        .ok [⟨number.name, .int64, .ascending⟩] := rfl
    exact QueryPlan.orders_of_numbers bound types (by decide)
  obtain ⟨pages, walk, covers, _⟩ := exists_walk table rfl rfl accepted rfl (by decide)
    ⟨.get, "/Integers", [], none⟩ 0 complete total (by decide) (by simp [QueryOptions.empty])
    (fun _ => ⟨[("Integers", oneToThree)], []⟩) (fun _ => rfl)
  exact ⟨pages, walk, covers⟩

/-- A sort may stop the program at the first page of rows of which some value is not a number,
though the order is accepted and the rows have their keys. -/
theorem not_walk_measuredParcels :
    let options := { QueryOptions.empty with orderBy := [⟨["ratio"], .ascending⟩] }
    EntitySet.measuredParcels.plan EntitySet.parcelContext options =
        .ok ⟨none, EntitySet.ratioOrder, none⟩ ∧
      (∀ record ∈ EntitySet.measuredRows, EntitySet.measuredParcels.HasKey record) ∧
      ¬ ∃ pages, Walk (pageAt EntitySet.parcelContext EntitySet.measuredParcels
        ⟨.get, "/Parcels", [], none⟩ 0 options) (fun _ => parcelStore EntitySet.measuredRows) none
        pages := by
  intro options
  refine ⟨rfl, ?_, ?_⟩
  · intro record member
    obtain ⟨⟨ratio, i⟩, _, rfl⟩ := List.mem_map.mp member
    exact ⟨⟨[(parcelNumber.name, .int (Int64.ofNat (i + 1)))]⟩, rfl⟩
  · have fails : ((pageAt EntitySet.parcelContext EntitySet.measuredParcels
        ⟨.get, "/Parcels", [], none⟩ 0 options none).runOn
          (parcelStore EntitySet.measuredRows)).1.toOption.isNone = true := by decide +kernel
    rintro ⟨pages, walk⟩
    cases walk with
    | last run _ =>
      rw [run] at fails
      cases fails
    | step run _ _ =>
      rw [run] at fails
      cases fails

end Pager

end OData
