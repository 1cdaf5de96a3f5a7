import OData.CommandLine.Basic
import OData.Proofs.Expansion.Links
import OData.Proofs.PageArithmetic

/-!
# Printed queries and served pages

A run loads a configuration that is valid and sets that have tables.  The query that it prints for a
collection and the answer of the service follow one plan, but each has a page of its own: the query
cuts it by the largest size only, the service by the standard size, too.  `window_eq_records_iff`
says when the same records are left.
-/

set_option autoImplicit false

namespace OData

open OData.Action

variable {ctx : Context} {options : QueryOptions} {plan : QueryPlan} {offered : CapabilitySet}
  {store after : Store}

/-! ## What a run loads -/

theorem Pagination.maxPageSize_lt_of_setMember {p q : Pagination} {name : String} {value : Json}
    (small : p.maxPageSize < recordLimit) (sets : p.setMember name value = some q) :
    q.maxPageSize < recordLimit := by
  unfold setMember at sets
  split at sets
  · split at sets
    · cases sets
      exact small
    · obtain ⟨n, _, rfl⟩ := Option.map_eq_some_iff.mp sets
      exact small
  · obtain ⟨n, read, rfl⟩ := Option.map_eq_some_iff.mp sets
    exact Json.lt_of_asUnsigned? read
  · obtain ⟨n, _, rfl⟩ := Option.map_eq_some_iff.mp sets
    exact small
  · cases sets

theorem Pagination.maxPageSize_lt_of_setMembers {members : Json.Members} {p q : Pagination}
    (small : p.maxPageSize < recordLimit) (sets : p.setMembers members = some q) :
    q.maxPageSize < recordLimit := by
  induction members generalizing p with
  | nil =>
    cases sets
    exact small
  | cons member rest ih =>
    obtain ⟨middle, here, later⟩ := Option.bind_eq_some_iff.mp sets
    exact ih (maxPageSize_lt_of_setMember small here) later

theorem Config.maxPageSize_lt_of_setMember {c d : Config} {name : String} {value : Json}
    (small : c.pagination.maxPageSize < recordLimit) (sets : c.setMember name value = some d) :
    d.pagination.maxPageSize < recordLimit := by
  unfold setMember at sets
  split at sets
  · obtain ⟨members, _, sets⟩ := Option.bind_eq_some_iff.mp sets
    obtain ⟨pagination, inner, same⟩ := Option.bind_eq_some_iff.mp sets
    cases same
    exact Pagination.maxPageSize_lt_of_setMembers small inner
  · obtain ⟨members, _, sets⟩ := Option.bind_eq_some_iff.mp sets
    obtain ⟨limits, _, same⟩ := Option.bind_eq_some_iff.mp sets
    cases same
    exact small
  · obtain ⟨members, _, sets⟩ := Option.bind_eq_some_iff.mp sets
    obtain ⟨endpoint, _, same⟩ := Option.bind_eq_some_iff.mp sets
    cases same
    exact small
  · cases sets

theorem Config.maxPageSize_lt_of_setMembers {members : Json.Members} {c d : Config}
    (small : c.pagination.maxPageSize < recordLimit) (sets : c.setMembers members = some d) :
    d.pagination.maxPageSize < recordLimit := by
  induction members generalizing c with
  | nil =>
    cases sets
    exact small
  | cons member rest ih =>
    obtain ⟨middle, here, later⟩ := Option.bind_eq_some_iff.mp sets
    exact ih (maxPageSize_lt_of_setMember small here) later

theorem Config.valid_of_ofText {text : String} {config : Config} (read : ofText text = .ok config) :
    config.validate = .ok () ∧ config.pagination.maxPageSize < recordLimit := by
  rw [ofText] at read
  split at read
  next found given =>
    obtain ⟨⟨⟩, valid, same⟩ := Result.bind_eq_ok.mp read
    cases same
    obtain ⟨document, _, given⟩ := Option.bind_eq_some_iff.mp given
    obtain ⟨members, _, given⟩ := Option.bind_eq_some_iff.mp given
    exact ⟨valid, maxPageSize_lt_of_setMembers (c := standard) (by decide) given⟩
  next => cases read

theorem ModelFile.inMemory_of_build {file : ModelFile} {model : Model}
    (built : file.build = .ok model) : model.InMemory := by
  obtain ⟨declaration, declared, built⟩ := Result.bind_eq_ok.mp built
  obtain ⟨bases, _, declared⟩ := Result.bind_eq_ok.mp declared
  obtain ⟨types, _, declared⟩ := Result.bind_eq_ok.mp declared
  obtain ⟨sets, each, declared⟩ := Result.bind_eq_ok.mp declared
  cases declared
  intro set member
  obtain ⟨d, among, makes⟩ := (ModelDeclaration.checked_of_build built).exists_makes member
  obtain ⟨entry, _, declares⟩ := Result.exists_of_mem_mapM each among
  rw [SetEntry.declare] at declares
  split at declares
  · cases declares
    exact ⟨_, makes.backing⟩
  · cases declares

namespace CommandLine

theorem refuse_eq_ok {α : Type} {r : Result α} {a : α} : refuse r = .ok a ↔ r = .ok a := by
  cases r <;> simp [refuse, Except.mapError]

theorem attempt_eq_ok {α β : Type} {x : Attempt α} {f : α → Attempt β} {b : β} :
    x >>= f = .ok b ↔ ∃ a, x = .ok a ∧ f a = .ok b := by
  cases x <;> simp [bind, Except.bind]

/-- A run has a valid configuration, and a table for each set. -/
theorem valid_of_load {libraries : Libraries} {files : Files} {i : Invocation}
    (loaded : load libraries files i = .ok (ctx, store)) :
    ctx.config.validate = .ok () ∧ ctx.config.pagination.maxPageSize < recordLimit ∧
      ctx.model.InMemory := by
  obtain ⟨config, configured, loaded⟩ := attempt_eq_ok.mp loaded
  obtain ⟨model, modelled, loaded⟩ := attempt_eq_ok.mp loaded
  obtain ⟨_, _, result⟩ := attempt_eq_ok.mp loaded
  cases result
  obtain ⟨text, _, modelled⟩ := attempt_eq_ok.mp modelled
  obtain ⟨file, _, built⟩ := Result.bind_eq_ok.mp (refuse_eq_ok.mp modelled)
  have stored := ModelFile.inMemory_of_build built
  have sizes : config.validate = .ok () ∧ config.pagination.maxPageSize < recordLimit := by
    have configured := refuse_eq_ok.mp configured
    unfold loadConfig at configured
    split at configured
    · cases configured
      decide
    · split at configured
      · exact Config.valid_of_ofText configured
      · cases configured
  exact ⟨sizes.1, sizes.2, stored⟩

end CommandLine

/-! ## Sizes -/

/-- How many records a page holds if so many are wanted. -/
def Pagination.limit (p : Pagination) (wanted : Option Nat) : Nat :=
  (wanted.map (min · p.maxPageSize)).getD p.maxPageSize

/-- Whether a request gets as many of the records that are left as the largest page holds: a smaller
standard size is for the requests that do not say how many entities they want. -/
def Pagination.ServesMost (p : Pagination) (top : Option Nat) (left : Nat) : Prop :=
  top = none → ∀ n ∈ p.defaultPageSize, n < p.maxPageSize → left ≤ n

namespace Pager

variable {set : EntitySet}

theorem pageSizeOf_lt_of_lt {p : Pagination} (largest : p.maxPageSize < recordLimit)
    (top : Option Nat) : pageSizeOf p top < recordLimit := by
  have many : 1 < recordLimit := by decide
  rw [pageSizeOf]
  omega

/-- A request that gets the widest page wants no fewer entities than that. -/
theorem take_of_widest {p : Pagination} {top : Option Nat} {pager : Pager}
    (size : pager.pageSize = pageSizeOf p top) (widest : pageSizeOf p top + 1 = recordLimit) :
    pager.take top = pageSizeOf p top := by
  cases top with
  | none => exact size
  | some n =>
    have many : 2 < recordLimit := by decide
    simp only [pageSizeOf, Option.orElse_some, Option.getD_some] at size widest ⊢
    simp only [take, size]
    omega

theorem limited_take {config : Config} (valid : config.validate = .ok ()) (top : Option Nat)
    (left : List Record) :
    (limited top left).take (pageSizeOf config.pagination top) =
      left.take (config.pagination.limit (top.or config.pagination.defaultPageSize)) := by
  obtain ⟨positive, standard⟩ := sizes_of_validate valid
  cases top with
  | some n =>
    have size : pageSizeOf config.pagination (some n) =
        max 1 (min n config.pagination.maxPageSize) := rfl
    have same : config.pagination.limit (some n) = min n config.pagination.maxPageSize := rfl
    rw [limited, List.take_take, Option.some_or, same, size]
    congr 1
    omega
  | none =>
    rw [limited, Option.none_or]
    congr 1
    cases given : config.pagination.defaultPageSize with
    | none =>
      simp only [pageSizeOf, Pagination.limit, given, Option.orElse_none, Option.getD_none,
        Option.map_none]
      omega
    | some n =>
      obtain ⟨one, within⟩ := standard n given
      simp only [pageSizeOf, Pagination.limit, given, Option.orElse_none, Option.getD_some,
        Option.map_some]
      omega

/-- A page of as many records as there are numbers is not answered. -/
theorem pageSizeOf_lt_of_nextRecords (table : set.definition.backing = .table offered)
    (largest : ctx.config.pagination.maxPageSize < recordLimit)
    {found : Option (RecordPage × Pager)}
    (run : ((opened plan options (pageSizeOf ctx.config.pagination options.top) 0
      options.top).nextRecords ctx set options).runOn store = (.ok found, after)) :
    pageSizeOf ctx.config.pagination options.top + 1 < recordLimit := by
  have small := pageSizeOf_lt_of_lt largest options.top
  refine Nat.lt_of_le_of_ne small fun widest => ?_
  let first := opened plan options (pageSizeOf ctx.config.pagination options.top) 0 options.top
  have whole : first.take first.start.2 = pageSizeOf ctx.config.pagination options.top :=
    take_of_widest rfl widest
  have positive := pageSizeOf_pos ctx.config.pagination options.top
  have wanted : 0 < first.take first.start.2 := by rwa [whole]
  have fits := take_lt_of_nextRecords table wanted rfl run
  rw [whole, widest] at fits
  exact Nat.lt_irrefl _ fits

theorem records_of_nextRecords (table : set.definition.backing = .table offered)
    (valid : ctx.config.validate = .ok ())
    (largest : ctx.config.pagination.maxPageSize < recordLimit) {selected : List Record}
    (sorted : Sorted ctx set store plan options.top selected) {page : RecordPage} {next : Pager}
    (run : ((opened plan options (pageSizeOf ctx.config.pagination options.top) 0
      options.top).nextRecords ctx set options).runOn store = (.ok (some (page, next)), after)) :
    page.records = (selected.drop (options.skip.getD 0)).take
      (ctx.config.pagination.limit (options.top.or ctx.config.pagination.defaultPageSize)) := by
  have positive := pageSizeOf_pos ctx.config.pagination options.top
  have offers := (offers_of_nextRecords positive table run).1
  obtain ⟨_, _, last, yields, _⟩ := yields_nextRecords ctx table positive
    (pageSizeOf_lt_of_nextRecords table largest run) options 0 options.top sorted offers
  rw [run] at yields
  cases yields
  exact limited_take valid options.top _

/-- A limit without the standard size leaves the records of the first page if and only if the
request gets as many as the largest page holds. -/
theorem take_limit_eq_iff {config : Config} (valid : config.validate = .ok ()) (top : Option Nat)
    (left : List Record) :
    left.take (config.pagination.limit top) =
        left.take (config.pagination.limit (top.or config.pagination.defaultPageSize)) ↔
      config.pagination.ServesMost top left.length := by
  obtain ⟨-, standard⟩ := sizes_of_validate valid
  rw [List.take_eq_take_iff]
  cases top with
  | some n => simp [Pagination.ServesMost]
  | none =>
    cases given : config.pagination.defaultPageSize with
    | none => simp [Pagination.ServesMost, given]
    | some n =>
      have within := (standard n given).2
      simp only [Pagination.ServesMost, given, Option.none_or, Pagination.limit, Option.map_none,
        Option.map_some, Option.getD_none, Option.getD_some, Option.mem_some_iff, forall_eq',
        forall_const]
      omega

end Pager

/-! ## The answer of the service -/

namespace Service

variable {t : Transaction} {uri : String} {path : ResourcePath} {set : EntitySet}
  {response : Response}

/-- Answers with the entities of some records. -/
def recordsResponse (ctx : Context) (t : Transaction) (path : ResourcePath) (set : EntitySet)
    (select : Option (List Identifier)) (page : RecordPage) : Action Response := do
  let entities ← page.records.mapM (maker ctx t set select)
  let items ← entities.mapM (Entity.toJson ctx t.request t.depth t.options)
  pure (.ok (.object (pageMembers ctx set.name.text page.count items
    (page.skipToken.map (nextLink ctx t path)))))

/-- Whether a response has the entities of a page of records, the first one of its request. -/
def AnswersWith (ctx : Context) (t : Transaction) (path : ResourcePath) (set : EntitySet)
    (plan : QueryPlan) (store : Store) (response : Response) (page : RecordPage) : Prop :=
  ∃ pager next middle after,
    Pager.open? ctx set t.options = .ok pager ∧
    (pager.nextRecords ctx set t.options).runOn store = (.ok (some (page, next)), middle) ∧
    (recordsResponse ctx t path set plan.select page).runOn middle = (.ok response, after)

theorem exists_page_of_entityPage (accepted : set.plan ctx t.options = .ok plan)
    (run : (entityPage ctx t path set).runOn store = (.ok response, after)) :
    ∃ page, AnswersWith ctx t path set plan store response page := by
  obtain ⟨_, between, items, paged, renders, rfl⟩ := runOn_entityPage_eq_ok.mp run
  obtain ⟨_, pager, page, next, middle, entities, plans, opens, finds, -, -, makes, rfl⟩ :=
    Pager.exists_recordPage_of_firstPage paged
  cases accepted.symm.trans plans
  exact ⟨page, pager, next, middle, after, opens, finds, runOn_bind_ok_iff.mpr
    ⟨entities, between, makes, runOn_bind_ok_iff.mpr ⟨items, after, renders, rfl⟩⟩⟩

/-- A GET of a set without a detour is answered with its first page. -/
theorem execute_collection {name : String} {definition : EntitySetDef}
    (get : t.request.method = .get) (found : ctx.model.entitySet? name = some definition)
    (parsed : ResourcePath.parse (ctx.config.endpoint.resourcePath t.request.path) =
      .ok (.resource [⟨name, none⟩] none)) :
    execute ctx t =
      entityPage ctx t (.resource [⟨name, none⟩] none) (EntitySet.root definition) := by
  rw [execute, parsed, lift_ok_bind]
  simp only [walk, rootSet, found, lift_ok_bind, walkFrom, pure_bind, entityRequest, get,
    getRequest]
  rfl

end Service

/-! ## The printed query -/

/-- The rows that the page of a query leaves. -/
def SqlQuery.window (q : SqlQuery) (rows : List Record) : List Record :=
  match q.page with
  | some (limit, offset) => (rows.drop offset).take limit
  | none => rows

namespace CommandLine

variable {uri output : String} {drawn : Guid}

/-- What is printed for the path of a set: a query of a page of its rows and, if it is asked for,
one of their number. -/
structure Prints (ctx : Context) (t : Transaction) (output : String) (definition : EntitySetDef)
    (plan : QueryPlan) (select : SqlQuery) : Prop where
  found : ∃ name, ctx.model.entitySet? name = some definition ∧
    ResourcePath.parse (ctx.config.endpoint.resourcePath t.request.path) =
      .ok (.resource [⟨name, none⟩] none)
  accepted : (EntitySet.root definition).plan ctx t.options = .ok plan
  selects : let (limit, offset) := firstPage ctx.config.pagination t.options
    SqlQuery.select definition plan offset limit = .ok select
  text : ∃ count, SqlQuery.count definition plan = .ok count ∧ output =
    String.join ((select :: if t.options.count then [count] else []).map statement)

variable {t : Transaction} {definition : EntitySetDef} {select : SqlQuery}

theorem Prints.window (prints : Prints ctx t output definition plan select) (rows : List Record) :
    select.window rows = (rows.drop (t.options.skip.getD 0)).take
      (ctx.config.pagination.limit t.options.top) := by
  obtain ⟨condition, _, made⟩ := Result.bind_eq_ok.mp prints.selects
  cases made
  rfl

theorem eq_of_collectionName {path : ResourcePath} {name : String}
    (names : collectionName path = .ok name) : path = .resource [⟨name, none⟩] none := by
  unfold collectionName at names
  split at names
  · cases names
    rfl
  all_goals cases names

theorem exists_prints (sent : Transaction.ofUri ctx.config.limits .get uri none drawn = .ok t)
    (printed : sql ctx uri = .ok output) :
    ∃ definition plan select, Prints ctx t output definition plan select := by
  obtain ⟨read, reads, printed⟩ := attempt_eq_ok.mp printed
  cases (Transaction.ofUri_redrawn sent .nil).symm.trans (refuse_eq_ok.mp reads)
  obtain ⟨path, parsed, printed⟩ := attempt_eq_ok.mp printed
  obtain ⟨name, names, printed⟩ := attempt_eq_ok.mp printed
  obtain ⟨set, roots, printed⟩ := attempt_eq_ok.mp printed
  obtain ⟨queries, made, result⟩ := attempt_eq_ok.mp printed
  cases result
  rw [eq_of_collectionName names, refuse_eq_ok] at parsed
  obtain ⟨definition, found, rfl⟩ := Service.rootSet_eq_ok_iff.mp (refuse_eq_ok.mp roots)
  obtain ⟨plan, accepted, made⟩ := Result.bind_eq_ok.mp (refuse_eq_ok.mp made)
  obtain ⟨select, selects, made⟩ := Result.bind_eq_ok.mp made
  obtain ⟨count, counts, made⟩ := Result.bind_eq_ok.mp made
  cases made
  exact ⟨definition, plan, select, ⟨name, found, parsed⟩, accepted, selects, count, counts, rfl⟩

/-- The window of the printed query has the records of the page that the service answers with, if
and only if the request gets as many of the records that are left as the largest page holds: no
smaller standard size cuts its page. -/
theorem window_eq_records_iff (valid : ctx.config.validate = .ok ())
    (largest : ctx.config.pagination.maxPageSize < recordLimit) (stored : ctx.model.InMemory)
    (sent : Transaction.ofUri ctx.config.limits .get uri none drawn = .ok t)
    (fresh : t.options.skipToken = none) (printed : sql ctx uri = .ok output) :
    ∃ definition plan select, Prints ctx t output definition plan select ∧
      ∀ store response, (Service.respond ctx .get uri none drawn store).1 = some (.ok response) →
        let set := EntitySet.root definition
        ∃ path page, Service.AnswersWith ctx t path set plan store response page ∧
          (∃ selected, Pager.Sorted ctx set store plan t.options.top selected) ∧
          ∀ selected, Pager.Sorted ctx set store plan t.options.top selected →
            (select.window selected = page.records ↔ ctx.config.pagination.ServesMost
              t.options.top (selected.length - t.options.skip.getD 0)) := by
  obtain ⟨definition, plan, select, prints⟩ := exists_prints sent printed
  refine ⟨definition, plan, select, prints, fun store response answered => ?_⟩
  obtain ⟨name, found, parsed⟩ := prints.found
  have get : t.request.method = .get := by rw [(Transaction.ofUri_spec sent).1]
  obtain ⟨last, run⟩ := (Service.respond_eq_ok_iff sent).mp answered
  rw [Service.execute_collection get found parsed] at run
  obtain ⟨page, answers⟩ := Service.exists_page_of_entityPage prints.accepted run
  refine ⟨_, page, answers, ?_⟩
  obtain ⟨pager, next, middle, _, opens, finds, _⟩ := answers
  cases Pager.open?_eq_opened fresh prints.accepted opens
  obtain ⟨offered, table⟩ := stored definition (List.mem_of_find?_eq_some found)
  have positive := Pager.pageSizeOf_pos ctx.config.pagination t.options.top
  refine ⟨(Pager.offers_of_nextRecords positive table finds).2, fun selected sorted => ?_⟩
  rw [Pager.records_of_nextRecords table valid largest sorted finds, prints.window,
    ← List.length_drop]
  exact Pager.take_limit_eq_iff valid t.options.top (selected.drop (t.options.skip.getD 0))

/-! The integers one to three, in pages of one unless a request wants more. -/

def inPagesOfOne : Context :=
  { Pager.inPagesOfTwo with
    config := { Config.standard with pagination := ⟨some 1, 1000, 1000⟩ } }

def integersRequest : Transaction := ⟨⟨.get, "/Integers", [], none⟩, .empty, 0, .nil⟩

def integersStore : Store := ⟨[("Integers", Pager.oneToThree)], []⟩

theorem ofUri_integers :
    Transaction.ofUri inPagesOfOne.config.limits .get "/Integers" none .nil =
      .ok integersRequest := by rfl

theorem parse_integers :
    ResourcePath.parse (inPagesOfOne.config.endpoint.resourcePath integersRequest.request.path) =
      .ok (.resource [⟨"Integers", none⟩] none) := by rfl

theorem inMemory_integers : inPagesOfOne.model.InMemory := by
  intro set member
  cases List.mem_singleton.mp member
  exact ⟨_, rfl⟩

theorem exists_integersResponse : ∃ response,
    (Service.respond inPagesOfOne .get "/Integers" none .nil integersStore).1 =
      some (.ok response) := by
  let plan : QueryPlan := ⟨none, [⟨Pager.number.name, .int64, .ascending⟩], none⟩
  have accepted : Pager.integers.plan inPagesOfOne .empty = .ok plan := rfl
  let selected : List Record := [1, 2, 3].map fun n => [(Pager.number.name, .int n)]
  have sorted : Pager.Sorted inPagesOfOne Pager.integers integersStore plan none selected :=
    fun _ => by decide +kernel
  have objects : ((Pager.leftOf .empty selected 0 none).take 1).mapM
      (Pager.integers.definition.object inPagesOfOne integersStore .empty) =
        .ok [.object [("n", .int 1)]] := rfl
  obtain ⟨page, middle, last, paged, renders⟩ := Pager.exists_page_of_objects inMemory_integers
    (⟨rfl, rfl⟩ : integersRequest.request.Plain) (by decide) (.head _) rfl accepted
    (Pager.begins_first _ plan .empty) ⟨fun _ => rfl, fun _ => rfl⟩ sorted rfl objects
  obtain ⟨response, run⟩ : ∃ response, (Service.entityPage inPagesOfOne integersRequest
      (.resource [⟨"Integers", none⟩] none) Pager.integers).runOn integersStore =
        (.ok response, last) :=
    ⟨_, Service.runOn_entityPage_eq_ok.mpr ⟨page, middle, _, paged, renders, rfl⟩⟩
  refine ⟨response, (Service.respond_eq_ok_iff ofUri_integers).mpr ⟨last, ?_⟩⟩
  rw [Service.execute_collection rfl rfl parse_integers]
  exact run

theorem exists_window_ne_records : ∃ (output : String) (response : Response),
    sql inPagesOfOne "/Integers" = .ok output ∧
    (Service.respond inPagesOfOne .get "/Integers" none .nil integersStore).1 =
      some (.ok response) ∧
    ∃ definition plan select path page selected,
      Prints inPagesOfOne integersRequest output definition plan select ∧
      Service.AnswersWith inPagesOfOne integersRequest path (EntitySet.root definition) plan
        integersStore response page ∧
      plan.run .standard (integersStore.rows definition.name.text) = some selected ∧
      select.window selected ≠ page.records := by
  obtain ⟨output, printed⟩ : ∃ output, sql inPagesOfOne "/Integers" = .ok output := ⟨_, rfl⟩
  obtain ⟨response, answered⟩ := exists_integersResponse
  obtain ⟨definition, plan, select, prints, agrees⟩ := window_eq_records_iff (by decide) (by decide)
    inMemory_integers ofUri_integers rfl printed
  obtain ⟨path, page, answers, ⟨selected, sorted⟩, agrees⟩ :=
    agrees integersStore response answered
  have sorts : plan.run .standard (integersStore.rows definition.name.text) = some selected :=
    sorted (by decide)
  refine ⟨output, response, printed, answered, definition, plan, select, path, page, selected,
    prints, answers, sorts, fun same => ?_⟩
  obtain ⟨name, found, parsed⟩ := prints.found
  cases parse_integers.symm.trans parsed
  cases found
  cases prints.accepted
  have three : selected.length = 3 := (QueryPlan.length_of_run sorts).trans (by decide +kernel)
  have few := (agrees selected sorted).mp same rfl 1 rfl (by decide)
  rw [three] at few
  exact absurd few (by decide)

end CommandLine

end OData
