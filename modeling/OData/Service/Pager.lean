import OData.Service.Entity
import OData.SkipToken

/-!
# Pages

A query is answered page by page.  One more record than the page holds is fetched, to see whether
a skip token has to be given for the rest.  Tokens count from the first record that is not
skipped, and are only taken by queries with the same filter and order.
-/

set_option autoImplicit false

namespace OData

inductive PagerState where
  | initial
  | paging (offset : Nat) (remaining : Option Nat)
  | exhausted
  deriving DecidableEq, Repr

structure Pager where
  plan : QueryPlan
  state : PagerState
  /-- Where the first page begins, and how many entities are wanted from there. -/
  start : Nat × Option Nat
  skip : Nat
  pageSize : Nat

/-- The records of a page. -/
structure RecordPage where
  records : List Record
  /-- How many entities the filter admits, if the request asks for it. -/
  count : Option Nat
  skipToken : Option String

structure Page where
  entities : List Entity
  count : Option Nat
  skipToken : Option String

/-- Numbers of records are of 64 bits. -/
def recordLimit : Nat := 2 ^ 64

def saturate (n : Nat) : Nat := min n (recordLimit - 1)

namespace Pager

def mismatch : Error :=
  .bad "skiptoken_mismatch" "$skiptoken was issued for a different $filter or $orderby"

/-- Where the first page of some options begins. -/
def startOf (fault : String → String) (fingerprint : String) (options : QueryOptions) :
    Result (Nat × Option Nat) :=
  let skip := options.skip.getD 0
  match options.skipToken with
  | none => .ok (skip, options.top)
  | some text => do
    let token ← SkipToken.decode fault text
    if token.fingerprint = fingerprint then pure (saturate (skip + token.offset), token.remaining)
    else .error mismatch

/-- The page size that a request gets: what it wants, else the standard, up to the largest. -/
def pageSizeOf (pagination : Pagination) (top : Option Nat) : Nat :=
  let wanted := (top.orElse fun _ => pagination.defaultPageSize).getD pagination.maxPageSize
  max 1 (min wanted pagination.maxPageSize)

def open? (ctx : Context) (set : EntitySet) (options : QueryOptions) : Result Pager := do
  let plan ← set.plan ctx options
  let start ← startOf ctx.libraries.tokenFault plan.fingerprint options
  pure
    { plan, state := .initial, start, skip := options.skip.getD 0,
      pageSize := pageSizeOf ctx.config.pagination options.top }

/-- How many records the next page holds at most. -/
def take (pager : Pager) (remaining : Option Nat) : Nat :=
  match remaining with
  | some n => min n pager.pageSize
  | none => pager.pageSize

/-- How many records are fetched for a page; the program stops if that is no number of 64 bits. -/
def fetchSize (take : Nat) : Result Nat :=
  if take + 1 < recordLimit then .ok (take + 1)
  else .error (.fault "attempt to add with overflow")

def fetchRecords (ctx : Context) (set : EntitySet) (plan : QueryPlan) (offset take : Nat) :
    Action (List Record) := do
  if take = 0 then pure []
  else
    let size ← fetchSize take
    let stream ← Stream.start set plan offset (some size)
    stream.records ctx.libraries.sorting set (set.chunkSize ctx)

def token (pager : Pager) (offset : Nat) (remaining : Option Nat) : SkipToken :=
  ⟨offset - pager.skip, remaining, pager.plan.fingerprint⟩

/-- The page of some fetched records, and the pager after it. -/
def pageOf (pager : Pager) (offset : Nat) (remaining count : Option Nat) (fetched : List Record) :
    RecordPage × Pager :=
  let take := pager.take remaining
  let records := if take < fetched.length then fetched.dropLast else fetched
  let next := offset + records.length
  let left := remaining.map (· - records.length)
  if take < fetched.length ∧ left ≠ some 0 then
    (⟨records, count, some (pager.token next left).encode⟩,
      { pager with state := .paging next left })
  else (⟨records, count, none⟩, { pager with state := .exhausted })

def countFor (set : EntitySet) (options : QueryOptions) (plan : QueryPlan) :
    Action (Option Nat) := do
  if options.count then pure (some (← set.count plan)) else pure none

/-- The records of the next page; none after the last one. -/
def nextRecords (ctx : Context) (set : EntitySet) (options : QueryOptions) (pager : Pager) :
    Action (Option (RecordPage × Pager)) := do
  match pager.state with
  | .exhausted => pure none
  | .initial =>
    let count ← countFor set options pager.plan
    let (offset, remaining) := pager.start
    let fetched ← fetchRecords ctx set pager.plan offset (pager.take remaining)
    pure (some (pager.pageOf offset remaining count fetched))
  | .paging offset remaining =>
    let fetched ← fetchRecords ctx set pager.plan offset (pager.take remaining)
    pure (some (pager.pageOf offset remaining none fetched))

/-- The next page; none after the last one. -/
def next (ctx : Context) (set : EntitySet) (options : QueryOptions) (make : EntitySet.Maker)
    (pager : Pager) : Action (Option Page × Pager) := do
  match ← pager.nextRecords ctx set options with
  | none => pure (none, pager)
  | some (page, pager) =>
    let entities ← page.records.mapM (make pager.plan.select)
    pure (some ⟨entities, page.count, page.skipToken⟩, pager)

/-- The first page of a set. -/
def firstPage (ctx : Context) (set : EntitySet) (options : QueryOptions)
    (make : EntitySet.Maker) : Action Page := do
  let pager ← open? ctx set options
  let (page, _) ← pager.next ctx set options make
  pure (page.getD ⟨[], none, none⟩)

end Pager

end OData
