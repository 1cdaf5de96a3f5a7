import OData.Options.Reader
import OData.Proofs.Options.Soundness

/-!
# Query options: the options of a link

The options of an expansion are written into the link to the rest of it.  A request with that link
has the same options, and they are within the limits since the expansion was.
A request may follow that link if every navigation property is named once in its list and the
filters are written as they are read, which passes on to the expansions inside.
-/

set_option autoImplicit false

namespace OData

open Text (Cursor)

/-! ## Filters -/

/-- Whether the literal of a value is written as it is read.  Floating-point numbers and instants
are left aside, and so are decimals without a fraction, which are read from integers of more than 64
bits and written with a point. -/
def Value.isKept : Value → Bool
  | .double _ | .dateTimeOffset _ => false
  | .decimal d => decide (0 < d.scale)
  | _ => true

theorem Value.reread_of_isKept {v : Value} (kept : v.isKept = true) : v.reread = v := by
  cases v with
  | decimal d =>
    have fraction : 0 < d.scale := of_decide_eq_true kept
    rw [reread, Decimal.withPoint, if_neg (Int.not_le.mpr fraction)]
  | _ => rfl

theorem Value.not_isDoubleOrInstant_of_isKept {v : Value} (kept : v.isKept = true) :
    v.isDoubleOrInstant = false := by
  cases v with
  | double x => contradiction
  | dateTimeOffset i => contradiction
  | _ => rfl

namespace Expr

/-- Whether a filter has no minus in front of an operand and only literals that are written as they
are read. -/
def isKept (e : Expr) : Bool := e.isMinusFree && e.literals.all Value.isKept

theorem reread_eq_self (e : Expr) (kept : ∀ v ∈ e.literals, v.reread = v) : e.reread = e := by
  have lists : ∀ items : List Expr, (∀ item ∈ items, item.reread = item) →
      rereadList items = items := by
    intro items each
    rw [rereadList_eq_map]
    exact (List.map_congr_left each).trans (List.map_id items)
  induction e with
  | literal v => rw [reread, kept v (by simp [literals])]
  | path p => rfl
  | binary op l r left right =>
    simp only [literals, List.mem_append] at kept
    rw [reread, left fun v found => kept v (Or.inl found),
      right fun v found => kept v (Or.inr found)]
  | not e ih => rw [reread, ih kept]
  | negate e ih => rw [reread, ih kept]
  | member e items element each =>
    simp only [literals, List.mem_append, mem_literalsOfList] at kept
    rw [reread, element fun v found => kept v (Or.inl found), lists items fun item member =>
      each item member fun v found => kept v (Or.inr ⟨item, member, found⟩)]
  | call f arguments each =>
    simp only [literals, mem_literalsOfList] at kept
    rw [reread, lists arguments fun item member =>
      each item member fun v found => kept v ⟨item, member, found⟩]

/-- What is known of a filter that is read, floating-point numbers, instants and minuses aside. -/
theorem legible_of_isRead {nesting : Nat} {e : Expr} (read : e.IsRead nesting)
    (free : e.isMinusFree = true) (plain : ∀ v ∈ e.literals, v.isDoubleOrInstant = false) :
    isLegible Value.isReadable e = true ∧ e.beginsNot = false ∧ e.keepsSigns = true ∧
      e.nesting ≤ nesting := by
  obtain ⟨c, next, found⟩ := read
  have loose := (sound_ofLevels Value.isLiteral_of_literal? (nesting + 1)).expression found
  refine ⟨isLegible_of_literals loose.legible ?_, loose.free (by decide),
    keepsSigns_of_isMinusFree e free, nesting_le_of_expression found free⟩
  intro v member literal
  rwa [Value.isLiteral, plain v member, Bool.or_false] at literal

/-- A filter that is read, and whose text says the same, is read back. -/
theorem restored_of_isRead {nesting : Nat} {e : Expr} (read : e.IsRead nesting)
    (kept : e.isKept = true) : e.Restored nesting := by
  rw [isKept, Bool.and_eq_true, List.all_eq_true] at kept
  obtain ⟨legible, free, signs, shallow⟩ := legible_of_isRead read kept.1 fun v member =>
    Value.not_isDoubleOrInstant_of_isKept (kept.2 v member)
  exact ⟨legible, free, signs, shallow,
    reread_eq_self e fun v member => Value.reread_of_isKept (kept.2 v member)⟩

end Expr

namespace QueryOptions

mutual

/-- The filters of some options and of their expansions. -/
def filters : QueryOptions → List Expr
  | ⟨filter, _, _, expand, _, _, _, _⟩ => filter.toList ++ filtersOfList expand

def filtersOfList : List Expansion → List Expr
  | [] => []
  | (_, options) :: rest => options.filters ++ filtersOfList rest

end

theorem filters_eq (o : QueryOptions) : o.filters = o.filter.toList ++ filtersOfList o.expand := by
  cases o
  rw [filters]

theorem mem_filtersOfList {items : List Expansion} {e : Expr} :
    e ∈ filtersOfList items ↔ ∃ item ∈ items, e ∈ item.2.filters := by
  induction items with
  | nil => simp [filtersOfList]
  | cons item rest ih => simp [filtersOfList, ih]

variable {good better : Nat → Expr → Prop}

theorem Fits.of_filter {nesting more : Nat} {o : QueryOptions} (fits : Fits good nesting o)
    (filter : ∀ e, o.filter = some e → good nesting e → better more e) : Fits better more o :=
  ⟨fun e found => filter e found (fits.filter e found), fits.orderBy, fits.select, fits.top,
    fits.skip, fits.skipToken⟩

/-- What holds of the filters of expansions may be replaced by what it implies. -/
theorem ExpandFits.of_filters {nesting : Nat} {items : List Expansion}
    (fits : ExpandFits good nesting items)
    (filter : ∀ nesting, ∀ e ∈ filtersOfList items, good nesting e → better nesting e) :
    ExpandFits better nesting items := by
  induction nesting generalizing items with
  | zero => exact fits
  | succ nesting ih =>
    intro item member
    obtain ⟨identifier, options, inside⟩ := fits item member
    have within : ∀ e ∈ item.2.filters, e ∈ filtersOfList items := fun e found =>
      mem_filtersOfList.mpr ⟨item, member, found⟩
    rw [filters_eq] at within
    refine ⟨identifier, options.of_filter fun e found => filter _ e ?_, ih inside fun n e found =>
      filter n e (within e (List.mem_append_right _ found))⟩
    exact within e (List.mem_append_left _ (by rw [found]; exact List.mem_singleton_self e))

/-- More levels may be opened than are. -/
theorem ExpandFits.succ {nesting : Nat} {items : List Expansion}
    (fits : ExpandFits Expr.Restored nesting items) :
    ExpandFits Expr.Restored (nesting + 1) items := by
  induction nesting generalizing items with
  | zero =>
    intro item member
    obtain ⟨identifier, plain⟩ := fits item member
    rw [plain]
    exact ⟨identifier, ⟨by simp [empty], by simp [empty], by simp [empty], by simp [empty],
      by simp [empty], rfl⟩, by simp [empty, ExpandFits]⟩
  | succ nesting ih =>
    intro item member
    obtain ⟨identifier, options, inside⟩ := fits item member
    exact ⟨identifier, options.of_filter fun e _ restored => restored.mono (Nat.le_succ nesting),
      ih inside⟩

/-! ## Limits -/

end QueryOptions

namespace QueryLimits

open QueryOptions

variable {limits : QueryLimits}

theorem require_eq_ok {condition : Bool} {code message : String} :
    require condition code message = .ok () ↔ condition = true := by
  rw [require]
  split <;> simp [*]

theorem checkExpandDepth_mono {depth less : Nat} (le : less ≤ depth)
    (within : limits.checkExpandDepth depth = .ok ()) : limits.checkExpandDepth less = .ok () := by
  rw [checkExpandDepth, require_eq_ok, decide_eq_true_eq] at within ⊢
  exact Nat.le_trans le within

/-- What is checked at a depth below the request holds nearer to it. -/
theorem checkFilter_mono {depth less : Nat} (below : 0 < depth) {filter : Option Expr}
    (within : limits.checkFilter depth filter = .ok ()) :
    limits.checkFilter less filter = .ok () := by
  cases filter with
  | none => rfl
  | some e =>
    obtain ⟨⟨⟩, nodes, length⟩ := Result.bind_eq_ok.mp within
    rw [if_pos below] at length
    refine Result.bind_eq_ok.mpr ⟨(), nodes, ?_⟩
    split
    · exact length
    · rfl

mutual

theorem check_mono {depth less : Nat} (below : 0 < depth) (le : less ≤ depth) :
    ∀ {o : QueryOptions}, limits.check depth o = .ok () → limits.check less o = .ok ()
  | ⟨filter, orderBy, select, expand, _, _, _, _⟩, within => by
    rw [check] at within ⊢
    obtain ⟨⟨⟩, nested, within⟩ := Result.bind_eq_ok.mp within
    obtain ⟨⟨⟩, measured, within⟩ := Result.bind_eq_ok.mp within
    obtain ⟨⟨⟩, ordered, within⟩ := Result.bind_eq_ok.mp within
    obtain ⟨⟨⟩, selected, expanded⟩ := Result.bind_eq_ok.mp within
    have others := checkList_mono (Nat.succ_le_succ le) expanded
    rw [checkExpandDepth_mono le nested, checkFilter_mono below measured, ordered, selected, others]
    rfl

theorem checkList_mono {depth less : Nat} (le : less + 1 ≤ depth + 1) :
    ∀ {items : List Expansion}, limits.checkList (depth + 1) items = .ok () →
      limits.checkList (less + 1) items = .ok ()
  | [], _ => by rw [checkList]
  | (_, options) :: rest, within => by
    rw [checkList] at within ⊢
    obtain ⟨⟨⟩, first, others⟩ := Result.bind_eq_ok.mp within
    rw [check_mono (Nat.succ_pos depth) le first, checkList_mono le others]
    rfl

end

theorem check_of_mem {depth : Nat} {items : List Expansion} {item : Expansion}
    (within : limits.checkList depth items = .ok ()) (member : item ∈ items) :
    limits.check depth item.2 = .ok () := by
  induction items with
  | nil => contradiction
  | cons first rest ih =>
    obtain ⟨name, options⟩ := first
    rw [checkList] at within
    obtain ⟨⟨⟩, here, others⟩ := Result.bind_eq_ok.mp within
    rcases List.mem_cons.mp member with rfl | later
    · exact here
    · exact ih others later

theorem checkList_of_check {depth : Nat} {o : QueryOptions}
    (within : limits.check depth o = .ok ()) :
    limits.checkList (depth + 1) o.expand = .ok () := by
  obtain ⟨filter, orderBy, select, expand, top, skip, count, skipToken⟩ := o
  rw [check] at within
  obtain ⟨⟨⟩, _, within⟩ := Result.bind_eq_ok.mp within
  obtain ⟨⟨⟩, _, within⟩ := Result.bind_eq_ok.mp within
  obtain ⟨⟨⟩, _, within⟩ := Result.bind_eq_ok.mp within
  obtain ⟨⟨⟩, _, expanded⟩ := Result.bind_eq_ok.mp within
  exact expanded

theorem checkExpandDepth_of_check {depth : Nat} {o : QueryOptions}
    (within : limits.check depth o = .ok ()) : limits.checkExpandDepth depth = .ok () := by
  obtain ⟨filter, orderBy, select, expand, top, skip, count, skipToken⟩ := o
  rw [check] at within
  obtain ⟨⟨⟩, nested, _⟩ := Result.bind_eq_ok.mp within
  exact nested

/-- The text of a filter below the request has been measured. -/
theorem checkFilterLength_of_check {depth : Nat} (below : 0 < depth) {o : QueryOptions} {e : Expr}
    (within : limits.check depth o = .ok ()) (filter : o.filter = some e) :
    limits.checkFilterLength e.toText = .ok () := by
  obtain ⟨_, orderBy, select, expand, top, skip, count, skipToken⟩ := o
  cases filter
  rw [check] at within
  obtain ⟨⟨⟩, _, within⟩ := Result.bind_eq_ok.mp within
  obtain ⟨⟨⟩, measured, _⟩ := Result.bind_eq_ok.mp within
  obtain ⟨⟨⟩, _, length⟩ := Result.bind_eq_ok.mp measured
  rwa [if_pos below] at length

/-- The skip token is not limited. -/
theorem check_withToken (depth : Nat) (o : QueryOptions) (token : Option String) :
    limits.check depth { o with skipToken := token } = limits.check depth o := by
  cases o
  rw [check, check]

end QueryLimits

namespace QueryOptions

/-! ## The options of a request -/

/-- One option of a request is read. -/
def ReadsPair (limits : QueryLimits) (o : QueryOptions) (pair : String × String)
    (after : QueryOptions) : Prop := readPair limits o pair.1 pair.2 = .ok after

theorem takesOptions_request {limits : QueryLimits} {o : QueryOptions}
    (fits : Fits Expr.Restored Expr.maxNesting o)
    (expands : ExpandFits Expr.Restored Expr.maxNesting o.expand)
    (measured : ∀ e, o.filter = some e → limits.checkFilterLength e.toText = .ok ()) :
    TakesOptions (ReadsPair limits) o where
  filter acc e _ found := by
    have read : Expr.parse e.toText = .ok e :=
      (reads_expression (fits.filter e found)).parseWhole_eq_ok
    rw [ReadsPair, readPair]
    simp only [measured e found, read]
    rfl
  orderBy acc _ some := by
    have read : parseOrderBy (",".intercalate (o.orderBy.map OrderItem.toText)) = .ok o.orderBy :=
      (reads_orderItems some fits.orderBy).parseWhole_eq_ok
    rw [ReadsPair, readPair]
    simp only [read]
    rfl
  select acc select _ found := by
    have read : parseSelect select.toText = .ok select :=
      (reads_selection (fits.select select found)).parseWhole_eq_ok
    rw [ReadsPair, readPair]
    simp only [read]
    rfl
  expand acc _ some := by
    have read : parseExpand (",".intercalate (expansionTexts o.expand)) = .ok o.expand :=
      (reads_expansions Expr.maxNesting expands some).parseWhole_eq_ok
    rw [ReadsPair, readPair]
    simp only [read]
    rfl
  top acc n found := by
    have read : parseUnsigned (toString n) = .ok n :=
      (reads_unsigned (fits.top n found)).parseWhole_eq_ok
    rw [ReadsPair, readPair]
    simp only [read]
    rfl
  skip acc n found := by
    have read : parseUnsigned (toString n) = .ok n :=
      (reads_unsigned (fits.skip n found)).parseWhole_eq_ok
    rw [ReadsPair, readPair]
    simp only [read]
    rfl
  count acc := by
    have read : parseBool "true" = .ok true := reads_true.parseWhole_eq_ok
    rw [ReadsPair, readPair]
    simp only [read]
    rfl

/-- Options of different names are read one after the other. -/
theorem readPairs_append {limits : QueryLimits} {o last : QueryOptions}
    {pairs : List (String × String)} (folds : Folds (ReadsPair limits) o pairs last)
    (names : ∀ pair ∈ pairs, isOptionName pair.1 = true) (once : (pairs.map (·.1)).Nodup)
    (rest : List (String × String)) {seen : List String}
    (fresh : ∀ pair ∈ pairs, pair.1 ∉ seen) :
    readPairs limits seen o (pairs ++ rest) =
      readPairs limits ((pairs.map (·.1)).reverse ++ seen) last rest := by
  induction folds generalizing seen with
  | nil o => rfl
  | @cons o next last pair others taken _ ih =>
    obtain ⟨name, value⟩ := pair
    have named := names (name, value) List.mem_cons_self
    have unseen : seen.contains name = false := by
      rw [List.contains_eq_mem, decide_eq_false_iff_not]
      exact fresh (name, value) List.mem_cons_self
    rw [List.map_cons, List.nodup_cons] at once
    have later : ∀ pair ∈ others, pair.1 ∉ name :: seen := by
      intro pair member among
      rcases List.mem_cons.mp among with same | before
      · exact once.1 (List.mem_map.mpr ⟨pair, member, same⟩)
      · exact fresh pair (List.mem_cons_of_mem _ member) before
    have read : readPair limits o name value = .ok next := taken
    rw [List.cons_append, readPairs, if_pos named, unseen]
    simp only [Bool.false_eq_true, if_false, read, bind, Except.bind]
    rw [ih (fun pair member => names pair (List.mem_cons_of_mem _ member)) once.2 later,
      List.map_cons, List.reverse_cons, List.append_assoc]
    rfl

/-- The names of the options that are written, in their order. -/
def writtenNames : List String :=
  ["$filter", "$orderby", "$select", "$expand", "$top", "$skip", "$count"]

theorem names_sublist (o : QueryOptions) : (o.toPairs.map (·.1)).Sublist writtenNames := by
  have one {name : String} {value : Option String} :
      ((pair? name value).map (·.1)).Sublist [name] := by
    cases value <;> simp [pair?]
  have chosen {condition : Bool} {name text : String} :
      ((if condition then [] else [(name, text)]).map (·.1)).Sublist [name] := by
    cases condition <;> simp
  have counted : ((if o.count then [("$count", "true")] else []).map (·.1)).Sublist ["$count"] := by
    cases o.count <;> simp
  rw [toPairs, pairsWith]
  simp only [List.map_append]
  exact (((((one.append chosen).append one).append chosen).append one).append one).append counted

theorem mem_writtenNames {o : QueryOptions} {pair : String × String} (member : pair ∈ o.toPairs) :
    pair.1 ∈ writtenNames := (names_sublist o).mem (List.mem_map_of_mem member)

/-- The options of an expansion are read from their pairs, and then what comes after these. -/
theorem readPairs_toPairs {limits : QueryLimits} {o : QueryOptions} {depth : Nat}
    (fits : Fits Expr.Restored Expr.maxNesting o)
    (expands : ExpandFits Expr.Restored Expr.maxNesting o.expand) (below : 0 < depth)
    (within : limits.check depth o = .ok ()) (rest : List (String × String)) :
    readPairs limits [] empty (o.toPairs ++ rest) =
      readPairs limits (o.toPairs.map fun pair => pair.1).reverse { o with skipToken := none }
        rest := by
  have folds := (takesOptions_request fits expands fun e found =>
    QueryLimits.checkFilterLength_of_check below within found).folds
  have all : ∀ name ∈ writtenNames, isOptionName name = true := by decide
  have distinct : writtenNames.Nodup := by decide
  have names : ∀ pair ∈ o.toPairs, isOptionName pair.1 = true :=
    fun pair member => all pair.1 (mem_writtenNames member)
  rw [readPairs_append folds names (distinct.sublist (names_sublist o)) _ (by simp),
    List.append_nil]

/-- A request with the options of an expansion that is within the limits has the same options, and
the skip token that comes with them. -/
theorem ofPairs_toPairs {limits : QueryLimits} {o : QueryOptions} {depth : Nat}
    (fits : Fits Expr.Restored Expr.maxNesting o)
    (expands : ExpandFits Expr.Restored Expr.maxNesting o.expand) (below : 0 < depth)
    (within : limits.check depth o = .ok ()) (token : String) :
    ofPairs limits (o.toPairs ++ [("$skiptoken", token)]) =
      .ok { o with skipToken := some token } := by
  have read : readPairs limits [] empty (o.toPairs ++ [("$skiptoken", token)]) =
      .ok { o with skipToken := some token } := by
    have apart : "$skiptoken" ∉ writtenNames := by decide
    have fresh : (o.toPairs.map fun pair => pair.1).reverse.contains "$skiptoken" = false := by
      rw [List.contains_eq_mem, decide_eq_false_iff_not, List.mem_reverse]
      exact fun member => apart ((names_sublist o).mem member)
    have named : isOptionName "$skiptoken" = true := by decide
    rw [readPairs_toPairs fits expands below within, readPairs, if_pos named, fresh]
    rfl
  have checked : limits.check 0 { o with skipToken := some token } = .ok () := by
    rw [QueryLimits.check_withToken]
    exact QueryLimits.check_mono below (Nat.zero_le depth) within
  rw [ofPairs, read]
  simp only [bind, Except.bind, checked]
  rfl

/-! ## Expansions that can be linked to -/

mutual

/-- Whether each list of expansions names a navigation property at most once. -/
def namesOnce : QueryOptions → Bool
  | ⟨_, _, _, expand, _, _, _, _⟩ => decide (expand.map Prod.fst).Nodup && namesOnceOfList expand

def namesOnceOfList : List Expansion → Bool
  | [] => true
  | (_, options) :: rest => options.namesOnce && namesOnceOfList rest

end

theorem namesOnceOfList_iff {items : List Expansion} :
    namesOnceOfList items = true ↔ ∀ item ∈ items, item.2.namesOnce = true := by
  induction items with
  | nil => simp [namesOnceOfList]
  | cons item rest ih => simp [namesOnceOfList, ih]

theorem namesOnce_iff {o : QueryOptions} : o.namesOnce = true ↔
    (o.expand.map Prod.fst).Nodup ∧ ∀ item ∈ o.expand, item.2.namesOnce = true := by
  cases o
  rw [namesOnce, Bool.and_eq_true, decide_eq_true_iff, namesOnceOfList_iff]

/-- Expansions of a request that can be written into a link and read back. -/
structure Linkable (limits : QueryLimits) (items : List Expansion) : Prop where
  once : (items.map Prod.fst).Nodup
  nested : ∀ item ∈ items, item.2.namesOnce = true
  fits : ExpandFits Expr.Restored Expr.maxNesting items
  within : limits.checkList 1 items = .ok ()

namespace Linkable

variable {limits : QueryLimits} {items : List Expansion} {item : Expansion}
  (linkable : Linkable limits items) (member : item ∈ items)

include linkable member

theorem options : Fits Expr.Restored Expr.maxNesting item.2 :=
  (linkable.fits item member).2.1.of_filter fun _ _ restored => restored.mono (Nat.le_succ _)

theorem check : limits.check 1 item.2 = .ok () := QueryLimits.check_of_mem linkable.within member

/-- The expansions inside one of them can be linked to, too. -/
theorem inside : Linkable limits item.2.expand where
  once := (namesOnce_iff.mp (linkable.nested item member)).1
  nested := (namesOnce_iff.mp (linkable.nested item member)).2
  fits := (linkable.fits item member).2.2.succ
  within := QueryLimits.checkList_mono (Nat.le_succ 1)
    (QueryLimits.checkList_of_check (linkable.check member))

/-- A request with the options of an expansion and the token of its link has these options. -/
theorem ofPairs_toPairs (token : String) :
    ofPairs limits (item.2.toPairs ++ [("$skiptoken", token)]) =
      .ok { item.2 with skipToken := some token } :=
  QueryOptions.ofPairs_toPairs (linkable.options member) (linkable.inside member).fits Nat.one_pos
    (linkable.check member) token

end Linkable

/-! ## The expansions of a request -/

theorem expandFits_of_ofPairs {limits : QueryLimits} {pairs : List (String × String)}
    {o : QueryOptions} (read : ofPairs limits pairs = .ok o) :
    ExpandFits Expr.IsRead Expr.maxNesting o.expand := by
  have one : ∀ {o after : QueryOptions} {name value : String},
      ExpandFits Expr.IsRead Expr.maxNesting o.expand → readPair limits o name value = .ok after →
      ExpandFits Expr.IsRead Expr.maxNesting after.expand := by
    intro o after name value fits pair
    rcases (of_readPair pair).2 with same | parsed
    · rwa [same]
    · exact expandFits_of_parseExpand parsed
  exact of_ofPairs one (expandFits_nil _ _) read

/-- The expansions of a request can be linked to if they name everything once and their filters are
written as they are read. -/
theorem linkable_of_ofPairs {limits : QueryLimits} {pairs : List (String × String)}
    {o : QueryOptions} (read : ofPairs limits pairs = .ok o) (once : o.namesOnce = true)
    (kept : ∀ e ∈ filtersOfList o.expand, e.isKept = true) : Linkable limits o.expand := by
  have fits := expandFits_of_ofPairs read
  obtain ⟨last, pairs, read⟩ := Result.bind_eq_ok.mp read
  obtain ⟨⟨⟩, checked, result⟩ := Result.bind_eq_ok.mp read
  cases result
  refine ⟨(namesOnce_iff.mp once).1, (namesOnce_iff.mp once).2, ?_,
    QueryLimits.checkList_of_check checked⟩
  exact fits.of_filters fun _ e member read => Expr.restored_of_isRead read (kept e member)

end QueryOptions

end OData
