import OData.Proofs.Options.Roundtrip

/-!
# Query options: expansions on their own

The options of an expansion, at whatever depth it stands, are read by a request that has them as its
own.  What is read are the options with the decimals of their filters in the form they are written
in: the same options, with the same text and within the same limits.
-/

set_option autoImplicit false

namespace OData

/-! ## Filters as they are read back -/

namespace Value

variable {v : Value}

theorem toChars_reread (placed : v.isPlaced = true) : v.reread.toChars = v.toChars := by
  cases v with
  | decimal d => exact Decimal.pointedChars_withPoint (of_decide_eq_true placed)
  | _ => rfl

/-- What is read back is written as it is read. -/
theorem isKept_reread (plain : v.isDoubleOrInstant = false) : v.reread.isKept = true := by
  cases v with
  | double x => cases plain
  | dateTimeOffset i => cases plain
  | decimal d =>
    rw [reread, Decimal.withPoint]
    split
    next => exact decide_eq_true Int.one_pos
    next part => exact decide_eq_true (Int.not_le.mp part)
  | _ => rfl

end Value

namespace Expr

/-- Whether a filter has no minus in front of an operand and no floating-point numbers and instants
among its literals. -/
def isPlain (e : Expr) : Bool := e.isMinusFree && e.literals.all fun v => !v.isDoubleOrInstant

theorem isPlain_iff {e : Expr} :
    e.isPlain = true ↔ e.isMinusFree = true ∧ ∀ v ∈ e.literals, v.isDoubleOrInstant = false := by
  rw [isPlain, Bool.and_eq_true, List.all_eq_true]
  simp only [Bool.not_eq_true']

theorem precedence_reread (e : Expr) : e.reread.precedence = e.precedence := by
  cases e <;> rfl

theorem isName_reread (e : Expr) : e.reread.isName = e.isName := by
  cases e <;> rfl

/-- What is read back has the text that it was read from. -/
theorem toChars_reread (e : Expr) (placed : ∀ v ∈ e.literals, v.isPlaced = true) :
    e.reread.toChars = e.toChars := by
  have lists : ∀ items : List Expr, (∀ item ∈ items, item.reread.toChars = item.toChars) →
      listChars (rereadList items) = listChars items := by
    intro items each
    rw [listChars_eq_map, listChars_eq_map, rereadList_eq_map, List.map_map]
    exact List.map_congr_left each
  induction e with
  | literal v => exact Value.toChars_reread (placed v (by simp [literals]))
  | path p => rfl
  | binary op l r left right =>
    simp only [literals, List.mem_append] at placed
    rw [reread, toChars_binary, toChars_binary, precedence_reread, precedence_reread,
      left fun v found => placed v (.inl found), right fun v found => placed v (.inr found)]
  | not e ih => rw [reread, toChars_not, toChars_not, precedence_reread, ih placed]
  | negate e ih => rw [reread, toChars_negate, toChars_negate, isName_reread, ih placed]
  | member e items element each =>
    simp only [literals, List.mem_append, mem_literalsOfList] at placed
    rw [reread, toChars_member, toChars_member, precedence_reread,
      element fun v found => placed v (.inl found), lists items fun item member =>
        each item member fun v found => placed v (.inr ⟨item, member, found⟩)]
  | call f arguments each =>
    simp only [literals, mem_literalsOfList] at placed
    rw [reread, toChars_call, toChars_call, lists arguments fun item member =>
      each item member fun v found => placed v ⟨item, member, found⟩]

theorem toText_reread {e : Expr} (placed : ∀ v ∈ e.literals, v.isPlaced = true) :
    e.reread.toText = e.toText := by
  rw [toText, toText, toChars_reread e placed]

theorem nodes_reread (e : Expr) : e.reread.nodes = e.nodes := by
  have lists : ∀ items : List Expr, (∀ item ∈ items, item.reread.nodes = item.nodes) →
      nodesOfList (rereadList items) = nodesOfList items := by
    intro items each
    induction items with
    | nil => rfl
    | cons item rest ih =>
      rw [rereadList, nodesOfList, nodesOfList, each item List.mem_cons_self,
        ih fun other member => each other (List.mem_cons_of_mem item member)]
  induction e with
  | literal v => rfl
  | path p => rfl
  | binary op l r left right => rw [reread, nodes, nodes, left, right]
  | not e ih => rw [reread, nodes, nodes, ih]
  | negate e ih => rw [reread, nodes, nodes, ih]
  | member e items element each => rw [reread, nodes, nodes, element, lists items each]
  | call f arguments each => rw [reread, nodes, nodes, lists arguments each]

theorem isMinusFree_reread (e : Expr) : e.reread.isMinusFree = e.isMinusFree := by
  have lists : ∀ items : List Expr, (∀ item ∈ items, item.reread.isMinusFree = item.isMinusFree) →
      areMinusFree (rereadList items) = areMinusFree items := by
    intro items each
    induction items with
    | nil => rfl
    | cons item rest ih =>
      rw [rereadList, areMinusFree, areMinusFree, each item List.mem_cons_self,
        ih fun other member => each other (List.mem_cons_of_mem item member)]
  induction e with
  | literal v => rfl
  | path p => rfl
  | binary op l r left right => rw [reread, isMinusFree, isMinusFree, left, right]
  | not e ih => rw [reread, isMinusFree, isMinusFree, ih]
  | negate e ih => rfl
  | member e items element each =>
    rw [reread, isMinusFree, isMinusFree, element, lists items each]
  | call f arguments each => rw [reread, isMinusFree, isMinusFree, lists arguments each]

theorem literals_reread (e : Expr) : e.reread.literals = e.literals.map Value.reread := by
  have lists : ∀ items : List Expr,
      (∀ item ∈ items, item.reread.literals = item.literals.map Value.reread) →
      literalsOfList (rereadList items) = (literalsOfList items).map Value.reread := by
    intro items each
    induction items with
    | nil => rfl
    | cons item rest ih =>
      rw [rereadList, literalsOfList, literalsOfList, List.map_append,
        each item List.mem_cons_self,
        ih fun other member => each other (List.mem_cons_of_mem item member)]
  induction e with
  | literal v => rfl
  | path p => rfl
  | binary op l r left right => rw [reread, literals, literals, List.map_append, left, right]
  | not e ih => rw [reread, literals, literals, ih]
  | negate e ih => rw [reread, literals, literals, ih]
  | member e items element each =>
    rw [reread, literals, literals, List.map_append, element, lists items each]
  | call f arguments each => rw [reread, literals, literals, lists arguments each]

theorem isPlaced_of_isRead {nesting : Nat} {e : Expr} (read : e.IsRead nesting) :
    ∀ v ∈ e.literals, v.isPlaced = true := by
  obtain ⟨c, next, found⟩ := read
  exact known_of_mem_literals
    ((sound_ofLevels Value.isPlaced_of_literal? (nesting + 1)).expression found).legible

theorem same_reread_of_isRead {nesting : Nat} {e : Expr} (read : e.IsRead nesting)
    (plain : e.isPlain = true) : e.same e.reread = true := by
  obtain ⟨free, literals⟩ := isPlain_iff.mp plain
  exact same_reread_of_literals e
    (known_of_mem_literals (legible_of_isRead read free literals).1)

/-- A filter that is read is, as it is read back, read back from its own text. -/
theorem restored_reread {nesting : Nat} {e : Expr} (read : e.IsRead nesting)
    (plain : e.isPlain = true) : e.reread.Restored nesting := by
  obtain ⟨minusFree, literals⟩ := isPlain_iff.mp plain
  obtain ⟨legible, free, signs, shallow⟩ := legible_of_isRead read minusFree literals
  obtain ⟨reads, opens⟩ := readsItem_of_startsText (startsText e legible signs) legible free shallow
  obtain ⟨next, again, -⟩ := reads _ [] .finish (opens.ahead_of_rest (rest_ofText_toText e))
  refine restored_of_isRead ⟨_, next, again⟩ ?_
  rw [isKept, isMinusFree_reread, minusFree, literals_reread, Bool.true_and, List.all_map,
    List.all_eq_true]
  exact fun v member => Value.isKept_reread (literals v member)

end Expr

namespace QueryOptions

/-! ## Options as they are read back -/

/-- Options have what those of whose expansions all have it have. -/
@[elab_as_elim]
theorem induction {motive : QueryOptions → Prop}
    (step : ∀ o, (∀ item ∈ o.expand, motive item.2) → motive o) (o : QueryOptions) : motive o :=
  @QueryOptions.rec motive (fun items => ∀ item ∈ items, motive item.2) (fun item => motive item.2)
    (fun filter orderBy select expand top skip count skipToken each =>
      step ⟨filter, orderBy, select, expand, top, skip, count, skipToken⟩ each)
    (fun _ found => absurd found List.not_mem_nil)
    (fun first rest one others item found => by
      rcases List.mem_cons.mp found with rfl | later
      · exact one
      · exact others item later)
    (fun _ _ options => options) o

mutual

/-- The options with the filters that are read from the texts of theirs. -/
def reread : QueryOptions → QueryOptions
  | ⟨filter, orderBy, select, expand, top, skip, count, skipToken⟩ =>
    ⟨filter.map Expr.reread, orderBy, select, rereadList expand, top, skip, count, skipToken⟩

def rereadList : List Expansion → List Expansion
  | [] => []
  | (name, options) :: rest => (name, options.reread) :: rereadList rest

end

theorem reread_eq (o : QueryOptions) : o.reread =
    { o with filter := o.filter.map Expr.reread, expand := rereadList o.expand } := by
  cases o
  rw [reread]

theorem isEmpty_rereadList (items : List Expansion) :
    (rereadList items).isEmpty = items.isEmpty := by
  rcases items with _ | ⟨⟨name, options⟩, rest⟩ <;> rfl

theorem isEmpty_reread (o : QueryOptions) : o.reread.isEmpty = o.isEmpty := by
  rw [reread_eq, isEmpty, isEmpty, isEmpty_rereadList, Option.isNone_map]

theorem filter_mem_filters {o : QueryOptions} {e : Expr} (filter : o.filter = some e) :
    e ∈ o.filters := by
  rw [filters_eq, filter]
  exact List.mem_append_left _ (List.mem_singleton_self e)

theorem mem_filters_of_mem {o : QueryOptions} {item : Expansion} (member : item ∈ o.expand)
    {e : Expr} (found : e ∈ item.2.filters) : e ∈ o.filters := by
  rw [filters_eq]
  exact List.mem_append_right _ (mem_filtersOfList.mpr ⟨item, member, found⟩)

/-- What is read back is written as before. -/
theorem toPairs_reread {o : QueryOptions}
    (texts : ∀ e ∈ o.filters, e.reread.toText = e.toText) : o.reread.toPairs = o.toPairs := by
  induction o using QueryOptions.induction with
  | step o each =>
    have expansions : ∀ items : List Expansion,
        (∀ item ∈ items, item.2.reread.toPairs = item.2.toPairs) →
        expansionTexts (rereadList items) = expansionTexts items := by
      intro items each
      induction items with
      | nil => rfl
      | cons item rest ih =>
        have first : item.2.reread.toText = item.2.toText := by
          rw [toText_eq, toText_eq, each item List.mem_cons_self]
        rw [rereadList, expansionTexts, expansionTexts, expansionText, expansionText,
          isEmpty_reread, first,
          ih fun other member => each other (List.mem_cons_of_mem item member)]
    have filter : (o.filter.map Expr.reread).map Expr.toText = o.filter.map Expr.toText := by
      cases found : o.filter with
      | none => rfl
      | some e => exact congrArg some (texts e (filter_mem_filters found))
    have inside := expansions o.expand fun item member =>
      each item member fun e found => texts e (mem_filters_of_mem member found)
    rw [toPairs, toPairs, reread_eq]
    simp only [pairsWith, inside, filter, isEmpty_rereadList]

/-- What is read back is the same. -/
theorem same_reread {o : QueryOptions} (filters : ∀ e ∈ o.filters, e.same e.reread = true) :
    o.same o.reread = true := by
  induction o using QueryOptions.induction with
  | step o each =>
    have lists : ∀ items : List Expansion,
        (∀ item ∈ items, item.2.same item.2.reread = true) →
        sameLists items (rereadList items) = true := by
      intro items each
      induction items with
      | nil => rfl
      | cons item rest ih =>
        rw [rereadList, sameLists, each item List.mem_cons_self,
          ih fun other member => each other (List.mem_cons_of_mem item member), beq_self_eq_true]
        rfl
    have inside := lists o.expand fun item member =>
      each item member fun e found => filters e (mem_filters_of_mem member found)
    have filter : sameFilter o.filter (o.filter.map Expr.reread) = true := by
      cases found : o.filter with
      | none => rfl
      | some e => exact filters e (filter_mem_filters found)
    obtain ⟨own, orderBy, select, expand, top, skip, count, skipToken⟩ := o
    rw [reread, same, filter, inside]
    simp

/-- What is read back is within the limits if the options are. -/
theorem check_reread {limits : QueryLimits} {o : QueryOptions}
    (texts : ∀ e ∈ o.filters, e.reread.toText = e.toText) (depth : Nat) :
    limits.check depth o.reread = limits.check depth o := by
  induction o using QueryOptions.induction generalizing depth with
  | step o each =>
    have lists : ∀ items : List Expansion,
        (∀ item ∈ items, limits.check (depth + 1) item.2.reread = limits.check (depth + 1) item.2) →
        limits.checkList (depth + 1) (rereadList items) = limits.checkList (depth + 1) items := by
      intro items each
      induction items with
      | nil => rfl
      | cons item rest ih =>
        rw [rereadList, QueryLimits.checkList, QueryLimits.checkList, each item List.mem_cons_self,
          ih fun other member => each other (List.mem_cons_of_mem item member)]
    have inside := lists o.expand fun item member =>
      each item member (fun e found => texts e (mem_filters_of_mem member found)) (depth + 1)
    have filter : limits.checkFilter depth (o.filter.map Expr.reread) =
        limits.checkFilter depth o.filter := by
      cases found : o.filter with
      | none => rfl
      | some e =>
        have text := texts e (filter_mem_filters found)
        rw [Option.map_some, QueryLimits.checkFilter, QueryLimits.checkFilter, Expr.nodes_reread,
          text]
    obtain ⟨own, orderBy, select, expand, top, skip, count, skipToken⟩ := o
    rw [reread, QueryLimits.check, QueryLimits.check, filter, inside]

/-! ## Expansions at any depth -/

/-- An expansion stands among those of the options, or inside one of them. -/
inductive Expands : QueryOptions → Expansion → Prop
  | here {o : QueryOptions} {item : Expansion} : item ∈ o.expand → Expands o item
  | inside {o : QueryOptions} {outer item : Expansion} :
    outer ∈ o.expand → Expands outer.2 item → Expands o item

theorem fits_reread {nesting : Nat} {o : QueryOptions} (fits : Fits Expr.IsRead nesting o)
    (plain : ∀ e ∈ o.filters, e.isPlain = true) : Fits Expr.Restored nesting o.reread := by
  rw [reread_eq]
  refine ⟨fun e found => ?_, fits.orderBy, fits.select, fits.top, fits.skip, fits.skipToken⟩
  obtain ⟨own, filter, rfl⟩ := Option.map_eq_some_iff.mp found
  exact Expr.restored_reread (fits.filter own filter) (plain own (filter_mem_filters filter))

theorem mem_rereadList {items : List Expansion} {item : Expansion} :
    item ∈ rereadList items ↔ ∃ own ∈ items, item = (own.1, own.2.reread) := by
  induction items with
  | nil => simp [rereadList]
  | cons first rest ih => simp [rereadList, ih]

theorem expandFits_rereadList {nesting : Nat} {items : List Expansion}
    (fits : ExpandFits Expr.IsRead nesting items)
    (plain : ∀ e ∈ filtersOfList items, e.isPlain = true) :
    ExpandFits Expr.Restored nesting (rereadList items) := by
  induction nesting generalizing items with
  | zero =>
    intro item member
    obtain ⟨own, among, rfl⟩ := mem_rereadList.mp member
    obtain ⟨identifier, none⟩ := fits own among
    exact ⟨identifier, by rw [none]; rfl⟩
  | succ nesting ih =>
    intro item member
    obtain ⟨own, among, rfl⟩ := mem_rereadList.mp member
    obtain ⟨identifier, options, inside⟩ := fits own among
    have within : ∀ e ∈ own.2.filters, e.isPlain = true := fun e found =>
      plain e (mem_filtersOfList.mpr ⟨own, among, found⟩)
    refine ⟨identifier, fits_reread options within, ?_⟩
    rw [reread_eq]
    refine ih inside fun e found => within e ?_
    rw [filters_eq]
    exact List.mem_append_right _ found

/-- An expansion at any depth is checked against the limits. -/
theorem Expands.exists_check {limits : QueryLimits} {o : QueryOptions} {item : Expansion}
    (expands : o.Expands item) {depth : Nat}
    (within : limits.checkList (depth + 1) o.expand = .ok ()) :
    ∃ deeper, limits.check (deeper + 1) item.2 = .ok () := by
  induction expands generalizing depth with
  | here member => exact ⟨depth, QueryLimits.check_of_mem within member⟩
  | inside member _ ih =>
    exact ih (QueryLimits.checkList_of_check (QueryLimits.check_of_mem within member))

/-- An expansion at any depth fits with the levels that are left there, and is within the limits. -/
theorem Expands.fits {limits : QueryLimits} {o : QueryOptions} {item : Expansion}
    (expands : o.Expands item) {nesting depth : Nat}
    (fits : ExpandFits Expr.IsRead nesting o.expand)
    (within : limits.checkList (depth + 1) o.expand = .ok ()) :
    (∃ left ≤ nesting, Fits Expr.IsRead left item.2 ∧
        ExpandFits Expr.IsRead left item.2.expand) ∧
      (∃ deeper, limits.check (deeper + 1) item.2 = .ok ()) ∧
      ∀ e ∈ item.2.filters, e ∈ filtersOfList o.expand := by
  have step {o : QueryOptions} {item : Expansion} {nesting : Nat} (member : item ∈ o.expand)
      (fits : ExpandFits Expr.IsRead nesting o.expand) : ∃ left ≤ nesting,
      Fits Expr.IsRead left item.2 ∧ ExpandFits Expr.IsRead left item.2.expand := by
    cases nesting with
    | zero =>
      rw [(fits item member).2]
      exact ⟨0, Nat.le_refl 0, fits_empty _ 0, expandFits_nil _ 0⟩
    | succ nesting => exact ⟨nesting, Nat.le_succ nesting, (fits item member).2⟩
  have levels : (∃ left ≤ nesting, Fits Expr.IsRead left item.2 ∧
        ExpandFits Expr.IsRead left item.2.expand) ∧
      ∀ e ∈ item.2.filters, e ∈ filtersOfList o.expand := by
    clear within
    induction expands generalizing nesting with
    | here member =>
      exact ⟨step member fits, fun e found => mem_filtersOfList.mpr ⟨_, member, found⟩⟩
    | inside member _ ih =>
      obtain ⟨left, fewer, -, deeper⟩ := step member fits
      obtain ⟨⟨rest, less, both⟩, filters⟩ := ih deeper
      refine ⟨⟨rest, Nat.le_trans less fewer, both⟩, fun e found => ?_⟩
      refine mem_filtersOfList.mpr ⟨_, member, ?_⟩
      rw [filters_eq]
      exact List.mem_append_right _ (filters e found)
  exact ⟨levels.1, expands.exists_check within, levels.2⟩

/-- What fits of expansions holds of each of their filters at some level further in. -/
theorem ExpandFits.exists_lt_of_mem_filters {good : Nat → Expr → Prop} {nesting : Nat}
    {items : List Expansion} (fits : ExpandFits good nesting items) {e : Expr}
    (found : e ∈ filtersOfList items) : ∃ left < nesting, good left e := by
  induction nesting generalizing items with
  | zero =>
    obtain ⟨item, member, inside⟩ := mem_filtersOfList.mp found
    rw [(fits item member).2] at inside
    cases inside
  | succ nesting ih =>
    obtain ⟨item, member, inside⟩ := mem_filtersOfList.mp found
    obtain ⟨-, options, deeper⟩ := fits item member
    rw [filters_eq] at inside
    rcases List.mem_append.mp inside with own | later
    · exact ⟨nesting, Nat.lt_succ_self _, options.filter e (Option.mem_toList.mp own)⟩
    · obtain ⟨left, less, holds⟩ := ih deeper later
      exact ⟨left, Nat.lt_succ_of_lt less, holds⟩

theorem ExpandFits.of_mem_filters {good : Nat → Expr → Prop} {nesting : Nat}
    {items : List Expansion} (fits : ExpandFits good nesting items) {e : Expr}
    (found : e ∈ filtersOfList items) : ∃ left, good left e :=
  (fits.exists_lt_of_mem_filters found).imp fun _ => And.right

theorem ExpandFits.mono {nesting more : Nat} {items : List Expansion}
    (fits : ExpandFits Expr.Restored nesting items) (le : nesting ≤ more) :
    ExpandFits Expr.Restored more items := by
  induction le with
  | refl => exact fits
  | step _ ih => exact ih.succ

/-- A request with the options of an expansion has these options. -/
theorem ofPairs_toPairs_eq_ok {limits : QueryLimits} {o : QueryOptions} {depth : Nat}
    (fits : Fits Expr.Restored Expr.maxNesting o)
    (expands : ExpandFits Expr.Restored Expr.maxNesting o.expand)
    (within : limits.check (depth + 1) o = .ok ()) : ofPairs limits o.toPairs = .ok o := by
  have read : readPairs limits [] empty o.toPairs = .ok o := by
    have all := readPairs_toPairs fits expands (Nat.succ_pos depth) within []
    rw [List.append_nil] at all
    rw [all, readPairs, withoutToken_eq fits.skipToken]
  have checked : limits.check 0 o = .ok () :=
    QueryLimits.check_mono (Nat.succ_pos depth) (Nat.zero_le _) within
  rw [ofPairs, read]
  simp only [bind, Except.bind, checked]
  rfl

/-- Options that a request was given, without minuses, floating-point numbers and instants in their
filters: the pairs of each expansion, at any depth, are accepted under the same limits as the same
options. -/
theorem ofPairs_toPairs_of_expands {limits : QueryLimits} {pairs : List (String × String)}
    {o : QueryOptions} (read : ofPairs limits pairs = .ok o)
    (plain : ∀ e ∈ o.filters, e.isPlain = true) {item : Expansion} (expands : o.Expands item) :
    ∃ again, ofPairs limits item.2.toPairs = .ok again ∧ item.2.same again = true := by
  have fits := expandFits_of_ofPairs read
  obtain ⟨last, taken, rest⟩ := Result.bind_eq_ok.mp read
  obtain ⟨⟨⟩, checked, result⟩ := Result.bind_eq_ok.mp rest
  cases result
  obtain ⟨⟨left, fewer, own, inside⟩, ⟨depth, within⟩, filters⟩ :=
    expands.fits fits (QueryLimits.checkList_of_check checked)
  have known : ∀ e ∈ item.2.filters, e.isPlain = true ∧ ∃ nesting, e.IsRead nesting := by
    intro e found
    have among := filters e found
    refine ⟨plain e ?_, fits.of_mem_filters among⟩
    rw [filters_eq]
    exact List.mem_append_right _ among
  have texts : ∀ e ∈ item.2.filters, e.reread.toText = e.toText := by
    intro e found
    obtain ⟨-, nesting, isRead⟩ := known e found
    exact Expr.toText_reread (Expr.isPlaced_of_isRead isRead)
  have same : item.2.same item.2.reread = true := same_reread fun e found => by
    obtain ⟨free, nesting, isRead⟩ := known e found
    exact Expr.same_reread_of_isRead isRead free
  refine ⟨item.2.reread, ?_, same⟩
  have options := fits_reread own fun e found => (known e found).1
  have deeper : ExpandFits Expr.Restored left item.2.reread.expand := by
    rw [reread_eq]
    refine expandFits_rereadList inside fun e found => (known e ?_).1
    rw [filters_eq]
    exact List.mem_append_right _ found
  have again : limits.check (depth + 1) item.2.reread = .ok () :=
    (check_reread texts (depth + 1)).trans within
  rw [← toPairs_reread texts]
  exact ofPairs_toPairs_eq_ok (options.of_filter fun e _ restored => restored.mono fewer)
    (deeper.mono fewer) again

/-- Two toys of each entity. -/
def twoToys : Expansion := ("Toys", { empty with top := some 2 })

/-- Pets above a price, with two toys of each. -/
def petsWithToys : QueryOptions :=
  { empty with expand := [("Pets", { empty with
      filter := some (.binary .gt (.path ["price"]) (.literal (.decimal ⟨950, 2⟩)))
      expand := [twoToys] })] }

theorem ofPairs_toPairs_petsWithToys :
    ofPairs .standard [("$expand", "Pets($filter=price gt 9.50;$expand=Toys($top=2))")] =
        .ok petsWithToys ∧
      (∀ e ∈ petsWithToys.filters, e.isPlain = true) ∧ petsWithToys.Expands twoToys ∧
      ∃ again, ofPairs .standard twoToys.2.toPairs = .ok again ∧ twoToys.2.same again = true := by
  have text : petsWithToys.toPairs =
      [("$expand", "Pets($filter=price gt 9.50;$expand=Toys($top=2))")] := by decide +kernel
  have plain : ∀ e ∈ petsWithToys.filters, e.isPlain = true := by
    intro e found
    rw [show petsWithToys.filters = [_] from rfl, List.mem_singleton] at found
    rw [found]
    decide +kernel
  have read : ofPairs .standard petsWithToys.toPairs = .ok petsWithToys := by
    have fits : Fits Expr.Restored Expr.maxNesting petsWithToys :=
      { fits_empty _ _ with }
    have toys : ExpandFits Expr.Restored 1 [twoToys] := by
      intro item member
      rw [List.mem_singleton.mp member]
      have two : ∀ n, some 2 = some n → n < 2 ^ 64 := by
        rintro n ⟨⟩
        decide
      exact ⟨by decide, { fits_empty _ _ with top := two }, expandFits_nil _ _⟩
    have pets : ExpandFits Expr.Restored 2 petsWithToys.expand := by
      intro item member
      rw [List.mem_singleton.mp member]
      have priced : ∀ e, some (Expr.binary .gt (.path ["price"]) (.literal (.decimal ⟨950, 2⟩))) =
          some e → e.Restored 1 := by
        rintro e ⟨⟩
        exact ⟨by decide +kernel, rfl, rfl, by decide +kernel, rfl⟩
      exact ⟨by decide, { fits_empty Expr.Restored 1 with filter := priced }, toys⟩
    have expands : ExpandFits Expr.Restored Expr.maxNesting petsWithToys.expand :=
      pets.mono (by decide)
    have within : QueryLimits.standard.check 1 petsWithToys = .ok () := by rfl
    exact ofPairs_toPairs_eq_ok fits expands within
  have inside : petsWithToys.Expands twoToys :=
    .inside List.mem_cons_self (.here List.mem_cons_self)
  rw [← text]
  exact ⟨read, plain, inside, ofPairs_toPairs_of_expands read plain inside⟩

end QueryOptions

end OData
