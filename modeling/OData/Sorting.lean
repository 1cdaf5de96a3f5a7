import OData.Record

/-!
# Sorting

The library sorts stably by a comparison that is a total order on the items.  Of any other
comparison it promises no more than that the items stay the same: their arrangement is not
specified, and the sort may stop the program when it finds the comparison inconsistent.  So the sort
is a parameter of a service, with what is promised for its laws.  `sortBy` is what all sorts give
where the comparison is a total order.
-/

set_option autoImplicit false

namespace OData

/-- Puts an item behind all that are not greater, in a list of items, the last first. -/
def insertLast {α : Type} (order : α → α → Ordering) (item : α) : List α → List α
  | [] => [item]
  | last :: before =>
    if order item last = .lt then last :: insertLast order item before
    else item :: last :: before

/-- Items in order; equal ones stay as they were. -/
def sortBy {α : Type} (order : α → α → Ordering) (items : List α) : List α :=
  (items.foldl (fun sorted item => insertLast order item sorted) []).reverse

/-- A comparison is a total order on some items, in which different items may be equal. -/
def IsTotalOn {α : Type} (order : α → α → Ordering) (items : List α) : Prop :=
  Std.TransCmp fun a b : {item // item ∈ items} => order a b

/-! ## What is sorted -/

section

variable {α β : Type} {order : α → α → Ordering}

theorem insertLast_perm (order : α → α → Ordering) (item : α) (items : List α) :
    (insertLast order item items).Perm (item :: items) := by
  induction items with
  | nil => exact List.Perm.refl _
  | cons last before ih =>
    by_cases less : order item last = .lt
    · rw [insertLast, if_pos less]
      exact (ih.cons last).trans (List.Perm.swap item last before)
    · rw [insertLast, if_neg less]

theorem sortBy_perm (order : α → α → Ordering) (items : List α) :
    (sortBy order items).Perm items := by
  have inserted : ∀ (rest sorted : List α),
      (rest.foldl (fun sorted item => insertLast order item sorted) sorted).Perm
        (sorted ++ rest) := by
    intro rest
    induction rest with
    | nil => intro sorted; simp
    | cons item rest ih =>
      intro sorted
      rw [List.foldl_cons]
      exact (ih _).trans (((insertLast_perm order item sorted).append_right rest).trans
        List.perm_middle.symm)
  exact (List.reverse_perm _).trans (by simpa using inserted items [])

/-- The items of a list are in descending order. -/
def Descending (order : α → α → Ordering) (items : List α) : Prop :=
  items.Pairwise fun later earlier => (order earlier later).isLE = true

/-- An item that is put into a list in descending order leaves it in that order. -/
theorem descending_insertLast [Std.TransCmp order] (item : α) {items : List α}
    (sorted : Descending order items) : Descending order (insertLast order item items) := by
  induction items with
  | nil => exact List.pairwise_singleton _ item
  | cons last before ih =>
    obtain ⟨below, ordered⟩ := List.pairwise_cons.mp sorted
    by_cases less : order item last = .lt
    · rw [insertLast, if_pos less]
      refine List.pairwise_cons.mpr ⟨fun other member => ?_, ih ordered⟩
      rcases List.mem_cons.mp ((insertLast_perm order item before).mem_iff.mp member) with
        rfl | among
      · simp [less]
      · exact below other among
    · rw [insertLast, if_neg less]
      have after : (order last item).isLE = true := by
        have swapped : order last item = (order item last).swap := Std.OrientedCmp.eq_swap
        rw [swapped, Ordering.isLE_swap]
        exact Ordering.isGE_iff_ne_lt.mpr less
      refine List.pairwise_cons.mpr ⟨fun other member => ?_, sorted⟩
      rcases List.mem_cons.mp member with rfl | among
      · exact after
      · exact Std.TransCmp.isLE_trans (below other among) after

theorem pairwise_sortBy [Std.TransCmp order] (items : List α) :
    (sortBy order items).Pairwise fun a b => (order a b).isLE = true := by
  have descending : ∀ rest sorted : List α, Descending order sorted →
      Descending order (rest.foldl (fun sorted item => insertLast order item sorted) sorted) := by
    intro rest
    induction rest with
    | nil => exact fun _ before => before
    | cons item rest ih => exact fun _ before => ih _ (descending_insertLast item before)
  exact List.pairwise_reverse.mpr (descending items [] List.Pairwise.nil)

theorem map_insertLast (order : β → β → Ordering) (f : α → β) (item : α) (items : List α) :
    (insertLast (fun a b => order (f a) (f b)) item items).map f =
      insertLast order (f item) (items.map f) := by
  induction items with
  | nil => rfl
  | cons last before ih =>
    by_cases less : order (f item) (f last) = .lt
    · rw [List.map_cons, insertLast, insertLast, if_pos less, if_pos less, List.map_cons, ih]
    · rw [List.map_cons, insertLast, insertLast, if_neg less, if_neg less, List.map_cons,
        List.map_cons]

/-- Items are sorted by a part of them as the parts are. -/
theorem map_sortBy (order : β → β → Ordering) (f : α → β) (items : List α) :
    (sortBy (fun a b => order (f a) (f b)) items).map f = sortBy order (items.map f) := by
  have mapped : ∀ rest sorted : List α,
      (rest.foldl (fun sorted item => insertLast (fun a b => order (f a) (f b)) item sorted)
        sorted).map f =
      (rest.map f).foldl (fun sorted item => insertLast order item sorted) (sorted.map f) := by
    intro rest
    induction rest with
    | nil => exact fun _ => rfl
    | cons item rest ih =>
      intro sorted
      rw [List.foldl_cons, ih, map_insertLast, List.map_cons, List.foldl_cons]
  rw [sortBy, sortBy, List.map_reverse, mapped]
  rfl

theorem IsTotalOn.pairwise_sortBy {items : List α} (total : IsTotalOn order items) :
    (sortBy order items).Pairwise fun a b => (order a b).isLE = true := by
  have sorted := @OData.pairwise_sortBy _ (fun a b : {item // item ∈ items} => order a b) total
    items.attach
  rw [← items.attach_map_subtype_val, ← map_sortBy]
  exact List.pairwise_map.mpr sorted

end

/-! ## The sort of the library -/

structure Sorting where
  /-- Some records in order; none if the sort stops the program. -/
  sort : (Record → Record → Ordering) → List Record → Option (List Record)
  perm : ∀ {order : Record → Record → Ordering} {items sorted : List Record},
    sort order items = some sorted → sorted.Perm items
  stable : ∀ {order : Record → Record → Ordering} {items : List Record},
    IsTotalOn order items → sort order items = some (sortBy order items)

namespace Sorting

/-- How many items are sorted by insertion, without a look at the comparison. -/
def insertionLimit : Nat := 20

/-- Items sorted by insertion, unless they are many and turn out not to be in order. -/
def insertionSort? {α : Type} (order : α → α → Ordering) (items : List α) : Option (List α) :=
  if items.length ≤ insertionLimit ∨
      (sortBy order items).Pairwise fun a b => (order a b).isLE = true then
    some (sortBy order items)
  else none

/-- A sort that meets the laws. -/
def standard : Sorting where
  sort := insertionSort?
  perm := by
    intro order items sorted run
    rw [insertionSort?] at run
    split at run
    next =>
      cases run
      exact sortBy_perm order items
    next => cases run
  stable := fun total => if_pos (.inr total.pairwise_sortBy)

end Sorting

end OData
