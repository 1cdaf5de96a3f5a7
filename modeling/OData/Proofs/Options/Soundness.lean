import OData.Options.Reader
import OData.Proofs.Expr.Grammar
import OData.Proofs.Options.Reading

/-!
# Query options: what a text is read as

Names and paths that are read are spelled as names, numbers have 64 bits, and lists have items.  The
options of an expansion are read with one level less than there was around it.
-/

set_option autoImplicit false

namespace OData

open Text (Cursor)
open OData.Expr (Rule parseWhole)

/-- Whether an expression is one that is read where so many levels may be opened. -/
def Expr.IsRead (nesting : Nat) (e : Expr) : Prop :=
  ∃ c next, Expr.expression nesting c = .ok (e, next)

namespace QueryOptions

/-! ## Items of lists -/

theorem isSpelled_of_path {c next : Cursor} {p : PropertyPath} (read : path c = .ok (p, next)) :
    p.isSpelled = true := by
  rw [path] at read
  split at read
  next name behind found =>
    obtain ⟨others, rfl, valid⟩ := Expr.segmentsFrom_valid read
    have first := (Cursor.isNamespace_of_dottedName? found).1
    rw [PropertyPath.isSpelled]
    simpa using ⟨first, valid⟩
  next => contradiction

theorem of_separated {α : Type} {item : Rule α} {good : α → Prop}
    (each : ∀ {c next a}, item c = .ok (a, next) → good a) {fuel : Nat} {c next : Cursor}
    {items : List α} (read : separated item fuel c = .ok (items, next)) :
    items ≠ [] ∧ ∀ a ∈ items, good a := by
  induction fuel generalizing c items with
  | zero => contradiction
  | succ fuel ih =>
    rw [separated] at read
    obtain ⟨⟨first, behind⟩, found, rest⟩ := Result.bind_eq_ok.mp read
    simp only at rest
    split at rest
    next after comma =>
      obtain ⟨⟨others, last⟩, more, same⟩ := Result.bind_eq_ok.mp rest
      cases same
      refine ⟨by simp, ?_⟩
      intro a member
      rcases List.mem_cons.mp member with rfl | later
      · exact each found
      · exact (ih more).2 a later
    next =>
      cases rest
      refine ⟨by simp, ?_⟩
      intro a member
      rw [List.mem_singleton.mp member]
      exact each found

theorem isSpelled_of_orderItem {c next : Cursor} {order : OrderItem}
    (read : orderItem c = .ok (order, next)) : order.path.isSpelled = true := by
  rw [orderItem] at read
  obtain ⟨⟨p, behind⟩, found, rest⟩ := Result.bind_eq_ok.mp read
  simp only at rest
  split at rest
  · cases rest
    exact isSpelled_of_path found
  · cases rest
    exact isSpelled_of_path found

theorem selectFits_of_selection {c next : Cursor} {select : Select}
    (read : selection c = .ok (select, next)) : selectFits select := by
  rw [selection] at read
  split at read
  next => cases read; exact trivial
  next =>
    obtain ⟨⟨paths, behind⟩, list, same⟩ := Result.bind_eq_ok.mp read
    cases same
    exact of_separated isSpelled_of_path list

theorem lt_of_unsigned {c next : Cursor} {n : Nat} (read : unsigned c = .ok (n, next)) :
    n < 2 ^ 64 := by
  rw [unsigned] at read
  split at read
  next found number =>
    cases read
    rw [Cursor.unsigned?] at number
    simp only [Option.bind_eq_bind, Option.bind_eq_some_iff] at number
    obtain ⟨_, _, m, _, small⟩ := number
    split at small
    next fits =>
      cases small
      exact fits
    next => contradiction
  next => contradiction

/-! ## Options of an expansion -/

variable {nesting : Nat} {inner : Rule (List Expansion)}

theorem fits_empty (good : Nat → Expr → Prop) (nesting : Nat) : Fits good nesting empty :=
  ⟨by simp [empty], by simp [empty], by simp [empty], by simp [empty], by simp [empty], rfl⟩

theorem expandFits_nil (good : Nat → Expr → Prop) (nesting : Nat) :
    ExpandFits good nesting [] := by
  cases nesting <;> simp [ExpandFits]

/-- An option that is read fits with those before it. -/
theorem fits_of_nestedOption
    (expands : ∀ {c next items}, inner c = .ok (items, next) →
      ExpandFits Expr.IsRead nesting items)
    {o after : QueryOptions} {c next : Cursor} (fits : Fits Expr.IsRead nesting o)
    (inside : ExpandFits Expr.IsRead nesting o.expand)
    (read : nestedOption nesting inner o c = .ok (after, next)) :
    Fits Expr.IsRead nesting after ∧ ExpandFits Expr.IsRead nesting after.expand := by
  rw [nestedOption] at read
  split at read
  next => contradiction
  next name behind found =>
    obtain ⟨start, _, read⟩ := Result.bind_eq_ok.mp read
    split at read
    · obtain ⟨_, _, read⟩ := Result.bind_eq_ok.mp read
      obtain ⟨⟨e, last⟩, filter, same⟩ := Result.bind_eq_ok.mp read
      cases same
      refine ⟨{ fits with filter := ?_ }, inside⟩
      rintro _ ⟨⟩
      exact ⟨start, _, filter⟩
    · obtain ⟨_, _, read⟩ := Result.bind_eq_ok.mp read
      obtain ⟨⟨items, last⟩, list, same⟩ := Result.bind_eq_ok.mp read
      cases same
      exact ⟨{ fits with orderBy := (of_separated isSpelled_of_orderItem list).2 }, inside⟩
    · obtain ⟨_, _, read⟩ := Result.bind_eq_ok.mp read
      obtain ⟨⟨select, last⟩, chosen, same⟩ := Result.bind_eq_ok.mp read
      cases same
      refine ⟨{ fits with select := ?_ }, inside⟩
      rintro _ ⟨⟩
      exact selectFits_of_selection chosen
    · obtain ⟨_, _, read⟩ := Result.bind_eq_ok.mp read
      obtain ⟨⟨items, last⟩, list, same⟩ := Result.bind_eq_ok.mp read
      cases same
      exact ⟨⟨fits.filter, fits.orderBy, fits.select, fits.top, fits.skip, fits.skipToken⟩,
        expands list⟩
    · obtain ⟨⟨n, last⟩, number, same⟩ := Result.bind_eq_ok.mp read
      cases same
      refine ⟨{ fits with top := ?_ }, inside⟩
      rintro _ ⟨⟩
      exact lt_of_unsigned number
    · obtain ⟨⟨n, last⟩, number, same⟩ := Result.bind_eq_ok.mp read
      cases same
      refine ⟨{ fits with skip := ?_ }, inside⟩
      rintro _ ⟨⟩
      exact lt_of_unsigned number
    · obtain ⟨⟨b, last⟩, _, same⟩ := Result.bind_eq_ok.mp read
      cases same
      exact ⟨⟨fits.filter, fits.orderBy, fits.select, fits.top, fits.skip, fits.skipToken⟩,
        inside⟩
    · contradiction

theorem fits_of_nestedOptions
    (expands : ∀ {c next items}, inner c = .ok (items, next) →
      ExpandFits Expr.IsRead nesting items)
    {fuel : Nat} {o last : QueryOptions} {c next : Cursor} (fits : Fits Expr.IsRead nesting o)
    (inside : ExpandFits Expr.IsRead nesting o.expand)
    (read : nestedOptions nesting inner fuel o c = .ok (last, next)) :
    Fits Expr.IsRead nesting last ∧ ExpandFits Expr.IsRead nesting last.expand := by
  induction fuel generalizing o c with
  | zero => contradiction
  | succ fuel ih =>
    rw [nestedOptions] at read
    obtain ⟨⟨after, behind⟩, option, rest⟩ := Result.bind_eq_ok.mp read
    obtain ⟨fitsAfter, insideAfter⟩ := fits_of_nestedOption expands fits inside option
    simp only at rest
    split at rest
    next => exact ih fitsAfter insideAfter rest
    next =>
      obtain ⟨_, _, same⟩ := Result.bind_eq_ok.mp rest
      cases same
      exact ⟨fitsAfter, insideAfter⟩

/-! ## Expansions -/

theorem of_expansion {inner : Rule QueryOptions} {good : QueryOptions → Prop} (plain : good empty)
    (options : ∀ {c next o}, inner c = .ok (o, next) → good o) {c next : Cursor} {item : Expansion}
    (read : expansion inner c = .ok (item, next)) : isIdentifier item.1 = true ∧ good item.2 := by
  rw [expansion] at read
  split at read
  next => contradiction
  next name behind found =>
    have identifier := Cursor.isIdentifier_of_name? found
    split at read
    next opened bracket =>
      obtain ⟨⟨o, last⟩, inside, same⟩ := Result.bind_eq_ok.mp read
      cases same
      exact ⟨identifier, options inside⟩
    next =>
      cases read
      exact ⟨identifier, plain⟩

theorem expandFits_of_expansions (nesting : Nat) : ∀ {c next : Cursor} {items : List Expansion},
    expansions nesting c = .ok (items, next) → ExpandFits Expr.IsRead nesting items := by
  induction nesting with
  | zero =>
    intro c next items read
    refine (of_separated (fun {c next item} found => ?_) read).2
    obtain ⟨identifier, plain⟩ : isIdentifier item.1 = true ∧ empty = item.2 :=
      of_expansion rfl (fun deep => by cases deep) found
    exact ⟨identifier, plain.symm⟩
  | succ nesting ih =>
    intro c next items read
    refine (of_separated (fun {c next item} found => ?_) read).2
    have fits : isIdentifier item.1 = true ∧
        Fits Expr.IsRead nesting item.2 ∧ ExpandFits Expr.IsRead nesting item.2.expand :=
      of_expansion ⟨fits_empty _ nesting, expandFits_nil _ nesting⟩
        (fun read =>
          fits_of_nestedOptions ih (fits_empty _ nesting) (expandFits_nil _ nesting) read)
        found
    exact fits

theorem expandFits_of_parseExpand {text : String} {items : List Expansion}
    (read : parseExpand text = .ok items) : ExpandFits Expr.IsRead Expr.maxNesting items := by
  obtain ⟨⟨found, next⟩, whole, rest⟩ := Result.bind_eq_ok.mp read
  obtain ⟨_, _, same⟩ := Result.bind_eq_ok.mp rest
  cases same
  exact expandFits_of_expansions Expr.maxNesting whole

/-! ## Options of a request -/

section Pairs

variable {limits : QueryLimits} {good : QueryOptions → Prop}

/-- A filter and expansions that come with a pair are read from its value. -/
theorem of_readPair {o after : QueryOptions} {name value : String}
    (read : readPair limits o name value = .ok after) :
    (after.filter = o.filter ∨ ∃ e, Expr.parse value = .ok e ∧ after.filter = some e) ∧
      (after.expand = o.expand ∨ parseExpand value = .ok after.expand) := by
  rw [readPair.eq_def] at read
  split at read
  case h_1 =>
    obtain ⟨_, _, read⟩ := Result.bind_eq_ok.mp read
    obtain ⟨e, parsed, same⟩ := Result.bind_eq_ok.mp read
    cases same
    exact ⟨.inr ⟨e, parsed, rfl⟩, .inl rfl⟩
  case h_4 =>
    obtain ⟨items, parsed, same⟩ := Result.bind_eq_ok.mp read
    cases same
    exact ⟨.inl rfl, .inr parsed⟩
  case h_8 =>
    cases read
    exact ⟨.inl rfl, .inl rfl⟩
  case h_9 =>
    split at read
    · cases read
      exact ⟨.inl rfl, .inl rfl⟩
    · contradiction
  -- The other options are read without touching the filter and the expansions.
  all_goals
    obtain ⟨_, _, same⟩ := Result.bind_eq_ok.mp read
    cases same
    exact ⟨.inl rfl, .inl rfl⟩

theorem of_readPairs {pairs : List (String × String)} {seen : List String} {o last : QueryOptions}
    (one : ∀ {o after : QueryOptions} {name value : String}, good o →
      readPair limits o name value = .ok after → good after)
    (before : good o) (read : readPairs limits seen o pairs = .ok last) : good last := by
  induction pairs generalizing seen o with
  | nil =>
    cases read
    exact before
  | cons pair rest ih =>
    rw [readPairs] at read
    split at read
    · split at read
      · contradiction
      · obtain ⟨after, first, later⟩ := Result.bind_eq_ok.mp read
        exact ih (one before first) later
    · exact ih before read

/-- What each pair keeps holds of the options that are read from all of them. -/
theorem of_ofPairs {pairs : List (String × String)} {o : QueryOptions}
    (one : ∀ {o after : QueryOptions} {name value : String}, good o →
      readPair limits o name value = .ok after → good after)
    (before : good empty) (read : ofPairs limits pairs = .ok o) : good o := by
  obtain ⟨last, all, checked⟩ := Result.bind_eq_ok.mp read
  obtain ⟨_, _, same⟩ := Result.bind_eq_ok.mp checked
  cases same
  exact of_readPairs one before all

end Pairs

end QueryOptions

end OData
