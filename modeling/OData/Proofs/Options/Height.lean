import OData.Proofs.Options.Nested

/-!
# The height of filters

What stands in brackets, behind `not` or a minus is nested, and texts nest only so deep.  Operators
of one precedence go on without nesting, and each puts what stands on its left further down.  The
height of a filter is therefore bounded by the levels and by its longest run of such operators, not
by the levels alone: of the five precedences that associate to the left one run each fits into a
level, and there is a filter of this height for runs of any length.
-/

set_option autoImplicit false

namespace OData

namespace Expr

mutual

/-- How many nodes stand one above the other. -/
def height : Expr → Nat
  | literal _ | path _ => 1
  | not e | negate e => e.height + 1
  | binary _ l r => max l.height r.height + 1
  | member e items => max e.height (heightOfList items) + 1
  | call _ arguments => heightOfList arguments + 1

def heightOfList : List Expr → Nat
  | [] => 0
  | e :: rest => max e.height (heightOfList rest)

end

/-- How many operators of a precedence follow each other, from the outermost one to the left. -/
def run (p : Nat) : Expr → Nat
  | binary op l _ => if op.precedence = p then run p l + 1 else 0
  | member e _ => if comparisonPrecedence = p then run p e + 1 else 0
  | _ => 0

mutual

/-- The length of the longest run of operators of one precedence. -/
def longestRun : Expr → Nat
  | literal _ | path _ => 0
  | not e | negate e => e.longestRun
  | binary op l r => max (run op.precedence l + 1) (max l.longestRun r.longestRun)
  | member e items =>
    max (run comparisonPrecedence e + 1) (max e.longestRun (longestRunOfList items))
  | call _ arguments => longestRunOfList arguments

def longestRunOfList : List Expr → Nat
  | [] => 0
  | e :: rest => max e.longestRun (longestRunOfList rest)

end

theorem heightOfList_le_iff {items : List Expr} {h : Nat} :
    heightOfList items ≤ h ↔ ∀ item ∈ items, item.height ≤ h := by
  induction items with
  | nil => simp [heightOfList]
  | cons e rest ih => simp [heightOfList, ih]

theorem longestRunOfList_le_iff {items : List Expr} {c : Nat} :
    longestRunOfList items ≤ c ↔ ∀ item ∈ items, item.longestRun ≤ c := by
  induction items with
  | nil => simp [longestRunOfList]
  | cons e rest ih => simp [longestRunOfList, ih]

theorem height_pos (e : Expr) : 0 < e.height := by
  cases e <;> simp [height]

theorem run_eq_zero {p : Nat} {e : Expr} (other : e.precedence ≠ p) : run p e = 0 := by
  cases e with
  | binary op l r => exact if_neg other
  | member e items => exact if_neg other
  | _ => rfl

theorem run_le_longestRun (p : Nat) (e : Expr) : run p e ≤ e.longestRun := by
  by_cases same : e.precedence = p
  · subst same
    cases e with
    | binary op l r =>
      rw [longestRun, run]
      exact Nat.le_trans (Nat.le_of_eq (if_pos rfl)) (Nat.le_max_left _ _)
    | member e items =>
      rw [longestRun, run]
      exact Nat.le_trans (Nat.le_of_eq (if_pos rfl)) (Nat.le_max_left _ _)
    | _ => exact Nat.zero_le _
  · rw [run_eq_zero same]
    exact Nat.zero_le _

/-! ## The bound -/

/-- How many levels of operators bind more tightly than a precedence. -/
def tighterLevels (p : Nat) : Nat := chainLevels.countP (p < ·)

theorem precedence_mem_chainLevels (op : Operator) : op.precedence ∈ chainLevels := by
  cases op <;> decide

theorem run_eq_zero_of_notMem {p : Nat} (other : p ∉ chainLevels) (e : Expr) : run p e = 0 := by
  cases e with
  | binary op l r =>
    refine if_neg ?_
    rintro rfl
    exact other (precedence_mem_chainLevels op)
  | member e items =>
    refine if_neg ?_
    rintro rfl
    exact other (by decide)
  | _ => rfl

/-- The level of an operand leaves room for its longest run. -/
theorem run_succ_le {p c : Nat} {e : Expr} (runs : e.longestRun ≤ c) :
    run (p + 1) e + tighterLevels (p + 1) * c ≤ tighterLevels p * c := by
  by_cases chained : p + 1 ∈ chainLevels
  · have one : tighterLevels p = tighterLevels (p + 1) + 1 := by
      have each : ∀ q ∈ chainLevels, tighterLevels (q - 1) = tighterLevels q + 1 := by decide
      exact each (p + 1) chained
    have own := Nat.le_trans (run_le_longestRun (p + 1) e) runs
    rw [one, Nat.succ_mul]
    omega
  · have fewer : tighterLevels (p + 1) ≤ tighterLevels p :=
      List.countP_mono_left fun q _ tighter => by
        rw [decide_eq_true_eq] at tighter ⊢
        omega
    rw [run_eq_zero_of_notMem chained, Nat.zero_add]
    exact Nat.mul_le_mul_right c fewer

/-- Below a whole level of operators comes what each level further in leaves room for. -/
theorem height_le_mul {n c : Nat} {e : Expr} (runs : e.longestRun ≤ c)
    (bound : e.height ≤ run 1 e + tighterLevels 1 * c + 1 + n * (5 * c + 1)) :
    e.height ≤ (n + 1) * (5 * c + 1) := by
  have own := Nat.le_trans (run_le_longestRun 1 e) runs
  have four : tighterLevels 1 = 4 := by decide
  rw [four] at bound
  rw [Nat.succ_mul]
  omega

/-- What is derived with so many levels is no higher than the runs that fit into them. -/
theorem height_le_of_derives {n p c : Nat} {e : Expr} (derived : Derives n p e)
    (runs : e.longestRun ≤ c) :
    e.height ≤ run p e + tighterLevels p * c + 1 + n * (5 * c + 1) := by
  induction derived with
  | literal v =>
    rw [height]
    omega
  | path names =>
    rw [height]
    omega
  | @call n f arguments _ each =>
    have inside : heightOfList arguments ≤ (n + 1) * (5 * c + 1) :=
      heightOfList_le_iff.mpr fun e member =>
        have own := longestRunOfList_le_iff.mp runs e member
        height_le_mul own (each e member own)
    rw [height]
    omega
  | @group n e _ ih =>
    have inside := height_le_mul runs (ih runs)
    omega
  | @negate n e _ ih =>
    have own := Nat.le_trans (run_le_longestRun unaryPrecedence e) runs
    have none : tighterLevels unaryPrecedence = 0 := by decide
    have inside := ih runs
    rw [height, Nat.succ_mul]
    rw [none] at inside ⊢
    omega
  | @not n e _ ih =>
    have own := run_eq_zero_of_notMem (by decide : notPrecedence ∉ chainLevels) e
    have inside := ih runs
    rw [height, Nat.succ_mul]
    omega
  | @binary n op l r _ _ left right =>
    rw [longestRun, Nat.max_le, Nat.max_le] at runs
    have whole : run op.precedence (binary op l r) = run op.precedence l + 1 := if_pos rfl
    have first := left runs.2.1
    have second := right runs.2.2
    have room := run_succ_le (p := op.precedence) runs.2.2
    rw [height, whole]
    omega
  | @member n e items _ _ element each =>
    rw [longestRun, Nat.max_le, Nat.max_le] at runs
    have whole : run comparisonPrecedence (member e items) = run comparisonPrecedence e + 1 :=
      if_pos rfl
    have first := element runs.2.1
    have inside : heightOfList items ≤ (n + 1) * (5 * c + 1) :=
      heightOfList_le_iff.mpr fun item found =>
        have own := longestRunOfList_le_iff.mp runs.2.2 item found
        height_le_mul own (each item found own)
    rw [height, whole]
    omega
  | @tighter n p e _ ih =>
    have room := run_succ_le (p := p) runs
    have tight := ih runs
    omega

/-- A filter that is read where so many levels may be opened is no higher than its runs allow. -/
theorem height_le_of_isRead {nesting : Nat} {e : Expr} (read : e.IsRead nesting) :
    e.height ≤ (5 * e.longestRun + 1) * (nesting + 1) := by
  obtain ⟨c, next, found⟩ := read
  rw [Nat.mul_comm]
  exact height_le_mul (Nat.le_refl _)
    (height_le_of_derives (derives_of_expression found) (Nat.le_refl _))

/-! ## Filters of that height -/

/-- Some operands that are joined to an expression on its right. -/
def joined (op : Operator) : Nat → Expr → Expr
  | 0, e => e
  | n + 1, e => binary op (joined op n e) (path ["a"])

/-- A run of each of some operators, the first one outermost. -/
def layered (n : Nat) : List Operator → Expr → Expr
  | [], e => e
  | op :: ops, e => joined op n (layered n ops e)

/-- One operator of each precedence that associates to the left. -/
def layers : List Operator := [.or, .and, .eq, .add, .mul]

/-- Runs of all precedences in each level, so many levels inside each other. -/
def steep (n : Nat) : Nat → Expr
  | 0 => layered n layers (path ["a"])
  | levels + 1 => layered n layers (call .length [steep n levels])

section Joined

variable {op : Operator} {n : Nat} {e : Expr}

theorem height_joined : (joined op n e).height = e.height + n := by
  induction n with
  | zero => rfl
  | succ n ih =>
    have positive := height_pos e
    rw [joined, height, ih, height]
    omega

theorem isReadable_joined : (joined op n e).isReadable = e.isReadable := by
  induction n with
  | zero => rfl
  | succ n ih =>
    have operand : (path ["a"]).isReadable = true := by decide
    rw [joined, isReadable, ih, operand, Bool.and_true]

theorem literals_joined : (joined op n e).literals = e.literals := by
  induction n with
  | zero => rfl
  | succ n ih => rw [joined, literals, ih, literals, List.append_nil]

theorem lt_precedence_joined {p : Nat} (looser : p < op.precedence) (tight : p < e.precedence) :
    p < (joined op n e).precedence := by
  cases n with
  | zero => exact tight
  | succ n => exact looser

theorem nesting_joined (tight : op.precedence < e.precedence) :
    (joined op n e).nesting = e.nesting := by
  induction n with
  | zero => rfl
  | succ n ih =>
    have first : op.precedence ≤ (joined op n e).precedence := by
      cases n with
      | zero => exact Nat.le_of_lt tight
      | succ n => exact Nat.le_refl _
    have last : ¬ (path ["a"]).precedence ≤ op.precedence :=
      Nat.not_le.mpr (Nat.lt_succ_of_lt (operator_bounds op).2)
    rw [joined, nesting, ih, decide_eq_false (Nat.not_lt.mpr first), decide_eq_false last]
    simp [nesting]

theorem run_joined (tight : op.precedence < e.precedence) :
    run op.precedence (joined op n e) = n := by
  induction n with
  | zero => exact run_eq_zero (Nat.ne_of_gt tight)
  | succ n ih => rw [joined, run, if_pos rfl, ih]

theorem longestRun_joined (tight : op.precedence < e.precedence) :
    (joined op n e).longestRun = max n e.longestRun := by
  induction n with
  | zero => exact (Nat.zero_max _).symm
  | succ n ih =>
    rw [joined, longestRun, run_joined tight, ih, longestRun]
    omega

end Joined

section Layered

variable {n : Nat} {ops : List Operator} {e : Expr}

theorem height_layered : (layered n ops e).height = e.height + ops.length * n := by
  induction ops with
  | nil => simp [layered]
  | cons op ops ih =>
    rw [layered, height_joined, ih, List.length_cons, Nat.succ_mul]
    omega

theorem isReadable_layered : (layered n ops e).isReadable = e.isReadable := by
  induction ops with
  | nil => rfl
  | cons op ops ih => rw [layered, isReadable_joined, ih]

theorem literals_layered : (layered n ops e).literals = e.literals := by
  induction ops with
  | nil => rfl
  | cons op ops ih => rw [layered, literals_joined, ih]

theorem lt_precedence_layered {p : Nat} (looser : ∀ op ∈ ops, p < op.precedence)
    (tight : p < e.precedence) : p < (layered n ops e).precedence := by
  induction ops with
  | nil => exact tight
  | cons op ops ih =>
    rw [List.forall_mem_cons] at looser
    exact lt_precedence_joined looser.1 (ih looser.2)

/-- Operators that bind more and more tightly need no brackets, and their runs do not join. -/
theorem layered_spec (ordered : ops.Pairwise fun op other => op.precedence < other.precedence)
    (tight : unaryPrecedence ≤ e.precedence) (some : ops ≠ []) :
    (layered n ops e).nesting = e.nesting ∧
      (layered n ops e).longestRun = max n e.longestRun := by
  induction ops with
  | nil => exact absurd rfl some
  | cons op ops ih =>
    obtain ⟨looser, ordered⟩ := List.pairwise_cons.mp ordered
    have inside : op.precedence < (layered n ops e).precedence :=
      lt_precedence_layered looser (Nat.lt_of_lt_of_le (operator_bounds op).2 tight)
    rw [layered, nesting_joined inside, longestRun_joined inside]
    cases ops with
    | nil => exact ⟨rfl, rfl⟩
    | cons next ops =>
      obtain ⟨levels, runs⟩ := ih ordered (List.cons_ne_nil _ _)
      rw [levels, runs]
      exact ⟨rfl, by omega⟩

end Layered

theorem layers_ordered : layers.Pairwise fun op other => op.precedence < other.precedence := by
  decide

theorem isReadable_steep (n levels : Nat) : (steep n levels).isReadable = true := by
  induction levels with
  | zero =>
    rw [steep, isReadable_layered]
    decide
  | succ levels ih =>
    rw [steep, isReadable_layered, isReadable, areReadable, ih]
    rfl

theorem literals_steep (n levels : Nat) : (steep n levels).literals = [] := by
  induction levels with
  | zero => rw [steep, literals_layered, literals]
  | succ levels ih =>
    rw [steep, literals_layered, literals, literalsOfList, ih]
    rfl

theorem nesting_steep (n levels : Nat) : (steep n levels).nesting = levels := by
  induction levels with
  | zero => exact (layered_spec (e := path ["a"]) layers_ordered (by decide) (by decide)).1
  | succ levels ih =>
    rw [steep, (layered_spec layers_ordered (Nat.le_succ _) (by decide)).1, nesting_call,
      nestingOfList, ih, nestingOfList, Nat.max_zero]

theorem longestRun_steep (n levels : Nat) : (steep n levels).longestRun = n := by
  induction levels with
  | zero =>
    rw [steep, (layered_spec (e := path ["a"]) layers_ordered (by decide) (by decide)).2,
      longestRun, Nat.max_zero]
  | succ levels ih =>
    rw [steep, (layered_spec layers_ordered (Nat.le_succ _) (by decide)).2, longestRun,
      longestRunOfList, ih, longestRunOfList]
    omega

theorem height_steep (n levels : Nat) :
    (steep n levels).height = (5 * n + 1) * (levels + 1) := by
  have length : layers.length = 5 := rfl
  induction levels with
  | zero =>
    rw [steep, height_layered, height, length]
    omega
  | succ levels ih =>
    rw [steep, height_layered, height, heightOfList, ih, heightOfList, length,
      Nat.mul_succ _ (levels + 1)]
    omega

/-- The filters of all heights are read back from their texts. -/
theorem restored_steep (n levels : Nat) : (steep n levels).Restored levels where
  legible := isLegible_of_isReadable (isReadable_steep n levels)
  free := beginsNot_of_isReadable (isReadable_steep n levels)
  signs := keepsSigns_of_isReadable (isReadable_steep n levels)
  shallow := Nat.le_of_eq (nesting_steep n levels)
  kept := reread_eq_self _ fun v found => by
    rw [literals_steep] at found
    cases found

end Expr

namespace QueryOptions

theorem exists_parse_of_height (n : Nat) :
    ∃ text e, Expr.parse text = .ok e ∧ e.longestRun = n ∧
      e.height = (5 * n + 1) * (Expr.maxNesting + 1) := by
  have reads := reads_expression (Expr.restored_steep n Expr.maxNesting)
  exact ⟨_, _, reads.parseWhole_eq_ok, Expr.longestRun_steep n _, Expr.height_steep n _⟩

/-- Some pets, of which a filter is left. -/
def petsWith (e : Expr) : List Expansion := [("Pets", { empty with filter := some e })]

theorem exists_parseExpand_of_height (n : Nat) :
    ∃ text e, parseExpand text = .ok (petsWith e) ∧ e.longestRun = n ∧
      e.height = (5 * n + 1) * Expr.maxNesting := by
  have fits : ExpandFits Expr.Restored Expr.maxNesting (petsWith (Expr.steep n 63)) := by
    intro item member
    rw [List.mem_singleton.mp member]
    have name : isIdentifier "Pets" = true := by decide
    refine ⟨name, ⟨?_, nofun, nofun, nofun, nofun, rfl⟩, expandFits_nil _ _⟩
    rintro e ⟨⟩
    exact Expr.restored_steep n 63
  have reads := reads_expansions Expr.maxNesting fits (List.cons_ne_nil _ _)
  exact ⟨_, _, reads.parseWhole_eq_ok, Expr.longestRun_steep n 63, Expr.height_steep n 63⟩

theorem height_le_of_parse {text : String} {e : Expr} (read : Expr.parse text = .ok e) :
    e.height ≤ (5 * e.longestRun + 1) * (Expr.maxNesting + 1) := by
  obtain ⟨⟨tree, next⟩, whole, rest⟩ := Result.bind_eq_ok.mp read
  obtain ⟨_, _, same⟩ := Result.bind_eq_ok.mp rest
  cases same
  exact Expr.height_le_of_isRead ⟨_, next, whole⟩

theorem height_le_of_parseExpand {text : String} {items : List Expansion}
    (read : parseExpand text = .ok items) {e : Expr} (found : e ∈ filtersOfList items) :
    e.height ≤ (5 * e.longestRun + 1) * Expr.maxNesting := by
  obtain ⟨left, less, isRead⟩ := (expandFits_of_parseExpand read).exists_lt_of_mem_filters found
  exact Nat.le_trans (Expr.height_le_of_isRead isRead) (Nat.mul_le_mul_left _ less)

/-- A filter that is read with runs up to a number, alone or with an expansion at any depth, is no
higher than its levels times what the runs allow, and some filters are so high.  So
`10 * (maxNesting + 1)` bounds all filters with such runs only if these are one at most. -/
theorem height_of_read (n : Nat) :
    (∀ text e, Expr.parse text = .ok e → e.longestRun ≤ n →
      e.height ≤ (5 * n + 1) * (Expr.maxNesting + 1)) ∧
    (∀ text items, parseExpand text = .ok items → ∀ e ∈ filtersOfList items, e.longestRun ≤ n →
      e.height ≤ (5 * n + 1) * Expr.maxNesting) ∧
    (∃ text e, Expr.parse text = .ok e ∧ e.longestRun = n ∧
      e.height = (5 * n + 1) * (Expr.maxNesting + 1)) ∧
    (∃ text e, parseExpand text = .ok (petsWith e) ∧ e.longestRun = n ∧
      e.height = (5 * n + 1) * Expr.maxNesting) ∧
    ((∀ text e, Expr.parse text = .ok e → e.longestRun ≤ n →
      e.height ≤ 10 * (Expr.maxNesting + 1)) ↔ n ≤ 1) := by
  have grows {run levels : Nat} (short : run ≤ n) :
      (5 * run + 1) * levels ≤ (5 * n + 1) * levels := by
    apply Nat.mul_le_mul_right
    omega
  refine ⟨fun text e read short => Nat.le_trans (height_le_of_parse read) (grows short),
    fun text items read e found short =>
      Nat.le_trans (height_le_of_parseExpand read found) (grows short),
    exists_parse_of_height n, exists_parseExpand_of_height n, fun low => ?_, ?_⟩
  · obtain ⟨text, e, read, runs, high⟩ := exists_parse_of_height n
    have least := low text e read (Nat.le_of_eq runs)
    rw [high] at least
    have factor := Nat.le_of_mul_le_mul_right least (Nat.succ_pos _)
    omega
  · intro short text e read runs
    refine Nat.le_trans (height_le_of_parse read) (Nat.mul_le_mul_right _ ?_)
    omega

/-- A filter above the height that the levels alone would allow. -/
theorem exists_parse_above :
    ∃ text e, Expr.parse text = .ok e ∧ 10 * (Expr.maxNesting + 1) < e.height := by
  obtain ⟨-, -, ⟨text, e, read, -, height⟩, -⟩ := height_of_read 2
  refine ⟨text, e, read, ?_⟩
  rw [height]
  decide

end QueryOptions

end OData
