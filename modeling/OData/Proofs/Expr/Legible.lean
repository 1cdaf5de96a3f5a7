import OData.Proofs.Expr.Readable

/-!
# Expressions that a text is read as

A path may begin with `not` where no operator could stand, as in `a eq not`.  `isLegible` says of a
tree that each operand can be told where its canonical text puts it: with a bracket before it, or
at the level of the operator beside it.  `keepsSigns` says that no minus would be taken for that of
an infinity, which the levels of precedence leave open.
-/

set_option autoImplicit false

namespace OData

/-- Whether a path is one of dotted names and does not begin with a literal. -/
def PropertyPath.isNamed (p : PropertyPath) : Bool :=
  !p.isEmpty && p.all QualifiedName.isNamespace && !Value.reserved.contains p.firstPart

theorem PropertyPath.isReadable_iff {p : PropertyPath} :
    p.isReadable = true ↔ p.isNamed = true ∧ p.firstPart ≠ "not" := by
  simp only [isReadable, isNamed, List.contains_cons, Bool.and_eq_true, Bool.not_eq_true',
    Bool.or_eq_false_iff, beq_eq_false_iff_ne]
  tauto

namespace Expr

/-- Whether the canonical text begins with a name whose first part is `not`. -/
def beginsNot : Expr → Bool
  | path p => p.firstPart == "not"
  | binary op l _ => !decide (l.precedence < op.precedence) && l.beginsNot
  | member e _ => !decide (e.precedence < comparisonPrecedence) && e.beginsNot
  | _ => false

/-- Whether an operand, perhaps in brackets, can be told at a level. -/
def standsAt (bracketed : Bool) (p : Nat) (e : Expr) : Bool :=
  !((bracketed || decide (p ≤ notPrecedence)) && e.beginsNot)

section Legible

variable (known : Value → Bool)

mutual

/-- Whether the operands of a tree can be told; its literals are of a known kind. -/
def isLegible : Expr → Bool
  | literal v => known v
  | path p => PropertyPath.isNamed p
  | binary op l r =>
    (isLegible l && standsAt (decide (l.precedence < op.precedence)) op.precedence l) &&
      (isLegible r && standsAt (decide (r.precedence ≤ op.precedence)) (op.precedence + 1) r)
  | not e => isLegible e && standsAt (decide (e.precedence < notPrecedence)) notPrecedence e
  | negate e => isLegible e && standsAt (!e.isName) unaryPrecedence e
  | member e items =>
    (isLegible e &&
      standsAt (decide (e.precedence < comparisonPrecedence)) comparisonPrecedence e) &&
      (!items.isEmpty && areLegible items)
  | call _ arguments => areLegible arguments

def areLegible : List Expr → Bool
  | [] => true
  | e :: rest => (isLegible e && standsAt false 1 e) && areLegible rest

end

end Legible

mutual

/-- Whether no minus stands in front of a name that begins like an infinity. -/
def keepsSigns : Expr → Bool
  | literal _ | path _ => true
  | binary _ l r => l.keepsSigns && r.keepsSigns
  | not e => e.keepsSigns
  | negate e => e.keepsSigns && !e.beginsInfinity
  | member e items => e.keepsSigns && keepSigns items
  | call _ arguments => keepSigns arguments

def keepSigns : List Expr → Bool
  | [] => true
  | e :: rest => e.keepsSigns && keepSigns rest

end

/-! ## Lists -/

theorem areLegible_iff {known : Value → Bool} {items : List Expr} :
    areLegible known items = true ↔
      ∀ e ∈ items, isLegible known e = true ∧ e.beginsNot = false := by
  induction items with
  | nil => simp [areLegible]
  | cons e rest ih => simp [areLegible, standsAt, ih, notPrecedence]

theorem keepSigns_iff {items : List Expr} :
    keepSigns items = true ↔ ∀ e ∈ items, e.keepsSigns = true := by
  induction items with
  | nil => simp [keepSigns]
  | cons e rest ih => simp [keepSigns, ih]

/-! ## Literals -/

theorem known_of_mem_literals {known : Value → Bool} {e : Expr}
    (legible : isLegible known e = true) : ∀ v ∈ e.literals, known v = true := by
  induction e with
  | literal v =>
    rw [isLegible] at legible
    simpa [literals] using legible
  | path p => simp [literals]
  | binary op l r left right =>
    simp only [isLegible, Bool.and_eq_true] at legible
    intro v found
    rw [literals, List.mem_append] at found
    rcases found with first | second
    · exact left legible.1.1 v first
    · exact right legible.2.1 v second
  | not e ih =>
    rw [isLegible, Bool.and_eq_true] at legible
    rw [literals]
    exact ih legible.1
  | negate e ih =>
    rw [isLegible, Bool.and_eq_true] at legible
    rw [literals]
    exact ih legible.1
  | member e items element each =>
    simp only [isLegible, Bool.and_eq_true, areLegible_iff] at legible
    intro v found
    rw [literals, List.mem_append, mem_literalsOfList] at found
    rcases found with first | ⟨item, member, later⟩
    · exact element legible.1.1 v first
    · exact each item member (legible.2.2 item member).1 v later
  | call f arguments each =>
    rw [isLegible, areLegible_iff] at legible
    intro v found
    rw [literals, mem_literalsOfList] at found
    obtain ⟨item, member, later⟩ := found
    exact each item member (legible item member).1 v later

/-- A tree is as legible when each of its own literals is of another kind too. -/
theorem isLegible_of_literals {known other : Value → Bool} {e : Expr}
    (legible : isLegible known e = true)
    (sub : ∀ v ∈ e.literals, known v = true → other v = true) : isLegible other e = true := by
  induction e with
  | literal v =>
    rw [isLegible] at legible ⊢
    exact sub v (by simp [literals]) legible
  | path p =>
    rw [isLegible] at legible ⊢
    exact legible
  | binary op l r left right =>
    simp only [isLegible, Bool.and_eq_true] at legible ⊢
    simp only [literals, List.mem_append] at sub
    obtain ⟨⟨first, placeLeft⟩, second, placeRight⟩ := legible
    exact ⟨⟨left first fun v found => sub v (Or.inl found), placeLeft⟩,
      right second fun v found => sub v (Or.inr found), placeRight⟩
  | not e ih =>
    simp only [isLegible, Bool.and_eq_true] at legible ⊢
    simp only [literals] at sub
    exact ⟨ih legible.1 sub, legible.2⟩
  | negate e ih =>
    simp only [isLegible, Bool.and_eq_true] at legible ⊢
    simp only [literals] at sub
    exact ⟨ih legible.1 sub, legible.2⟩
  | member e items element each =>
    simp only [isLegible, Bool.and_eq_true, areLegible_iff] at legible ⊢
    simp only [literals, List.mem_append, mem_literalsOfList] at sub
    obtain ⟨⟨first, place⟩, some, others⟩ := legible
    refine ⟨⟨element first fun v found => sub v (Or.inl found), place⟩, some, ?_⟩
    intro item member
    obtain ⟨legibleItem, free⟩ := others item member
    exact ⟨each item member legibleItem fun v found => sub v (Or.inr ⟨item, member, found⟩), free⟩
  | call f arguments each =>
    simp only [isLegible, areLegible_iff] at legible ⊢
    simp only [literals, mem_literalsOfList] at sub
    intro item member
    obtain ⟨legibleItem, free⟩ := legible item member
    exact ⟨each item member legibleItem fun v found => sub v ⟨item, member, found⟩, free⟩

/-! ## Readable trees -/

/-- No path of a readable tree begins with `not`. -/
theorem beginsNot_of_isReadable {e : Expr} (readable : e.isReadable = true) :
    e.beginsNot = false := by
  induction e with
  | path p =>
    rw [isReadable, PropertyPath.isReadable_iff] at readable
    simpa [beginsNot] using readable.2
  | binary op l r left right =>
    rw [isReadable, Bool.and_eq_true] at readable
    rw [beginsNot, left readable.1, Bool.and_false]
  | member e items element each =>
    rw [isReadable, Bool.and_eq_true] at readable
    rw [beginsNot, element readable.1, Bool.and_false]
  | _ => rfl

theorem standsAt_of_isReadable {e : Expr} (readable : e.isReadable = true) (bracketed : Bool)
    (p : Nat) : standsAt bracketed p e = true := by
  rw [standsAt, beginsNot_of_isReadable readable, Bool.and_false]
  rfl

theorem isLegible_of_isReadable {e : Expr} (readable : e.isReadable = true) :
    isLegible Value.isReadable e = true := by
  induction e with
  | literal v =>
    rw [isReadable] at readable
    rw [isLegible]
    exact readable
  | path p =>
    rw [isReadable, PropertyPath.isReadable_iff] at readable
    rw [isLegible]
    exact readable.1
  | binary op l r left right =>
    rw [isReadable, Bool.and_eq_true] at readable
    obtain ⟨first, second⟩ := readable
    rw [isLegible, left first, right second, standsAt_of_isReadable first,
      standsAt_of_isReadable second]
    rfl
  | not e ih =>
    rw [isReadable] at readable
    rw [isLegible, ih readable, standsAt_of_isReadable readable]
    rfl
  | negate e ih =>
    rw [isReadable, Bool.and_eq_true] at readable
    rw [isLegible, ih readable.1, standsAt_of_isReadable readable.1]
    rfl
  | member e items element each =>
    rw [isReadable, Bool.and_eq_true, Bool.and_eq_true] at readable
    obtain ⟨first, some, others⟩ := readable
    have legible : areLegible Value.isReadable items = true := by
      rw [areLegible_iff]
      intro item member
      have readableItem := isReadable_of_mem others member
      exact ⟨each item member readableItem, beginsNot_of_isReadable readableItem⟩
    rw [isLegible, element first, standsAt_of_isReadable first, some, legible]
    rfl
  | call f arguments each =>
    rw [isReadable] at readable
    rw [isLegible, areLegible_iff]
    intro item member
    have readableItem := isReadable_of_mem readable member
    exact ⟨each item member readableItem, beginsNot_of_isReadable readableItem⟩

theorem keepsSigns_of_isReadable {e : Expr} (readable : e.isReadable = true) :
    e.keepsSigns = true := by
  induction e with
  | literal v => simp [keepsSigns]
  | path p => simp [keepsSigns]
  | binary op l r left right =>
    rw [isReadable, Bool.and_eq_true] at readable
    rw [keepsSigns, left readable.1, right readable.2]
    rfl
  | not e ih =>
    rw [isReadable] at readable
    rw [keepsSigns, ih readable]
  | negate e ih =>
    rw [isReadable, Bool.and_eq_true] at readable
    rw [keepsSigns, ih readable.1, readable.2]
    rfl
  | member e items element each =>
    rw [isReadable, Bool.and_eq_true, Bool.and_eq_true] at readable
    have others : keepSigns items = true := by
      rw [keepSigns_iff]
      intro item member
      exact each item member (isReadable_of_mem readable.2.2 member)
    rw [keepsSigns, element readable.1, others]
    rfl
  | call f arguments each =>
    rw [isReadable] at readable
    rw [keepsSigns, keepSigns_iff]
    intro item member
    exact each item member (isReadable_of_mem readable member)

/-- What is read back of a readable tree is the same tree. -/
theorem same_reread (e : Expr) (readable : e.isReadable = true) : e.same e.reread = true :=
  same_reread_of_literals e (known_of_mem_literals (isLegible_of_isReadable readable))

end Expr

end OData
