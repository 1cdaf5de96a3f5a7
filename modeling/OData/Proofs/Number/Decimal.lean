import Mathlib.Data.List.TakeWhile
import OData.Proofs.Number.Digits
import OData.Proofs.Text.Characters

/-!
# Decimals: reading what was written

The literal of a decimal has a point, so that one without a fraction comes back as `withPoint`,
which has the same value.
-/

set_option autoImplicit false

namespace OData.Decimal

/-! ## Signed digits -/

def signChars (n : Int) : List Char := if n < 0 then ['-'] else []

theorem eq_of_mem_signChars {n : Int} {c : Char} (member : c ∈ signChars n) : c = '-' := by
  rw [signChars] at member
  split at member
  · simpa using member
  · contradiction

theorem ne_of_isDigit {c d : Char} (digit : c.isDigit = true) (other : d.isDigit = false) :
    c ≠ d := by
  rintro rfl
  rw [digit] at other
  contradiction

theorem filter_underscore {cs : List Char} (digits : cs.all Char.isDigit = true) :
    cs.filter (· != '_') = cs := by
  apply List.filter_eq_self.mpr
  intro c member
  have digit := List.all_eq_true.mp digits c member
  simpa using ne_of_isDigit digit (d := '_') rfl

theorem readDigits_eq {cs : List Char} (nonempty : cs ≠ []) (digits : cs.all Char.isDigit = true) :
    readDigits cs = some (natOfDigits cs) := by
  cases cs with
  | nil => contradiction
  | cons first rest =>
    have all : first.isDigit = true ∧ rest.all Char.isDigit = true := by simpa using digits
    have others : rest.all (fun c => c.isDigit || c == '_') = true := by
      apply List.all_eq_true.mpr
      intro c member
      rw [List.all_eq_true.mp all.2 c member]
      rfl
    rw [readDigits, all.1, others, filter_underscore digits]
    rfl

/-- The sign of a number that is below zero or is none, as negative zeros are. -/
def minusChars (negative : Bool) : List Char := if negative then ['-'] else []

def withSign (negative : Bool) (n : Nat) : Int := if negative then -(n : Int) else n

theorem natAbs_withSign (negative : Bool) (n : Nat) : (withSign negative n).natAbs = n := by
  cases negative <;> simp [withSign]

theorem minusChars_of_lt (n : Int) : minusChars (decide (n < 0)) = signChars n := by
  simp [minusChars, signChars]

theorem withSign_of_lt (n : Int) (places : Nat) :
    withSign (decide (n < 0)) (n.natAbs * 10 ^ places) = n * 10 ^ places := by
  rw [withSign, Int.natCast_mul, Int.natCast_pow]
  split
  next negative =>
    have abs : (n.natAbs : Int) = -n := Int.ofNat_natAbs_of_nonpos (by simp at negative; omega)
    rw [abs, Int.neg_mul, Int.neg_neg]
    rfl
  next nonnegative =>
    have abs : (n.natAbs : Int) = n := Int.natAbs_of_nonneg (by simpa using nonnegative)
    rw [abs]
    rfl

theorem readInteger_minusChars (negative : Bool) {cs : List Char} (nonempty : cs ≠ [])
    (digits : cs.all Char.isDigit = true) :
    readInteger (minusChars negative ++ cs) = some (withSign negative (natOfDigits cs)) := by
  have read := readDigits_eq nonempty digits
  cases negative with
  | true =>
    show readInteger ('-' :: cs) = _
    rw [readInteger, read]
    rfl
  | false =>
    have first : ∀ c ∈ cs.head?, c.isDigit = true := fun c head =>
      List.all_eq_true.mp digits c (List.mem_of_mem_head? head)
    show readInteger cs = _
    unfold readInteger
    split
    next => exact absurd (first '-' rfl) (by decide)
    next => exact absurd (first '+' rfl) (by decide)
    next =>
      rw [read]
      rfl

theorem readInteger_signChars {n : Int} (places : Nat) {cs : List Char} (nonempty : cs ≠ [])
    (digits : cs.all Char.isDigit = true) (value : natOfDigits cs = n.natAbs * 10 ^ places) :
    readInteger (signChars n ++ cs) = some (n * 10 ^ places) := by
  rw [← minusChars_of_lt, readInteger_minusChars _ nonempty digits, value, withSign_of_lt]

theorem no_point {negative : Bool} {cs : List Char} (digits : cs.all Char.isDigit = true) :
    ∀ c ∈ minusChars negative ++ cs, (c != '.') = true := by
  intro c member
  rw [List.mem_append] at member
  rcases member with sign | digit
  · cases negative with
    | true =>
      rw [List.mem_singleton.mp sign]
      rfl
    | false => contradiction
  · simpa using ne_of_isDigit (List.all_eq_true.mp digits c digit) (d := '.') rfl

/-- Digits around a point. -/
theorem readMantissa_point (negative : Bool) {lead trail : List Char} (nonempty : lead ≠ [])
    (digits : (lead ++ trail).all Char.isDigit = true) :
    readMantissa (minusChars negative ++ (lead ++ '.' :: trail)) =
      some (withSign negative (natOfDigits (lead ++ trail)), (trail.length : Int)) := by
  have all : lead.all Char.isDigit = true ∧ trail.all Char.isDigit = true := by
    simpa [List.all_append] using digits
  have cut : (minusChars negative ++ (lead ++ '.' :: trail)).takeWhile (· != '.') =
      minusChars negative ++ lead := by
    rw [← List.append_assoc, List.takeWhile_append_of_pos (no_point all.1)]
    simp
  have rest : (minusChars negative ++ (lead ++ '.' :: trail)).drop
      ((minusChars negative ++ lead).length + 1) = trail := by
    rw [← List.append_assoc, ← List.drop_drop, List.drop_left]
    rfl
  rw [readMantissa]
  simp only [cut, rest, List.append_assoc, filter_underscore all.2]
  rw [readInteger_minusChars negative (by simp [nonempty]) digits]
  rfl

theorem readMantissa_whole (negative : Bool) {cs : List Char} (nonempty : cs ≠ [])
    (digits : cs.all Char.isDigit = true) :
    readMantissa (minusChars negative ++ cs) = some (withSign negative (natOfDigits cs), 0) := by
  have before : (minusChars negative ++ cs).takeWhile (· != '.') = minusChars negative ++ cs :=
    List.takeWhile_eq_self_iff.mpr (no_point digits)
  rw [readMantissa]
  simp only [before, List.drop_of_length_le (Nat.le_succ _), List.append_nil,
    readInteger_minusChars negative nonempty digits]
  rfl

theorem takeWhile_mantissa {cs : List Char}
    (plain : ∀ c ∈ cs, c = '-' ∨ c = '.' ∨ c.isDigit = true) :
    cs.takeWhile (fun c => c != 'e' && c != 'E') = cs := by
  apply List.takeWhile_eq_self_iff.mpr
  intro c member
  rcases plain c member with rfl | rfl | digit
  · rfl
  · rfl
  · have small := ne_of_isDigit digit (d := 'e') rfl
    have large := ne_of_isDigit digit (d := 'E') rfl
    simp [small, large]

theorem plain_minusChars (negative : Bool) {cs : List Char}
    (plain : ∀ c ∈ cs, c = '-' ∨ c = '.' ∨ c.isDigit = true) :
    ∀ c ∈ minusChars negative ++ cs, c = '-' ∨ c = '.' ∨ c.isDigit = true := by
  intro c member
  rw [List.mem_append] at member
  rcases member with sign | size
  · cases negative with
    | true => exact Or.inl (List.mem_singleton.mp sign)
    | false => contradiction
  · exact plain c size

theorem plain_signChars {n : Int} {cs : List Char}
    (plain : ∀ c ∈ cs, c = '-' ∨ c = '.' ∨ c.isDigit = true) :
    ∀ c ∈ signChars n ++ cs, c = '-' ∨ c = '.' ∨ c.isDigit = true := by
  rw [← minusChars_of_lt]
  exact plain_minusChars _ plain

theorem ofText?_of_readMantissa {cs : List Char} {digits places : Int}
    (plain : ∀ c ∈ cs, c = '-' ∨ c = '.' ∨ c.isDigit = true)
    (mantissa : readMantissa cs = some (digits, places)) (nonnegative : 0 ≤ places) :
    ofText? (String.ofList cs) = if places < 2 ^ 63 then some ⟨digits, places⟩ else none := by
  have scale : (-2 ^ 63 ≤ places ∧ places < 2 ^ 63) ↔ places < 2 ^ 63 := by omega
  rw [ofText?, String.toList_ofList]
  simp only [takeWhile_mantissa plain, List.drop_length, mantissa, Option.bind_eq_bind,
    Option.bind_some, Int.sub_zero, scale]

/-- Digits with a point among them are read as a mantissa without an exponent. -/
theorem plain_point {lead trail : List Char} (digits : (lead ++ trail).all Char.isDigit = true) :
    ∀ c ∈ lead ++ '.' :: trail, c = '-' ∨ c = '.' ∨ c.isDigit = true := by
  have all : lead.all Char.isDigit = true ∧ trail.all Char.isDigit = true := by
    simpa [List.all_append] using digits
  intro c member
  simp only [List.mem_append, List.mem_cons] at member
  rcases member with first | point | later
  · exact Or.inr (Or.inr (List.all_eq_true.mp all.1 c first))
  · exact Or.inr (Or.inl point)
  · exact Or.inr (Or.inr (List.all_eq_true.mp all.2 c later))

theorem ofText?_point (negative : Bool) {lead trail : List Char} (nonempty : lead ≠ [])
    (digits : (lead ++ trail).all Char.isDigit = true) :
    ofText? (String.ofList (minusChars negative ++ (lead ++ '.' :: trail))) =
      if (trail.length : Int) < 2 ^ 63 then
        some ⟨withSign negative (natOfDigits (lead ++ trail)), trail.length⟩
      else none :=
  ofText?_of_readMantissa (plain_minusChars _ (plain_point digits))
    (readMantissa_point _ nonempty digits) (by omega)

theorem ofText?_whole (negative : Bool) {cs : List Char} (nonempty : cs ≠ [])
    (digits : cs.all Char.isDigit = true) :
    ofText? (String.ofList (minusChars negative ++ cs)) =
      some ⟨withSign negative (natOfDigits cs), 0⟩ := by
  have plain := plain_minusChars negative fun c member =>
    Or.inr (Or.inr (List.all_eq_true.mp digits c member))
  rw [ofText?_of_readMantissa plain (readMantissa_whole _ nonempty digits) (by decide),
    if_pos (by decide)]

theorem ofText?_integer {n : Int} {cs : List Char} (nonempty : cs ≠ [])
    (digits : cs.all Char.isDigit = true) (value : natOfDigits cs = n.natAbs) :
    ofText? (String.ofList (signChars n ++ cs)) = some ⟨n, 0⟩ := by
  have sign := withSign_of_lt n 0
  rw [Nat.pow_zero, Nat.mul_one, Int.pow_zero, Int.mul_one] at sign
  rw [← minusChars_of_lt, ofText?_whole _ nonempty digits, value, sign]

/-! ## The text of a decimal -/

/-- The same value with at least one place after the point. -/
def withPoint (d : Decimal) : Decimal :=
  if d.scale ≤ 0 then ⟨d.digits * 10 ^ ((-d.scale).toNat + 1), 1⟩ else d

/-- The text with a point, also where there is no fraction. -/
def pointedChars (d : Decimal) : List Char :=
  if d.plainChars.contains '.' then d.plainChars else d.plainChars ++ ['.', '0']

theorem all_isDigit_toDigits (n : Nat) : (Nat.toDigits 10 n).all Char.isDigit = true :=
  List.all_eq_true.mpr fun _ member => isDigit_of_mem_toDigits member

theorem all_isDigit_replicate (zeros : Nat) : (List.replicate zeros '0').all Char.isDigit = true :=
  List.all_eq_true.mpr fun c member => by
    rw [List.eq_of_mem_replicate member]
    rfl

/-- The text without the sign. -/
def sizeChars (d : Decimal) : List Char :=
  let digits := Nat.toDigits 10 d.digits.natAbs
  if d.scale ≤ 0 then digits ++ List.replicate (-d.scale).toNat '0'
  else if d.scale.toNat < digits.length then
    digits.take (digits.length - d.scale.toNat) ++
      '.' :: digits.drop (digits.length - d.scale.toNat)
  else '0' :: '.' :: (List.replicate (d.scale.toNat - digits.length) '0' ++ digits)

theorem plainChars_eq (d : Decimal) : d.plainChars = signChars d.digits ++ d.sizeChars := by
  rw [plainChars, signChars]
  split
  · rfl
  · rfl

theorem plainChars_ofInt (n : Int) :
    (ofInt n).plainChars = signChars n ++ Nat.toDigits 10 n.natAbs := by
  have whole : (ofInt n).scale ≤ 0 := Int.le_refl 0
  rw [plainChars_eq, sizeChars, if_pos whole]
  simp [ofInt]

theorem pointedChars_of_scale_le {d : Decimal} (whole : d.scale ≤ 0) :
    d.pointedChars = signChars d.digits ++ ((Nat.toDigits 10 d.digits.natAbs ++
      List.replicate (-d.scale).toNat '0') ++ '.' :: ['0']) := by
  have chars := plainChars_eq d
  rw [sizeChars, if_pos whole] at chars
  have noPoint : d.plainChars.contains '.' = false := by
    rw [chars, List.contains_eq_mem, decide_eq_false_iff_not]
    intro member
    rw [List.mem_append, List.mem_append] at member
    rcases member with sign | digit | zero
    · exact absurd (eq_of_mem_signChars sign) (by decide)
    · exact absurd (isDigit_of_mem_toDigits digit) (by decide)
    · exact absurd (List.eq_of_mem_replicate zero) (by decide)
  rw [pointedChars, noPoint, chars]
  simp

theorem pointedChars_of_scale_lt {d : Decimal} (part : ¬ d.scale ≤ 0) :
    d.pointedChars = d.plainChars := by
  have point : d.plainChars.contains '.' = true := by
    rw [plainChars_eq, sizeChars, List.contains_eq_mem, decide_eq_true_eq, if_neg part]
    split <;> simp
  rw [pointedChars, if_pos point]

/-- The text of a decimal is its sign, the digits `lead`, a point and the digits `trail`; `zeros` of
the digits are written for the sake of the point. -/
structure Pointed (d : Decimal) (lead trail : List Char) (zeros : Nat) : Prop where
  lead_ne_nil : lead ≠ []
  trail_ne_nil : trail ≠ []
  digits : (lead ++ trail).all Char.isDigit = true
  value : natOfDigits (lead ++ trail) = d.digits.natAbs * 10 ^ zeros
  withPoint : d.withPoint = ⟨d.digits * 10 ^ zeros, trail.length⟩
  text : d.pointedChars = signChars d.digits ++ (lead ++ '.' :: trail)

section Pointed

variable {d : Decimal}

theorem pointed_of_scale_le (whole : d.scale ≤ 0) :
    Pointed d (Nat.toDigits 10 d.digits.natAbs ++ List.replicate (-d.scale).toNat '0') ['0']
      ((-d.scale).toNat + 1) := by
  have nonempty : Nat.toDigits 10 d.digits.natAbs ≠ [] := Nat.toDigits_ne_nil
  have zeros : List.replicate (-d.scale).toNat '0' ++ ['0'] =
      List.replicate ((-d.scale).toNat + 1) '0' := by simp [List.replicate_succ']
  refine ⟨by simp [nonempty], by simp, ?_, ?_, if_pos whole, pointedChars_of_scale_le whole⟩
  · rw [List.append_assoc, zeros, List.all_append, all_isDigit_toDigits, all_isDigit_replicate]
    rfl
  · rw [List.append_assoc, zeros, natOfDigits_append_replicate, natOfDigits_toDigits]

/-- The point stands among the digits. -/
theorem pointed_of_scale_lt (part : 0 < d.scale)
    (short : d.scale.toNat < (Nat.toDigits 10 d.digits.natAbs).length) :
    Pointed d
      ((Nat.toDigits 10 d.digits.natAbs).take
        ((Nat.toDigits 10 d.digits.natAbs).length - d.scale.toNat))
      ((Nat.toDigits 10 d.digits.natAbs).drop
        ((Nat.toDigits 10 d.digits.natAbs).length - d.scale.toNat)) 0 := by
  have text := pointedChars_of_scale_lt (Int.not_le.mpr part)
  rw [plainChars_eq, sizeChars, if_neg (Int.not_le.mpr part), if_pos short] at text
  refine ⟨?_, ?_, ?_, ?_, ?_, text⟩
  · intro empty
    have size := congrArg List.length empty
    simp only [List.length_take, List.length_nil] at size
    omega
  · intro empty
    have size := congrArg List.length empty
    simp only [List.length_drop, List.length_nil] at size
    omega
  · rw [List.take_append_drop, all_isDigit_toDigits]
  · rw [List.take_append_drop, natOfDigits_toDigits, Nat.pow_zero, Nat.mul_one]
  · have scale : ((Nat.toDigits 10 d.digits.natAbs).length -
        ((Nat.toDigits 10 d.digits.natAbs).length - d.scale.toNat) : Nat) = d.scale := by omega
    rw [Int.pow_zero, Int.mul_one, List.length_drop, scale]
    exact if_neg (Int.not_le.mpr part)

/-- All digits stand behind the point. -/
theorem pointed_of_le_scale (part : 0 < d.scale)
    (long : ¬ d.scale.toNat < (Nat.toDigits 10 d.digits.natAbs).length) :
    Pointed d ['0']
      (List.replicate (d.scale.toNat - (Nat.toDigits 10 d.digits.natAbs).length) '0' ++
        Nat.toDigits 10 d.digits.natAbs) 0 := by
  have nonempty : Nat.toDigits 10 d.digits.natAbs ≠ [] := Nat.toDigits_ne_nil
  have text := pointedChars_of_scale_lt (Int.not_le.mpr part)
  rw [plainChars_eq, sizeChars, if_neg (Int.not_le.mpr part), if_neg long] at text
  refine ⟨by simp, by simp [nonempty], ?_, ?_, ?_, text⟩
  · rw [List.all_append, List.all_append, all_isDigit_toDigits, all_isDigit_replicate]
    rfl
  · have zeros := natOfDigits_replicate_append
      (d.scale.toNat - (Nat.toDigits 10 d.digits.natAbs).length + 1)
      (Nat.toDigits 10 d.digits.natAbs)
    rw [List.replicate_succ, List.cons_append] at zeros
    rw [List.singleton_append, zeros, natOfDigits_toDigits, Nat.pow_zero, Nat.mul_one]
  · have scale : ((d.scale.toNat - (Nat.toDigits 10 d.digits.natAbs).length +
        (Nat.toDigits 10 d.digits.natAbs).length : Nat) : Int) = d.scale := by omega
    rw [Int.pow_zero, Int.mul_one, List.length_append, List.length_replicate, scale]
    exact if_neg (Int.not_le.mpr part)

end Pointed

theorem exists_pointed (d : Decimal) :
    ∃ (lead trail : List Char) (zeros : Nat), Pointed d lead trail zeros := by
  by_cases whole : d.scale ≤ 0
  · exact ⟨_, _, _, pointed_of_scale_le whole⟩
  · have part := Int.not_le.mp whole
    by_cases short : d.scale.toNat < (Nat.toDigits 10 d.digits.natAbs).length
    · exact ⟨_, _, _, pointed_of_scale_lt part short⟩
    · exact ⟨_, _, _, pointed_of_le_scale part short⟩

theorem Pointed.length_lt_iff {d : Decimal} {lead trail : List Char} {zeros : Nat}
    (pointed : Pointed d lead trail zeros) :
    (trail.length : Int) < 2 ^ 63 ↔ d.scale < 2 ^ 63 := by
  have length : d.withPoint.scale = trail.length := by rw [pointed.withPoint]
  rw [← length, Decimal.withPoint]
  split
  next whole => exact iff_of_true (by decide : (1 : Int) < 2 ^ 63) (by omega)
  next => exact Iff.rfl

theorem ofText?_pointedChars (d : Decimal) : ofText? (String.ofList d.pointedChars) =
    if d.scale < 2 ^ 63 then some d.withPoint else none := by
  obtain ⟨lead, trail, zeros, pointed⟩ := exists_pointed d
  rw [pointed.text, ← minusChars_of_lt, ofText?_point _ pointed.lead_ne_nil pointed.digits,
    pointed.value, withSign_of_lt, ← pointed.withPoint]
  simp only [pointed.length_lt_iff]

theorem toInt64?_ofInt {n : Int} (least : -2 ^ 63 ≤ n) (most : n < 2 ^ 63) :
    (ofInt n).toInt64? = some n := by
  have whole : (ofInt n).whole = n := by simp [Decimal.whole, ofInt]
  have unit : (ofInt n).unit = 1 := rfl
  have integer : (ofInt n).isInteger = true := by simp [isInteger, unit]
  rw [toInt64?]
  simp only [whole, unit, Int.tdiv_one, integer, least, most]
  rfl

/-! ## The value -/

theorem toDigits_mul_ten {n : Nat} (positive : 0 < n) :
    Nat.toDigits 10 (n * 10) = Nat.toDigits 10 n ++ ['0'] := by
  rw [Nat.toDigits_of_base_le (by decide) (by omega), Nat.mul_div_cancel n (by decide),
    Nat.mul_mod_left]
  rfl

theorem length_toDigits_mul_pow {n : Nat} (positive : 0 < n) (places : Nat) :
    (Nat.toDigits 10 (n * 10 ^ places)).length = (Nat.toDigits 10 n).length + places := by
  induction places with
  | zero => rw [Nat.pow_zero, Nat.mul_one, Nat.add_zero]
  | succ places ih =>
    have product : 0 < n * 10 ^ places := Nat.mul_pos positive (Nat.pow_pos (by decide))
    rw [Nat.pow_succ, ← Nat.mul_assoc, toDigits_mul_ten product, List.length_append, ih]
    rfl

theorem sign_mul_pow (n : Int) (places : Nat) : (n * 10 ^ places).sign = n.sign := by
  have positive : (0 : Int) < 10 ^ places := Int.pow_pos (by decide)
  rw [Int.sign_mul, Int.sign_eq_one_of_pos positive, Int.mul_one]

theorem natAbs_mul_pow (n : Int) (places : Nat) :
    (n * 10 ^ places).natAbs = n.natAbs * 10 ^ places := by
  rw [Int.natAbs_mul, Int.natAbs_pow]
  rfl

theorem lead_shift {digits : Int} (scale : Int) (places : Nat) (nonzero : digits ≠ 0) :
    lead ⟨digits * 10 ^ places, scale + places⟩ = lead ⟨digits, scale⟩ := by
  have positive : 0 < digits.natAbs := Int.natAbs_pos.mpr nonzero
  simp only [lead, natAbs_mul_pow, length_toDigits_mul_pow positive]
  omega

theorem digitsAt_of_le {d : Decimal} {scale larger : Int} (least : d.scale ≤ scale)
    (le : scale ≤ larger) : d.digitsAt larger = d.digitsAt scale * 10 ^ (larger - scale).toNat := by
  have places : (larger - d.scale).toNat = (scale - d.scale).toNat + (larger - scale).toNat := by
    omega
  rw [digitsAt, digitsAt, places, Int.pow_add, Int.mul_assoc]

theorem digitsAt_shift {digits scale larger : Int} {places : Nat} (le : scale + places ≤ larger) :
    digitsAt ⟨digits * 10 ^ places, scale + places⟩ larger = digitsAt ⟨digits, scale⟩ larger := by
  have shift : (larger - scale).toNat = places + (larger - (scale + places)).toNat := by omega
  simp only [digitsAt]
  rw [shift, Int.pow_add, Int.mul_assoc]

theorem compare_eq_of_lt_iff {a b m n : Int} (less : a < b ↔ m < n) (same : a = b ↔ m = n) :
    Ord.compare a b = Ord.compare m n := by
  simp only [Ord.compare, compareOfLessAndEq, less, same]

theorem compare_mul_pow (m n : Int) (places : Nat) :
    Ord.compare (m * 10 ^ places) (n * 10 ^ places) = Ord.compare m n := by
  have positive : (0 : Int) < 10 ^ places := Int.pow_pos (by decide)
  exact compare_eq_of_lt_iff (Int.mul_lt_mul_right positive)
    (Int.mul_eq_mul_right_iff (Int.ne_of_gt positive))

theorem lt_of_length_toDigits_lt {m n : Nat}
    (less : (Nat.toDigits 10 m).length < (Nat.toDigits 10 n).length) : m < n := by
  have positive : 0 < (Nat.toDigits 10 m).length := Nat.length_toDigits_pos
  have small := (Nat.length_toDigits_le_iff (by decide) positive).mp (Nat.le_refl _)
  have large : ¬ n < 10 ^ (Nat.toDigits 10 m).length := fun below =>
    Nat.not_le.mpr less ((Nat.length_toDigits_le_iff (by decide) positive).mpr below)
  omega

theorem sign_cases (n : Int) :
    n < 0 ∧ n.sign = -1 ∨ n = 0 ∧ n.sign = 0 ∨ 0 < n ∧ n.sign = 1 := by
  rcases Int.lt_trichotomy n 0 with negative | zero | positive
  · exact .inl ⟨negative, Int.sign_eq_neg_one_of_neg negative⟩
  · exact .inr (.inl ⟨zero, by rw [zero, Int.sign_zero]⟩)
  · exact .inr (.inr ⟨positive, Int.sign_eq_one_of_pos positive⟩)

theorem lead_digitsAt {d : Decimal} {scale : Int} (le : d.scale ≤ scale) (nonzero : d.digits ≠ 0) :
    d.lead = lead ⟨d.digitsAt scale, scale⟩ := by
  have places : d.scale + (scale - d.scale).toNat = scale := by omega
  have shifted := lead_shift d.scale (scale - d.scale).toNat nonzero
  rw [places] at shifted
  exact shifted.symm

theorem sign_digitsAt (d : Decimal) (scale : Int) : (d.digitsAt scale).sign = d.digits.sign :=
  sign_mul_pow d.digits _

/-- At every scale that reaches both, decimals compare as the integers that stand there. -/
theorem compare_eq_digitsAt {a b : Decimal} {scale : Int} (left : a.scale ≤ scale)
    (right : b.scale ≤ scale) :
    a.compare b = Ord.compare (a.digitsAt scale) (b.digitsAt scale) := by
  have signLeft := sign_cases (a.digitsAt scale)
  have signRight := sign_cases (b.digitsAt scale)
  have digitsLeft := sign_cases a.digits
  have digitsRight := sign_cases b.digits
  rw [sign_digitsAt] at signLeft signRight
  rw [compare]
  by_cases signs : a.digits.sign = b.digits.sign
  · rw [if_neg (not_not_intro signs)]
    by_cases zero : a.digits = 0
    · have zeros : a.digitsAt scale = b.digitsAt scale := by omega
      rw [isZero, if_pos (beq_iff_eq.mpr zero), zeros]
      exact Std.ReflCmp.compare_self.symm
    · rw [isZero, if_neg (by rwa [beq_iff_eq])]
      by_cases leads : a.lead = b.lead
      · -- Both numbers grow by the same power of ten.
        have reaches : max a.scale b.scale ≤ scale := Int.max_le.mpr ⟨left, right⟩
        rw [if_neg (not_not_intro leads), digitsAt_of_le (Int.le_max_left _ _) reaches,
          digitsAt_of_le (Int.le_max_right _ _) reaches]
        exact (compare_mul_pow _ _ _).symm
      · -- The number whose first digit stands farther left is the one farther from zero.
        rw [if_pos leads]
        rw [lead_digitsAt left zero, lead_digitsAt right (by omega)] at leads ⊢
        simp only [lead] at leads ⊢
        have shorter := @lt_of_length_toDigits_lt (a.digitsAt scale).natAbs
          (b.digitsAt scale).natAbs
        have longer := @lt_of_length_toDigits_lt (b.digitsAt scale).natAbs
          (a.digitsAt scale).natAbs
        split
        · exact compare_eq_of_lt_iff (by omega) (by omega)
        · exact compare_eq_of_lt_iff (by omega) (by omega)
  · rw [if_pos signs]
    exact compare_eq_of_lt_iff (by omega) (by omega)

/-- Zeros after the digits change no comparison. -/
theorem compare_shift (a : Decimal) (digits scale : Int) (places : Nat) :
    a.compare ⟨digits * 10 ^ places, scale + places⟩ = a.compare ⟨digits, scale⟩ := by
  have left : a.scale ≤ max a.scale (scale + places) := Int.le_max_left _ _
  have right : scale + places ≤ max a.scale (scale + places) := Int.le_max_right _ _
  rw [compare_eq_digitsAt left right, digitsAt_shift right,
    compare_eq_digitsAt (b := ⟨digits, scale⟩) left (by simp only; omega)]

/-- Integers compare as decimals as they do as integers. -/
theorem compare_ofInt (m n : Int) : (ofInt m).compare (ofInt n) = Ord.compare m n := by
  have whole (k : Int) : (ofInt k).digitsAt 0 = k := by simp [digitsAt, ofInt]
  rw [compare_eq_digitsAt (Int.le_refl 0) (Int.le_refl 0), whole, whole]

theorem compare_withPoint (a d : Decimal) : a.compare d.withPoint = a.compare d := by
  obtain ⟨digits, scale⟩ := d
  rw [withPoint]
  split
  next whole =>
    simp only at whole
    have places : (1 : Int) = scale + ((-scale).toNat + 1 : Nat) := by omega
    have shifted := compare_shift a digits scale ((-scale).toNat + 1)
    rwa [← places] at shifted
  next => rfl

theorem same_withPoint (d : Decimal) : d.same d.withPoint = true := by
  rw [same, compare_withPoint]
  simp [compare]

/-! ## Texts tell values apart -/

/-- Texts with a digit behind a sign agree in both. -/
theorem sign_append_inj {p q : Prop} [Decidable p] [Decidable q] {c d : Char} {cs ds : List Char}
    (first : c.isDigit = true) (second : d.isDigit = true)
    (equal : (if p then ['-'] else []) ++ c :: cs = (if q then ['-'] else []) ++ d :: ds) :
    (p ↔ q) ∧ c :: cs = d :: ds := by
  have noSign : ∀ {e : Char}, e.isDigit = true → e ≠ '-' := fun digit =>
    ne_of_isDigit digit (by decide)
  split at equal
  next minus =>
    split at equal
    next minus' => exact ⟨iff_of_true minus minus', (List.cons.inj equal).2⟩
    next => exact absurd (List.cons.inj equal).1.symm (noSign second)
  next plus =>
    split at equal
    next => exact absurd (List.cons.inj equal).1 (noSign first)
    next plus' => exact ⟨iff_of_false plus plus', equal⟩

theorem exists_toDigits_eq_cons (n : Nat) :
    ∃ c cs, Nat.toDigits 10 n = c :: cs ∧ c.isDigit = true := by
  cases digits : Nat.toDigits 10 n with
  | nil => exact absurd digits Nat.toDigits_ne_nil
  | cons c cs => exact ⟨c, cs, rfl, isDigit_of_mem_toDigits (digits ▸ List.mem_cons_self)⟩

theorem toList_toString (e : Int) :
    (toString e).toList = signChars e ++ Nat.toDigits 10 e.natAbs := by
  cases e with
  | ofNat n =>
    show (Nat.repr n).toList = _
    rw [signChars, if_neg (by simp)]
    exact String.toList_ofList
  | negSucc n =>
    show ("-" ++ Nat.repr (n + 1)).toList = _
    rw [signChars, if_pos (Int.negSucc_lt_zero n), String.toList_append]
    exact congrArg _ String.toList_ofList

theorem toString_inj {m n : Int} (equal : (toString m).toList = (toString n).toList) : m = n := by
  obtain ⟨c, cs, digits, first⟩ := exists_toDigits_eq_cons m.natAbs
  obtain ⟨d, ds, digits', second⟩ := exists_toDigits_eq_cons n.natAbs
  rw [toList_toString, toList_toString, digits, digits'] at equal
  obtain ⟨signs, same⟩ := sign_append_inj first second equal
  rw [← digits, ← digits'] at same
  have size := congrArg natOfDigits same
  rw [natOfDigits_toDigits, natOfDigits_toDigits] at size
  omega

theorem plainChars_ofInt_inj {m n : Int} (equal : (ofInt m).plainChars = (ofInt n).plainChars) :
    m = n := by
  rw [plainChars_ofInt, plainChars_ofInt, ← toList_toString, ← toList_toString] at equal
  exact toString_inj equal

theorem Pointed.exists_eq_cons {d : Decimal} {lead trail : List Char} {zeros : Nat}
    (pointed : Pointed d lead trail zeros) :
    '.' ∉ lead ∧ ∃ c cs, lead = c :: cs ∧ c.isDigit = true := by
  have digits := pointed.digits
  rw [List.all_append, Bool.and_eq_true, List.all_eq_true] at digits
  refine ⟨fun point => absurd (digits.1 '.' point) (by decide), ?_⟩
  cases lead with
  | nil => exact absurd rfl pointed.lead_ne_nil
  | cons c cs => exact ⟨c, cs, rfl, digits.1 c List.mem_cons_self⟩

theorem mul_pow_neg_iff (n : Int) (places : Nat) : n * 10 ^ places < 0 ↔ n < 0 := by
  rw [← Int.sign_eq_neg_one_iff_neg, sign_mul_pow, Int.sign_eq_neg_one_iff_neg]

/-- The point of a decimal without a fraction may stand in it or be added to its text. -/
theorem pointedChars_withPoint {d : Decimal} (placed : 0 ≤ d.scale) :
    d.withPoint.pointedChars = d.pointedChars := by
  by_cases part : 0 < d.scale
  · rw [withPoint, if_neg (Int.not_le.mpr part)]
  · obtain ⟨n, scale⟩ := d
    obtain rfl : scale = 0 := by simp only at placed part; omega
    have pointed : withPoint ⟨n, 0⟩ = ⟨n * 10 ^ 1, 1⟩ := rfl
    have sign : signChars (n * 10 ^ 1) = signChars n := by
      rw [signChars, signChars]
      simp only [mul_pow_neg_iff]
    have places : ¬ (1 : Int) ≤ 0 := by decide
    rw [pointed, pointedChars_of_scale_lt places, pointedChars_of_scale_le (Int.le_refl 0),
      plainChars_eq, sizeChars, sign, if_neg places]
    congr 1
    by_cases zero : n.natAbs = 0
    · rw [Int.natAbs_eq_zero.mp zero]
      rfl
    · have digits : Nat.toDigits 10 (n * 10 ^ 1).natAbs = Nat.toDigits 10 n.natAbs ++ ['0'] := by
        rw [natAbs_mul_pow, Nat.pow_one, toDigits_mul_ten (by omega)]
      have some : 0 < (Nat.toDigits 10 n.natAbs).length :=
        List.length_pos_iff.mpr Nat.toDigits_ne_nil
      simp only [digits, List.length_append, List.length_singleton]
      rw [if_pos (by simpa using some)]
      simp

/-- Decimals with one text differ in trailing zeros at most. -/
theorem same_of_pointedChars_eq {d e : Decimal} (equal : d.pointedChars = e.pointedChars) :
    d.same e = true := by
  obtain ⟨lead, trail, zeros, pointed⟩ := exists_pointed d
  obtain ⟨lead', trail', zeros', pointed'⟩ := exists_pointed e
  obtain ⟨noPoint, c, cs, head, first⟩ := pointed.exists_eq_cons
  obtain ⟨noPoint', c', cs', head', second⟩ := pointed'.exists_eq_cons
  rw [pointed.text, pointed'.text, head, head', List.cons_append, List.cons_append] at equal
  obtain ⟨signs, size⟩ := sign_append_inj first second equal
  rw [← List.cons_append, ← List.cons_append, ← head, ← head'] at size
  obtain ⟨leads, trails⟩ := Text.eq_of_append_cons noPoint noPoint' size
  have value := pointed.value
  rw [leads, trails, pointed'.value] at value
  have digits : d.digits * 10 ^ zeros = e.digits * 10 ^ zeros' := by
    rw [← natAbs_mul_pow, ← natAbs_mul_pow] at value
    rw [← mul_pow_neg_iff d.digits zeros, ← mul_pow_neg_iff e.digits zeros'] at signs
    omega
  have withPoint : e.withPoint = d.withPoint := by
    rw [pointed.withPoint, pointed'.withPoint, digits, trails]
  have found := same_withPoint d
  rwa [same, ← withPoint, compare_withPoint] at found

end OData.Decimal
