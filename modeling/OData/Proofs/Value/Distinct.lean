import OData.Proofs.Number.Scientific
import OData.Proofs.Value.Literals
import OData.Proofs.Value.Order
import OData.Proofs.Value.Readings

/-!
# Literals tell values apart

The characters of a literal tell its kind: quotes, colons, letters and hyphens.  Among the literals
of one kind those of different values differ; a time must be one that a clock can show.
-/

set_option autoImplicit false

namespace OData

/-! ## Characters -/

/-- Whether a text has digits and some other characters only. -/
def Text.MadeOf (others cs : List Char) : Prop := ∀ c ∈ cs, c.isDigit = true ∨ c ∈ others

namespace Text.MadeOf

variable {others cs ds : List Char}

theorem of_digits (digits : ∀ c ∈ cs, c.isDigit = true) : MadeOf others cs :=
  fun c member => .inl (digits c member)

theorem of_subset (subset : cs ⊆ others) : MadeOf others cs := fun _ member => .inr (subset member)

theorem append (first : MadeOf others cs) (second : MadeOf others ds) :
    MadeOf others (cs ++ ds) := by
  intro c member
  rcases List.mem_append.mp member with left | right
  · exact first c left
  · exact second c right

theorem cons {c : Char} (one : c ∈ others) (rest : MadeOf others cs) : MadeOf others (c :: cs) := by
  intro d member
  rcases List.mem_cons.mp member with rfl | later
  · exact .inr one
  · exact rest d later

theorem notMem {c : Char} (made : MadeOf others cs) (noDigit : c.isDigit = false)
    (other : c ∉ others) : c ∉ cs := by
  intro member
  rcases made c member with digit | found
  · rw [noDigit] at digit
    contradiction
  · exact other found

theorem mono {more : List Char} (made : MadeOf others cs) (subset : others ⊆ more) :
    MadeOf more cs := fun c member => (made c member).imp_right fun found => subset found

end Text.MadeOf

open Text (MadeOf)

theorem Decimal.madeOf_signChars (n : Int) {others : List Char} (sign : '-' ∈ others) :
    MadeOf others (signChars n) :=
  .of_subset fun _ member => eq_of_mem_signChars member ▸ sign

theorem Decimal.madeOf_toDigits (n : Nat) (others : List Char) :
    MadeOf others (Nat.toDigits 10 n) :=
  .of_digits fun _ member => isDigit_of_mem_toDigits member

theorem Date.madeOf_padded (width n : Nat) (others : List Char) :
    MadeOf others (padded width n) :=
  .of_digits fun _ member => isDigit_of_mem_padded member

theorem Decimal.madeOf_plainChars_ofInt (n : Int) : MadeOf ['-'] (ofInt n).plainChars := by
  rw [plainChars_ofInt]
  exact (madeOf_signChars n (by decide)).append (madeOf_toDigits _ _)

theorem Decimal.madeOf_pointedChars (d : Decimal) : MadeOf ['-', '.'] d.pointedChars := by
  obtain ⟨lead, trail, zeros, pointed⟩ := exists_pointed d
  have digits := pointed.digits
  rw [List.all_append, Bool.and_eq_true, List.all_eq_true, List.all_eq_true] at digits
  rw [pointed.text]
  exact (madeOf_signChars _ (by decide)).append
    ((MadeOf.of_digits digits.1).append (.cons (by decide) (.of_digits digits.2)))

theorem Double.madeOf_scientific (x : Double) : MadeOf ['-', '.', 'e'] x.scientific.toList := by
  have sign : MadeOf ['-', '.', 'e'] (if x.isNegative then ['-'] else []) := by
    split
    · exact .of_subset (by decide)
    · exact .of_subset (List.nil_subset _)
  have mantissa : MadeOf ['-', '.', 'e'] (mantissaChars x.shortest.digits) := by
    intro c member
    rcases mem_mantissaChars member with digit | rfl
    · exact .inl (isDigit_of_mem_shortest digit)
    · exact .inr (by decide)
  rw [toList_scientific, Decimal.toList_toString]
  exact sign.append (mantissa.append (.cons (by decide)
    ((Decimal.madeOf_signChars _ (by decide)).append (Decimal.madeOf_toDigits _ _))))

theorem Date.madeOf_yearChars (year : Int) : MadeOf ['-', '+'] (yearChars year) := by
  rw [yearChars]
  split
  · exact madeOf_padded _ _ _
  · split
    · exact .cons (by decide) (madeOf_padded _ _ _)
    · exact .cons (by decide) (madeOf_padded _ _ _)

theorem Date.madeOf_toChars (d : Date) : MadeOf ['-', '+'] d.toChars :=
  (madeOf_yearChars d.year).append (.cons (by decide)
    ((madeOf_padded _ _ _).append (.cons (by decide) (madeOf_padded _ _ _))))

theorem TimeOfDay.madeOf_fractionChars (n : Nat) : MadeOf [':', '.'] (fractionChars n) := by
  rw [fractionChars]
  split
  · exact .of_subset (List.nil_subset _)
  · split
    · exact .cons (by decide) (Date.madeOf_padded _ _ _)
    · split
      · exact .cons (by decide) (Date.madeOf_padded _ _ _)
      · exact .cons (by decide) (Date.madeOf_padded _ _ _)

theorem TimeOfDay.madeOf_toChars (t : TimeOfDay) : MadeOf [':', '.'] t.toChars :=
  ((Date.madeOf_padded _ _ _).append (.cons (by decide) ((Date.madeOf_padded _ _ _).append
    (.cons (by decide) (Date.madeOf_padded _ _ _))))).append (madeOf_fractionChars _)

theorem Instant.madeOf_toChars (i : Instant) :
    MadeOf ['-', '+', ':', '.', 'T', 'Z'] i.toChars :=
  (i.date.madeOf_toChars.mono (by decide)).append (.cons (by decide)
    ((i.time.madeOf_toChars.mono (by decide)).append (.of_subset (by decide))))

theorem Text.Hex.madeOf_lowerDigits (n width : Nat) :
    MadeOf ['a', 'b', 'c', 'd', 'e', 'f'] (lowerDigits n width) := by
  have all : ∀ k ∈ List.range 16, (lowerDigit k).isDigit = true ∨
      lowerDigit k ∈ ['a', 'b', 'c', 'd', 'e', 'f'] := by decide
  induction width with
  | zero => exact .of_subset (List.nil_subset _)
  | succ width ih =>
    intro c member
    rcases List.mem_cons.mp member with rfl | later
    · exact all _ (List.mem_range.mpr (Nat.mod_lt _ (by decide)))
    · exact ih c later

theorem Guid.madeOf_toChars (g : Guid) :
    MadeOf ['-', 'a', 'b', 'c', 'd', 'e', 'f'] g.toChars := by
  intro c member
  by_cases hyphen : c = '-'
  · exact .inr (hyphen ▸ List.mem_cons_self)
  · have digit : c ∈ g.toChars.filter (· != '-') :=
      List.mem_filter.mpr ⟨member, bne_iff_ne.mpr hyphen⟩
    rw [filter_toChars] at digit
    exact (Text.Hex.madeOf_lowerDigits _ _ c digit).imp_right (List.mem_cons_of_mem _)

/-! ## Dates and times -/

namespace Date

theorem padded_inj {width m n : Nat} (equal : padded width m = padded width n) : m = n := by
  rw [← natOfDigits_padded width m, equal, natOfDigits_padded]

theorem notMem_padded {c : Char} (noDigit : c.isDigit = false) (width n : Nat) :
    c ∉ padded width n :=
  (madeOf_padded width n []).notMem noDigit List.not_mem_nil

/-- A year has a sign just if it does not have four digits. -/
theorem yearChars_inj {y z : Int} (equal : yearChars y = yearChars z) : y = z := by
  have unsigned : ∀ {sign : Char} {n : Nat} {rest : List Char}, sign = '-' ∨ sign = '+' →
      padded 4 n ≠ sign :: rest := by
    intro sign n rest which same
    have member : sign ∈ padded 4 n := same ▸ List.mem_cons_self
    rcases which with rfl | rfl
    · exact notMem_padded (by decide) 4 n member
    · exact notMem_padded (by decide) 4 n member
  have signs : ∀ y : Int, (if y < 0 then '-' else '+') = '-' ∨ (if y < 0 then '-' else '+') = '+' :=
    fun y => by split <;> simp
  rw [yearChars, yearChars] at equal
  by_cases plain : 0 ≤ y ∧ y ≤ 9999
  · by_cases plain' : 0 ≤ z ∧ z ≤ 9999
    · rw [if_pos plain, if_pos plain'] at equal
      have years := padded_inj equal
      omega
    · rw [if_pos plain, if_neg plain'] at equal
      exact absurd equal (unsigned (signs z))
  · by_cases plain' : 0 ≤ z ∧ z ≤ 9999
    · rw [if_neg plain, if_pos plain'] at equal
      exact absurd equal.symm (unsigned (signs y))
    · rw [if_neg plain, if_neg plain'] at equal
      obtain ⟨sign, size⟩ := List.cons.inj equal
      have years := padded_inj size
      have same : y < 0 ↔ z < 0 := by
        by_cases negative : y < 0
        · by_cases negative' : z < 0
          · exact iff_of_true negative negative'
          · rw [if_pos negative, if_neg negative'] at sign
            cases sign
        · by_cases negative' : z < 0
          · rw [if_neg negative, if_pos negative'] at sign
            cases sign
          · exact iff_of_false negative negative'
      omega

/-- A date has two hyphens inside, and one more in front at most. -/
theorem hyphens_toChars (d : Date) : d.toChars.count '-' ≤ 3 ∧ '-' ∈ d.toChars.tail := by
  have none : ∀ width n, (padded width n).count '-' = 0 := fun width n =>
    List.count_eq_zero.mpr (notMem_padded (by decide) width n)
  have year : (yearChars d.year).count '-' ≤ 1 := by
    rw [yearChars]
    split
    · rw [none]
      exact Nat.zero_le _
    · rw [List.count_cons, none]
      split <;> simp
  constructor
  · rw [toChars, List.count_append, List.count_cons_self, List.count_append, none,
      List.count_cons_self, none]
    omega
  · cases front : yearChars d.year with
    | nil => simp [toChars, front]
    | cons c cs => simp [toChars, front]

theorem toChars_inj {d e : Date} (equal : d.toChars = e.toChars) : d = e := by
  have noHyphen : ∀ width n, '-' ∉ padded width n := notMem_padded (by decide)
  have fields : ∀ d : Date, d.toChars =
      (yearChars d.year ++ '-' :: padded 2 d.month) ++ '-' :: padded 2 d.day := by
    intro d
    rw [toChars, List.append_assoc, List.cons_append]
  rw [fields, fields] at equal
  obtain ⟨front, days⟩ := Text.eq_of_append_cons_last (noHyphen _ _) (noHyphen _ _) equal
  obtain ⟨years, months⟩ := Text.eq_of_append_cons_last (noHyphen _ _) (noHyphen _ _) front
  cases d
  cases e
  rw [mk.injEq]
  exact ⟨yearChars_inj years, padded_inj months, padded_inj days⟩

end Date

theorem TimeOfDay.toChars_inj {t u : TimeOfDay} (equal : t.toChars = u.toChars) : t = u := by
  have read := Calendar.time?_toChars t
  rw [equal, Calendar.time?_toChars] at read
  exact (Option.some.inj read).symm

theorem Instant.toChars_inj {i j : Instant} (equal : i.toChars = j.toChars) : i = j := by
  have noT : ∀ d : Date, 'T' ∉ d.toChars := fun d => d.madeOf_toChars.notMem (by decide) (by decide)
  obtain ⟨dates, times⟩ := Text.eq_of_append_cons (noT i.date) (noT j.date) equal
  cases i
  cases j
  rw [mk.injEq]
  exact ⟨Date.toChars_inj dates, TimeOfDay.toChars_inj (List.append_cancel_right times)⟩

theorem Guid.toChars_inj {g h : Guid} (equal : g.toChars = h.toChars) : g = h := by
  have read := ofText?_toChars g
  rw [equal, ofText?_toChars] at read
  exact (Option.some.inj read).symm

/-! ## Kinds -/

namespace Value

/-- The type of the value that has a text as its literal. -/
def literalType? (cs : List Char) : Option PrimitiveType :=
  if cs.head? = some '\'' then some .string
  else if '\'' ∈ cs then some .binary
  else if 'T' ∈ cs then some .dateTimeOffset
  else if ':' ∈ cs then some .timeOfDay
  else if 'n' ∈ cs then none
  else if 't' ∈ cs ∨ 'l' ∈ cs then some .boolean
  else if cs.count '-' = 4 then some .guid
  else if 'N' ∈ cs ∨ 'e' ∈ cs then some .double
  else if '.' ∈ cs then some .decimal
  else if '-' ∈ cs.tail then some .date
  else some .int64

/-- What quotes, letters and colons leave open. -/
theorem literalType?_of_madeOf {others cs : List Char} (made : Text.MadeOf others cs)
    (plain : ∀ c ∈ ['\'', 'T', ':', 'n', 't', 'l', 'N'], c ∉ others) : literalType? cs =
      if cs.count '-' = 4 then some .guid
      else if 'e' ∈ cs then some .double
      else if '.' ∈ cs then some .decimal
      else if '-' ∈ cs.tail then some .date
      else some .int64 := by
  have digits : ∀ c ∈ ['\'', 'T', ':', 'n', 't', 'l', 'N'], c.isDigit = false := by decide
  have absent : ∀ c ∈ ['\'', 'T', ':', 'n', 't', 'l', 'N'], c ∉ cs := fun c member =>
    made.notMem (digits c member) (plain c member)
  have head : cs.head? ≠ some '\'' := fun quote =>
    absent '\'' (by decide) (List.mem_of_mem_head? quote)
  simp only [List.forall_mem_cons] at absent
  simp [literalType?, head, absent]

theorem count_hyphen_sign_append (sign : Prop) [Decidable sign] (cs : List Char) :
    ((if sign then ['-'] else []) ++ cs).count '-' ≤ cs.count '-' + 1 := by
  split
  · simp
  · simp

theorem hyphen_notMem_tail_sign_append (sign : Prop) [Decidable sign] {cs : List Char}
    (rest : '-' ∉ cs) : '-' ∉ ((if sign then ['-'] else []) ++ cs).tail := by
  split
  · exact rest
  · exact fun member => rest (List.mem_of_mem_tail member)

theorem hyphen_notMem_toDigits (n : Nat) : '-' ∉ Nat.toDigits 10 n :=
  (Decimal.madeOf_toDigits n []).notMem (by decide) List.not_mem_nil

theorem literalType?_int (n : Int64) : literalType? (int n).toChars = some .int64 := by
  have token : (int n).toChars = (Decimal.ofInt n.toInt).plainChars := rfl
  have made := Decimal.madeOf_plainChars_ofInt n.toInt
  have rest := hyphen_notMem_toDigits n.toInt.natAbs
  have text := Decimal.plainChars_ofInt n.toInt
  have few : (Decimal.ofInt n.toInt).plainChars.count '-' ≤ 1 := by
    rw [text, ← Nat.zero_add 1, ← List.count_eq_zero.mpr rest]
    exact count_hyphen_sign_append _ _
  have later : '-' ∉ (Decimal.ofInt n.toInt).plainChars.tail := by
    rw [text]
    exact hyphen_notMem_tail_sign_append _ rest
  rw [token, literalType?_of_madeOf made (by decide), if_neg (by omega),
    if_neg (made.notMem (by decide) (by decide)), if_neg (made.notMem (by decide) (by decide)),
    if_neg later]

theorem literalType?_decimal (d : Decimal) :
    literalType? (decimal d).toChars = some .decimal := by
  have token : (decimal d).toChars = d.pointedChars := rfl
  have made := d.madeOf_pointedChars
  obtain ⟨lead, trail, zeros, pointed⟩ := d.exists_pointed
  have digits := pointed.digits
  rw [List.all_append, Bool.and_eq_true, List.all_eq_true, List.all_eq_true] at digits
  have body : MadeOf ['.'] (lead ++ '.' :: trail) :=
    (MadeOf.of_digits digits.1).append (.cons (by decide) (.of_digits digits.2))
  have rest : '-' ∉ lead ++ '.' :: trail := body.notMem (by decide) (by decide)
  have few : d.pointedChars.count '-' ≤ 1 := by
    rw [pointed.text, ← Nat.zero_add 1, ← List.count_eq_zero.mpr rest]
    exact count_hyphen_sign_append _ _
  have point : '.' ∈ d.pointedChars := by simp [pointed.text]
  rw [token, literalType?_of_madeOf made (by decide), if_neg (by omega),
    if_neg (made.notMem (by decide) (by decide)), if_pos point]

theorem e_mem_scientific (x : Double) : 'e' ∈ x.scientific.toList := by
  simp [Double.toList_scientific]

theorem literalType?_scientific (x : Double) :
    literalType? x.scientific.toList = some .double := by
  have made := x.madeOf_scientific
  have text := x.toList_scientific
  have mantissa : '-' ∉ Double.mantissaChars x.shortest.digits := by
    intro member
    rcases Double.mem_mantissaChars member with digit | point
    · exact absurd (Double.isDigit_of_mem_shortest digit) (by decide)
    · exact absurd point (by decide)
  have few : x.scientific.toList.count '-' ≤ 2 := by
    have exponent := count_hyphen_sign_append (x.shortest.exponent < 0)
      (Nat.toDigits 10 x.shortest.exponent.natAbs)
    rw [List.count_eq_zero.mpr (hyphen_notMem_toDigits _)] at exponent
    have body : (Double.mantissaChars x.shortest.digits ++
        'e' :: (toString x.shortest.exponent).toList).count '-' ≤ 1 := by
      rw [Decimal.toList_toString, List.count_append, List.count_eq_zero.mpr mantissa,
        List.count_cons_of_ne (by decide), Nat.zero_add]
      exact exponent
    have all := count_hyphen_sign_append (x.isNegative = true)
      (Double.mantissaChars x.shortest.digits ++ 'e' :: (toString x.shortest.exponent).toList)
    rw [text]
    omega
  rw [literalType?_of_madeOf made (by decide), if_neg (by omega), if_pos (e_mem_scientific x)]

theorem literalType?_double (x : Double) : literalType? (double x).toChars = some .double := by
  by_cases finite : x.isFinite = true
  · have token : (double x).toChars = x.scientific.toList := if_pos finite
    rw [token, literalType?_scientific]
  · have token : (double x).toChars = (doubleKeyword x).toList := if_neg finite
    rw [token, doubleKeyword]
    split
    · decide
    · split <;> decide

theorem literalType?_guid (g : Guid) : literalType? (guid g).toChars = some .guid := by
  have token : (guid g).toChars = g.toChars := rfl
  have count : g.toChars.count '-' = 4 := by
    have split := List.length_eq_length_filter_add (l := g.toChars) (· != '-')
    rw [Guid.length_toChars, Guid.filter_toChars, Text.Hex.length_lowerDigits] at split
    have same : ∀ c : Char, (!(c != '-')) = (c == '-') := fun c => Bool.not_not _
    simp only [same] at split
    rw [List.count_eq_length_filter]
    omega
  rw [token, literalType?_of_madeOf g.madeOf_toChars (by decide), if_pos count]

theorem literalType?_date (d : Date) : literalType? (date d).toChars = some .date := by
  have token : (date d).toChars = d.toChars := rfl
  have made := d.madeOf_toChars
  have hyphens := d.hyphens_toChars
  rw [token, literalType?_of_madeOf made (by decide), if_neg (by omega),
    if_neg (made.notMem (by decide) (by decide)), if_neg (made.notMem (by decide) (by decide)),
    if_pos hyphens.2]

theorem literalType?_timeOfDay (t : TimeOfDay) :
    literalType? (timeOfDay t).toChars = some .timeOfDay := by
  have token : (timeOfDay t).toChars = t.toChars := rfl
  have made := t.madeOf_toChars
  have noQuote : '\'' ∉ t.toChars := made.notMem (by decide) (by decide)
  have noT : 'T' ∉ t.toChars := made.notMem (by decide) (by decide)
  have colon : ':' ∈ t.toChars := by simp [TimeOfDay.toChars, TimeOfDay.clockChars]
  have head : t.toChars.head? ≠ some '\'' := fun quote => noQuote (List.mem_of_mem_head? quote)
  rw [token, literalType?, if_neg head, if_neg noQuote, if_neg noT, if_pos colon]

theorem literalType?_dateTimeOffset (i : Instant) :
    literalType? (dateTimeOffset i).toChars = some .dateTimeOffset := by
  have token : (dateTimeOffset i).toChars = i.toChars := rfl
  have noQuote : '\'' ∉ i.toChars := i.madeOf_toChars.notMem (by decide) (by decide)
  have letter : 'T' ∈ i.toChars := by simp [Instant.toChars]
  have head : i.toChars.head? ≠ some '\'' := fun quote => noQuote (List.mem_of_mem_head? quote)
  rw [token, literalType?, if_neg head, if_neg noQuote, if_pos letter]

/-- A literal tells the type of its value. -/
theorem literalType?_toChars (v : Value) : literalType? v.toChars = v.type? := by
  cases v with
  | null => decide
  | bool b => cases b <;> decide
  | int n => exact literalType?_int n
  | decimal d => exact literalType?_decimal d
  | double x => exact literalType?_double x
  | string s => rfl
  | guid g => exact literalType?_guid g
  | date d => exact literalType?_date d
  | dateTimeOffset i => exact literalType?_dateTimeOffset i
  | timeOfDay t => exact literalType?_timeOfDay t
  | binary bytes =>
    have token : (binary bytes).toChars =
      "binary'".toList ++ (Text.Base64Url.encode bytes).toList ++ ['\''] := rfl
    rw [token, literalType?, if_neg (by simp), if_pos (by simp)]
    rfl

/-! ## All literals -/

/-- Whether two values are the same, or both are NaN. -/
def agrees (v w : Value) : Bool :=
  match v, w with
  | double x, double y => x.isNaN && y.isNaN || x.same y
  | v, w => v.same w

theorem agrees_self (v : Value) : v.agrees v = true := by
  cases v with
  | double x =>
    cases number : x.isNaN with
    | true => simp [agrees, number]
    | false => simp [agrees, Double.same, Double.compare_self number]
  | decimal d => simp [agrees, same, Decimal.same, Decimal.compare_self]
  | _ => simp [agrees, same]

theorem e_notMem_doubleKeyword (x : Double) : 'e' ∉ (doubleKeyword x).toList := by
  rw [doubleKeyword]
  split
  · decide
  · split <;> decide

/-- Infinities have no more than a sign. -/
theorem eq_of_doubleKeyword_eq {x y : Double} (first : ¬ x.isFinite = true)
    (second : ¬ y.isFinite = true) (equal : doubleKeyword x = doubleKeyword y) :
    x.isNaN = true ∧ y.isNaN = true ∨ x = y := by
  have infinite : ∀ {z : Double}, ¬ z.isFinite = true → ¬ z.isNaN = true →
      z.size = Double.infinitySize := by
    intro z large number
    rw [Double.isFinite, decide_eq_true_eq] at large
    rw [Double.isNaN, decide_eq_true_eq] at number
    omega
  rw [doubleKeyword, doubleKeyword] at equal
  by_cases number : x.isNaN = true
  · by_cases number' : y.isNaN = true
    · exact .inl ⟨number, number'⟩
    · rw [if_pos number, if_neg number'] at equal
      split at equal <;> exact absurd equal (by decide)
  · by_cases number' : y.isNaN = true
    · rw [if_neg number, if_pos number'] at equal
      split at equal <;> exact absurd equal (by decide)
    · rw [if_neg number, if_neg number'] at equal
      have sizes := (infinite first number).trans (infinite second number').symm
      refine .inr (Double.eq_of_size sizes ?_)
      cases negative : x.isNegative with
      | true =>
        cases negative' : y.isNegative with
        | true => rfl
        | false =>
          rw [negative, negative'] at equal
          exact absurd equal (by decide)
      | false =>
        cases negative' : y.isNegative with
        | true =>
          rw [negative, negative'] at equal
          exact absurd equal (by decide)
        | false => rfl

theorem eq_of_double_toChars_eq {x y : Double} (equal : (double x).toChars = (double y).toChars) :
    x.isNaN = true ∧ y.isNaN = true ∨ x = y := by
  have digits : ∀ {z : Double}, z.isFinite = true → (double z).toChars = z.scientific.toList :=
    fun finite => if_pos finite
  have keyword : ∀ {z : Double}, ¬ z.isFinite = true →
      (double z).toChars = (doubleKeyword z).toList := fun infinite => if_neg infinite
  by_cases finite : x.isFinite = true
  · by_cases finite' : y.isFinite = true
    · rw [digits finite, digits finite', String.toList_inj] at equal
      exact .inr (Double.scientific_injective equal)
    · rw [digits finite, keyword finite'] at equal
      exact absurd (equal ▸ e_mem_scientific x) (e_notMem_doubleKeyword y)
  · by_cases finite' : y.isFinite = true
    · rw [keyword finite, digits finite'] at equal
      exact absurd (equal ▸ e_mem_scientific y) (e_notMem_doubleKeyword x)
    · rw [keyword finite, keyword finite', String.toList_inj] at equal
      exact eq_of_doubleKeyword_eq finite finite' equal

/-- Only values that agree have the same literal. -/
theorem agrees_of_toChars_eq {v w : Value} (equal : v.toChars = w.toChars) : v.agrees w = true := by
  have types : v.type? = w.type? := by
    rw [← literalType?_toChars, equal, literalType?_toChars]
  cases v with
  | null =>
    cases w with
    | null => rfl
    | _ => cases types
  | bool b =>
    cases w with
    | bool c => cases b <;> cases c <;> first | rfl | cases equal
    | _ => cases types
  | int m =>
    cases w with
    | int n =>
      rw [Int64.toInt_inj.mp (Decimal.plainChars_ofInt_inj equal)]
      exact agrees_self _
    | _ => cases types
  | decimal d =>
    cases w with
    | decimal e => exact Decimal.same_of_pointedChars_eq equal
    | _ => cases types
  | double x =>
    cases w with
    | double y =>
      rcases eq_of_double_toChars_eq equal with ⟨number, number'⟩ | rfl
      · simp [agrees, number, number']
      · exact agrees_self _
    | _ => cases types
  | string s =>
    cases w with
    | string t =>
      have quoted : quoteChars s.toList = quoteChars t.toList :=
        List.append_cancel_right (List.cons.inj equal).2
      have chars := congrArg unquoteChars quoted
      rw [unquoteChars_quoteChars, unquoteChars_quoteChars, String.toList_inj] at chars
      rw [chars]
      exact agrees_self _
    | _ => cases types
  | guid g =>
    cases w with
    | guid h =>
      rw [Guid.toChars_inj equal]
      exact agrees_self _
    | _ => cases types
  | date d =>
    cases w with
    | date e =>
      rw [Date.toChars_inj equal]
      exact agrees_self _
    | _ => cases types
  | dateTimeOffset i =>
    cases w with
    | dateTimeOffset j =>
      rw [Instant.toChars_inj equal]
      exact agrees_self _
    | _ => cases types
  | timeOfDay t =>
    cases w with
    | timeOfDay u =>
      rw [TimeOfDay.toChars_inj equal]
      exact agrees_self _
    | _ => cases types
  | binary bytes =>
    cases w with
    | binary bytes' =>
      have digits := String.toList_inj.mp
        (List.append_cancel_left (List.append_cancel_right equal))
      have decoded := Text.Base64Url.decode_encode bytes
      rw [digits, Text.Base64Url.decode_encode] at decoded
      rw [Option.some.inj decoded]
      exact agrees_self _
    | _ => cases types

end Value

end OData
