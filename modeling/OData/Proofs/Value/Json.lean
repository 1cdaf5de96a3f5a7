import OData.Proofs.Json.Numeral
import OData.Proofs.Number.Layout
import OData.Proofs.Schema.Conformity
import OData.Proofs.Value.Lexing

/-!
# Values that are written and read again

What is read of the JSON of a value is an equal value, with two exceptions: an instant whose year
is written with a sign is not read at all, and a decimal that is written as a floating-point number
is read as the decimal that the digits of that number show.  These are seventeen at most.
`ofJson_toJson_iff` says that there are no others.
-/

set_option autoImplicit false

namespace OData.Value

/-! ## Decimals -/

/-- A decimal is read again unless a floating-point number of other digits stands for it. -/
theorem exists_decimalOfJson?_iff {d : Decimal} (small : d.scale < 2 ^ 63) :
    (∃ e, decimalOfJson? (decimal d).toJson = some e ∧ d.same e = true) ↔
      ∀ x, (decimal d).toJson = .float x → d.toRat = x.shown := by
  have written : (decimal d).toJson = (Json.ofNumeral? d.plain).getD (.str d.plain) := rfl
  rw [written]
  cases numeral : Json.ofNumeral? d.plain with
  | none =>
    obtain ⟨e, read, value⟩ := Decimal.exists_ofText?_plain small
    refine iff_of_true ⟨e, read, ?_⟩ nofun
    rw [Decimal.same_iff, value]
  | some json =>
    rw [Option.getD_some]
    rcases Json.Numeral.ofNumeral?_plain_cases small numeral with ⟨x, rfl⟩ | ⟨n, rfl, value⟩
    · obtain ⟨e, read, digits⟩ := Double.decimal_mixed x
      have same : d.same e = true ↔ d.toRat = x.shown := by rw [Decimal.same_iff, digits]
      constructor
      · rintro ⟨e', read', equal⟩ y ⟨⟩
        have found : Decimal.ofText? x.mixed = some e' := read'
        rw [read] at found
        cases found
        exact same.mp equal
      · exact fun equal => ⟨e, read, same.mpr (equal x rfl)⟩
    · refine iff_of_true ⟨Decimal.ofInt n, rfl, ?_⟩ nofun
      rw [Decimal.same_iff, value, Decimal.toRat_ofInt]

/-! ## Floating-point numbers -/

theorem exists_doubleOfJson? (x : Double) :
    ∃ y, doubleOfJson? (double x).toJson = some y ∧ (double x).agrees (double y) = true := by
  by_cases finite : x.isFinite = true
  · have written : (double x).toJson = .float x := if_pos finite
    exact ⟨x, by rw [written]; rfl, agrees_self _⟩
  · have written : (double x).toJson = .str (doubleKeyword x) := if_neg finite
    have word : ∃ y, doubleOfJson? (.str (doubleKeyword x)) = some y ∧ ¬ y.isFinite = true ∧
        doubleKeyword x = doubleKeyword y := by
      rw [doubleKeyword]
      split
      · exact ⟨Double.nan, rfl, by decide, rfl⟩
      · split
        · exact ⟨Double.negativeInfinity, rfl, by decide, rfl⟩
        · exact ⟨Double.infinity, rfl, by decide, rfl⟩
    obtain ⟨y, read, infinite, words⟩ := word
    refine ⟨y, by rw [written, read], ?_⟩
    rcases eq_of_doubleKeyword_eq finite infinite words with ⟨left, right⟩ | rfl
    · simp [agrees, left, right]
    · exact agrees_self _

/-! ## Instants -/

theorem exists_instant?_iff {i : Instant} :
    (∃ j, Calendar.instant? i.toText.toList = some j ∧ i = j) ↔ i.date.FourDigits := by
  rw [Instant.toText, String.toList_ofList]
  by_cases year : i.date.FourDigits
  · exact iff_of_true ⟨i, Calendar.instant?_toChars year, rfl⟩ year
  · refine iff_of_false ?_ year
    rintro ⟨j, read, -⟩
    rw [Calendar.instant?_toChars_eq_none year] at read
    cases read

/-! ## All values -/

/-- Whether what is written of a value is read as an equal one. -/
def SurvivesJson : Value → Prop
  | decimal d => ∀ x, (decimal d).toJson = .float x → d.toRat = x.shown
  | dateTimeOffset i => i.date.FourDigits
  | _ => True

theorem int64?_toInt (n : Int64) : int64? (.int n.toInt) = some n := by
  have bounds : -2 ^ 63 ≤ n.toInt ∧ n.toInt < 2 ^ 63 := ⟨Int64.le_toInt n, Int64.toInt_lt n⟩
  have read : (Json.int n.toInt).asInt64? = some n.toInt := if_pos bounds
  rw [int64?, read, Option.map_some, Int64.ofInt_toInt]

/-- Of a value that is no integer the type is the one it is read for. -/
theorem type_eq_of_holds {ty own : PrimitiveType} {v : Value} (typed : ty.holds v = true)
    (kind : v.type? = some own) (other : ∀ n, v ≠ int n) : ty = own := by
  rw [PrimitiveType.type?_eq_of_holds typed other] at kind
  exact Option.some.inj kind

theorem ofJson?_date (s : String) :
    ofJson? .date (.str s) = (Calendar.date? s.toList).map date := by
  cases found : Calendar.date? s.toList <;> simp [ofJson?, Json.asString?, found]

theorem ofJson?_dateTimeOffset (s : String) :
    ofJson? .dateTimeOffset (.str s) = (Calendar.instant? s.toList).map dateTimeOffset := by
  cases found : Calendar.instant? s.toList <;> simp [ofJson?, Json.asString?, found]

theorem ofJson?_timeOfDay (s : String) :
    ofJson? .timeOfDay (.str s) = (Calendar.time? s.toList).map timeOfDay := by
  cases found : Calendar.time? s.toList <;> simp [ofJson?, Json.asString?, found]

theorem ofJson?_guid (s : String) :
    ofJson? .guid (.str s) = (Guid.ofText? s).map guid := by
  cases found : Guid.ofText? s <;> simp [ofJson?, Json.asString?, found]

theorem ofJson?_binary (s : String) :
    ofJson? .binary (.str s) = (Text.Base64Url.decode s).map binary := by
  cases found : Text.Base64Url.decode s <;> simp [ofJson?, Json.asString?, found]

/-- A value of a type is read from its JSON for that type. -/
theorem exists_ofJson?_iff {ty : PrimitiveType} {v : Value} (typed : ty.holds v = true)
    (sound : v.isSound = true) :
    (∃ w, ofJson? ty v.toJson = some w ∧ v.agrees w = true) ↔ v.SurvivesJson := by
  have kept (read : ofJson? ty v.toJson = some v) (survives : v.SurvivesJson) :
      (∃ w, ofJson? ty v.toJson = some w ∧ v.agrees w = true) ↔ v.SurvivesJson :=
    iff_of_true ⟨v, read, agrees_self v⟩ survives
  cases v with
  | null => cases ty <;> cases typed
  | int n =>
    cases ty with
    | int32 =>
      have range : -2 ^ 31 ≤ n.toInt ∧ n.toInt < 2 ^ 31 := by
        simpa [PrimitiveType.holds] using typed
      refine kept ?_ trivial
      rw [ofJson?, toJson, int64?_toInt]
      exact if_pos range
    | int64 => exact kept (congrArg (Option.map int) (int64?_toInt n)) trivial
    | _ => cases typed
  | bool b =>
    cases type_eq_of_holds typed rfl nofun
    exact kept rfl trivial
  | decimal d =>
    cases type_eq_of_holds typed rfl nofun
    rw [SurvivesJson, ← exists_decimalOfJson?_iff (of_decide_eq_true sound)]
    constructor
    · rintro ⟨w, read, same⟩
      obtain ⟨e, found, rfl⟩ := Option.map_eq_some_iff.mp read
      exact ⟨e, found, same⟩
    · rintro ⟨e, found, same⟩
      exact ⟨decimal e, congrArg (Option.map decimal) found, same⟩
  | double x =>
    cases type_eq_of_holds typed rfl nofun
    obtain ⟨y, read, agree⟩ := exists_doubleOfJson? x
    exact iff_of_true ⟨double y, congrArg (Option.map double) read, agree⟩ trivial
  | string s =>
    cases type_eq_of_holds typed rfl nofun
    exact kept rfl trivial
  | guid g =>
    cases type_eq_of_holds typed rfl nofun
    refine kept ?_ trivial
    rw [toJson, ofJson?_guid, Guid.toText, Guid.ofText?_toChars]
    rfl
  | date d =>
    cases type_eq_of_holds typed rfl nofun
    refine kept ?_ trivial
    rw [toJson, ofJson?_date, Date.toText, String.toList_ofList, Calendar.date?_toChars]
    rfl
  | dateTimeOffset i =>
    cases type_eq_of_holds typed rfl nofun
    rw [SurvivesJson, ← exists_instant?_iff, toJson, ofJson?_dateTimeOffset]
    constructor
    · rintro ⟨w, read, same⟩
      obtain ⟨j, found, rfl⟩ := Option.map_eq_some_iff.mp read
      exact ⟨j, found, Value.dateTimeOffset.inj (of_decide_eq_true same)⟩
    · rintro ⟨j, found, rfl⟩
      exact ⟨dateTimeOffset i, by rw [found, Option.map_some], agrees_self _⟩
  | timeOfDay t =>
    cases type_eq_of_holds typed rfl nofun
    refine kept ?_ trivial
    rw [toJson, ofJson?_timeOfDay, TimeOfDay.toText, String.toList_ofList,
      Calendar.time?_toChars]
    rfl
  | binary bytes =>
    cases type_eq_of_holds typed rfl nofun
    refine kept ?_ trivial
    rw [toJson, ofJson?_binary, Text.Base64Url.decode_encode]
    rfl

theorem isNull_toJson {v : Value} (present : v.isNull = false) : v.toJson.isNull = false := by
  cases v with
  | null => cases present
  | decimal d =>
    have written : (decimal d).toJson = (Json.ofNumeral? d.plain).getD (.str d.plain) := rfl
    rw [written]
    cases numeral : Json.ofNumeral? d.plain with
    | none => rfl
    | some json =>
      rcases Json.Numeral.ofNumeral?_cases numeral with ⟨x, rfl⟩ | ⟨_, _, _, _, _, rfl⟩ <;> rfl
  | double x =>
    rw [toJson]
    split <;> rfl
  | _ => rfl

theorem ofJson_eq_ok_iff {ty : PrimitiveType} {json : Json} {v : Value}
    (present : json.isNull = false) : ofJson ty json = .ok v ↔ ofJson? ty json = some v := by
  rw [ofJson, present, if_neg Bool.false_ne_true]
  cases ofJson? ty json <;> simp

theorem isNull_of_holds {ty : PrimitiveType} {v : Value} (typed : ty.holds v = true) :
    v.isNull = false := by
  cases v with
  | null => cases ty <;> cases typed
  | _ => rfl

/-- What is written of a value that was read is read as an equal value if and only if the value
survives: all values but instants whose year has a sign, and decimals for which a floating-point
number of another value stands. -/
theorem ofJson_toJson_iff {ty : PrimitiveType} {json : Json} {v : Value}
    (read : ofJson ty json = .ok v) :
    (∃ w, ofJson ty v.toJson = .ok w ∧ v.agrees w = true) ↔ v.SurvivesJson := by
  have sound := isSound_of_ofJson read
  cases absent : json.isNull with
  | true =>
    rw [ofJson, absent, if_pos rfl] at read
    cases read
    exact iff_of_true ⟨null, rfl, rfl⟩ trivial
  | false =>
    have typed := PrimitiveType.holds_of_ofJson? ((ofJson_eq_ok_iff absent).mp read)
    rw [← exists_ofJson?_iff typed sound]
    simp only [ofJson_eq_ok_iff (isNull_toJson (isNull_of_holds typed))]

/-! ## Values that do not survive -/

/-- Of a decimal that survives as a floating-point number there are seventeen digits at most. -/
theorem exists_digits_of_survivesJson {d : Decimal} {x : Double}
    (survives : (decimal d).SurvivesJson) (written : (decimal d).toJson = .float x) :
    ∃ (c : ℕ) (k : ℤ), c < 10 ^ 17 ∧ |d.toRat| = c * 10 ^ k := by
  rw [survives x written]
  exact x.exists_digits_shown

/-- A decimal of eighteen digits. -/
def nearTenth : Decimal := ⟨100000000000000001, 18⟩

theorem exists_toJson_nearTenth : ∃ x, (decimal nearTenth).toJson = .float x := by
  have digits : Json.Numeral.read nearTenth.plain.toList =
      (Json.Numeral.float false 100000000000000001 (-18)).map fun json => (json, []) := by rfl
  have scaled (y : Double) : ∃ z, Json.Numeral.scale y (-18) = some z := by
    rw [Json.Numeral.scale, if_neg (by decide), if_pos (by decide)]
    exact ⟨_, rfl⟩
  obtain ⟨z, quotient⟩ := scaled (Double.ofInt (100000000000000001 : ℕ))
  have numeral : Json.ofNumeral? nearTenth.plain = some (.float z) := by
    rw [Json.ofNumeral?, digits, Json.Numeral.float, quotient]
    rfl
  refine ⟨z, ?_⟩
  rw [toJson, numeral, Option.getD_some]

/-- No number of seventeen digits or less is one of eighteen digits that ends in a one. -/
theorem ne_of_digits {c : ℕ} {k : ℤ} (few : c < 10 ^ 17) :
    (c : ℚ) * 10 ^ k ≠ 100000000000000001 * 10 ^ (-18 : ℤ) := by
  intro equal
  have power : (10 : ℚ) ^ (-18 : ℤ) ≠ 0 := zpow_ne_zero _ (by norm_num)
  have ten : (10 : ℚ) ≠ 0 := by norm_num
  rcases le_or_gt k (-18) with low | high
  · obtain ⟨n, rfl⟩ : ∃ n : ℕ, k = -18 - n := ⟨(-18 - k).toNat, by omega⟩
    rw [zpow_sub₀ ten, zpow_natCast, mul_div_assoc', div_eq_iff (by positivity)] at equal
    have digits : (c : ℚ) = 100000000000000001 * 10 ^ n :=
      mul_right_cancel₀ power (equal.trans (mul_right_comm _ _ _))
    have whole : c = 100000000000000001 * 10 ^ n := by exact_mod_cast digits
    have one : 1 ≤ 10 ^ n := Nat.one_le_pow _ _ (by decide)
    omega
  · obtain ⟨n, rfl⟩ : ∃ n : ℕ, k = -18 + (n + 1) := ⟨(k + 17).toNat, by omega⟩
    rw [zpow_add₀ ten, mul_comm (10 ^ (-18 : ℤ)), ← mul_assoc] at equal
    have digits := mul_right_cancel₀ power equal
    have whole : c * 10 ^ (n + 1) = 100000000000000001 := by exact_mod_cast digits
    rw [Nat.pow_succ, ← Nat.mul_assoc] at whole
    exact absurd (Dvd.intro_left _ whole) (by decide : ¬ 10 ∣ 100000000000000001)

theorem not_survivesJson_nearTenth : ¬ (decimal nearTenth).SurvivesJson := by
  intro survives
  obtain ⟨x, written⟩ := exists_toJson_nearTenth
  obtain ⟨c, k, few, size⟩ := exists_digits_of_survivesJson survives written
  have value : nearTenth.toRat = 100000000000000001 * 10 ^ (-18 : ℤ) := by
    rw [Decimal.toRat, nearTenth]
    norm_num
  rw [value, abs_of_pos (by positivity)] at size
  exact ne_of_digits few size.symm

/-- A text with more digits than a floating-point number has, and a clock that is behind at the end
of the year 9999. -/
theorem not_ofJson_toJson :
    (∃ v, ofJson .decimal (.str "0.100000000000000001") = .ok v ∧
      ¬ ∃ w, ofJson .decimal v.toJson = .ok w ∧ v.agrees w = true) ∧
    ∃ v, ofJson .dateTimeOffset (.str "9999-12-31T23:59:59-01:00") = .ok v ∧
      ¬ ∃ w, ofJson .dateTimeOffset v.toJson = .ok w ∧ v.agrees w = true := by
  have long : ofJson .decimal (.str "0.100000000000000001") = .ok (decimal nearTenth) := by rfl
  have late : ofJson .dateTimeOffset (.str "9999-12-31T23:59:59-01:00") =
      .ok (dateTimeOffset newYear) := by rfl
  refine ⟨⟨_, long, ?_⟩, _, late, ?_⟩
  · rw [ofJson_toJson_iff long]
    exact not_survivesJson_nearTenth
  · rw [ofJson_toJson_iff late]
    exact (by decide : ¬ newYear.date.FourDigits)

end OData.Value
