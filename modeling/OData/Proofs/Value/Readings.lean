import OData.Proofs.Calendar.Reader
import OData.Proofs.Value.Literals
import OData.Proofs.Value.Alike

/-!
# Literals: the values that are read

The parts of every value that a literal is read as are in bounds: the year of a date has four digits
and the scale of a decimal has 64 bits.  So the value can be told from its text, floating-point
numbers and instants aside.
-/

set_option autoImplicit false

namespace OData

namespace Text

namespace Shape

/-- A shape that begins with digits fits only what begins with one. -/
theorem exists_of_exactly {n m : Nat} {p : Char → Bool} {shapes : List Shape} {cs : List Char}
    (fits : seq (exactly (n + 1) p :: shapes) cs = some m) :
    ∃ ch rest, cs.take m = ch :: rest ∧ p ch = true := by
  have field : ∃ k, exactly (n + 1) p cs = some k ∧ k ≤ m := by
    cases first : exactly (n + 1) p cs with
    | none => simp [seq, first] at fits
    | some k =>
      cases others : seq shapes (cs.drop k) with
      | none => simp [seq, first, others] at fits
      | some l =>
        simp only [seq, first, others, Option.bind_eq_bind, Option.bind_some,
          Option.some.injEq] at fits
        exact ⟨k, rfl, by omega⟩
  obtain ⟨k, first, enough⟩ := field
  rw [exactly] at first
  split at first
  next valid =>
    cases first
    cases cs with
    | nil => simp at valid
    | cons ch rest =>
      obtain ⟨m, rfl⟩ : ∃ l, m = l + 1 := ⟨m - 1, by omega⟩
      rw [List.take_succ_cons, List.all_cons, Bool.and_eq_true] at valid
      exact ⟨ch, rest.take m, List.take_succ_cons, valid.2.1⟩
  next => contradiction

end Shape

end Text

theorem Decimal.scale_lt_of_ofText? {text : String} {d : Decimal} (read : ofText? text = some d) :
    d.scale < 2 ^ 63 := by
  have parts : ∃ (mantissa : Int × Int) (exponent : Int),
      (if -2 ^ 63 ≤ mantissa.2 - exponent ∧ mantissa.2 - exponent < 2 ^ 63 then
        some (Decimal.mk mantissa.1 (mantissa.2 - exponent)) else none) = some d := by
    simp only [ofText?, Option.bind_eq_bind] at read
    split at read
    · obtain ⟨exponent, _, later⟩ := Option.bind_eq_some_iff.mp read
      obtain ⟨mantissa, _, whole⟩ := Option.bind_eq_some_iff.mp later
      exact ⟨mantissa, exponent, whole⟩
    · obtain ⟨exponent, _, later⟩ := Option.bind_eq_some_iff.mp read
      obtain ⟨mantissa, _, whole⟩ := Option.bind_eq_some_iff.mp later
      exact ⟨mantissa, exponent, whole⟩
  obtain ⟨mantissa, exponent, whole⟩ := parts
  split at whole
  next bounds =>
    cases whole
    exact bounds.2
  next => contradiction

/-- A decimal that is written without an exponent has no negative scale. -/
theorem Decimal.scale_nonneg_of_ofText? {text : String} {d : Decimal}
    (plain : ∀ c ∈ text.toList, (c != 'e' && c != 'E') = true) (read : ofText? text = some d) :
    0 ≤ d.scale := by
  have whole : text.toList.takeWhile (fun c => c != 'e' && c != 'E') = text.toList :=
    List.takeWhile_eq_self_iff.mpr plain
  simp only [ofText?, whole, List.drop_length, Option.bind_eq_bind, Option.bind_some] at read
  obtain ⟨⟨digits, places⟩, mantissa, made⟩ := Option.bind_eq_some_iff.mp read
  obtain ⟨n, -, parts⟩ := Option.map_eq_some_iff.mp mantissa
  cases parts
  split at made
  next =>
    cases made
    simp
  next => cases made

/-! ## Forms -/

namespace Value

/-- The kinds of values whose texts are not followed here. -/
def isDoubleOrInstant : Value → Bool
  | double _ | dateTimeOffset _ => true
  | _ => false

/-- Whether a value may be that of a literal. -/
def isLiteral (v : Value) : Bool := v.isReadable || v.isDoubleOrInstant

/-- Whether the scale of a decimal has 64 bits. -/
def isSound : Value → Bool
  | decimal d => decide (d.scale < 2 ^ 63)
  | _ => true

/-- Whether the year of a date has no sign; instants are left aside. -/
def hasUnsignedDate : Value → Bool
  | date d => decide d.FourDigits
  | _ => true

/-- What is known of a literal. -/
structure IsLexed (v : Value) : Prop where
  sound : v.isSound = true
  unsigned : v.hasUnsignedDate = true

theorem IsLexed.isLiteral {v : Value} (lexed : v.IsLexed) : v.isLiteral = true := by
  obtain ⟨sound, unsigned⟩ := lexed
  cases v with
  | decimal d => simpa [Value.isLiteral, isReadable, isDoubleOrInstant, isSound] using sound
  | date d => simpa [Value.isLiteral, isReadable, isDoubleOrInstant, hasUnsignedDate] using unsigned
  | _ => rfl

theorem mem_of_form? {cs : List Char} {candidates : List LiteralForm} {form : LiteralForm} {n : Nat}
    (found : form? cs candidates = some (form, n)) :
    form ∈ candidates ∧ form.shape cs = some n := by
  induction candidates with
  | nil => contradiction
  | cons first rest ih =>
    rw [form?] at found
    split at found
    next fits =>
      cases found
      exact ⟨List.mem_cons_self, fits⟩
    next =>
      obtain ⟨member, fits⟩ := ih found
      exact ⟨List.mem_cons_of_mem first member, fits⟩

theorem isLexed_of_readDate {cs : List Char} {n : Nat} {v : Value}
    (fits : dateShape cs = some n) (read : readDate (cs.take n) = some v) : v.IsLexed := by
  have calendar : calendarShape cs = some n := by
    simp only [dateShape, Text.Shape.wholeWord, Option.bind_eq_bind, Option.bind_eq_some_iff]
      at fits
    obtain ⟨m, inside, stops⟩ := fits
    split at stops
    · split at stops
      · contradiction
      · rwa [← Option.some.inj stops]
    · rwa [← Option.some.inj stops]
  obtain ⟨ch, rest, token, digit⟩ := Text.Shape.exists_of_exactly calendar
  obtain ⟨d, found, rfl⟩ := Option.map_eq_some_iff.mp read
  rw [token] at found
  exact ⟨rfl, decide_eq_true (Calendar.date?_bounds digit found)⟩

theorem isLexed_of_readTime {token : List Char} {v : Value} (read : readTime token = some v) :
    v.IsLexed := by
  obtain ⟨t, found, rfl⟩ := Option.map_eq_some_iff.mp read
  exact ⟨rfl, rfl⟩

theorem isLexed_of_readNumber {token : List Char} {v : Value}
    (read : readNumber token = some v) : v.IsLexed := by
  rw [readNumber] at read
  split at read
  · obtain ⟨x, _, rfl⟩ := Option.map_eq_some_iff.mp read
    exact ⟨rfl, rfl⟩
  · obtain ⟨d, number, kind⟩ := Option.bind_eq_some_iff.mp read
    have small := decide_eq_true (Decimal.scale_lt_of_ofText? number)
    split at kind
    · cases kind
      exact ⟨small, rfl⟩
    · split at kind
      · cases kind
        exact ⟨rfl, rfl⟩
      · cases kind
        exact ⟨small, rfl⟩

theorem isLexed_of_form? {cs : List Char} {form : LiteralForm} {n : Nat} {v : Value}
    (found : form? cs forms = some (form, n)) (read : form.read (cs.take n) = some v) :
    v.IsLexed := by
  obtain ⟨member, fits⟩ := mem_of_form? found
  simp only [forms, List.mem_cons, List.not_mem_nil, or_false] at member
  rcases member with rfl | rfl | rfl | rfl | rfl | rfl | rfl
  · cases read
    exact ⟨rfl, rfl⟩
  · obtain ⟨bytes, _, rfl⟩ := Option.map_eq_some_iff.mp read
    exact ⟨rfl, rfl⟩
  · obtain ⟨g, _, rfl⟩ := Option.map_eq_some_iff.mp read
    exact ⟨rfl, rfl⟩
  · obtain ⟨i, _, rfl⟩ := Option.map_eq_some_iff.mp read
    exact ⟨rfl, rfl⟩
  · exact isLexed_of_readDate fits read
  · exact isLexed_of_readTime read
  · exact isLexed_of_readNumber read

theorem mem_of_keyword? {c next : Text.Cursor} {words : List (String × Value)} {v : Value}
    (found : keyword? c words = some (v, next)) : ∃ word, (word, v) ∈ words := by
  induction words with
  | nil => contradiction
  | cons first rest ih =>
    obtain ⟨word, value⟩ := first
    rw [keyword?] at found
    split at found
    · cases found
      exact ⟨word, List.mem_cons_self⟩
    · obtain ⟨other, member⟩ := ih found
      exact ⟨other, List.mem_cons_of_mem _ member⟩

/-- What a literal is read as. -/
theorem isLexed_of_literal? {c next : Text.Cursor} {v : Value}
    (read : literal? c = .ok (some (v, next))) : v.IsLexed := by
  rw [literal?] at read
  split at read
  next form n found =>
    split at read
    next value token =>
      cases read
      exact isLexed_of_form? found token
    next => contradiction
  next =>
    obtain ⟨word, member⟩ := mem_of_keyword? (Except.ok.inj read)
    have all : ∀ w ∈ keywords, w.2.isSound = true ∧ w.2.hasUnsignedDate = true := by decide
    exact ⟨(all (word, v) member).1, (all (word, v) member).2⟩

theorem isLiteral_of_literal? {c next : Text.Cursor} {v : Value}
    (read : literal? c = .ok (some (v, next))) : v.isLiteral = true :=
  (isLexed_of_literal? read).isLiteral

theorem isPlaced_of_readNumber {token : List Char} {v : Value}
    (read : readNumber token = some v) : v.isPlaced = true := by
  rw [readNumber] at read
  split at read
  next =>
    obtain ⟨x, -, rfl⟩ := Option.map_eq_some_iff.mp read
    rfl
  next plain =>
    obtain ⟨d, number, kind⟩ := Option.bind_eq_some_iff.mp read
    have placed : 0 ≤ d.scale := by
      refine Decimal.scale_nonneg_of_ofText? (fun c among => ?_) number
      rw [String.toList_ofList] at among
      simp only [List.any_eq_true, not_exists, not_and] at plain
      simpa using plain c among
    split at kind
    · cases kind
      exact decide_eq_true placed
    · split at kind
      · cases kind
        rfl
      · cases kind
        exact decide_eq_true placed

/-- The decimals of literals are written without an exponent. -/
theorem isPlaced_of_literal? {c next : Text.Cursor} {v : Value}
    (read : literal? c = .ok (some (v, next))) : v.isPlaced = true := by
  rw [literal?] at read
  split at read
  next form n found =>
    split at read
    next value token =>
      cases read
      obtain ⟨member, -⟩ := mem_of_form? found
      simp only [forms, List.mem_cons, List.not_mem_nil, or_false] at member
      rcases member with rfl | rfl | rfl | rfl | rfl | rfl | rfl
      · cases token
        rfl
      · obtain ⟨bytes, -, rfl⟩ := Option.map_eq_some_iff.mp token
        rfl
      · obtain ⟨g, -, rfl⟩ := Option.map_eq_some_iff.mp token
        rfl
      · obtain ⟨i, -, rfl⟩ := Option.map_eq_some_iff.mp token
        rfl
      · obtain ⟨d, -, rfl⟩ := Option.map_eq_some_iff.mp token
        rfl
      · obtain ⟨t, -, rfl⟩ := Option.map_eq_some_iff.mp token
        rfl
      · exact isPlaced_of_readNumber token
    next => contradiction
  next =>
    obtain ⟨word, member⟩ := mem_of_keyword? (Except.ok.inj read)
    have all : ∀ w ∈ keywords, w.2.isPlaced = true := by decide
    exact all (word, v) member

end Value

end OData
