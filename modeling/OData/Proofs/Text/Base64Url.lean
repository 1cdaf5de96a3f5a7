import Mathlib.Data.UInt
import OData.Text.Base64Url

/-!
# Base 64: reading what was written

The groups of digits that `encodeBytes` makes are the ones that `decodeDigits` takes, and no others
are, so that `decode` is the partial inverse of `encode`: bytes are read from one text only.
-/

set_option autoImplicit false

namespace OData.Text.Base64Url

theorem lt_of_mem_encodeBytes {bytes : List UInt8} {n : Nat} (member : n ∈ encodeBytes bytes) :
    n < 64 := by
  fun_induction encodeBytes bytes with
  | case1 => simp at member
  | case2 a =>
    have := a.toNat_lt
    simp only [List.mem_cons, List.not_mem_nil, or_false] at member
    omega
  | case3 a b =>
    have := a.toNat_lt
    have := b.toNat_lt
    simp only [List.mem_cons, List.not_mem_nil, or_false] at member
    omega
  | case4 a b c rest ih =>
    have := a.toNat_lt
    have := b.toNat_lt
    have := c.toNat_lt
    simp only [List.mem_cons] at member
    rcases member with first | second | third | fourth | later
    · omega
    · omega
    · omega
    · omega
    · exact ih later

theorem ofNat_eq {n : Nat} {a : UInt8} (same : n = a.toNat) : UInt8.ofNat n = a := by
  rw [same, UInt8.ofNat_toNat]

theorem decodeDigits_encodeBytes (bytes : List UInt8) :
    decodeDigits (encodeBytes bytes) = some bytes := by
  fun_induction encodeBytes bytes with
  | case1 => rfl
  | case2 a =>
    have := a.toNat_lt
    rw [decodeDigits, if_pos (by omega), ofNat_eq (a := a) (by omega)]
  | case3 a b =>
    have := a.toNat_lt
    have := b.toNat_lt
    rw [decodeDigits, if_pos (by omega), ofNat_eq (a := a) (by omega),
      ofNat_eq (a := b) (by omega)]
  | case4 a b c rest ih =>
    have := a.toNat_lt
    have := b.toNat_lt
    have := c.toNat_lt
    rw [decodeDigits, ih, ofNat_eq (a := a) (by omega), ofNat_eq (a := b) (by omega),
      ofNat_eq (a := c) (by omega)]
    rfl

theorem mapM_digitValue {digits : List Nat} (small : ∀ n ∈ digits, n < 64) :
    (digits.map digit).mapM digitValue = some digits := by
  induction digits with
  | nil => rfl
  | cons n rest ih =>
    rw [List.map_cons, List.mapM_cons, digitValue_digit (small n (by simp)),
      ih fun m member => small m (by simp [member])]
    rfl

theorem decode_encode (bytes : List UInt8) : decode (encode bytes) = some bytes := by
  rw [decode, encode, String.toList_ofList,
    mapM_digitValue fun _ member => lt_of_mem_encodeBytes member]
  exact decodeDigits_encodeBytes bytes

theorem mem_encode {bytes : List UInt8} {c : Char} (member : c ∈ (encode bytes).toList) :
    ∃ n < 64, c = digit n := by
  rw [encode, String.toList_ofList, List.mem_map] at member
  obtain ⟨n, digits, rfl⟩ := member
  exact ⟨n, lt_of_mem_encodeBytes digits, rfl⟩

/-! ## Texts that are read -/

theorem digit_of_digitValue {c : Char} {n : Nat} (value : digitValue c = some n) :
    digit n = c ∧ n < 64 := by
  have le_iff (a b : Char) : a ≤ b ↔ a.toNat ≤ b.toNat := Iff.rfl
  -- Each range of the alphabet is a range of weights, and `digit` shifts it back.
  have shifted {m : Nat} (same : m = c.toNat) : Char.ofNat m = c := by
    rw [same, Char.ofNat_toNat]
  simp only [digitValue, le_iff, Char.reduceToNat] at value
  split at value
  next upper =>
    cases value
    rw [digit, if_pos (by omega)]
    exact ⟨shifted (by omega), by omega⟩
  next =>
    split at value
    next lower =>
      cases value
      rw [digit, if_neg (by omega), if_pos (by omega)]
      exact ⟨shifted (by omega), by omega⟩
    next =>
      split at value
      next decimal =>
        cases value
        rw [digit, if_neg (by omega), if_neg (by omega), if_pos (by omega)]
        exact ⟨shifted (by omega), by omega⟩
      next =>
        split at value
        next hyphen =>
          cases value
          exact ⟨hyphen ▸ rfl, by decide⟩
        next =>
          split at value
          next underscore =>
            cases value
            exact ⟨underscore ▸ rfl, by decide⟩
          next => cases value

theorem map_digit_of_mapM {cs : List Char} :
    ∀ {digits : List Nat}, cs.mapM digitValue = some digits →
      digits.map digit = cs ∧ ∀ n ∈ digits, n < 64 := by
  induction cs with
  | nil =>
    intro digits read
    cases read
    exact ⟨rfl, by simp⟩
  | cons c rest ih =>
    intro digits read
    simp only [List.mapM_cons, Option.bind_eq_bind, Option.bind_eq_some_iff] at read
    obtain ⟨n, value, others, later, same⟩ := read
    cases same
    obtain ⟨first, small⟩ := digit_of_digitValue value
    obtain ⟨same, bounds⟩ := ih later
    exact ⟨by rw [List.map_cons, first, same], List.forall_mem_cons.mpr ⟨small, bounds⟩⟩

/-- The digits that are taken as bytes are those that the bytes make: no bits are left over. -/
theorem encodeBytes_of_decodeDigits {digits : List Nat} :
    ∀ {bytes : List UInt8}, (∀ n ∈ digits, n < 64) → decodeDigits digits = some bytes →
      encodeBytes bytes = digits := by
  fun_induction decodeDigits digits with
  | case1 =>
    intro bytes _ read
    cases read
    rfl
  | case2 => intro bytes _ read; cases read
  | case3 a b whole =>
    intro bytes small read
    cases read
    simp only [List.mem_cons, List.not_mem_nil, or_false, forall_eq_or_imp, forall_eq] at small
    simp only [encodeBytes, UInt8.toNat_ofNat', List.cons.injEq, and_true]
    omega
  | case4 => intro bytes _ read; cases read
  | case5 a b c whole =>
    intro bytes small read
    cases read
    simp only [List.mem_cons, List.not_mem_nil, or_false, forall_eq_or_imp, forall_eq] at small
    simp only [encodeBytes, UInt8.toNat_ofNat', List.cons.injEq, and_true]
    omega
  | case6 => intro bytes _ read; cases read
  | case7 a b c d rest ih =>
    intro bytes small read
    obtain ⟨later, taken, same⟩ := Option.bind_eq_some_iff.mp read
    cases same
    have others := ih (fun n member => small n (by simp [member])) taken
    simp only [List.mem_cons, forall_eq_or_imp] at small
    simp only [encodeBytes, UInt8.toNat_ofNat', List.cons.injEq, others, and_true]
    omega

/-- Bytes are read from the text that is written for them only. -/
theorem encode_of_decode {text : String} {bytes : List UInt8} (read : decode text = some bytes) :
    encode bytes = text := by
  obtain ⟨digits, values, taken⟩ := Option.bind_eq_some_iff.mp read
  obtain ⟨same, small⟩ := map_digit_of_mapM values
  rw [encode, encodeBytes_of_decodeDigits small taken, same, String.ofList_toList]

end OData.Text.Base64Url
