import OData.Proofs.Identifier
import OData.Proofs.Text.Utf8
import OData.Text.Form

/-!
# Form encoding: reading what was written

Each byte is read back from its one or three characters.  The characters of an encoded name or value
are no separators, so the pieces between separators are the encoded pairs.
-/

set_option autoImplicit false

namespace OData.Text.Form

/-! ## Bytes -/

/-- The characters of an encoded byte: the byte, a plus for a blank, or its digits. -/
theorem encodeByte_cases (b : UInt8) :
    (encodeByte b = [Char.ofNat b.toNat] ∧ b.toNat < 128 ∧ b ≠ 0x2B ∧ b ≠ 0x25) ∨
      (encodeByte b = ['+'] ∧ b = 0x20) ∨ encodeByte b = '%' :: Hex.upperByte b := by
  rw [encodeByte]
  by_cases plain : (decide (b < 0x80) && isPlain (Char.ofNat b.toNat)) = true
  · left
    rw [if_pos plain]
    rw [Bool.and_eq_true, decide_eq_true_eq, UInt8.lt_iff_toNat_lt] at plain
    refine ⟨rfl, plain.1, ?_, ?_⟩
    · rintro rfl
      exact absurd plain.2 (by decide)
    · rintro rfl
      exact absurd plain.2 (by decide)
  · right
    rw [if_neg plain]
    by_cases blank : (Char.ofNat b.toNat == ' ') = true
    · left
      rw [if_pos blank]
      refine ⟨rfl, ?_⟩
      have all : ∀ n ∈ List.range 256, (Char.ofNat n == ' ') = true → n = 32 := by decide +kernel
      exact UInt8.toNat_inj.mp (all b.toNat (List.mem_range.mpr b.toNat_lt_size) blank)
    · right
      rw [if_neg blank]

/-- No encoded byte has characters beyond ASCII, or separators. -/
theorem of_mem_encodeByte {b : UInt8} {c : Char} (member : c ∈ encodeByte b) :
    c.toNat < 128 ∧ c ≠ '&' ∧ c ≠ '=' := by
  have all : ∀ n ∈ List.range 256, ∀ c ∈ encodeByte (UInt8.ofNat n),
      c.toNat < 128 ∧ c ≠ '&' ∧ c ≠ '=' := by decide +kernel
  have here := all b.toNat (List.mem_range.mpr b.toNat_lt_size)
  rw [UInt8.ofNat_toNat] at here
  exact here c member

/-- The bytes of characters of ASCII. -/
def asciiBytes (cs : List Char) : List UInt8 := cs.map fun c => UInt8.ofNat c.toNat

theorem encode_ascii {cs : List Char} (ascii : ∀ c ∈ cs, c.toNat < 128) :
    Utf8.encode (String.ofList cs) = asciiBytes cs := by
  rw [Utf8.encode_ofList]
  induction cs with
  | nil => rfl
  | cons c rest ih =>
    have others := ih fun d member => ascii d (List.mem_cons_of_mem c member)
    rw [List.flatMap_cons, others, Utf8.utf8EncodeChar_of_lt_128 (ascii c List.mem_cons_self)]
    rfl

theorem upperDigit_ascii {n : Nat} (small : n < 16) : (Hex.upperDigit n).toNat < 128 := by
  have all : ∀ m ∈ List.range 16, (Hex.upperDigit m).toNat < 128 := by decide
  exact all n (List.mem_range.mpr small)

theorem char_of_ascii {c : Char} (small : c.toNat < 128) :
    Char.ofNat (UInt8.ofNat c.toNat).toNat = c := by
  rw [UInt8.toNat_ofNat', Nat.mod_eq_of_lt (by omega), Char.ofNat_toNat]

theorem decodeBytes_encodeByte (b : UInt8) (rest : List UInt8) :
    decodeBytes (asciiBytes (encodeByte b) ++ rest) = b :: decodeBytes rest := by
  rcases encodeByte_cases b with ⟨chars, small, noPlus, noPercent⟩ | ⟨chars, rfl⟩ | chars
  · have all : ∀ n ∈ List.range 128, (Char.ofNat n).toNat = n := by decide +kernel
    have code := all b.toNat (List.mem_range.mpr small)
    have bytes : asciiBytes (encodeByte b) = [b] := by
      rw [chars, asciiBytes, List.map_singleton, code, UInt8.ofNat_toNat]
    rw [bytes, List.singleton_append, decodeBytes.eq_def]
    simp only [if_neg noPlus, if_neg noPercent]
  · have bytes : asciiBytes (encodeByte 0x20) = [0x2B] := by
      rw [chars]
      rfl
    rw [bytes, List.singleton_append, decodeBytes.eq_def]
    simp only [if_true]
  · have size : b.toNat < 256 := b.toNat_lt_size
    have high : b.toNat / 16 < 16 := by omega
    have low : b.toNat % 16 < 16 := Nat.mod_lt _ (by decide)
    have bytes : asciiBytes (encodeByte b) = [0x25,
        UInt8.ofNat (Hex.upperDigit (b.toNat / 16)).toNat,
        UInt8.ofNat (Hex.upperDigit (b.toNat % 16)).toNat] := by
      rw [chars]
      rfl
    have plus : ¬ (0x25 : UInt8) = 0x2B := by decide
    have whole : b.toNat / 16 * 16 + b.toNat % 16 = b.toNat := by omega
    rw [bytes, List.cons_append, List.cons_append, List.singleton_append, decodeBytes.eq_def]
    simp only [if_neg plus, if_true, char_of_ascii (upperDigit_ascii high),
      char_of_ascii (upperDigit_ascii low), Hex.value?_upperDigit high, Hex.value?_upperDigit low,
      whole, UInt8.ofNat_toNat]

theorem decodeBytes_flatMap (bytes : List UInt8) :
    decodeBytes (asciiBytes (bytes.flatMap encodeByte)) = bytes := by
  induction bytes with
  | nil => rfl
  | cons b rest ih =>
    have split : asciiBytes ((b :: rest).flatMap encodeByte) =
        asciiBytes (encodeByte b) ++ asciiBytes (rest.flatMap encodeByte) := by
      rw [List.flatMap_cons, asciiBytes, List.map_append]
      rfl
    rw [split, decodeBytes_encodeByte, ih]

/-! ## Texts -/

theorem of_mem_encode {s : String} {c : Char} (member : c ∈ (encode s).toList) :
    c.toNat < 128 ∧ c ≠ '&' ∧ c ≠ '=' := by
  rw [encode, String.toList_ofList, List.mem_flatMap] at member
  obtain ⟨b, _, inside⟩ := member
  exact of_mem_encodeByte inside

theorem decode_encode (s : String) : decode (encode s) = s := by
  have ascii : ∀ c ∈ (Utf8.encode s).flatMap encodeByte, c.toNat < 128 := by
    intro c member
    obtain ⟨b, _, inside⟩ := List.mem_flatMap.mp member
    exact (of_mem_encodeByte inside).1
  rw [decode, encode, encode_ascii ascii, decodeBytes_flatMap, Utf8.decodeLossy_encode,
    String.ofList_toList]

/-! ## Pairs -/

theorem toList_encodePair (pair : Pair) :
    (encodePair pair).toList = (encode pair.1).toList ++ '=' :: (encode pair.2).toList := by
  have equals : "=".toList = ['='] := rfl
  rw [encodePair, String.toList_append, String.toList_append, equals, List.append_assoc,
    List.singleton_append]

theorem decodePair_encodePair (pair : Pair) : decodePair (encodePair pair).toList = pair := by
  have apart : (encode pair.1).toList.all (· != '=') = true := by
    rw [List.all_eq_true]
    intro c member
    rw [bne_iff_ne]
    exact (of_mem_encode member).2.2
  have name : ((encodePair pair).toList.takeWhile (· != '=')) = (encode pair.1).toList := by
    rw [toList_encodePair]
    exact takeWhile_run apart (Before.singleton '=' _) (by decide)
  have value : (encodePair pair).toList.drop ((encode pair.1).toList.length + 1) =
      (encode pair.2).toList := by
    rw [toList_encodePair, ← List.drop_drop, List.drop_left]
    rfl
  rw [decodePair]
  simp only [name, value, String.ofList_toList, decode_encode]

theorem separator_not_mem (pair : Pair) : '&' ∉ (encodePair pair).toList := by
  rw [toList_encodePair, List.mem_append, List.mem_cons]
  rintro (member | equals | member)
  · exact (of_mem_encode member).2.1 rfl
  · exact absurd equals (by decide)
  · exact (of_mem_encode member).2.1 rfl

/-- Pairs are read back from a query string. -/
theorem decodePairs_encodePairs (pairs : List Pair) : decodePairs (encodePairs pairs) = pairs := by
  have separator : "&".toList = ['&'] := rfl
  cases pairs with
  | nil => rfl
  | cons first others =>
    have pieces : splitOn '&' (encodePairs (first :: others)).toList =
        (first :: others).map fun pair => (encodePair pair).toList := by
      have joined : (encodePairs (first :: others)).toList = (encodePair first).toList ++
          (others.map fun pair => (encodePair pair).toList).flatMap ('&' :: ·) := by
        rw [encodePairs, List.map_cons, toList_intercalate_cons, separator, List.flatMap_map,
          List.flatMap_map]
        rfl
      rw [joined, List.map_cons]
      refine splitOn_flatMap (separator_not_mem first) ?_
      intro piece member
      obtain ⟨pair, _, rfl⟩ := List.mem_map.mp member
      exact separator_not_mem pair
    have filled : ∀ piece ∈ (first :: others).map fun pair => (encodePair pair).toList,
        (!piece.isEmpty) = true := by
      intro piece member
      obtain ⟨pair, _, rfl⟩ := List.mem_map.mp member
      simp [toList_encodePair]
    rw [decodePairs, pieces, List.filter_eq_self.mpr filled, List.map_map]
    exact List.map_id'' decodePair_encodePair _

theorem encodePairs_ne_empty (first : Pair) (others : List Pair) :
    encodePairs (first :: others) ≠ "" := by
  intro empty
  have chars := congrArg String.toList empty
  rw [encodePairs, List.map_cons, toList_intercalate_cons, toList_encodePair] at chars
  simp at chars

theorem encodePairs_append_singleton (pairs : List Pair) (last : Pair) :
    encodePairs (pairs ++ [last]) =
      (if (encodePairs pairs).isEmpty then "" else encodePairs pairs ++ "&") ++
        encodePairs [last] := by
  cases pairs with
  | nil => rfl
  | cons first others =>
    have some : (encodePairs (first :: others)).isEmpty = false := by
      simpa using encodePairs_ne_empty first others
    rw [some, if_neg Bool.false_ne_true, ← String.toList_inj]
    simp only [encodePairs, List.cons_append, List.map_cons, List.map_append, List.map_nil,
      String.toList_append, toList_intercalate_cons, List.flatMap_append, List.flatMap_cons,
      List.flatMap_nil, List.append_nil, List.append_assoc]

end OData.Text.Form
