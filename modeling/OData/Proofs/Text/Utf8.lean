import OData.Number.Power
import OData.Text.Utf8

/-!
# UTF-8: reading what was written

`encode` writes the bytes of one character after the other, and `decodeLossy` takes the bytes of
one character off the front, so that `decode?` is a left inverse of `encode`.  No character begins
inside another one, so offsets in bytes at which a text is found are places between characters.
-/

set_option autoImplicit false

namespace OData.Text.Utf8

theorem toList_loop (bytes : ByteArray) (i : Nat) (read : List UInt8) :
    ByteArray.toList.loop bytes i read = read.reverse ++ bytes.data.toList.drop i := by
  fun_induction ByteArray.toList.loop bytes i read with
  | case1 i read more ih =>
    have inside : i < bytes.data.toList.length := by simpa using more
    rw [ih, List.reverse_cons, List.append_assoc, List.drop_eq_getElem_cons inside]
    simp [ByteArray.get!, getElem!_pos bytes.data i (by simpa using more)]
  | case2 i read beyond =>
    rw [List.drop_of_length_le (by simpa using beyond), List.append_nil]

theorem encode_ofList (cs : List Char) :
    encode (String.ofList cs) = cs.flatMap String.utf8EncodeChar := by
  rw [encode, String.toUTF8_eq_toByteArray, String.toByteArray_ofList, List.utf8Encode,
    ByteArray.toList, toList_loop]
  simp

theorem encode_eq (s : String) : encode s = s.toList.flatMap String.utf8EncodeChar := by
  rw [← encode_ofList, String.ofList_toList]

theorem encode_append (s t : String) : encode (s ++ t) = encode s ++ encode t := by
  simp [encode_eq]

/-! ## One character -/

/-- The code point of a character is no surrogate and not beyond the last plane. -/
theorem toNat_bounds (c : Char) :
    c.toNat < 0xD800 ∨ (0xDFFF < c.toNat ∧ c.toNat < 0x110000) := c.valid

theorem utf8EncodeChar_of_lt_128 {c : Char} (small : c.toNat < 128) :
    String.utf8EncodeChar c = [UInt8.ofNat c.toNat] := by
  have bound : c.toNat ≤ 127 := Nat.le_of_lt_succ small
  simp [String.utf8EncodeChar, bound]

/-- A character beyond ASCII has only bytes beyond ASCII. -/
theorem le_of_mem_utf8EncodeChar {c : Char} (large : 128 ≤ c.toNat) {b : UInt8}
    (member : b ∈ String.utf8EncodeChar c) : 128 ≤ b.toNat := by
  have bound : ¬ c.toNat ≤ 127 := Nat.not_le_of_lt large
  simp only [String.utf8EncodeChar, Char.toNat_val, bound, if_false] at member
  split at member
  · simp only [List.mem_cons, List.not_mem_nil, or_false] at member
    rcases member with rfl | rfl <;> simp only [UInt8.toNat_ofNat'] <;> omega
  · split at member
    · simp only [List.mem_cons, List.not_mem_nil, or_false] at member
      rcases member with rfl | rfl | rfl <;> simp only [UInt8.toNat_ofNat'] <;> omega
    · simp only [List.mem_cons, List.not_mem_nil, or_false] at member
      rcases member with rfl | rfl | rfl | rfl <;> simp only [UInt8.toNat_ofNat'] <;> omega

theorem between_ofNat {lo hi : UInt8} {n : Nat} (small : n < 256) :
    between lo (UInt8.ofNat n) hi = (decide (lo.toNat ≤ n) && decide (n ≤ hi.toNat)) := by
  simp only [between, UInt8.le_iff_toNat_le, UInt8.toNat_ofNat', Nat.mod_eq_of_lt small]

theorem isContinuation_ofNat (v : Nat) : isContinuation (UInt8.ofNat (v % 64 + 0x80)) = true := by
  rw [isContinuation, between_ofNat (by omega)]
  simp only [UInt8.reduceToNat, Bool.and_eq_true, decide_eq_true_eq]
  omega

theorem low_ofNat (v : Nat) : low (UInt8.ofNat (v % 64 + 0x80)) = v % 64 := by
  simp only [low, UInt8.toNat_ofNat']
  omega

theorem not_ofNat_lt {n : Nat} (large : 0x80 ≤ n) (small : n < 256) : ¬ UInt8.ofNat n < 0x80 := by
  rw [UInt8.lt_iff_toNat_lt, UInt8.toNat_ofNat', Nat.mod_eq_of_lt small]
  simpa using large

theorem ofNat_eq_iff {n : Nat} {b : UInt8} (small : n < 256) :
    UInt8.ofNat n = b ↔ n = b.toNat := by
  rw [← UInt8.toNat_inj, UInt8.toNat_ofNat', Nat.mod_eq_of_lt small]

theorem decodeLossy_of_lt_128 {a : UInt8} (small : a.toNat < 128) (rest : List UInt8) :
    decodeLossy (a :: rest) = Char.ofNat a.toNat :: decodeLossy rest := by
  have below : a < 0x80 := UInt8.lt_iff_toNat_lt.mpr small
  rw [decodeLossy.eq_def]
  simp only [below, if_true]

theorem decodeLossy_two {v : Nat} (lower : 0x80 ≤ v) (upper : v < 0x800) (rest : List UInt8) :
    decodeLossy (UInt8.ofNat (v / 64 % 32 + 0xC0) :: UInt8.ofNat (v % 64 + 0x80) :: rest) =
      Char.ofNat v :: decodeLossy rest := by
  have first := not_ofNat_lt (n := v / 64 % 32 + 0xC0) (by omega) (by omega)
  have lead : between 0xC2 (UInt8.ofNat (v / 64 % 32 + 0xC0)) 0xDF = true := by
    rw [between_ofNat (by omega)]
    simp only [UInt8.reduceToNat, Bool.and_eq_true, decide_eq_true_eq]
    omega
  rw [decodeLossy.eq_def]
  simp only [first, if_false, lead, isContinuation_ofNat, Bool.and_self, if_true, low_ofNat, join,
    UInt8.toNat_ofNat', List.foldl_cons, List.foldl_nil]
  rw [show (0 * 64 + (v / 64 % 32 + 0xC0) % 2 ^ 8 % 32) * 64 + v % 64 = v by omega]

theorem not_lead_two {n : Nat} (large : 0xE0 ≤ n) (small : n < 256) :
    between 0xC2 (UInt8.ofNat n) 0xDF = false := by
  rw [between_ofNat small]
  simp only [UInt8.reduceToNat, Bool.and_eq_false_iff, decide_eq_false_iff_not]
  omega

/-- The second byte of a three-byte character neither makes it shorter nor a surrogate. -/
theorem secondOfThree_ofNat {v : Nat} (lower : 0x800 ≤ v) (upper : v < 0x10000)
    (plain : v < 0xD800 ∨ 0xDFFF < v) :
    secondOfThree (UInt8.ofNat (v / 4096 % 16 + 0xE0)) (UInt8.ofNat (v / 64 % 64 + 0x80)) =
      true := by
  simp only [secondOfThree, ofNat_eq_iff (show v / 4096 % 16 + 0xE0 < 256 by omega),
    isContinuation_ofNat, between_ofNat (show v / 4096 % 16 + 0xE0 < 256 by omega),
    between_ofNat (show v / 64 % 64 + 0x80 < 256 by omega), UInt8.reduceToNat, Bool.and_true]
  split
  · simp only [Bool.and_eq_true, decide_eq_true_eq]
    omega
  · split
    · simp only [Bool.and_eq_true, decide_eq_true_eq]
      omega
    · simp only [Bool.and_eq_true, decide_eq_true_eq]
      omega

theorem decodeLossy_three {v : Nat} (lower : 0x800 ≤ v) (upper : v < 0x10000)
    (plain : v < 0xD800 ∨ 0xDFFF < v) (rest : List UInt8) :
    decodeLossy (UInt8.ofNat (v / 4096 % 16 + 0xE0) :: UInt8.ofNat (v / 64 % 64 + 0x80)
      :: UInt8.ofNat (v % 64 + 0x80) :: rest) = Char.ofNat v :: decodeLossy rest := by
  have first := not_ofNat_lt (n := v / 4096 % 16 + 0xE0) (by omega) (by omega)
  have longer := not_lead_two (n := v / 4096 % 16 + 0xE0) (by omega) (by omega)
  rw [decodeLossy.eq_def]
  simp only [first, if_false, longer, Bool.false_and, secondOfThree_ofNat lower upper plain,
    isContinuation_ofNat, if_true, Bool.false_eq_true, low_ofNat, join, UInt8.toNat_ofNat',
    List.foldl_cons, List.foldl_nil]
  rw [show ((0 * 64 + (v / 4096 % 16 + 0xE0) % 2 ^ 8 % 16) * 64 + v / 64 % 64) * 64 + v % 64 = v
    by omega]

theorem not_secondOfThree {n : Nat} (large : 0xF0 ≤ n) (small : n < 256) (second : UInt8) :
    secondOfThree (UInt8.ofNat n) second = false := by
  simp only [secondOfThree, ofNat_eq_iff small, between_ofNat small, UInt8.reduceToNat]
  rw [if_neg (by omega), if_neg (by omega)]
  simp only [Bool.and_eq_false_iff, decide_eq_false_iff_not]
  omega

/-- The second byte of a four-byte character neither makes it shorter nor leads beyond the last
plane. -/
theorem secondOfFour_ofNat {v : Nat} (lower : 0x10000 ≤ v) (upper : v < 0x110000) :
    secondOfFour (UInt8.ofNat (v / 262144 % 8 + 0xF0)) (UInt8.ofNat (v / 4096 % 64 + 0x80)) =
      true := by
  simp only [secondOfFour, ofNat_eq_iff (show v / 262144 % 8 + 0xF0 < 256 by omega),
    isContinuation_ofNat, between_ofNat (show v / 262144 % 8 + 0xF0 < 256 by omega),
    between_ofNat (show v / 4096 % 64 + 0x80 < 256 by omega), UInt8.reduceToNat, Bool.and_true]
  split
  · simp only [Bool.and_eq_true, decide_eq_true_eq]
    omega
  · split
    · simp only [Bool.and_eq_true, decide_eq_true_eq]
      omega
    · simp only [Bool.and_eq_true, decide_eq_true_eq]
      omega

theorem decodeLossy_four {v : Nat} (lower : 0x10000 ≤ v) (upper : v < 0x110000)
    (rest : List UInt8) :
    decodeLossy (UInt8.ofNat (v / 262144 % 8 + 0xF0) :: UInt8.ofNat (v / 4096 % 64 + 0x80)
      :: UInt8.ofNat (v / 64 % 64 + 0x80) :: UInt8.ofNat (v % 64 + 0x80) :: rest) =
      Char.ofNat v :: decodeLossy rest := by
  have first := not_ofNat_lt (n := v / 262144 % 8 + 0xF0) (by omega) (by omega)
  have longer := not_lead_two (n := v / 262144 % 8 + 0xF0) (by omega) (by omega)
  have longest := not_secondOfThree (n := v / 262144 % 8 + 0xF0) (by omega) (by omega)
    (UInt8.ofNat (v / 4096 % 64 + 0x80))
  rw [decodeLossy.eq_def]
  simp only [first, if_false, longer, longest, Bool.false_and, secondOfFour_ofNat lower upper,
    isContinuation_ofNat, if_true, Bool.false_eq_true, low_ofNat, join, UInt8.toNat_ofNat',
    List.foldl_cons, List.foldl_nil]
  rw [show (((0 * 64 + (v / 262144 % 8 + 0xF0) % 2 ^ 8 % 8) * 64 + v / 4096 % 64) * 64
    + v / 64 % 64) * 64 + v % 64 = v by omega]

theorem decodeLossy_utf8EncodeChar (c : Char) (rest : List UInt8) :
    decodeLossy (String.utf8EncodeChar c ++ rest) = c :: decodeLossy rest := by
  have valid := toNat_bounds c
  have back : Char.ofNat c.toNat = c := Char.ofNat_toNat c
  simp only [String.utf8EncodeChar, Char.toNat_val]
  split
  next one =>
    rw [List.singleton_append, decodeLossy_of_lt_128]
    · rw [UInt8.toNat_ofNat', Nat.mod_eq_of_lt (by omega), back]
    · rw [UInt8.toNat_ofNat']
      omega
  next =>
    split
    next => exact (decodeLossy_two (by omega) (by omega) rest).trans (by rw [back])
    next =>
      split
      next => exact (decodeLossy_three (by omega) (by omega) (by omega) rest).trans (by rw [back])
      next => exact (decodeLossy_four (by omega) (by omega) rest).trans (by rw [back])

/-! ## Texts -/

/-- The bytes of some characters. -/
def bytes (cs : List Char) : List UInt8 := cs.flatMap String.utf8EncodeChar

theorem bytes_cons (c : Char) (cs : List Char) :
    bytes (c :: cs) = String.utf8EncodeChar c ++ bytes cs := List.flatMap_cons

theorem bytes_append (cs ds : List Char) : bytes (cs ++ ds) = bytes cs ++ bytes ds :=
  List.flatMap_append

theorem decodeLossy_bytes_append (cs : List Char) (rest : List UInt8) :
    decodeLossy (bytes cs ++ rest) = cs ++ decodeLossy rest := by
  induction cs with
  | nil => rfl
  | cons c cs ih =>
    rw [bytes_cons, List.append_assoc, decodeLossy_utf8EncodeChar, ih, List.cons_append]

theorem decodeLossy_encode (s : String) : decodeLossy (encode s) = s.toList := by
  have read := decodeLossy_bytes_append s.toList []
  rwa [List.append_nil, decodeLossy, List.append_nil, bytes, ← encode_eq] at read

theorem decode?_encode (s : String) : decode? (encode s) = some s := by
  rw [decode?, decodeLossy_encode, String.ofList_toList]
  exact if_pos rfl

/-! ## Offsets

Only the first byte of a character may begin one, so the bytes of a text occur in those of another
where its characters do. -/

theorem bytes_take_append_drop (k : Nat) (cs : List Char) :
    bytes (cs.take k) ++ bytes (cs.drop k) = bytes cs := by
  rw [← bytes_append, List.take_append_drop]

theorem drop_bytes (k : Nat) (cs : List Char) :
    (bytes cs).drop (bytes (cs.take k)).length = bytes (cs.drop k) := by
  rw [← bytes_take_append_drop k cs, List.drop_left]

theorem length_bytes_take_le {j k : Nat} (le : j ≤ k) (cs : List Char) :
    (bytes (cs.take j)).length ≤ (bytes (cs.take k)).length := by
  have first : (cs.take k).take j = cs.take j := by rw [List.take_take, Nat.min_eq_left le]
  rw [← bytes_take_append_drop j (cs.take k), first, List.length_append]
  exact Nat.le_add_right _ _

/-- Where a byte begins a character, the bytes before it are those of whole characters. -/
theorem exists_take_of_first {first : UInt8} {rest : List UInt8} (begins : first.IsUTF8FirstByte)
    (cs : List Char) : ∀ {offset : Nat}, (bytes cs).drop offset = first :: rest →
      ∃ k, offset = (bytes (cs.take k)).length := by
  induction cs with
  | nil =>
    intro offset found
    rw [bytes, List.flatMap_nil, List.drop_nil] at found
    cases found
  | cons c cs ih =>
    intro offset found
    rw [bytes_cons] at found
    rcases Nat.lt_or_ge offset (String.utf8EncodeChar c).length with inside | beyond
    · rw [List.drop_append_of_le_length (Nat.le_of_lt inside),
        List.drop_eq_getElem_cons inside, List.cons_append, List.cons.injEq] at found
      rw [← found.1, UInt8.isUTF8FirstByte_getElem_utf8EncodeChar] at begins
      exact ⟨0, begins⟩
    · rw [List.drop_append, List.drop_of_length_le beyond, List.nil_append] at found
      obtain ⟨k, before⟩ := ih found
      refine ⟨k + 1, ?_⟩
      rw [List.take_succ_cons, bytes_cons, List.length_append, ← before]
      omega

theorem prefix_of_bytes_prefix {part whole : List Char} (found : bytes part <+: bytes whole) :
    part <+: whole := by
  obtain ⟨rest, same⟩ := found
  have read := decodeLossy_bytes_append part rest
  have back := decodeLossy_bytes_append whole []
  rw [List.append_nil, decodeLossy, List.append_nil, ← same, read] at back
  exact ⟨_, back⟩

/-- The bytes of a text that is not empty are found in those of another only where its characters
are. -/
theorem exists_take_of_prefix {part whole : List Char} {offset : Nat} (nonempty : part ≠ [])
    (found : bytes part <+: (bytes whole).drop offset) :
    ∃ k, offset = (bytes (whole.take k)).length ∧ part <+: whole.drop k := by
  obtain ⟨c, cs, rfl⟩ := List.exists_cons_of_ne_nil nonempty
  obtain ⟨rest, same⟩ := found
  have filled : 0 < (String.utf8EncodeChar c).length := by
    rw [String.length_utf8EncodeChar]
    exact Char.utf8Size_pos c
  have lead : String.utf8EncodeChar c =
      (String.utf8EncodeChar c)[0] :: (String.utf8EncodeChar c).drop 1 :=
    List.drop_eq_getElem_cons filled
  have opened : (bytes whole).drop offset =
      (String.utf8EncodeChar c)[0] :: ((String.utf8EncodeChar c).drop 1 ++ (bytes cs ++ rest)) := by
    rw [← same, bytes_cons, List.append_assoc, ← List.cons_append, ← lead]
  obtain ⟨k, rfl⟩ :=
    exists_take_of_first UInt8.isUTF8FirstByte_getElem_zero_utf8EncodeChar whole opened
  rw [drop_bytes] at same
  exact ⟨k, rfl, prefix_of_bytes_prefix ⟨rest, same⟩⟩

theorem charsBefore_length_bytes_take (k : Nat) (cs : List Char) :
    charsBefore (bytes (cs.take k)).length cs = cs.take k := by
  induction cs generalizing k with
  | nil => rw [List.take_nil, charsBefore]
  | cons c cs ih =>
    cases k with
    | zero => rfl
    | succ k =>
      have size := Char.utf8Size_pos c
      rw [List.take_succ_cons, bytes_cons, List.length_append, String.length_utf8EncodeChar,
        charsBefore, if_neg (by omega), Nat.add_sub_cancel_left, ih]

end OData.Text.Utf8
