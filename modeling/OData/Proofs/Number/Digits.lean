import OData.Number.Decimal

/-!
# Decimal digits

The digits of a number are ASCII digits, the first is no zero unless the number is zero, and
`natOfDigits` gives the number back, also with zeros in front.
-/

set_option autoImplicit false

namespace OData.Decimal

theorem natOfDigits_eq (cs : List Char) : natOfDigits cs = Nat.ofDigitChars 10 cs 0 := by
  rw [natOfDigits, Nat.ofDigitChars_eq_foldl]
  congr 1
  funext n c
  rw [Nat.mul_comm]
  rfl

theorem natOfDigits_toDigits (n : Nat) : natOfDigits (Nat.toDigits 10 n) = n := by
  rw [natOfDigits_eq, Nat.ofDigitChars_ten_toDigits]

theorem natOfDigits_replicate_append (zeros : Nat) (cs : List Char) :
    natOfDigits (List.replicate zeros '0' ++ cs) = natOfDigits cs := by
  rw [natOfDigits_eq, natOfDigits_eq, Nat.ofDigitChars_append, Nat.ofDigitChars_replicate_zero,
    Nat.mul_zero]

theorem natOfDigits_append (cs ds : List Char) :
    natOfDigits (cs ++ ds) = natOfDigits cs * 10 ^ ds.length + natOfDigits ds := by
  rw [natOfDigits_eq, natOfDigits_eq, natOfDigits_eq, Nat.ofDigitChars_append,
    Nat.ofDigitChars_eq_ofDigitChars_zero, Nat.mul_comm]

theorem natOfDigits_append_replicate (cs : List Char) (zeros : Nat) :
    natOfDigits (cs ++ List.replicate zeros '0') = natOfDigits cs * 10 ^ zeros := by
  rw [natOfDigits_append, List.length_replicate]
  have none := natOfDigits_replicate_append zeros []
  rw [List.append_nil] at none
  rw [none]
  rfl

theorem natOfDigits_lt {cs : List Char} (digits : ∀ c ∈ cs, c.isDigit = true) :
    natOfDigits cs < 10 ^ cs.length := by
  have step : ∀ n, cs.foldl (fun n c => n * 10 + (c.toNat - 48)) n < (n + 1) * 10 ^ cs.length := by
    induction cs with
    | nil => simp
    | cons c rest ih =>
      intro n
      have bounds := Char.isDigit_iff_toNat.mp (digits c List.mem_cons_self)
      have last : '9'.toNat = 57 := rfl
      have later := ih (fun d member => digits d (List.mem_cons_of_mem c member))
        (n * 10 + (c.toNat - 48))
      rw [List.foldl_cons, List.length_cons, Nat.pow_succ]
      have grown : (n * 10 + (c.toNat - 48) + 1) * 10 ^ rest.length ≤
          (n * 10 + 10) * 10 ^ rest.length := Nat.mul_le_mul_right _ (by omega)
      calc _ < (n * 10 + (c.toNat - 48) + 1) * 10 ^ rest.length := later
        _ ≤ (n * 10 + 10) * 10 ^ rest.length := grown
        _ = (n + 1) * (10 ^ rest.length * 10) := by
          rw [Nat.mul_comm (10 ^ rest.length) 10, ← Nat.mul_assoc, Nat.succ_mul n 10]
  have whole := step 0
  rwa [Nat.zero_add, Nat.one_mul] at whole

theorem isDigit_of_mem_toDigits {n : Nat} {c : Char} (member : c ∈ Nat.toDigits 10 n) :
    c.isDigit = true :=
  Nat.isDigit_of_mem_toDigits (by decide) (by decide) member

/-- Only zero is written with a zero in front. -/
theorem eq_zero_of_head_toDigits {n : Nat} (head : (Nat.toDigits 10 n).head? = some '0') :
    n = 0 := by
  induction n using Nat.strongRecOn with
  | ind n ih =>
    rcases Nat.lt_or_ge n 10 with one | more
    · have all : ∀ m ∈ List.range 10, (Nat.toDigits 10 m).head? = some '0' → m = 0 := by decide
      exact all n (List.mem_range.mpr one) head
    · rw [Nat.toDigits_of_base_le (by decide) more] at head
      cases digits : Nat.toDigits 10 (n / 10) with
      | nil => exact absurd digits Nat.toDigits_ne_nil
      | cons first rest =>
        rw [digits, List.cons_append, List.head?_cons] at head
        have zero := ih (n / 10) (by omega) (by rw [digits, List.head?_cons, head])
        omega

theorem length_toDigits_le {n width : Nat} (positive : 0 < width) (small : n < 10 ^ width) :
    (Nat.toDigits 10 n).length ≤ width :=
  (Nat.length_toDigits_le_iff (by decide) positive).mpr small

end OData.Decimal
