import OData.Json.Numeral
import OData.Proofs.Number.Rational

/-!
# Numerals of JSON

A numeral is read as an integer only if it consists of digits, and then as the integer that they
are; every other one is a floating-point number.
-/

set_option autoImplicit false

namespace OData.Json.Numeral

open Decimal (minusChars withSign natOfDigits)

/-- What is appended is a part of the digits, and all of them if it is as many. -/
theorem appendDigits_spec (digits : List Char) (significand : Nat) :
    (appendDigits significand digits).2 ≤ digits.length ∧
      ((appendDigits significand digits).2 = digits.length →
        (appendDigits significand digits).1 =
          digits.foldl (fun n c => n * 10 + (c.toNat - 48)) significand) := by
  induction digits generalizing significand with
  | nil => exact ⟨Nat.le_refl 0, fun _ => rfl⟩
  | cons c rest ih =>
    obtain ⟨few, all⟩ := ih (significand * 10 + (c.toNat - 48))
    rw [appendDigits]
    simp only
    split
    · refine ⟨Nat.succ_le_succ few, fun same => ?_⟩
      exact all (Nat.succ.inj same)
    · exact ⟨Nat.zero_le _, fun none => by cases none⟩

/-- Whether a result is a floating-point number, whatever is left. -/
def IsFloat (found : Option (Json × List Char)) : Prop :=
  ∀ json rest, found = some (json, rest) → ∃ x, json = .float x

theorem isFloat_map {found : Option Json} (rest : List Char)
    (float : ∀ json, found = some json → ∃ x, json = .float x) :
    IsFloat (found.map fun json => (json, rest)) := by
  intro json left same
  obtain ⟨number, here, pair⟩ := Option.map_eq_some_iff.mp same
  cases pair
  exact float _ here

theorem exists_of_float {negative : Bool} {significand : Nat} {e : Int} {json : Json}
    (found : float negative significand e = some json) : ∃ x, json = .float x := by
  obtain ⟨x, _, rfl⟩ := Option.map_eq_some_iff.mp found
  exact ⟨_, rfl⟩

theorem exists_of_withExponent {negative minus : Bool} {significand : Nat} {e : Int}
    {digits : List Char} {json : Json}
    (found : withExponent negative significand e minus digits = some json) :
    ∃ x, json = .float x := by
  rw [withExponent] at found
  split at found
  · split at found
    · cases found
    · cases found
      exact ⟨_, rfl⟩
  · exact exists_of_float found

theorem isFloat_readExponent (negative : Bool) (significand : Nat) (e : Int) (cs : List Char) :
    IsFloat (readExponent negative significand e cs) := by
  -- The sign of the exponent and what is left after it.
  have signed (sign : Bool × List Char) : IsFloat
      (if (sign.2.takeWhile Char.isDigit).isEmpty then none
      else (withExponent negative significand e sign.1 (sign.2.takeWhile Char.isDigit)).map
        fun json => (json, sign.2.drop (sign.2.takeWhile Char.isDigit).length)) := by
    split
    · intro json left same
      cases same
    · exact isFloat_map _ fun _ => exists_of_withExponent
  rw [readExponent.eq_def]
  split
  · split
    · exact signed _
    · exact isFloat_map _ fun _ => exists_of_float
  · exact isFloat_map _ fun _ => exists_of_float

theorem isFloat_readFraction (negative : Bool) (significand : Nat) (e : Int) (cs : List Char) :
    IsFloat (readFraction negative significand e cs) := by
  rw [readFraction]
  simp only
  split
  · intro json left same
    cases same
  · exact isFloat_readExponent _ _ _ _

theorem whole_cases (negative : Bool) (significand : Nat) :
    (∃ x, whole negative significand = .float x) ∨
      whole negative significand = .int (withSign negative significand) := by
  cases negative with
  | false => exact .inr rfl
  | true =>
    rw [whole, if_pos rfl]
    split
    · exact .inl ⟨_, rfl⟩
    · exact .inr rfl

/-- A numeral is a floating-point number, or an integer of all its digits. -/
theorem readSize_cases {negative : Bool} {cs : List Char} {json : Json}
    (read : readSize negative cs = some (json, [])) :
    (∃ x, json = .float x) ∨
      cs ≠ [] ∧ cs.all Char.isDigit = true ∧ json = .int (withSign negative (natOfDigits cs)) := by
  have pieces := List.prefix_iff_eq_append.mp (List.takeWhile_prefix (l := cs) Char.isDigit)
  obtain ⟨few, all⟩ := appendDigits_spec (cs.takeWhile Char.isDigit) 0
  rw [readSize] at read
  simp only at read
  split at read
  · cases read
  next given =>
    split at read
    · exact .inl (isFloat_readFraction _ _ _ _ _ _ read)
    next c rest _ after =>
      split at read
      · exact .inl (isFloat_readExponent _ _ _ _ _ _ read)
      · rw [Option.some.injEq, Prod.mk.injEq, after] at read
        cases read.2
    next after =>
      split at read
      · exact .inl (isFloat_readExponent _ _ _ _ _ _ read)
      next kept =>
        rw [after, List.append_nil] at pieces
        have count : (appendDigits 0 (cs.takeWhile Char.isDigit)).2 =
            (cs.takeWhile Char.isDigit).length := by omega
        have json : whole negative (natOfDigits cs) = json := by
          rw [Option.some.injEq, Prod.mk.injEq, all count, pieces] at read
          exact read.1
        rw [← json]
        refine (whole_cases negative (natOfDigits cs)).imp_right fun whole => ⟨?_, ?_, whole⟩
        · rintro rfl
          exact given rfl
        · rw [← pieces]
          exact List.all_takeWhile

/-- Digits behind a minus, or behind nothing, are all that is read as an integer. -/
theorem ofNumeral?_cases {text : String} {json : Json} (read : ofNumeral? text = some json) :
    (∃ x, json = .float x) ∨ ∃ negative cs, text.toList = minusChars negative ++ cs ∧ cs ≠ [] ∧
      cs.all Char.isDigit = true ∧ json = .int (withSign negative (natOfDigits cs)) := by
  rw [ofNumeral?] at read
  split at read
  next found =>
    cases read
    rw [Numeral.read.eq_def] at found
    split at found
    next rest text =>
      exact (readSize_cases found).imp_right fun digits => ⟨true, rest, text, digits⟩
    next => exact (readSize_cases found).imp_right fun digits => ⟨false, _, rfl, digits⟩
  next => cases read

/-- The numeral of a decimal is a floating-point number, or the integer that the decimal is. -/
theorem ofNumeral?_plain_cases {d : Decimal} (small : d.scale < 2 ^ 63) {json : Json}
    (read : ofNumeral? d.plain = some json) :
    (∃ x, json = .float x) ∨ ∃ n : Int, json = .int n ∧ d.toRat = n := by
  refine (ofNumeral?_cases read).imp_right ?_
  rintro ⟨negative, cs, text, nonempty, digits, rfl⟩
  refine ⟨_, rfl, ?_⟩
  obtain ⟨e, value, same⟩ := Decimal.exists_ofText?_plain small
  have whole := Decimal.ofText?_whole negative nonempty digits
  rw [← text, String.ofList_toList, value] at whole
  rw [← same, Option.some.inj whole, ← Decimal.toRat_ofInt]
  rfl

end OData.Json.Numeral
