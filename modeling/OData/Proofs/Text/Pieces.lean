import Mathlib.Data.List.DropRight
import OData.Text.Pieces

/-!
# Pieces of texts: what is cut off and what is left

Characters of a class are cut off at either end up to the first one that stays.  A text that is
split is the pieces with the separators between them, and pieces without separators are found again
in the text that they make.
-/

set_option autoImplicit false

namespace OData.Text

/-! ## Characters of a class -/

theorem suffix_trimStart (p : Char → Bool) (cs : List Char) : trimStart p cs <:+ cs :=
  List.dropWhile_suffix p

theorem length_trimStart_le (p : Char → Bool) (cs : List Char) :
    (trimStart p cs).length ≤ cs.length :=
  (List.dropWhile_sublist p).length_le

/-- What is left after the characters of a class begins with no other one of it. -/
theorem head?_trimStart {p : Char → Bool} {cs : List Char} {c : Char}
    (head : c ∈ (trimStart p cs).head?) : p c = false := by
  have stops := List.head?_dropWhile_not p cs
  rw [trimStart, Option.mem_def] at head
  simpa only [head] using stops

theorem trimStart_append {p : Char → Bool} {cs : List Char} (all : ∀ c ∈ cs, p c = true)
    (rest : List Char) : trimStart p (cs ++ rest) = trimStart p rest := by
  rw [trimStart, List.dropWhile_append_of_pos all, trimStart]

theorem dropWhile_eq_self {p : Char → Bool} {cs : List Char}
    (first : ∀ c ∈ cs.head?, p c = false) : cs.dropWhile p = cs := by
  cases cs with
  | nil => rfl
  | cons c rest => simp [first c rfl]

theorem trim_eq_self {p : Char → Bool} {cs : List Char} (first : ∀ c ∈ cs.head?, p c = false)
    (last : ∀ c ∈ cs.getLast?, p c = false) : trim p cs = cs := by
  rw [← List.head?_reverse] at last
  rw [trim, trimStart, dropWhile_eq_self first, trimEnd, dropWhile_eq_self last,
    List.reverse_reverse]

theorem trim_sublist (p : Char → Bool) (cs : List Char) : (trim p cs).Sublist cs :=
  (List.rdropWhile_prefix p (cs.dropWhile p)).sublist.trans (List.dropWhile_sublist p)

/-- What is cut off at the end does not reach past a character that stays. -/
theorem exists_trimEnd {p : Char → Bool} {c : Char} (cs ds : List Char) (stays : p c = false) :
    ∃ es, es <+: ds ∧ trimEnd p (cs ++ c :: ds) = cs ++ c :: es := by
  have cut (l : List Char) : trimEnd p l = l.rdropWhile p := rfl
  induction ds using List.reverseRecOn with
  | nil =>
    refine ⟨[], List.prefix_rfl, ?_⟩
    rw [cut, List.rdropWhile_concat_neg _ _ _ (by simp [stays])]
  | append_singleton ds d ih =>
    have whole : cs ++ c :: (ds ++ [d]) = cs ++ c :: ds ++ [d] := by simp
    rw [whole, cut]
    by_cases drops : p d = true
    · obtain ⟨es, part, trimmed⟩ := ih
      rw [List.rdropWhile_concat_pos _ _ _ drops]
      exact ⟨es, part.trans (List.prefix_append ds [d]), trimmed⟩
    · rw [List.rdropWhile_concat_neg _ _ _ drops]
      exact ⟨ds ++ [d], List.prefix_rfl, whole.symm⟩

/-- A text of which all characters stay is left of it between characters that are cut off. -/
theorem trim_append {p : Char → Bool} {before cs after : List Char}
    (start : ∀ c ∈ before, p c = true) (solid : ∀ c ∈ cs, p c = false)
    (stop : ∀ c ∈ after, p c = true) : trim p (before ++ cs ++ after) = cs := by
  rw [trim, List.append_assoc, trimStart_append start, trimStart]
  cases cs with
  | nil =>
    rw [List.nil_append, List.dropWhile_eq_nil_iff.mpr stop]
    rfl
  | cons c cs =>
    have first : ∀ d ∈ (c :: cs ++ after).head?, p d = false := by
      rintro _ ⟨⟩
      exact solid c List.mem_cons_self
    have last : ∀ d ∈ (c :: cs).reverse.head?, p d = false := fun d head =>
      solid d (List.mem_reverse.mp (List.mem_of_mem_head? head))
    rw [dropWhile_eq_self first, trimEnd, List.reverse_append,
      List.dropWhile_append_of_pos fun d member => stop d (List.mem_reverse.mp member),
      dropWhile_eq_self last, List.reverse_reverse]

/-! ## A piece at the start or the end -/

theorem after?_eq_some_iff {piece cs rest : List Char} :
    after? piece cs = some rest ↔ cs = piece ++ rest := by
  constructor
  · intro found
    rw [after?] at found
    split at found
    next starts =>
      obtain ⟨below, rfl⟩ := List.isPrefixOf_iff_prefix.mp starts
      rw [List.drop_left] at found
      rw [Option.some.inj found]
    next => cases found
  · rintro rfl
    exact after?_append piece rest

theorem after?_eq_none_iff {piece cs : List Char} : after? piece cs = none ↔ ¬ piece <+: cs := by
  rw [after?, ite_eq_right_iff, ← List.isPrefixOf_iff_prefix]
  simp

theorem beforeLast?_eq_some_iff {c : Char} {cs before : List Char} :
    beforeLast? c cs = some before ↔ cs = before ++ [c] := by
  rw [beforeLast?, ← List.reverse_inj, List.reverse_append, List.reverse_singleton,
    List.singleton_append]
  cases cs.reverse with
  | nil => simp
  | cons last rest =>
    simp only [List.cons.injEq]
    split
    next same => simp [same, List.reverse_eq_iff]
    next other => simp [other]

/-! ## Separators -/

theorem splitFirst?_eq_none {c : Char} {cs : List Char} (absent : c ∉ cs) :
    splitFirst? c cs = none := by
  induction cs with
  | nil => rfl
  | cons d rest ih =>
    rw [List.mem_cons, not_or] at absent
    rw [splitFirst?, if_neg (Ne.symm absent.1), ih absent.2]
    rfl

theorem splitFirst?_append {c : Char} {cs : List Char} (absent : c ∉ cs) (rest : List Char) :
    splitFirst? c (cs ++ c :: rest) = some (cs, rest) := by
  induction cs with
  | nil => rw [List.nil_append, splitFirst?, if_pos rfl]
  | cons d cs ih =>
    rw [List.mem_cons, not_or] at absent
    rw [List.cons_append, splitFirst?, if_neg (Ne.symm absent.1), ih absent.2]
    rfl

theorem not_mem_of_splitFirst?_eq_none {c : Char} {cs : List Char}
    (none : splitFirst? c cs = none) : c ∉ cs := by
  induction cs with
  | nil => simp
  | cons d cs ih =>
    rw [splitFirst?] at none
    split at none
    next => cases none
    next other =>
      rw [List.mem_cons, not_or]
      exact ⟨Ne.symm other, ih (Option.map_eq_none_iff.mp none)⟩

theorem not_mem_of_splitFirst? {c : Char} {cs before rest : List Char}
    (found : splitFirst? c cs = some (before, rest)) : c ∉ before := by
  induction cs generalizing before with
  | nil => cases found
  | cons d cs ih =>
    rw [splitFirst?] at found
    split at found
    next =>
      cases found
      simp
    next other =>
      obtain ⟨⟨front, behind⟩, inner, pair⟩ := Option.map_eq_some_iff.mp found
      cases pair
      rw [List.mem_cons, not_or]
      exact ⟨Ne.symm other, ih inner⟩

theorem eq_of_splitFirst? {c : Char} {cs before rest : List Char}
    (found : splitFirst? c cs = some (before, rest)) : cs = before ++ c :: rest := by
  induction cs generalizing before with
  | nil => cases found
  | cons d cs ih =>
    rw [splitFirst?] at found
    split at found
    next same =>
      cases found
      rw [same, List.nil_append]
    next =>
      obtain ⟨⟨front, behind⟩, inner, pair⟩ := Option.map_eq_some_iff.mp found
      cases pair
      rw [ih inner, List.cons_append]

theorem splitOn_ne_nil (sep : Char) (cs : List Char) : splitOn sep cs ≠ [] := by
  cases cs with
  | nil => simp [splitOn]
  | cons c rest =>
    rw [splitOn]
    split
    · simp
    · split <;> simp

/-- The pieces between separators, joined again. -/
theorem eq_of_splitOn {sep : Char} {cs first : List Char} {others : List (List Char)}
    (pieces : splitOn sep cs = first :: others) : cs = first ++ others.flatMap (sep :: ·) := by
  induction cs generalizing first others with
  | nil =>
    cases pieces
    rfl
  | cons c rest ih =>
    obtain ⟨piece, more, split⟩ := List.exists_cons_of_ne_nil (splitOn_ne_nil sep rest)
    have joined := ih split
    rw [splitOn, split] at pieces
    by_cases same : c = sep
    · rw [if_pos same] at pieces
      cases pieces
      rw [List.nil_append, List.flatMap_cons, List.cons_append, ← joined, same]
    · rw [if_neg same] at pieces
      cases pieces
      rw [List.cons_append, ← joined]

theorem splitOn_piece {sep : Char} {piece : List Char} (apart : sep ∉ piece) (rest : List Char) :
    splitOn sep (piece ++ sep :: rest) = piece :: splitOn sep rest := by
  induction piece with
  | nil => simp [splitOn]
  | cons c piece ih =>
    rw [List.mem_cons, not_or] at apart
    rw [List.cons_append, splitOn, ih apart.2, if_neg (Ne.symm apart.1)]

theorem splitOn_last {sep : Char} {piece : List Char} (apart : sep ∉ piece) :
    splitOn sep piece = [piece] := by
  induction piece with
  | nil => rfl
  | cons c piece ih =>
    rw [List.mem_cons, not_or] at apart
    rw [splitOn, ih apart.2, if_neg (Ne.symm apart.1)]

/-- What is joined by separators is split into its pieces. -/
theorem splitOn_flatMap {sep : Char} {first : List Char} {others : List (List Char)}
    (apart : sep ∉ first) (each : ∀ piece ∈ others, sep ∉ piece) :
    splitOn sep (first ++ others.flatMap (sep :: ·)) = first :: others := by
  induction others generalizing first with
  | nil =>
    rw [List.flatMap_nil, List.append_nil]
    exact splitOn_last apart
  | cons piece others ih =>
    have later := ih (each piece List.mem_cons_self) fun other member =>
      each other (List.mem_cons_of_mem piece member)
    rw [List.flatMap_cons, List.cons_append, splitOn_piece apart, later]

end OData.Text
