import OData.Identifier
import OData.Proofs.Text.Characters
import OData.Proofs.Text.Cursor
import OData.Proofs.Text.Pieces

/-!
# Dotted names

A valid dotted name is an identifier and parts that begin with a point.  A cursor reads it up to
what follows a segment of a path.
-/

set_option autoImplicit false

namespace OData

namespace Text.Cursor

theorem dottedRest_run {run : List Char} (letters : run.all isNameChar = true) (rest : List Char) :
    dottedRest (run ++ rest) = run.length + dottedRest rest := by
  induction run with
  | nil => simp
  | cons c run ih =>
    have all : isNameChar c = true ∧ run.all isNameChar = true := by simpa using letters
    rw [List.cons_append, dottedRest.eq_def]
    simp only [all.1, if_true, ih all.2, List.length_cons]
    omega

theorem dottedRest_part {c : Char} {run : List Char} (start : isNameStart c = true)
    (letters : run.all isNameChar = true) (rest : List Char) :
    dottedRest ('.' :: c :: run ++ rest) = ('.' :: c :: run).length + dottedRest rest := by
  have point : isNameChar '.' = false := by decide
  rw [List.cons_append, List.cons_append, dottedRest.eq_def]
  simp only [point, Bool.false_eq_true, if_false, if_true, start, dottedRest_run letters,
    List.length_cons]
  omega

/-- What follows a segment of a path. -/
def segmentStops : List Char := [' ', ')', ',', ';', '/', '(']

theorem dottedRest_stop {rest : List Char} (before : Before segmentStops rest) :
    dottedRest rest = 0 := by
  cases rest with
  | nil => rfl
  | cons c rest =>
    have stops : ∀ c ∈ segmentStops, isNameChar c = false ∧ c ≠ '.' := by decide
    have stop := stops c (before c rfl)
    rw [dottedRest.eq_def]
    simp [stop.1, stop.2]

theorem dottedRest_parts {parts : List (List Char)}
    (names : ∀ part ∈ parts, isIdentifier (String.ofList part) = true) {rest : List Char}
    (before : Before segmentStops rest) :
    dottedRest (parts.flatMap ('.' :: ·) ++ rest) = (parts.flatMap ('.' :: ·)).length := by
  induction parts with
  | nil => exact dottedRest_stop before
  | cons part parts ih =>
    have name := names part List.mem_cons_self
    have later := ih fun other member => names other (List.mem_cons_of_mem part member)
    cases part with
    | nil => contradiction
    | cons c run =>
      have letters : isNameStart c = true ∧ run.all isNameChar = true := by
        simpa [isIdentifier] using name
      rw [List.flatMap_cons, List.append_assoc, dottedRest_part letters.1 letters.2, later,
        List.length_append]

end Text.Cursor

/-- A dotted name is its first part and parts that begin with a point. -/
theorem QualifiedName.exists_parts {text : String} (valid : isNamespace text = true) :
    ∃ (c : Char) (run : List Char) (parts : List (List Char)),
      text.toList = c :: run ++ parts.flatMap ('.' :: ·) ∧ Text.isNameStart c = true ∧
        run.all Text.isNameChar = true ∧
        ∀ part ∈ parts, isIdentifier (String.ofList part) = true := by
  rw [isNamespace] at valid
  obtain ⟨first, parts, split⟩ :=
    List.exists_cons_of_ne_nil (Text.splitOn_ne_nil '.' text.toList)
  rw [split, List.all_cons, Bool.and_eq_true, List.all_eq_true] at valid
  have joined := Text.eq_of_splitOn split
  cases first with
  | nil => exact absurd valid.1 (by decide)
  | cons c run =>
    have letters : Text.isNameStart c = true ∧ run.all Text.isNameChar = true := by
      simpa [isIdentifier] using valid.1
    exact ⟨c, run, parts, joined, letters.1, letters.2, valid.2⟩

namespace Text.Cursor

theorem dottedName?_eq_some {c : Cursor} {name : String} {rest : List Char}
    (valid : QualifiedName.isNamespace name = true) (text : c.ahead = name.toList ++ rest)
    (before : Before segmentStops rest) :
    ∃ next, c.dottedName? = some (name, next) ∧ next.rest = rest := by
  obtain ⟨first, run, parts, joined, start, letters, names⟩ := QualifiedName.exists_parts valid
  have fits : dottedNameShape (name.toList ++ rest) = some name.toList.length := by
    rw [joined, List.append_assoc, List.cons_append, dottedNameShape, if_pos start,
      dottedRest_run letters, dottedRest_parts names before]
    simp only [List.length_append, List.length_cons, Option.some.injEq]
    omega
  obtain ⟨next, token, left⟩ := skipBlanks_token? name.toList text fits
  rw [String.ofList_toList] at token
  exact ⟨next, token, left⟩

theorem isIdentifier_cons {c : Char} {run : List Char} (start : isNameStart c = true)
    (letters : run.all isNameChar = true) : isIdentifier (String.ofList (c :: run)) = true := by
  simp [isIdentifier, start, letters]

/-- What a dotted name goes on with is the rest of its first part and parts that begin with a
point. -/
theorem exists_dottedRest (cs : List Char) :
    ∃ parts : List (List Char), cs.take (dottedRest cs) =
        firstWord cs ++ parts.flatMap ('.' :: ·) ∧
      ∀ part ∈ parts, isIdentifier (String.ofList part) = true := by
  fun_induction dottedRest cs with
  | case1 => exact ⟨[], rfl, by simp⟩
  | case2 c rest name ih =>
    obtain ⟨parts, joined, names⟩ := ih
    refine ⟨parts, ?_, names⟩
    rw [Nat.add_comm, List.take_succ_cons, joined, firstWord, firstWord, List.takeWhile_cons,
      if_pos name, List.cons_append]
  | case3 d more start _ ih =>
    obtain ⟨parts, joined, names⟩ := ih
    have point : isNameChar '.' = false := by decide
    have letters : (firstWord more).all isNameChar = true := List.all_takeWhile
    refine ⟨(d :: firstWord more) :: parts, ?_, ?_⟩
    · rw [Nat.add_comm, List.take_succ_cons, List.take_succ_cons, joined, firstWord, firstWord,
        List.takeWhile_cons, point]
      rfl
    · intro part member
      rcases List.mem_cons.mp member with rfl | later
      · exact isIdentifier_cons start letters
      · exact names part later
  | case4 d more _ _ => exact ⟨[], rfl, by simp⟩
  | case5 => exact ⟨[], rfl, by simp⟩
  | case6 c rest name _ =>
    refine ⟨[], ?_, by simp⟩
    rw [firstWord, List.takeWhile_cons, if_neg name]
    rfl

theorem point_not_mem_of_isIdentifier {part : List Char}
    (name : isIdentifier (String.ofList part) = true) : '.' ∉ part := by
  intro member
  have letters : part.all isNameChar = true := by
    cases part with
    | nil => contradiction
    | cons c run =>
      rw [isIdentifier, String.toList_ofList, Bool.and_eq_true] at name
      exact all_isNameChar_cons name.1 name.2
  exact absurd (List.all_eq_true.mp letters '.' member) (by decide)

/-- A dotted name that is read is valid, and its first part is the first word ahead. -/
theorem isNamespace_of_dottedName? {c next : Cursor} {name : String}
    (found : c.dottedName? = some (name, next)) : QualifiedName.isNamespace name = true ∧
      name.toList.takeWhile (· != '.') = firstWord c.ahead := by
  rw [dottedName?, token?, rest_skipBlanks] at found
  obtain ⟨n, fits, same⟩ := Option.map_eq_some_iff.mp found
  cases ahead : c.ahead with
  | nil =>
    rw [ahead] at fits
    contradiction
  | cons ch rest =>
    rw [ahead, dottedNameShape] at fits
    split at fits
    next start =>
      cases fits
      obtain ⟨parts, joined, names⟩ := exists_dottedRest rest
      have token : (ch :: rest).take (1 + dottedRest rest) =
          ch :: firstWord rest ++ parts.flatMap ('.' :: ·) := by
        rw [Nat.add_comm, List.take_succ_cons, joined, List.cons_append]
      have first := @isIdentifier_cons ch (firstWord rest) start List.all_takeWhile
      have apart : ∀ part ∈ parts, '.' ∉ part := fun part member =>
        point_not_mem_of_isIdentifier (names part member)
      have word : firstWord (ch :: rest) = ch :: firstWord rest := by
        rw [firstWord, List.takeWhile_cons, if_pos (isNameChar_of_isNameStart ch start), firstWord]
      rw [ahead, token] at same
      cases same
      rw [QualifiedName.isNamespace, String.toList_ofList,
        splitOn_flatMap (point_not_mem_of_isIdentifier first) apart, List.all_cons, first, word]
      refine ⟨by simpa using names, ?_⟩
      have stops : Before ['.'] (parts.flatMap ('.' :: ·)) := by
        cases parts with
        | nil => exact Before.nil _
        | cons part parts => exact Before.singleton '.' _
      apply takeWhile_run _ stops (by decide)
      rw [List.all_eq_true]
      intro d member
      rw [bne_iff_ne]
      rintro rfl
      exact point_not_mem_of_isIdentifier first member
    next => contradiction

end Text.Cursor

end OData
