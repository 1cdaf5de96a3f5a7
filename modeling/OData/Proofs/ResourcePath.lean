import OData.Proofs.Identifier
import OData.Proofs.Result
import OData.Proofs.Text.Pieces
import OData.ResourcePath

/-!
# Resource paths: reading what was written

A segment is read from its text if its name is an identifier and the bracket behind its key is the
one that closes the bracket before it, and a path is read from the texts of such segments, with
slashes between them.  All segments that are read are such segments, so that a path that was read
is read from its own text again.
-/

set_option autoImplicit false

namespace OData

theorem exists_chars_of_isIdentifier {name : String} (identifier : isIdentifier name = true) :
    ∃ ch run, name.toList = ch :: run ∧ Text.isNameStart ch = true ∧
      run.all Text.isNameChar = true := by
  rw [isIdentifier] at identifier
  split at identifier
  next => cases identifier
  next ch run chars =>
    rw [Bool.and_eq_true] at identifier
    exact ⟨ch, run, chars, identifier⟩

theorem Identifier.not_mem_text (name : Identifier) {c : Char} (other : Text.isNameChar c = false) :
    c ∉ name.text.toList := by
  obtain ⟨ch, run, chars, start, letters⟩ := exists_chars_of_isIdentifier name.isIdentifier
  rw [chars]
  intro member
  have letter := List.all_eq_true.mp (Text.all_isNameChar_cons start letters) c member
  rw [other] at letter
  cases letter

theorem Identifier.at_not_mem (name : Identifier) : '@' ∉ name.text.toList :=
  name.not_mem_text (by decide)

namespace Text.Cursor

/-! ## Names -/

theorem name?_eq_some {c : Cursor} {name : String} {rest stops : List Char}
    (identifier : isIdentifier name = true) (text : c.ahead = name.toList ++ rest)
    (before : Before stops rest) (outside : ∀ ch ∈ stops, isNameChar ch = false) :
    ∃ next, c.name? = some (name, next) ∧ next.rest = rest := by
  have fits : nameShape (name.toList ++ rest) = some name.toList.length := by
    obtain ⟨ch, run, chars, start, letters⟩ := exists_chars_of_isIdentifier identifier
    rw [chars, List.cons_append, nameShape, if_pos start, takeWhile_run letters before outside,
      List.length_cons, Nat.add_comm]
  obtain ⟨next, token, left⟩ := skipBlanks_token? name.toList text fits
  rw [String.ofList_toList] at token
  exact ⟨next, token, left⟩

theorem isIdentifier_of_name? {c next : Cursor} {name : String}
    (found : c.name? = some (name, next)) : isIdentifier name = true := by
  rw [name?, token?, rest_skipBlanks] at found
  obtain ⟨n, fits, same⟩ := Option.map_eq_some_iff.mp found
  cases same
  cases ahead : c.ahead with
  | nil =>
    rw [ahead] at fits
    contradiction
  | cons ch rest =>
    rw [ahead, nameShape] at fits
    split at fits
    next start =>
      cases fits
      have letters : (firstWord rest).all isNameChar = true := List.all_takeWhile
      have token : (ch :: rest).take (1 + (rest.takeWhile isNameChar).length) =
          ch :: firstWord rest := by
        rw [Nat.add_comm, List.take_succ_cons, firstWord]
        exact congrArg (ch :: ·) (List.prefix_iff_eq_take.mp (List.takeWhile_prefix _)).symm
      rw [token]
      exact isIdentifier_cons start letters
    next => contradiction

theorem expectName_eq_ok {c : Cursor} {name : String} {rest stops : List Char}
    (identifier : isIdentifier name = true) (text : c.ahead = name.toList ++ rest)
    (before : Before stops rest) (outside : ∀ ch ∈ stops, isNameChar ch = false) :
    ∃ next, c.expectName = .ok (name, next) ∧ next.rest = rest := by
  obtain ⟨next, found, left⟩ := name?_eq_some identifier text before outside
  exact ⟨next, by rw [expectName, found], left⟩

theorem systemName?_eq_none {c : Cursor} (other : c.ahead.head? ≠ some '$') :
    c.systemName? = none :=
  skipBlanks_token?_eq_none (Shape.seq_eq_none (Shape.char_eq_none other))

end Text.Cursor

theorem ResourcePath.not_slash_of_isNameChar {c : Char} (name : Text.isNameChar c = true) :
    isSlash c = false :=
  Text.of_isNameChar (p := fun c => isSlash c = false) (by decide +kernel) name

/-! ## Segments -/

open Text (Cursor Before)
open Text.Cursor

/-- Whether a segment is read from its text: its name is an identifier, and the bracket behind its
key is the one that closes the bracket before it. -/
structure Segment.WellFormed (s : Segment) : Prop where
  name : isIdentifier s.name = true
  key : ∀ text, s.key = some text → Closes 1 false text.toList

/-- Whether the brackets and quotes in the key of a segment are paired, too. -/
structure Segment.Readable (s : Segment) : Prop where
  name : isIdentifier s.name = true
  key : ∀ text, s.key = some text → Passes false false text.toList

namespace Segment

theorem Readable.wellFormed {s : Segment} (readable : s.Readable) : s.WellFormed :=
  ⟨readable.name, fun text found => (readable.key text found).closes⟩

/-- The text of a key in its brackets. -/
def keyChars (s : Segment) : List Char :=
  match s.key with
  | some key => '(' :: (key.toList ++ [')'])
  | none => []

theorem toList_toText (s : Segment) : s.toText.toList = s.name.toList ++ s.keyChars := by
  have opening : "(".toList = ['('] := rfl
  have closing : ")".toList = [')'] := rfl
  rw [toText, keyChars]
  cases s.key with
  | none => simp
  | some key => simp [opening, closing]

theorem WellFormed.exists_chars {s : Segment} (valid : s.WellFormed) :
    ∃ ch run, s.toText.toList = ch :: run ∧ Text.isNameStart ch = true := by
  obtain ⟨ch, run, chars, start, _⟩ := exists_chars_of_isIdentifier valid.name
  exact ⟨ch, run ++ s.keyChars, by rw [toList_toText, chars, List.cons_append], start⟩

theorem WellFormed.not_slash_of_head? {s : Segment} (valid : s.WellFormed) (rest : List Char) :
    ∀ ch ∈ (s.toText.toList ++ rest).head?, ResourcePath.isSlash ch = false := by
  obtain ⟨ch, run, chars, start⟩ := valid.exists_chars
  rw [chars]
  rintro _ ⟨⟩
  exact ResourcePath.not_slash_of_isNameChar (Text.isNameChar_of_isNameStart ch start)

/-- The text of a segment ends in a letter of its name or in a bracket. -/
theorem WellFormed.not_slash_of_getLast? {s : Segment} (valid : s.WellFormed) :
    ∀ ch ∈ s.toText.toList.getLast?, ResourcePath.isSlash ch = false := by
  intro ch last
  rw [toList_toText, keyChars] at last
  cases found : s.key with
  | none =>
    obtain ⟨first, run, chars, start, letters⟩ := exists_chars_of_isIdentifier valid.name
    rw [found, List.append_nil, chars] at last
    exact ResourcePath.not_slash_of_isNameChar (List.all_eq_true.mp
      (Text.all_isNameChar_cons start letters) ch (List.mem_of_getLast? last))
  | some key =>
    have whole : s.name.toList ++ '(' :: (key.toList ++ [')']) =
        (s.name.toList ++ '(' :: key.toList) ++ [')'] := by simp
    rw [found] at last
    simp only [whole, List.getLast?_concat, Option.mem_some_iff] at last
    rw [← last]
    decide

end Segment

namespace ResourcePath

/-- What follows a name in a path. -/
def nameStops : List Char := ['(', '/']

theorem before_keyChars (s : Segment) {rest : List Char} (before : Before ['/'] rest) :
    Before nameStops (s.keyChars ++ rest) := by
  rw [Segment.keyChars]
  cases s.key with
  | none => exact before.mono (by decide)
  | some key => exact Before.cons (by decide) _

theorem visible_of_before {rest : List Char} (before : Before ['/'] rest) {d : Char}
    (head : d ∈ rest.head?) : Text.isBlank d = false := by
  rw [List.mem_singleton.mp (before d head)]
  decide

/-- The key in brackets after a name, and where it ends. -/
def keyAfter (c : Cursor) : Option String × Cursor :=
  match c.parenthesized? with
  | some (text, after) => (some text, after)
  | none => (none, c)

theorem keyAfter_eq {s : Segment} (valid : s.WellFormed) {c : Cursor} {rest : List Char}
    (before : Before ['/'] rest) (text : c.rest = s.keyChars ++ rest) :
    (keyAfter c).1 = s.key ∧ (keyAfter c).2.rest = rest := by
  rw [Segment.keyChars] at text
  cases found : s.key with
  | none =>
    rw [found] at text
    have left : c.rest = rest := text
    have other : c.ahead.head? ≠ some '(' := by
      rw [Cursor.ahead_eq_rest fun d head => visible_of_before before (left ▸ head), left]
      intro head
      exact absurd (before '(' head) (by decide)
    rw [keyAfter, parenthesized?_eq_none other]
    exact ⟨rfl, left⟩
  | some key =>
    rw [found] at text
    simp only [List.cons_append, List.append_assoc, List.nil_append] at text
    obtain ⟨next, inner, left⟩ :=
      parenthesized?_eq_some (Cursor.ahead_of_char text (by decide)) (valid.key key found)
    rw [String.ofList_toList] at inner
    rw [keyAfter, inner]
    exact ⟨rfl, left⟩

/-- What is read as a key is closed by its bracket, and nothing but blanks is left out. -/
theorem keyAfter_spec (name : String) (c : Cursor) :
    (∀ text, (keyAfter c).1 = some text → Closes 1 false text.toList) ∧
      ((⟨name, (keyAfter c).1⟩ : Segment).keyChars ++ (keyAfter c).2.ahead).Sublist c.ahead := by
  cases read : c.parenthesized? with
  | none =>
    have same : keyAfter c = (none, c) := by rw [keyAfter, read]
    rw [same]
    exact ⟨by simp, List.Sublist.refl c.ahead⟩
  | some found =>
    obtain ⟨key, after⟩ := found
    have same : keyAfter c = (some key, after) := by rw [keyAfter, read]
    obtain ⟨ahead, closes⟩ := closes_of_parenthesized? read
    rw [same, ahead]
    refine ⟨?_, ?_⟩
    · rintro text ⟨⟩
      exact closes
    · simp only [Segment.keyChars, List.cons_append, List.append_assoc, List.nil_append]
      exact (((ahead_sublist after).cons_cons ')').append_left key.toList).cons_cons '('

/-- A segment has a name, perhaps a key, and the end or a slash after it. -/
theorem parseFrom_eq {c behind : Cursor} {name : String} (noSystem : c.systemName? = none)
    (found : c.expectName = .ok (name, behind)) (fuel : Nat) (read : List Segment) :
    parseFrom (fuel + 1) read c =
      if (keyAfter behind).2.atEnd then
        .ok (resource (read ++ [⟨name, (keyAfter behind).1⟩]) none)
      else (keyAfter behind).2.expectChar '/' >>=
        parseFrom fuel (read ++ [⟨name, (keyAfter behind).1⟩]) := by
  rw [parseFrom, noSystem]
  simp only [found]
  rfl

theorem parseFrom_name {name : String} (identifier : isIdentifier name = true) {rest : List Char}
    (before : Before nameStops rest) (fuel : Nat) (read : List Segment) {c : Cursor}
    (text : c.rest = name.toList ++ rest) :
    ∃ behind : Cursor, behind.rest = rest ∧ parseFrom (fuel + 1) read c =
      if (keyAfter behind).2.atEnd then
        .ok (resource (read ++ [⟨name, (keyAfter behind).1⟩]) none)
      else (keyAfter behind).2.expectChar '/' >>=
        parseFrom fuel (read ++ [⟨name, (keyAfter behind).1⟩]) := by
  obtain ⟨ch, run, chars, start, _⟩ := exists_chars_of_isIdentifier identifier
  have ahead : c.ahead = name.toList ++ rest := by
    rw [chars] at text ⊢
    exact Cursor.ahead_of_char text
      (Text.isBlank_of_isNameChar (Text.isNameChar_of_isNameStart ch start))
  have noSystem : c.systemName? = none := by
    apply systemName?_eq_none
    rw [ahead, chars, List.cons_append, List.head?_cons, ne_eq, Option.some.injEq]
    rintro rfl
    exact absurd start (by decide)
  obtain ⟨behind, found, left⟩ := expectName_eq_ok identifier ahead before (by decide)
  exact ⟨behind, left, parseFrom_eq noSystem found fuel read⟩

/-- A segment is read up to the end or the slash after it. -/
theorem parseFrom_segment {s : Segment} (valid : s.WellFormed) {rest : List Char}
    (before : Before ['/'] rest) (fuel : Nat) (read : List Segment) {c : Cursor}
    (text : c.rest = s.toText.toList ++ rest) :
    ∃ next : Cursor, next.rest = rest ∧ parseFrom (fuel + 1) read c =
      if next.atEnd then .ok (resource (read ++ [s]) none)
      else next.expectChar '/' >>= parseFrom fuel (read ++ [s]) := by
  rw [Segment.toList_toText, List.append_assoc] at text
  obtain ⟨behind, key, step⟩ :=
    parseFrom_name valid.name (before_keyChars s before) fuel read text
  obtain ⟨same, left⟩ := keyAfter_eq valid before key
  rw [same] at step
  exact ⟨(keyAfter behind).2, left, step⟩

/-- What is asked of the last segment ends the path. -/
theorem parseFrom_suffix {read : List Segment} (nonempty : read ≠ []) (suffix : Suffix)
    (fuel : Nat) {c : Cursor} (text : c.rest = suffix.name.toList) :
    parseFrom (fuel + 1) read c = .ok (resource read (some suffix)) := by
  obtain ⟨first, others, rfl⟩ := List.exists_cons_of_ne_nil nonempty
  have ahead : c.ahead = suffix.name.toList ++ [] := by
    rw [List.append_nil, ← text]
    apply Cursor.ahead_eq_rest
    rw [text]
    cases suffix
    all_goals
      rintro _ ⟨⟩
      decide
  have fits : Text.Shape.seq [Text.Shape.char '$', Text.Shape.some' Char.isAlpha]
      (suffix.name.toList ++ []) = some suffix.name.toList.length := by
    cases suffix <;> decide
  obtain ⟨next, found, left⟩ := skipBlanks_token? suffix.name.toList ahead fits
  rw [String.ofList_toList] at found
  have ends : next.expectEnd = .ok () :=
    expectEnd_eq_ok (by rw [Cursor.ahead_eq_rest (by simp [left]), left])
  rw [parseFrom, systemName?, found]
  cases suffix <;> simp [systemSegment, Suffix.name, ends, bind, Except.bind, pure, Except.pure]

/-! ## Whole paths -/

/-- What follows the first segment of a path: slashes, each with a segment or the suffix. -/
def tailChars : List Segment → Option Suffix → List Char
  | [], none => []
  | [], some suffix => '/' :: suffix.name.toList
  | s :: others, suffix => '/' :: (s.toText.toList ++ tailChars others suffix)

theorem before_tailChars (others : List Segment) (suffix : Option Suffix) :
    Before ['/'] (tailChars others suffix) := by
  cases others with
  | nil => cases suffix <;> simp [tailChars, Before]
  | cons s others => exact Before.singleton '/' _

theorem toList_toText (first : Segment) (others : List Segment) (suffix : Option Suffix) :
    (toText (resource (first :: others) suffix)).toList =
      first.toText.toList ++ tailChars others suffix := by
  have pieces : (others.map Segment.toText ++ (suffix.map Suffix.name).toList).flatMap
      (fun piece => '/' :: piece.toList) = tailChars others suffix := by
    induction others with
    | nil => cases suffix <;> simp [tailChars]
    | cons s others ih => simp [tailChars, ih]
  rw [toText, List.map_cons, List.cons_append, Text.toList_intercalate_cons, ← pieces]
  rfl

/-- Where a slash is next, the path goes on behind it. -/
theorem exists_slash {c : Cursor} {rest : List Char} (text : c.rest = '/' :: rest) :
    c.atEnd = false ∧ ∃ after, c.expectChar '/' = .ok after ∧ after.rest = rest := by
  have ahead := Cursor.ahead_of_char text (by decide)
  exact ⟨by simp [Cursor.atEnd, Cursor.rest_skipBlanks, ahead], Cursor.expectChar_eq_ok ahead⟩

/-- Segments are read from their texts between slashes, and so is what is asked of the last. -/
theorem parseFrom_eq_ok {others : List Segment} {suffix : Option Suffix}
    (valid : ∀ s ∈ others, s.WellFormed) :
    ∀ {first : Segment} {fuel : Nat} {read : List Segment} {c : Cursor}, first.WellFormed →
      (tailChars others suffix).length < fuel →
      c.rest = first.toText.toList ++ tailChars others suffix →
      parseFrom fuel read c = .ok (resource (read ++ first :: others) suffix) := by
  induction others with
  | nil =>
    intro first fuel read c formed enough text
    obtain ⟨fuel, rfl⟩ : ∃ n, fuel = n + 1 := ⟨fuel - 1, by omega⟩
    obtain ⟨next, left, step⟩ :=
      parseFrom_segment formed (before_tailChars [] suffix) fuel read text
    cases suffix with
    | none =>
      have ends : next.atEnd = true := by
        simp [Cursor.atEnd, Cursor.rest_skipBlanks, Cursor.ahead, left, tailChars]
      rw [step, if_pos ends]
    | some suffix =>
      obtain ⟨goes, after, slash, behind⟩ := exists_slash left
      obtain ⟨fuel, rfl⟩ : ∃ n, fuel = n + 1 := ⟨fuel - 1, by simp [tailChars] at enough; omega⟩
      rw [step, if_neg (by simp [goes]), slash]
      exact parseFrom_suffix (by simp) suffix fuel behind
  | cons second others ih =>
    intro first fuel read c formed enough text
    obtain ⟨fuel, rfl⟩ : ∃ n, fuel = n + 1 := ⟨fuel - 1, by omega⟩
    obtain ⟨next, left, step⟩ :=
      parseFrom_segment formed (before_tailChars (second :: others) suffix) fuel read text
    obtain ⟨goes, after, slash, behind⟩ := exists_slash left
    have later : parseFrom fuel (read ++ [first]) after =
        .ok (resource (read ++ [first] ++ second :: others) suffix) := by
      apply ih (fun s member => valid s (List.mem_cons_of_mem second member))
        (valid second List.mem_cons_self) _ behind
      simp only [tailChars, List.length_cons, List.length_append] at enough
      omega
    rw [step, if_neg (by simp [goes]), slash]
    rw [List.append_assoc, List.singleton_append] at later
    exact later

/-- Whether a path is read from its text: a resource has segments, and each of them is. -/
def WellFormed : ResourcePath → Prop
  | resource segments _ => segments ≠ [] ∧ ∀ s ∈ segments, s.WellFormed
  | _ => True

theorem not_slash_of_getLast? {others : List Segment} {suffix : Option Suffix} :
    ∀ {first : Segment}, first.WellFormed → (∀ s ∈ others, s.WellFormed) →
      ∀ ch ∈ (first.toText.toList ++ tailChars others suffix).getLast?, isSlash ch = false := by
  induction others with
  | nil =>
    intro first valid _
    match suffix with
    | none =>
      rw [tailChars, List.append_nil]
      exact valid.not_slash_of_getLast?
    | some .count => simp [tailChars, Suffix.name, isSlash]
    | some .ref => simp [tailChars, Suffix.name, isSlash]
  | cons second others ih =>
    intro first _ valid
    obtain ⟨ch, run, chars, _⟩ := (valid second List.mem_cons_self).exists_chars
    have nonempty : second.toText.toList ++ tailChars others suffix ≠ [] := by simp [chars]
    rw [tailChars, List.getLast?_append_of_ne_nil _ (by simp),
      List.getLast?_cons_of_ne_nil nonempty]
    exact ih (valid second List.mem_cons_self)
      fun s member => valid s (List.mem_cons_of_mem second member)

theorem WellFormed.not_slash_of_head? {path : ResourcePath} (valid : path.WellFormed) :
    ∀ ch ∈ path.toText.toList.head?, isSlash ch = false := by
  cases path with
  | service =>
    rintro ch ⟨⟩
  | metadata =>
    rintro ch ⟨⟩
    decide
  | resource segments suffix =>
    obtain ⟨first, others, rfl⟩ := List.exists_cons_of_ne_nil valid.1
    rw [toList_toText]
    exact (valid.2 first List.mem_cons_self).not_slash_of_head? _

theorem WellFormed.parse_eq_ok {path : ResourcePath} (valid : path.WellFormed) :
    parse path.toText = .ok path := by
  have head := valid.not_slash_of_head?
  cases path with
  | service => rfl
  | metadata => rfl
  | resource segments suffix =>
    obtain ⟨nonempty, formed⟩ := valid
    obtain ⟨first, others, rfl⟩ := List.exists_cons_of_ne_nil nonempty
    have text := toList_toText first others suffix
    obtain ⟨valid, later⟩ := List.forall_mem_cons.mp formed
    obtain ⟨ch, run, chars, _⟩ := valid.exists_chars
    have given : (toText (resource (first :: others) suffix)).isEmpty = false := by
      rw [Bool.eq_false_iff, ne_eq, String.isEmpty_iff, ← String.toList_eq_nil_iff, text, chars]
      simp
    have last : ∀ ch ∈ (toText (resource (first :: others) suffix)).toList.getLast?,
        isSlash ch = false := text ▸ not_slash_of_getLast? valid later
    rw [parse, Text.trim_eq_self head last, String.ofList_toList, given, if_neg (by simp)]
    refine parseFrom_eq_ok later valid ?_ text
    rw [← String.length_toList, text, List.length_append]
    omega

theorem wellFormed_of_readable {first : Segment} {others : List Segment} (valid : first.Readable)
    (readable : ∀ s ∈ others, s.Readable) : (resource (first :: others) none).WellFormed :=
  ⟨List.cons_ne_nil first others,
    List.forall_mem_cons.mpr ⟨valid.wellFormed, fun s member => (readable s member).wellFormed⟩⟩

theorem not_slash_of_head? {first : Segment} (readable : first.Readable) (others : List Segment) :
    ∀ ch ∈ (toText (resource (first :: others) none)).toList.head?, isSlash ch = false := by
  rw [toList_toText]
  exact readable.wellFormed.not_slash_of_head? _

theorem parse_segments {first : Segment} {others : List Segment} (valid : first.Readable)
    (readable : ∀ s ∈ others, s.Readable) :
    parse (toText (resource (first :: others) none)) = .ok (resource (first :: others) none) :=
  (wellFormed_of_readable valid readable).parse_eq_ok

/-! ## What is read -/

/-- A name that is expected is there. -/
theorem ahead_of_expectName {c next : Cursor} {name : String}
    (found : c.expectName = .ok (name, next)) :
    isIdentifier name = true ∧ c.ahead = name.toList ++ next.rest := by
  rw [expectName] at found
  split at found
  next read =>
    cases found
    exact ⟨isIdentifier_of_name? read, ahead_of_token? read⟩
  next => cases found

/-- What is read from a text after some segments: a path that goes on with well-formed segments,
and whose text from there on is the text read, without some of its characters. -/
def Continues (read : List Segment) (text : List Char) : ResourcePath → Prop
  | service => False
  | metadata => metadata.toText.toList.Sublist text
  | resource segments suffix => ∃ others, segments = read ++ others ∧ segments ≠ [] ∧
      (∀ s ∈ others, s.WellFormed) ∧ (tailChars others suffix).Sublist ('/' :: text)

theorem continues_of_systemSegment {start c next : Cursor} {read : List Segment} {name : String}
    {path : ResourcePath} (found : c.systemName? = some (name, next))
    (done : systemSegment start read name next = .ok path) : Continues read c.rest path := by
  have stands : name.toList.Sublist c.rest := by
    refine List.Sublist.trans ?_ (ahead_sublist c)
    rw [ahead_of_token? found]
    exact List.sublist_append_left _ _
  have ended (result : ResourcePath) (good : Continues read c.rest result)
      (done : (next.expectEnd >>= fun _ => pure result) = .ok path) :
      Continues read c.rest path := by
    obtain ⟨_, -, same⟩ := Result.bind_eq_ok.mp done
    cases same
    exact good
  rw [systemSegment.eq_def] at done
  split at done
  · exact ended metadata stands done
  · exact ended (resource _ (some .count))
      ⟨[], (List.append_nil _).symm, List.cons_ne_nil _ _, by simp, stands.cons_cons '/'⟩ done
  · exact ended (resource _ (some .ref))
      ⟨[], (List.append_nil _).symm, List.cons_ne_nil _ _, by simp, stands.cons_cons '/'⟩ done
  · cases done

/-- One more segment in front of a path, with a slash behind it. -/
theorem Continues.cons {s : Segment} {read : List Segment} {text rest : List Char}
    {path : ResourcePath} (continues : Continues (read ++ [s]) rest path) (formed : s.WellFormed)
    (stands : (s.toText.toList ++ '/' :: rest).Sublist text) : Continues read text path := by
  cases path with
  | service => exact continues
  | metadata =>
    exact continues.trans (((List.sublist_cons_self '/' rest).trans
      (List.sublist_append_right _ _)).trans stands)
  | resource segments suffix =>
    obtain ⟨others, rfl, nonempty, valid, later⟩ := continues
    refine ⟨s :: others, by simp, nonempty, List.forall_mem_cons.mpr ⟨formed, valid⟩, ?_⟩
    exact ((later.append_left s.toText.toList).trans stands).cons_cons '/'

/-- A segment that is read is well-formed, and nothing but blanks is left out up to its end. -/
theorem segment_spec {c behind : Cursor} {name : String}
    (found : c.expectName = .ok (name, behind)) :
    (⟨name, (keyAfter behind).1⟩ : Segment).WellFormed ∧
      ((⟨name, (keyAfter behind).1⟩ : Segment).toText.toList ++
        (keyAfter behind).2.ahead).Sublist c.rest := by
  obtain ⟨identifier, ahead⟩ := ahead_of_expectName found
  obtain ⟨closes, stands⟩ := keyAfter_spec name behind
  refine ⟨⟨identifier, closes⟩, ?_⟩
  refine List.Sublist.trans ?_ (ahead_sublist c)
  rw [ahead, Segment.toList_toText, List.append_assoc]
  exact (stands.trans (ahead_sublist behind)).append_left name.toList

theorem continues_of_parseFrom {path : ResourcePath} {fuel : Nat} :
    ∀ {read : List Segment} {c : Cursor}, parseFrom fuel read c = .ok path →
      Continues read c.rest path := by
  induction fuel with
  | zero =>
    intro read c done
    cases done
  | succ fuel ih =>
    intro read c done
    cases found : c.systemName? with
    | some system =>
      rw [parseFrom, found] at done
      exact continues_of_systemSegment found done
    | none =>
      cases named : c.expectName with
      | error e =>
        rw [parseFrom, found] at done
        simp only [named] at done
        cases done
      | ok name =>
        obtain ⟨name, behind⟩ := name
        rw [parseFrom_eq found named] at done
        obtain ⟨formed, stands⟩ := segment_spec named
        split at done
        · cases done
          refine ⟨_, rfl, by simp, by simpa using formed, ?_⟩
          rw [tailChars, tailChars, List.append_nil]
          exact ((List.sublist_append_left _ _).trans stands).cons_cons '/'
        · obtain ⟨after, slash, later⟩ := Result.bind_eq_ok.mp done
          rw [ahead_of_expectChar slash] at stands
          exact (ih later).cons formed stands

/-- A path that is read is well-formed, and its text is the text that was read without some of
its characters. -/
theorem wellFormed_of_parse {text : String} {path : ResourcePath} (read : parse text = .ok path) :
    path.WellFormed ∧ path.toText.toList.Sublist text.toList := by
  rw [parse] at read
  split at read
  · cases read
    exact ⟨trivial, List.nil_sublist _⟩
  · have continues := continues_of_parseFrom read
    have trimmed := Text.trim_sublist isSlash text.toList
    rw [Cursor.ofText, String.toList_ofList] at continues
    cases path with
    | service => exact continues.elim
    | metadata => exact ⟨trivial, continues.trans trimmed⟩
    | resource segments suffix =>
      obtain ⟨others, rfl, nonempty, valid, stands⟩ := continues
      obtain ⟨first, others, rfl⟩ := List.exists_cons_of_ne_nil nonempty
      refine ⟨⟨nonempty, valid⟩, ?_⟩
      rw [toList_toText]
      exact (List.cons_sublist_cons.mp stands).trans trimmed

/-- The text of a path that was read is read as the same path. -/
theorem canonical_of_parse {text : String} {path : ResourcePath} (read : parse text = .ok path) :
    parse path.toText = .ok path :=
  (wellFormed_of_parse read).1.parse_eq_ok

/-- An owner and the pets under a name, counted: `f('a)',(1)/2)` and ` 'it''s (/' ` are keys. -/
def countedPets : ResourcePath :=
  resource [⟨"Owners", some "f('a)',(1)/2)"⟩, ⟨"MyPets", some " 'it''s (/' "⟩] (some .count)

theorem canonical_countedPets :
    parse "/ Owners (f('a)',(1)/2)) / MyPets\t( 'it''s (/' ) /$count //" = .ok countedPets ∧
      countedPets.toText = "Owners(f('a)',(1)/2))/MyPets( 'it''s (/' )/$count" ∧
      parse countedPets.toText = .ok countedPets := by
  have read : parse "/ Owners (f('a)',(1)/2)) / MyPets\t( 'it''s (/' ) /$count //" =
      .ok countedPets := by rfl
  exact ⟨read, by decide, canonical_of_parse read⟩

/-- A path that is cut inside the key of a segment is refused. -/
theorem exists_parse_error {name : String} (identifier : isIdentifier name = true)
    {piece inner : List Char} (passes : Passes false false inner) (part : piece <+: inner) :
    ∃ e, parse (String.ofList (name.toList ++ '(' :: piece)) = .error e := by
  obtain ⟨ch, run, chars, letter, _⟩ := exists_chars_of_isIdentifier identifier
  have head : ∀ c ∈ (name.toList ++ '(' :: piece).head?, isSlash c = false := by
    rw [chars]
    rintro _ ⟨⟩
    exact not_slash_of_isNameChar (Text.isNameChar_of_isNameStart ch letter)
  -- Slashes at the cut are dropped, so that a shorter piece is left.
  obtain ⟨short, shorter, trimmed⟩ :=
    Text.exists_trimEnd (p := isSlash) name.toList piece (by decide : isSlash '(' = false)
  have text : Text.trim isSlash (name.toList ++ '(' :: piece) = name.toList ++ '(' :: short := by
    rw [Text.trim, Text.trimStart, Text.dropWhile_eq_self head, trimmed]
  have nonempty : (String.ofList (name.toList ++ '(' :: short)).isEmpty = false := by
    rw [Bool.eq_false_iff, ne_eq, String.isEmpty_iff, String.ofList_eq_empty_iff]
    simp
  have bracket : Before nameStops ('(' :: short) := Before.cons (by decide) short
  have start : (Cursor.ofText (String.ofList (name.toList ++ '(' :: short))).rest =
      name.toList ++ '(' :: short := String.toList_ofList
  obtain ⟨behind, left, step⟩ := parseFrom_name identifier bracket
    (String.ofList (name.toList ++ '(' :: short)).length [] start
  have ahead := Cursor.ahead_of_char left (by decide)
  have open_ : keyAfter behind = (none, behind) := by
    rw [keyAfter, parenthesized?_eq_none_of_closingAt ahead
      (closingAt_eq_none passes (shorter.trans part))]
  have goes : behind.atEnd = false := by simp [Cursor.atEnd, Cursor.rest_skipBlanks, ahead]
  have noSlash : behind.char? '/' = none := char?_eq_none (by simp [ahead])
  rw [parse, String.toList_ofList, text, nonempty, if_neg (by simp)]
  rw [open_, goes, if_neg (by simp), expectChar, noSlash] at step
  exact ⟨_, step⟩

end ResourcePath

end OData
