import OData.Proofs.Expr.Readable
import OData.Proofs.Expr.Tokens
import OData.Proofs.Value.Distinct

/-!
# Words of a canonical text

The text of a tree is words with blanks, brackets and commas between them; inside of quotes these
belong to a word.  `mask` puts each word that is no name in quotes.  The text that results is that
of `masked`, a tree with strings for all literals, which the parser reads back.
-/

set_option autoImplicit false

namespace OData.Expr

open Text (Before)

def separators : List Char := [' ', '(', ')', ',']

/-- Whether quotes are closed at the end of a text and separators stand inside of quotes only. -/
def isWord : Bool → List Char → Bool
  | quoted, [] => !quoted
  | quoted, c :: rest =>
    if c = '\'' then isWord (!quoted) rest
    else (quoted || !separators.contains c) && isWord quoted rest

/-- Whether a word is an identifier but no literal. -/
def isNameWord (w : List Char) : Bool :=
  isIdentifier (String.ofList w) && !Value.reserved.contains (String.ofList w)

/-- No new name begins like an infinity. -/
def rename (w : List Char) : List Char :=
  if w.head? = some '_' ∨ "INF".toList.isPrefixOf w = true then '_' :: w else w

def quote (w : List Char) : List Char := (literal (.string (String.ofList w))).toChars

/-- Names stay names, also behind a minus, and all other words become strings. -/
def maskWord (w : List Char) : List Char :=
  if isNameWord w then rename w
  else match w with
    | [] => []
    | c :: rest =>
      if c = '-' ∧ rest = [] then w
      else if c = '-' ∧ isNameWord rest = true then c :: rename rest
      else quote w

/-- The end of a word, or of an empty list. -/
def maskEnd (emptyList : Bool) (word : List Char) : List Char :=
  if word.isEmpty then (if emptyList then quote [] else []) else maskWord word

/-- Masks a text behind the beginning of a word; `opened` says whether a bracket stands before that
word, and `quoted` whether quotes are open in it. -/
def mask (opened quoted : Bool) (word : List Char) : List Char → List Char
  | [] => maskEnd false word
  | c :: rest =>
    if c = '\'' then mask opened (!quoted) (word ++ [c]) rest
    else if quoted || !separators.contains c then mask opened quoted (word ++ [c]) rest
    else maskEnd (opened && c == ')') word ++ c :: mask (c == '(') false [] rest

/-- A list with an empty string for nothing. -/
def orEmptyString (items : List Expr) : List Expr :=
  if items.isEmpty then [literal (.string "")] else items

mutual

/-- The tree with a string for each literal and for each empty list. -/
def masked : Expr → Expr
  | literal v => literal (.string v.toText)
  | path p => path (p.map fun name => String.ofList (rename name.toList))
  | binary op l r => binary op l.masked r.masked
  | not e => not e.masked
  | negate e => negate e.masked
  | member e items => member e.masked (orEmptyString (maskedList items))
  | call f arguments => call f (orEmptyString (maskedList arguments))

def maskedList : List Expr → List Expr
  | [] => []
  | e :: rest => e.masked :: maskedList rest

end

mutual

/-- Whether each path is a single identifier that is no word of the syntax. -/
def hasNames : Expr → Bool
  | literal _ => true
  | path p =>
    match p with
    | [name] => isIdentifier name && !("not" :: Value.reserved).contains name
    | _ => false
  | binary _ l r => l.hasNames && r.hasNames
  | not e | negate e => e.hasNames
  | member e items => e.hasNames && haveNames items
  | call _ arguments => haveNames arguments

def haveNames : List Expr → Bool
  | [] => true
  | e :: rest => e.hasNames && haveNames rest

end

theorem maskedList_eq_map (items : List Expr) : maskedList items = items.map masked := by
  induction items with
  | nil => simp [maskedList]
  | cons e rest ih => simp [maskedList, ih]

theorem haveNames_iff {items : List Expr} :
    haveNames items = true ↔ ∀ e ∈ items, e.hasNames = true := by
  induction items with
  | nil => simp [haveNames]
  | cons e rest ih => simp [haveNames, ih]

/-! ## Masking one word -/

section Words

variable {opened quoted : Bool} {word w rest : List Char}

theorem mask_append (whole : isWord quoted w = true) :
    mask opened quoted word (w ++ rest) = mask opened false (word ++ w) rest := by
  induction w generalizing quoted word with
  | nil =>
    rw [isWord, Bool.not_eq_true'] at whole
    rw [whole, List.nil_append, List.append_nil]
  | cons c w ih =>
    have joined : word ++ c :: w = (word ++ [c]) ++ w := by simp
    rw [isWord] at whole
    rw [List.cons_append, mask, joined]
    split at whole
    next isQuote => rw [if_pos isQuote, ih whole]
    next other =>
      rw [Bool.and_eq_true] at whole
      rw [if_neg other, if_pos whole.1, ih whole.2]

theorem mask_stop (nonempty : word ≠ []) (before : Before separators rest) :
    mask opened false word rest = maskWord word ++ mask false false [] rest := by
  have ended : ∀ emptyList, maskEnd emptyList word = maskWord word := fun emptyList =>
    if_neg (by simpa using nonempty)
  cases rest with
  | nil =>
    rw [mask, ended]
    exact (List.append_nil _).symm
  | cons c rest =>
    have stop : c ∈ separators := before c rfl
    have noQuote : c ≠ '\'' := by
      rintro rfl
      exact absurd stop (by decide)
    have found : separators.contains c = true := List.contains_iff_mem.mpr stop
    have none : maskEnd (false && c == ')') [] = [] := rfl
    rw [mask, mask, if_neg noQuote, if_neg noQuote, found]
    simp only [Bool.not_true, Bool.or_false, Bool.false_eq_true, if_false, ended, none,
      List.nil_append]

end Words

/-! ## Masking a text -/

/-- Up to a separator a text is masked as another one, wherever it begins. -/
def Masks (cs ds : List Char) : Prop := ∀ opened rest, Before separators rest →
  mask opened false [] (cs ++ rest) = ds ++ mask false false [] rest

theorem mask_blank (opened : Bool) (rest : List Char) :
    mask opened false [] (' ' :: rest) = ' ' :: mask false false [] rest := by
  simp [mask, maskEnd, separators]

theorem mask_open (opened : Bool) (rest : List Char) :
    mask opened false [] ('(' :: rest) = '(' :: mask true false [] rest := by
  simp [mask, maskEnd, separators]

theorem mask_close (rest : List Char) :
    mask false false [] (')' :: rest) = ')' :: mask false false [] rest := by
  simp [mask, maskEnd, separators]

theorem mask_close_opened (rest : List Char) :
    mask true false [] (')' :: rest) = quote [] ++ ')' :: mask false false [] rest := by
  simp [mask, maskEnd, separators]

theorem mask_comma (opened : Bool) (rest : List Char) :
    mask opened false [] (',' :: rest) = ',' :: mask false false [] rest := by
  simp [mask, maskEnd, separators]

namespace Masks

variable {cs cs' ds ds' : List Char}

theorem word {w : List Char} (whole : isWord false w = true) (nonempty : w ≠ []) :
    Masks w (maskWord w) := by
  intro opened rest before
  rw [mask_append whole, List.nil_append]
  exact mask_stop nonempty before

theorem append (first : Masks cs cs') (second : Masks ds ds') (begins : ds ≠ [])
    (before : Before separators ds) : Masks (cs ++ ds) (cs' ++ ds') := by
  intro opened rest after
  have stop : Before separators (ds ++ rest) := by
    cases ds with
    | nil => exact absurd rfl begins
    | cons d more => exact before
  rw [List.append_assoc, first opened _ stop, second false rest after, List.append_assoc]

theorem blank (text : Masks cs cs') : Masks (' ' :: cs) (' ' :: cs') := by
  intro opened rest before
  rw [List.cons_append, mask_blank, text false rest before, List.cons_append]

theorem comma (text : Masks cs cs') : Masks (',' :: cs) (',' :: cs') := by
  intro opened rest before
  rw [List.cons_append, mask_comma, text false rest before, List.cons_append]

/-- Two texts with a blank between them. -/
theorem spaced (first : Masks cs cs') (second : Masks ds ds') :
    Masks (cs ++ ' ' :: ds) (cs' ++ ' ' :: ds') :=
  first.append second.blank (List.cons_ne_nil _ _) (Before.cons (by decide) ds)

theorem bracketed (inside : Masks cs cs') :
    Masks ('(' :: (cs ++ [')'])) ('(' :: (cs' ++ [')'])) := by
  intro opened rest before
  have close : Before separators (')' :: rest) := Before.cons (by decide) rest
  rw [List.cons_append, List.append_assoc, List.singleton_append, mask_open,
    inside true _ close, mask_close, List.cons_append, List.append_assoc, List.singleton_append]

theorem parenthesizeIf (condition : Bool) (inside : Masks cs cs') :
    Masks (Expr.parenthesizeIf condition cs) (Expr.parenthesizeIf condition cs') := by
  cases condition with
  | false => exact inside
  | true => exact inside.bracketed

/-- A list in brackets behind a word. -/
theorem bracket (first : Masks cs cs') (second : Masks ('(' :: ds) ('(' :: ds')) :
    Masks (cs ++ '(' :: ds) (cs' ++ '(' :: ds') :=
  first.append second (List.cons_ne_nil _ _) (Before.cons (by decide) ds)

end Masks

/-! ## The words of a tree -/

theorem isWord_of_plain {cs : List Char} (plain : ∀ c ∈ cs, c ≠ '\'' ∧ c ∉ separators) :
    isWord false cs = true := by
  induction cs with
  | nil => rfl
  | cons c cs ih =>
    obtain ⟨⟨noQuote, inside⟩, later⟩ := List.forall_mem_cons.mp plain
    simp [isWord, noQuote, inside, ih later]

theorem isWord_quoteChars (cs : List Char) :
    isWord true (Value.quoteChars cs ++ ['\'']) = true := by
  induction cs with
  | nil => rfl
  | cons c cs ih =>
    rw [Value.quoteChars]
    split
    next => simpa [isWord] using ih
    next noQuote => simpa [isWord, noQuote] using ih

theorem isWord_of_madeOf {others cs : List Char} (made : Text.MadeOf others cs)
    (plain : ∀ c ∈ others, c ≠ '\'' ∧ c ∉ separators) : isWord false cs = true := by
  have digits : ∀ c ∈ '\'' :: separators, c.isDigit = false := by decide
  apply isWord_of_plain
  intro c member
  rcases made c member with digit | other
  · have apart : ∀ d ∈ '\'' :: separators, c ≠ d := fun d found =>
      Decimal.ne_of_isDigit digit (digits d found)
    exact ⟨apart _ List.mem_cons_self, fun found => apart c (List.mem_cons_of_mem _ found) rfl⟩
  · exact plain c other

theorem isWord_binary (bytes : List UInt8) : isWord false (Value.binary bytes).toChars = true := by
  have digits : ∀ c ∈ (Text.Base64Url.encode bytes).toList, c ≠ '\'' := by
    intro c member
    obtain ⟨n, small, rfl⟩ := Text.Base64Url.mem_encode member
    have all : ∀ n ∈ List.range 64, Text.Base64Url.digit n ≠ '\'' := by decide
    exact all n (List.mem_range.mpr small)
  have body : ∀ cs : List Char, (∀ c ∈ cs, c ≠ '\'') → isWord true (cs ++ ['\'']) = true := by
    intro cs
    induction cs with
    | nil => exact fun _ => rfl
    | cons c cs ih =>
      intro plain
      obtain ⟨first, later⟩ := List.forall_mem_cons.mp plain
      simpa [isWord, first] using ih later
  have token : (Value.binary bytes).toChars =
      "binary'".toList ++ ((Text.Base64Url.encode bytes).toList ++ ['\'']) := by
    rw [← List.append_assoc]
    rfl
  rw [token]
  simpa [isWord, separators] using body _ digits

theorem isWord_toChars (v : Value) : isWord false v.toChars = true := by
  cases v with
  | null => decide
  | bool b => cases b <;> decide
  | int n => exact isWord_of_madeOf (Decimal.madeOf_plainChars_ofInt n.toInt) (by decide)
  | decimal d => exact isWord_of_madeOf d.madeOf_pointedChars (by decide)
  | double x =>
    by_cases finite : x.isFinite = true
    · have token : (Value.double x).toChars = x.scientific.toList := if_pos finite
      rw [token]
      exact isWord_of_madeOf x.madeOf_scientific (by decide)
    · have token : (Value.double x).toChars = (Value.doubleKeyword x).toList := if_neg finite
      rw [token, Value.doubleKeyword]
      split
      · decide
      · split <;> decide
  | string s => exact isWord_quoteChars s.toList
  | guid g => exact isWord_of_madeOf g.madeOf_toChars (by decide)
  | date d => exact isWord_of_madeOf d.madeOf_toChars (by decide)
  | dateTimeOffset i => exact isWord_of_madeOf i.madeOf_toChars (by decide)
  | timeOfDay t => exact isWord_of_madeOf t.madeOf_toChars (by decide)
  | binary bytes => exact isWord_binary bytes

theorem isNameWord_of_head {c : Char} (start : Text.isNameStart c = false) (rest : List Char) :
    isNameWord (c :: rest) = false := by
  simp [isNameWord, isIdentifier, start]

theorem isNameWord_of_mem {c : Char} {w : List Char} (member : c ∈ w)
    (other : Text.isNameChar c = false) : isNameWord w = false := by
  cases name : isIdentifier (String.ofList w) with
  | false => simp [isNameWord, name]
  | true =>
    cases w with
    | nil => contradiction
    | cons d rest =>
      simp only [isIdentifier, String.toList_ofList, Bool.and_eq_true] at name
      have all := Text.all_isNameChar_cons name.1 name.2
      rw [List.all_eq_true.mp all c member] at other
      contradiction

theorem maskWord_eq_quote {c : Char} {rest : List Char} (noName : isNameWord (c :: rest) = false)
    (noMinus : c = '-' → rest ≠ [] ∧ isNameWord rest = false) :
    maskWord (c :: rest) = quote (c :: rest) := by
  have alone : ¬ (c = '-' ∧ rest = []) := fun both => (noMinus both.1).1 both.2
  have unnamed : ¬ (c = '-' ∧ isNameWord rest = true) := by
    rintro ⟨minus, name⟩
    rw [(noMinus minus).2] at name
    contradiction
  rw [maskWord, noName]
  simp only [Bool.false_eq_true, if_false, if_neg alone, if_neg unnamed]

theorem isNameStart_of_isDigit {c : Char} (digit : c.isDigit = true) :
    Text.isNameStart c = false :=
  Text.of_isDigit (p := fun c => Text.isNameStart c = false) (by decide +kernel) digit

theorem maskWord_digit {c : Char} (digit : c.isDigit = true) (rest : List Char) :
    maskWord (c :: rest) = quote (c :: rest) := by
  apply maskWord_eq_quote (isNameWord_of_head (isNameStart_of_isDigit digit) rest)
  intro minus
  exact absurd minus (Decimal.ne_of_isDigit digit (by decide))

/-- A digit behind a minus begins no name. -/
theorem maskWord_minus_digit {c : Char} (digit : c.isDigit = true) (rest : List Char) :
    maskWord ('-' :: c :: rest) = quote ('-' :: c :: rest) := by
  apply maskWord_eq_quote (isNameWord_of_head (by decide) _)
  exact fun _ => ⟨List.cons_ne_nil _ _, isNameWord_of_head (isNameStart_of_isDigit digit) rest⟩

theorem maskWord_sign_append (sign : Prop) [Decidable sign] {c : Char} (digit : c.isDigit = true)
    (rest : List Char) : maskWord ((if sign then ['-'] else []) ++ c :: rest) =
      quote ((if sign then ['-'] else []) ++ c :: rest) := by
  split
  · exact maskWord_minus_digit digit rest
  · exact maskWord_digit digit rest

theorem exists_padded_eq_cons (width n : Nat) :
    ∃ c cs, Date.padded width n = c :: cs ∧ c.isDigit = true := by
  cases digits : Date.padded width n with
  | nil => exact absurd digits (Date.padded_ne_nil width n)
  | cons c cs => exact ⟨c, cs, rfl, Date.isDigit_of_mem_padded (digits ▸ List.mem_cons_self)⟩

theorem maskWord_date (d : Date) (rest : List Char) :
    maskWord (d.toChars ++ rest) = quote (d.toChars ++ rest) := by
  rw [Date.toChars, Date.yearChars]
  split
  · obtain ⟨c, cs, digits, first⟩ := exists_padded_eq_cons 4 d.year.toNat
    rw [digits]
    exact maskWord_digit first _
  · obtain ⟨c, cs, digits, first⟩ := exists_padded_eq_cons 4 d.year.natAbs
    rw [digits]
    split
    · exact maskWord_minus_digit first _
    · exact maskWord_eq_quote (isNameWord_of_head (by decide) _) fun minus =>
        absurd minus (by decide)

theorem maskWord_guid (g : Guid) : maskWord (Value.guid g).toChars = quote g.toChars := by
  have token : (Value.guid g).toChars = g.toChars := rfl
  have hex := Guid.all_isDigit_lowerDigits g.bits.toNat 32
  obtain ⟨a, b, c, d, e, lengths, digits, text⟩ := Guid.exists_groups g
  rw [token, text]
  cases a with
  | nil => exact absurd lengths.1 (by decide)
  | cons ch a =>
    have digit : Text.Hex.isDigit ch = true := by
      apply List.all_eq_true.mp hex
      rw [digits]
      exact List.mem_cons_self
    exact maskWord_eq_quote (isNameWord_of_mem (c := '-') (by simp) (by decide)) fun minus =>
      absurd minus (Text.Hex.ne_hyphen_of_isDigit digit)

/-- No literal is a name, also not behind a minus. -/
theorem maskWord_toChars (v : Value) : maskWord v.toChars = quote v.toChars := by
  cases v with
  | null => decide
  | bool b => cases b <;> decide
  | int n =>
    obtain ⟨c, cs, digits, first⟩ := Decimal.exists_toDigits_eq_cons n.toInt.natAbs
    have token : (Value.int n).toChars = (Decimal.ofInt n.toInt).plainChars := rfl
    rw [token, Decimal.plainChars_ofInt, digits]
    exact maskWord_sign_append _ first _
  | decimal d =>
    obtain ⟨lead, trail, zeros, pointed⟩ := d.exists_pointed
    obtain ⟨_, c, cs, head, first⟩ := pointed.exists_eq_cons
    have token : (Value.decimal d).toChars = d.pointedChars := rfl
    rw [token, pointed.text, head]
    exact maskWord_sign_append _ first _
  | double x =>
    by_cases finite : x.isFinite = true
    · obtain ⟨c, cs, head, first⟩ := x.exists_mantissaChars_eq_cons
      have token : (Value.double x).toChars = x.scientific.toList := if_pos finite
      rw [token, Double.toList_scientific, head]
      exact maskWord_sign_append _ first _
    · have token : (Value.double x).toChars = (Value.doubleKeyword x).toList := if_neg finite
      rw [token, Value.doubleKeyword]
      split
      · decide
      · split <;> decide
  | string s =>
    exact maskWord_eq_quote (isNameWord_of_head (by decide) _) fun minus =>
      absurd minus (by decide)
  | guid g => exact maskWord_guid g
  | date d =>
    have masked := maskWord_date d []
    rwa [List.append_nil] at masked
  | dateTimeOffset i => exact maskWord_date i.date _
  | timeOfDay t =>
    obtain ⟨c, cs, digits, first⟩ := exists_padded_eq_cons 2 t.hour
    have token : (Value.timeOfDay t).toChars = t.toChars := rfl
    rw [token, TimeOfDay.toChars, TimeOfDay.clockChars, digits]
    exact maskWord_digit first _
  | binary bytes =>
    exact maskWord_eq_quote (isNameWord_of_mem (c := '\'') (by simp) (by decide)) fun minus =>
      absurd minus (by decide)

theorem literalChars_ne_nil (v : Value) : v.toChars ≠ [] := by
  intro empty
  have masked := maskWord_toChars v
  rw [empty] at masked
  exact absurd masked (by decide)

theorem masks_literal (v : Value) : Masks v.toChars (quote v.toChars) := by
  rw [← maskWord_toChars]
  exact .word (isWord_toChars v) (literalChars_ne_nil v)

/-! ## Names -/

theorem isIdentifier_iff {w : List Char} : isIdentifier (String.ofList w) = true ↔
    ∃ c rest, w = c :: rest ∧ Text.isNameStart c = true ∧ rest.all Text.isNameChar = true := by
  cases w with
  | nil => simp [isIdentifier]
  | cons c rest => simp [isIdentifier]

theorem isWord_of_letters {w : List Char} (letters : w.all Text.isNameChar = true) :
    isWord false w = true := by
  apply isWord_of_plain
  intro c member
  have name := List.all_eq_true.mp letters c member
  have outside : ∀ d ∈ '\'' :: separators, Text.isNameChar d = false := by decide
  constructor
  · rintro rfl
    rw [outside '\'' (by decide)] at name
    contradiction
  · intro stop
    rw [outside c (List.mem_cons_of_mem _ stop)] at name
    contradiction

theorem isNameWord_of_letters {w : List Char} (name : isNameWord w = true) :
    w ≠ [] ∧ w.all Text.isNameChar = true := by
  rw [isNameWord, Bool.and_eq_true] at name
  obtain ⟨c, rest, rfl, start, letters⟩ := isIdentifier_iff.mp name.1
  exact ⟨List.cons_ne_nil c rest, Text.all_isNameChar_cons start letters⟩

theorem masks_name {w : List Char} (name : isNameWord w = true) : Masks w (rename w) := by
  obtain ⟨nonempty, letters⟩ := isNameWord_of_letters name
  have masked : maskWord w = rename w := by
    unfold maskWord
    exact if_pos name
  rw [← masked]
  exact .word (isWord_of_letters letters) nonempty

theorem masks_minus_name {w : List Char} (name : isNameWord w = true) :
    Masks ('-' :: w) ('-' :: rename w) := by
  obtain ⟨nonempty, letters⟩ := isNameWord_of_letters name
  have noName : isNameWord ('-' :: w) = false := isNameWord_of_head (by decide) w
  have masked : maskWord ('-' :: w) = '-' :: rename w := by
    simp [maskWord, noName, nonempty, name]
  rw [← masked]
  exact .word (by simpa [isWord, separators] using isWord_of_letters letters)
    (List.cons_ne_nil _ _)

theorem masks_minus : Masks ['-'] ['-'] :=
  .word (by decide) (List.cons_ne_nil _ _)

/-- A name that no underscore is put in front of. -/
theorem masks_self {w : List Char} (name : isNameWord w = true ∧ rename w = w) : Masks w w := by
  have masked := masks_name name.1
  rwa [name.2] at masked

theorem masks_keyword (op : Operator) : Masks op.keyword.toList op.keyword.toList :=
  masks_self (by cases op <;> decide)

theorem isNameWord_function (f : CanonicalFunction) :
    isNameWord f.name.toList = true ∧ rename f.name.toList = f.name.toList := by
  cases f <;> decide

/-! ## Trees -/

theorem precedence_masked (e : Expr) : e.masked.precedence = e.precedence := by
  cases e <;> rfl

theorem isName_masked (e : Expr) : e.masked.isName = e.isName := by
  cases e <;> rfl

theorem masks_commaSeparated {items : List Expr} (nonempty : items ≠ [])
    (each : ∀ e ∈ items, Masks e.toChars e.masked.toChars) :
    Masks (commaSeparated (items.map toChars))
      (commaSeparated ((items.map masked).map toChars)) := by
  induction items with
  | nil => contradiction
  | cons e rest ih =>
    have first := each e List.mem_cons_self
    cases rest with
    | nil => exact first
    | cons next rest =>
      have later := ih (List.cons_ne_nil _ _) fun item member =>
        each item (List.mem_cons_of_mem e member)
      exact first.append later.blank.comma (List.cons_ne_nil _ _) (Before.cons (by decide) _)

theorem masks_items {items : List Expr} (each : ∀ e ∈ items, Masks e.toChars e.masked.toChars) :
    Masks ('(' :: (commaSeparated (listChars items) ++ [')']))
      ('(' :: (commaSeparated (listChars (orEmptyString (maskedList items))) ++ [')'])) := by
  rw [listChars_eq_map, listChars_eq_map, maskedList_eq_map]
  cases items with
  | nil =>
    intro opened rest _
    exact (mask_open opened _).trans (congrArg _ (mask_close_opened rest))
  | cons e rest => exact (masks_commaSeparated (List.cons_ne_nil e rest) each).bracketed

theorem exists_name_of_hasNames {p : PropertyPath} (names : (path p).hasNames = true) :
    ∃ name, p = [name] ∧ isIdentifier name = true ∧ name ∉ "not" :: Value.reserved := by
  match p with
  | [] => contradiction
  | [name] => exact ⟨name, rfl, by simpa [hasNames] using names⟩
  | _ :: _ :: _ => contradiction

theorem toChars_ne_nil {e : Expr} (names : e.hasNames = true) : e.toChars ≠ [] := by
  cases e with
  | literal v => exact literalChars_ne_nil v
  | path p =>
    obtain ⟨name, rfl, identifier, _⟩ := exists_name_of_hasNames names
    rw [toChars_path, PropertyPath.toText, String.intercalate_singleton]
    intro empty
    rw [isIdentifier, empty] at identifier
    contradiction
  | binary op l r => simp [toChars_binary]
  | not e => simp [toChars_not]
  | negate e => simp [toChars_negate]
  | member e items => simp [toChars_member]
  | call f arguments => simp [toChars_call]

theorem masks_path {p : PropertyPath} (names : (path p).hasNames = true) :
    ∃ w, isNameWord w = true ∧ (path p).toChars = w ∧ (path p).masked.toChars = rename w := by
  obtain ⟨name, rfl, identifier, free⟩ := exists_name_of_hasNames names
  rw [List.mem_cons, not_or] at free
  refine ⟨name.toList, ?_, ?_, ?_⟩
  · simp [isNameWord, identifier, free.2]
  · rw [toChars_path, PropertyPath.toText, String.intercalate_singleton]
  · rw [masked, toChars_path, PropertyPath.toText, List.map_singleton,
      String.intercalate_singleton, String.toList_ofList]

/-- The masked text of a tree is the text of the masked tree, also behind a minus where no bracket
stands between them. -/
theorem masks_toChars {e : Expr} (names : e.hasNames = true) :
    Masks e.toChars e.masked.toChars ∧
      (e.isName = true → Masks ('-' :: e.toChars) ('-' :: e.masked.toChars)) := by
  induction e with
  | literal v => exact ⟨masks_literal v, fun name => nomatch name⟩
  | path p =>
    obtain ⟨w, name, text, masked⟩ := masks_path names
    rw [text, masked]
    exact ⟨masks_name name, fun _ => masks_minus_name name⟩
  | binary op l r left right =>
    rw [hasNames, Bool.and_eq_true] at names
    refine ⟨?_, fun name => nomatch name⟩
    rw [masked, toChars_binary, toChars_binary, precedence_masked, precedence_masked]
    exact ((left names.1).1.parenthesizeIf _).spaced
      ((masks_keyword op).spaced ((right names.2).1.parenthesizeIf _))
  | not e ih =>
    rw [hasNames] at names
    refine ⟨?_, fun name => nomatch name⟩
    rw [masked, toChars_not, toChars_not, precedence_masked]
    exact (masks_self (w := "not".toList) (by decide)).spaced ((ih names).1.parenthesizeIf _)
  | negate e ih =>
    rw [hasNames] at names
    obtain ⟨operand, signed⟩ := ih names
    refine ⟨?_, fun name => nomatch name⟩
    rw [masked, toChars_negate, toChars_negate, isName_masked]
    cases name : e.isName with
    | true => exact signed name
    | false => exact masks_minus.bracket operand.bracketed
  | member e items element each =>
    rw [hasNames, Bool.and_eq_true] at names
    have list := masks_items fun item member =>
      (each item member (haveNames_iff.mp names.2 item member)).1
    refine ⟨?_, fun name => nomatch name⟩
    have apart : ∀ cs ds : List Char, cs ++ " in (".toList ++ ds ++ [')'] =
        cs ++ ' ' :: ("in".toList ++ ' ' :: '(' :: (ds ++ [')'])) := by
      intro cs ds
      simp
    rw [masked, toChars_member, toChars_member, precedence_masked, apart, apart]
    exact ((element names.1).1.parenthesizeIf _).spaced
      ((masks_self (w := "in".toList) (by decide)).spaced list)
  | call f arguments each =>
    rw [hasNames] at names
    have list := masks_items fun item member =>
      (each item member (haveNames_iff.mp names item member)).1
    obtain ⟨name, same⟩ := isNameWord_function f
    have signed := masks_minus_name name
    rw [same] at signed
    rw [masked, toChars_call, toChars_call]
    exact ⟨(masks_self ⟨name, same⟩).bracket list, fun _ => signed.bracket list⟩

end OData.Expr
