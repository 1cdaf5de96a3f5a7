import OData.Options.Parser
import OData.Options.Basic
import OData.Proofs.Expr.Roundtrip
import OData.Proofs.ResourcePath

/-!
# Query options: reading what was written

A rule `Reads` a text as a value if it reads the value wherever the text stands before one of some
characters, and stops there.  Lists, the options of an expansion and the expansions inside them are
read from the texts of their parts.
-/

set_option autoImplicit false

namespace OData

open Text (Cursor Before)
open OData.Expr (Rule parseWhole)

namespace QueryOptions

/-- The rule reads the text as the value, before one of the characters or at the end. -/
structure Reads {α : Type} (rule : Rule α) (stops cs : List Char) (a : α) : Prop where
  visible : ∃ ch tail, cs = ch :: tail ∧ Text.isBlank ch = false
  reads : ∀ (c : Cursor) (rest : List Char), Before stops rest → c.ahead = cs ++ rest →
    ∃ next, rule c = .ok (a, next) ∧ next.rest = rest

/-- What may stand after an option of an expansion. -/
def closings : List Char := [';', ')']

/-- What may stand after an item of a list. -/
def itemStops : List Char := ',' :: closings

namespace Reads

variable {α : Type} {rule : Rule α} {stops cs : List Char} {a : α}

theorem ahead_of_rest (reads : Reads rule stops cs a) {c : Cursor} {rest : List Char}
    (left : c.rest = cs ++ rest) : c.ahead = cs ++ rest := by
  obtain ⟨ch, tail, rfl, shown⟩ := reads.visible
  exact Cursor.ahead_of_char left shown

/-- A text that is read is read as a whole. -/
theorem parseWhole_eq_ok {text : String} (reads : Reads rule stops text.toList a) :
    parseWhole rule text = .ok a := by
  have start : (Cursor.ofText text).rest = text.toList ++ [] := (List.append_nil _).symm
  obtain ⟨next, read, left⟩ :=
    reads.reads _ [] (Before.nil stops) (reads.ahead_of_rest start)
  have finished : next.expectEnd = .ok () :=
    Cursor.expectEnd_eq_ok (by rw [Cursor.ahead, left]; rfl)
  rw [parseWhole, read]
  change (next.expectEnd >>= fun _ => pure a) = .ok a
  rw [finished]
  rfl

end Reads

theorem char?_eq_none_of_before {c : Cursor} {stops : List Char} {d : Char}
    (before : Before stops c.rest) (apart : ∀ ch ∈ stops, Text.isBlank ch = false ∧ ch ≠ d) :
    c.char? d = none := by
  apply Cursor.char?_eq_none
  have shown : c.ahead = c.rest :=
    Cursor.ahead_eq_rest fun ch head => (apart ch (before ch head)).1
  rw [shown]
  exact fun head => (apart d (before d head)).2 rfl

/-! ## Lists -/

section Lists

variable {α : Type} {item : Rule α} {text : α → String} {stops : List Char}

/-- The characters of a list are those of its first item, and of the others behind commas. -/
theorem toList_commas (first : α) (others : List α) :
    (",".intercalate ((first :: others).map text)).toList =
      (text first).toList ++ others.flatMap fun a => ',' :: (text a).toList := by
  have comma : ",".toList = [','] := rfl
  rw [List.map_cons, Text.toList_intercalate_cons, List.flatMap_map, comma]
  rfl

theorem separated_eq_ok {first : α} {others : List α}
    (each : ∀ a ∈ first :: others, Reads item (',' :: stops) (text a).toList a)
    (visible : ∀ ch ∈ stops, Text.isBlank ch = false ∧ ch ≠ ',') {fuel : Nat}
    (enough : others.length < fuel) {c : Cursor} {rest : List Char} (before : Before stops rest)
    (ahead : c.ahead =
      (text first).toList ++ (others.flatMap (fun a => ',' :: (text a).toList) ++ rest)) :
    ∃ next, separated item fuel c = .ok (first :: others, next) ∧ next.rest = rest := by
  induction others generalizing first fuel c with
  | nil =>
    obtain ⟨fuel, rfl⟩ : ∃ n, fuel = n + 1 := ⟨fuel - 1, by simp at enough; omega⟩
    obtain ⟨next, read, left⟩ := (each first List.mem_cons_self).reads c rest
      (before.mono (List.subset_cons_self _ _)) ahead
    have noComma : next.char? ',' = none := char?_eq_none_of_before (left ▸ before) visible
    refine ⟨next, ?_, left⟩
    rw [separated, read]
    simp only [bind, Except.bind, noComma]
    rfl
  | cons other others ih =>
    obtain ⟨fuel, rfl⟩ : ∃ n, fuel = n + 1 := ⟨fuel - 1, by simp at enough; omega⟩
    rw [List.flatMap_cons, List.cons_append, List.cons_append, List.append_assoc] at ahead
    obtain ⟨middle, read, behind⟩ := (each first List.mem_cons_self).reads c _
      (Before.cons List.mem_cons_self _) ahead
    obtain ⟨after, comma, left⟩ :=
      Cursor.char?_eq_some (Cursor.ahead_of_char behind (by decide))
    have later : ∀ a ∈ other :: others, Reads item (',' :: stops) (text a).toList a :=
      fun a member => each a (List.mem_cons_of_mem first member)
    obtain ⟨next, list, ends⟩ := ih later (by simpa using enough)
      ((later other List.mem_cons_self).ahead_of_rest left)
    refine ⟨next, ?_, ends⟩
    rw [separated, read]
    simp only [bind, Except.bind, comma, list]
    rfl

/-- A list is read from the texts of its items joined by commas. -/
theorem Reads.listOf {items : List α}
    (each : ∀ a ∈ items, Reads item (',' :: stops) (text a).toList a) (some : items ≠ [])
    (visible : ∀ ch ∈ stops, Text.isBlank ch = false ∧ ch ≠ ',') :
    Reads (listOf item) stops (",".intercalate (items.map text)).toList items := by
  obtain ⟨first, others, rfl⟩ := List.exists_cons_of_ne_nil some
  rw [toList_commas]
  constructor
  · obtain ⟨ch, tail, chars, shown⟩ := (each first List.mem_cons_self).visible
    exact ⟨ch, _, by rw [chars]; rfl, shown⟩
  · intro c rest before ahead
    have enough : others.length < c.rest.length + 1 := by
      have count := Text.length_le_flatMap ',' (fun a => (text a).toList) others
      have size := congrArg List.length ahead
      have skipped : c.ahead.length ≤ c.rest.length := List.length_dropWhile_le _ _
      simp only [List.length_append] at size
      omega
    rw [List.append_assoc] at ahead
    exact separated_eq_ok each visible enough before ahead

end Lists

end QueryOptions

/-! ## Paths -/

/-- Whether a path has segments, all of dotted names. -/
def PropertyPath.isSpelled (p : PropertyPath) : Bool :=
  !p.isEmpty && p.all QualifiedName.isNamespace

namespace QueryOptions

theorem exists_segments {p : PropertyPath} (spelled : p.isSpelled = true) :
    ∃ first others, p = first :: others ∧ QualifiedName.isNamespace first = true ∧
      ∀ name ∈ others, QualifiedName.isNamespace name = true := by
  cases p with
  | nil => contradiction
  | cons first others =>
    rw [PropertyPath.isSpelled, List.isEmpty_cons, List.all_cons] at spelled
    simp only [Bool.not_false, Bool.true_and, Bool.and_eq_true, List.all_eq_true] at spelled
    exact ⟨first, others, rfl, spelled⟩

theorem exists_nameStart {p : PropertyPath} (spelled : p.isSpelled = true) :
    ∃ ch tail, p.toText.toList = ch :: tail ∧ Text.isNameStart ch = true := by
  obtain ⟨first, others, rfl, valid, _⟩ := exists_segments spelled
  obtain ⟨ch, run, parts, chars, start, _⟩ := QualifiedName.exists_parts valid
  exact ⟨ch, _, by rw [Expr.toList_toText, chars]; rfl, start⟩

theorem path_eq_ok {p : PropertyPath} (spelled : p.isSpelled = true) {c : Cursor}
    {rest : List Char} (before : Before Cursor.segmentStops rest)
    (noSlash : ∀ after : Cursor, after.rest = rest → after.char? '/' = none)
    (ahead : c.ahead = p.toText.toList ++ rest) :
    ∃ next, path c = .ok (p, next) ∧ next.rest = rest := by
  obtain ⟨first, others, rfl, valid, names⟩ := exists_segments spelled
  rw [Expr.toList_toText, List.append_assoc] at ahead
  obtain ⟨middle, name, left⟩ :=
    Cursor.dottedName?_eq_some valid ahead (Expr.before_segments before)
  have enough : others.length ≤ middle.rest.length := by
    have count := Text.length_le_flatMap '/' String.toList others
    rw [left, List.length_append]
    omega
  obtain ⟨next, segments, ends⟩ :=
    Expr.segmentsFrom_eq_ok names enough [first] before noSlash left
  exact ⟨next, by rw [path, name]; exact segments, ends⟩

theorem visible_path {p : PropertyPath} (spelled : p.isSpelled = true) (rest : List Char) :
    ∃ ch tail, p.toText.toList ++ rest = ch :: tail ∧ Text.isBlank ch = false := by
  obtain ⟨ch, tail, chars, start⟩ := exists_nameStart spelled
  exact ⟨ch, tail ++ rest, by rw [chars]; rfl,
    Text.isBlank_of_isNameChar (Text.isNameChar_of_isNameStart ch start)⟩

theorem reads_path {p : PropertyPath} (spelled : p.isSpelled = true) :
    Reads path itemStops p.toText.toList p := by
  refine ⟨by simpa using visible_path spelled [], ?_⟩
  intro c rest before ahead
  refine path_eq_ok spelled (before.mono (by decide)) ?_ ahead
  intro after left
  exact char?_eq_none_of_before (left ▸ before) (by decide)

/-- A path is read up to the word behind it, or up to the end of its item. -/
theorem reads_orderItem {order : OrderItem} (spelled : order.path.isSpelled = true) :
    Reads orderItem itemStops order.toText.toList order := by
  obtain ⟨p, direction⟩ := order
  simp only at spelled
  cases direction with
  | ascending =>
    refine ⟨(reads_path spelled).visible, ?_⟩
    intro c rest before ahead
    obtain ⟨next, read, left⟩ := (reads_path spelled).reads c rest before ahead
    have noWord : ∀ w : String, w.toList.all Text.isNameChar = true →
        (∃ ch, w.toList.head? = some ch ∧ ch ∉ itemStops) → next.keyword? w = none := by
      rintro w letters ⟨ch, head, apart⟩
      apply Cursor.keyword?_eq_none letters
      apply Cursor.firstWord_ne head
      have shown : next.ahead = next.rest := by
        apply Cursor.ahead_eq_rest
        intro d first
        have visible : ∀ d ∈ itemStops, Text.isBlank d = false := by decide
        exact visible d (before d (left ▸ first))
      rw [shown, left]
      exact fun first => apart (before ch first)
    have noDesc := noWord "desc" (by decide) ⟨'d', rfl, by decide⟩
    have noAsc := noWord "asc" (by decide) ⟨'a', rfl, by decide⟩
    refine ⟨next, ?_, left⟩
    rw [orderItem, read]
    simp only [bind, Except.bind, noDesc, noAsc]
    rfl
  | descending =>
    have blank : " desc".toList = ' ' :: "desc".toList := rfl
    have chars : (OrderItem.toText ⟨p, .descending⟩).toList =
        p.toText.toList ++ ' ' :: "desc".toList := by
      rw [OrderItem.toText, String.toList_append, blank]
    rw [chars]
    refine ⟨visible_path spelled _, ?_⟩
    intro c rest before ahead
    rw [List.append_assoc, List.cons_append] at ahead
    have word : ∀ after : Cursor, after.rest = ' ' :: ("desc".toList ++ rest) →
        after.ahead = "desc".toList ++ rest := by
      intro after left
      apply Cursor.ahead_of_blank left
      rintro d ⟨⟩
      decide
    have noSlash : ∀ after : Cursor, after.rest = ' ' :: ("desc".toList ++ rest) →
        after.char? '/' = none := by
      intro after left
      apply Cursor.char?_eq_none
      rw [word after left]
      exact fun slash => absurd slash (by simp)
    obtain ⟨middle, read, left⟩ := path_eq_ok spelled (Before.cons (by decide) _) noSlash ahead
    obtain ⟨next, found, ends⟩ :=
      Cursor.keyword?_eq_some (word middle left) before (by decide)
    refine ⟨next, ?_, ends⟩
    rw [orderItem, read]
    simp only [bind, Except.bind, found]
    rfl

/-! ## Values of options -/

theorem apart_comma : ∀ ch ∈ closings, Text.isBlank ch = false ∧ ch ≠ ',' := by decide

theorem reads_orderItems {items : List OrderItem} (some : items ≠ [])
    (spelled : ∀ item ∈ items, item.path.isSpelled = true) :
    Reads orderItems closings (",".intercalate (items.map OrderItem.toText)).toList items :=
  Reads.listOf (fun item member => reads_orderItem (spelled item member)) some apart_comma

/-- Whether a selection is read back: a list of it has paths. -/
def selectFits : Select → Prop
  | .all => True
  | .properties paths => paths ≠ [] ∧ ∀ p ∈ paths, p.isSpelled = true

theorem reads_selection {select : Select} (fits : selectFits select) :
    Reads selection closings select.toText.toList select := by
  cases select with
  | all =>
    refine ⟨⟨'*', [], rfl, by decide⟩, ?_⟩
    intro c rest _ ahead
    have first : c.ahead = '*' :: rest := ahead
    obtain ⟨next, star, left⟩ := Cursor.char?_eq_some first
    exact ⟨next, by rw [selection, star], left⟩
  | properties paths =>
    have list : Reads (listOf path) closings (Select.properties paths).toText.toList paths :=
      Reads.listOf (fun p member => reads_path (fits.2 p member)) fits.1 apart_comma
    refine ⟨list.visible, ?_⟩
    intro c rest before ahead
    obtain ⟨next, read, left⟩ := list.reads c rest before ahead
    have noStar : c.char? '*' = none := by
      apply Cursor.char?_eq_none
      obtain ⟨first, others, rfl⟩ := List.exists_cons_of_ne_nil fits.1
      obtain ⟨ch, tail, chars, start⟩ := exists_nameStart (fits.2 first List.mem_cons_self)
      rw [ahead, Select.toText, toList_commas, chars, List.cons_append, List.cons_append,
        List.head?_cons, ne_eq, Option.some.injEq]
      rintro rfl
      contradiction
    refine ⟨next, ?_, left⟩
    rw [selection, noStar]
    simp only [bind, Except.bind, read]
    rfl

theorem reads_unsigned {n : Nat} (small : n < 2 ^ 64) :
    Reads unsigned closings (toString n).toList n := by
  have digits : (toString n).toList = Nat.toDigits 10 n := String.toList_ofList
  have decimal : (Nat.toDigits 10 n).all Char.isDigit = true := by
    rw [List.all_eq_true]
    exact fun c member => Decimal.isDigit_of_mem_toDigits member
  rw [digits]
  obtain ⟨ch, tail, chars⟩ := List.exists_cons_of_ne_nil (Nat.toDigits_ne_nil (n := n) (b := 10))
  have digit : ch.isDigit = true :=
    Decimal.isDigit_of_mem_toDigits (by rw [chars]; exact List.mem_cons_self)
  refine ⟨⟨ch, tail, chars, Text.isBlank_of_isDigit digit⟩, ?_⟩
  intro c rest before ahead
  have fits : Text.Shape.some' Text.isDecimalDigit (Nat.toDigits 10 n ++ rest) =
      some (Nat.toDigits 10 n).length :=
    Text.Shape.some'_run (Text.all_mono (fun _ => Text.isDecimalDigit_of_isDigit) decimal)
      Nat.toDigits_ne_nil before (by decide +kernel)
  obtain ⟨next, token, left⟩ := Cursor.skipBlanks_token? _ ahead fits
  have value : Cursor.digitsOfNat? (String.ofList (Nat.toDigits 10 n)) = some n := by
    rw [Cursor.digitsOfNat?, String.toList_ofList, if_pos decimal]
    exact congrArg some (Decimal.natOfDigits_toDigits n)
  refine ⟨next, ?_, left⟩
  have found : c.unsigned? = some (n, next) := by
    rw [Cursor.unsigned?, token]
    simp only [Option.bind_eq_bind, Option.bind_some, value, if_pos small]
  rw [unsigned, found]

theorem reads_true : Reads boolean closings "true".toList true := by
  refine ⟨⟨'t', _, rfl, by decide⟩, ?_⟩
  intro c rest before ahead
  obtain ⟨next, found, left⟩ := Cursor.keyword?_eq_some ahead before (by decide)
  exact ⟨next, by rw [boolean, found], left⟩

end QueryOptions

/-- Whether an expression is read back from its canonical text where so many levels may be
opened. -/
structure Expr.Restored (nesting : Nat) (e : Expr) : Prop where
  legible : isLegible Value.isReadable e = true
  free : e.beginsNot = false
  signs : e.keepsSigns = true
  shallow : e.nesting ≤ nesting
  kept : e.reread = e

theorem Expr.Restored.mono {nesting more : Nat} {e : Expr} (restored : e.Restored nesting)
    (le : nesting ≤ more) : e.Restored more :=
  { restored with shallow := Nat.le_trans restored.shallow le }

namespace QueryOptions

theorem reads_expression {nesting : Nat} {e : Expr} (restored : e.Restored nesting) :
    Reads (Expr.expression nesting) closings e.toText.toList e := by
  obtain ⟨reads, opens⟩ := Expr.readsItem_of_startsText
    (Expr.startsText e restored.legible restored.signs) restored.legible restored.free
    restored.shallow
  have chars : e.toText.toList = e.toChars := String.toList_ofList
  rw [chars]
  obtain ⟨ch, tail, first, shown, _⟩ := opens.visible
  refine ⟨⟨ch, tail, first, shown⟩, ?_⟩
  intro c rest before ahead
  have follows : Expr.Follows 1 rest := by
    cases rest with
    | nil => exact .finish
    | cons d rest =>
      have stop := before d rfl
      simp only [closings, List.mem_cons, List.not_mem_nil, or_false] at stop
      rcases stop with rfl | rfl
      · exact .semicolon rest
      · exact .bracket rest
  obtain ⟨next, read, left⟩ := reads c rest follows ahead
  rw [restored.kept] at read
  exact ⟨next, read, left⟩

end QueryOptions

/-! ## Options of an expansion -/

namespace Text.Cursor

theorem systemName?_eq_some {c : Cursor} {name : String} {letters rest stops : List Char}
    (chars : name.toList = '$' :: letters) (nonempty : letters ≠ [])
    (alpha : letters.all Char.isAlpha = true) (before : Before stops rest)
    (outside : ∀ ch ∈ stops, ch.isAlpha = false) (ahead : c.ahead = name.toList ++ rest) :
    ∃ next, c.systemName? = some (name, next) ∧ next.rest = rest := by
  have fits : Shape.seq [Shape.char '$', Shape.some' Char.isAlpha] (name.toList ++ rest) =
      some name.toList.length := by
    have run : Shape.seq [Shape.some' Char.isAlpha] (letters ++ rest) = some letters.length := by
      rw [Shape.seq_singleton, Shape.some'_run alpha nonempty before outside]
    rw [chars, List.cons_append, Shape.seq_char '$' run, List.length_cons]
  obtain ⟨next, token, left⟩ := skipBlanks_token? name.toList ahead fits
  rw [String.ofList_toList] at token
  exact ⟨next, token, left⟩

end Text.Cursor

namespace QueryOptions

/-- The characters of an option. -/
def pairChars (pair : String × String) : List Char := pair.1.toList ++ '=' :: pair.2.toList

theorem exists_value {c : Cursor} {name : String} {letters value rest : List Char}
    (chars : name.toList = '$' :: letters) (nonempty : letters ≠ [])
    (alpha : letters.all Char.isAlpha = true)
    (visible : ∃ ch tail, value = ch :: tail ∧ Text.isBlank ch = false)
    (ahead : c.ahead = name.toList ++ '=' :: value ++ rest) :
    ∃ middle start, c.systemName? = some (name, middle) ∧ middle.expectChar '=' = .ok start ∧
      start.ahead = value ++ rest := by
  rw [List.append_assoc, List.cons_append] at ahead
  obtain ⟨middle, found, left⟩ := Cursor.systemName?_eq_some chars nonempty alpha
    (Before.singleton '=' _) (by decide) ahead
  obtain ⟨start, equals, behind⟩ :=
    Cursor.expectChar_eq_ok (Cursor.ahead_of_char left (by decide))
  refine ⟨middle, start, found, equals, ?_⟩
  obtain ⟨ch, tail, rfl, shown⟩ := visible
  exact Cursor.ahead_of_char behind shown

/-- A way of taking options one by one that takes each of the given ones where it is not set. -/
structure TakesOptions (step : QueryOptions → String × String → QueryOptions → Prop)
    (o : QueryOptions) : Prop where
  filter : ∀ acc e, acc.filter = none → o.filter = some e →
    step acc ("$filter", e.toText) { acc with filter := some e }
  orderBy : ∀ acc, acc.orderBy = [] → o.orderBy ≠ [] →
    step acc ("$orderby", ",".intercalate (o.orderBy.map OrderItem.toText))
      { acc with orderBy := o.orderBy }
  select : ∀ acc select, acc.select = none → o.select = some select →
    step acc ("$select", select.toText) { acc with select := some select }
  expand : ∀ acc, acc.expand = [] → o.expand ≠ [] →
    step acc ("$expand", ",".intercalate (expansionTexts o.expand)) { acc with expand := o.expand }
  top : ∀ acc n, o.top = some n → step acc ("$top", toString n) { acc with top := some n }
  skip : ∀ acc n, o.skip = some n → step acc ("$skip", toString n) { acc with skip := some n }
  count : ∀ acc, step acc ("$count", "true") { acc with count := true }

/-- Options that come out of others by some steps. -/
inductive Folds (step : QueryOptions → String × String → QueryOptions → Prop) :
    QueryOptions → List (String × String) → QueryOptions → Prop
  | nil (o : QueryOptions) : Folds step o [] o
  | cons {o next last : QueryOptions} {pair : String × String} {rest : List (String × String)} :
      step o pair next → Folds step next rest last → Folds step o (pair :: rest) last

section Folds

variable {step : QueryOptions → String × String → QueryOptions → Prop}

theorem Folds.append {o middle last : QueryOptions} {pairs others : List (String × String)}
    (first : Folds step o pairs middle) (second : Folds step middle others last) :
    Folds step o (pairs ++ others) last := by
  induction first with
  | nil o => exact second
  | cons taken _ ih => exact .cons taken (ih second)

theorem Folds.one {o next : QueryOptions} {pair : String × String} (taken : step o pair next) :
    Folds step o [pair] next := .cons taken (.nil next)

/-- The pairs of some options come to these options, field by field. -/
theorem TakesOptions.folds {o : QueryOptions} (takes : TakesOptions step o) :
    Folds step empty o.toPairs { o with skipToken := none } := by
  obtain ⟨filter, orderBy, select, expand, top, skip, count, skipToken⟩ := o
  have filters : Folds step empty (pair? "$filter" (filter.map Expr.toText))
      { empty with filter := filter } := by
    cases filter with
    | none => exact .nil _
    | some e => exact .one (takes.filter empty e rfl rfl)
  have orders : Folds step { empty with filter := filter }
      (if orderBy.isEmpty then []
        else [("$orderby", ",".intercalate (orderBy.map OrderItem.toText))])
      { empty with filter, orderBy } := by
    cases orderBy with
    | nil => exact .nil _
    | cons item rest => exact .one (takes.orderBy _ rfl (by simp))
  have selects : Folds step { empty with filter, orderBy }
      (pair? "$select" (select.map Select.toText)) { empty with filter, orderBy, select } := by
    cases select with
    | none => exact .nil _
    | some select => exact .one (takes.select _ select rfl rfl)
  have expands : Folds step { empty with filter, orderBy, select }
      (if expand.isEmpty then []
        else [("$expand", ",".intercalate (expansionTexts expand))])
      { empty with filter, orderBy, select, expand } := by
    cases expand with
    | nil => exact .nil _
    | cons item rest => exact .one (takes.expand _ rfl (by simp))
  have tops : Folds step { empty with filter, orderBy, select, expand }
      (pair? "$top" (top.map toString)) { empty with filter, orderBy, select, expand, top } := by
    cases top with
    | none => exact .nil _
    | some n => exact .one (takes.top _ n rfl)
  have skips : Folds step { empty with filter, orderBy, select, expand, top }
      (pair? "$skip" (skip.map toString))
      { empty with filter, orderBy, select, expand, top, skip } := by
    cases skip with
    | none => exact .nil _
    | some n => exact .one (takes.skip _ n rfl)
  have counts : Folds step { empty with filter, orderBy, select, expand, top, skip }
      (if count then [("$count", "true")] else [])
      { empty with filter, orderBy, select, expand, top, skip, count } := by
    cases count with
    | false => exact .nil _
    | true => exact .one (takes.count _)
  exact (((((filters.append orders).append selects).append expands).append tops).append
    skips).append counts

end Folds

section Nested

variable {nesting : Nat} {inner : Rule (List Expansion)} {o : QueryOptions}

/-- One option of an expansion is read. -/
def ReadsOption (nesting : Nat) (inner : Rule (List Expansion)) (o : QueryOptions)
    (pair : String × String) (after : QueryOptions) : Prop :=
  Reads (nestedOption nesting inner o) closings (pairChars pair) after

/-- An option is read if the rule for its value reads the value. -/
theorem readsOption {β : Type} {name value : String} {letters : List Char} {rule : Rule β} {b : β}
    {after : QueryOptions} (chars : name.toList = '$' :: letters) (nonempty : letters ≠ [])
    (alpha : letters.all Char.isAlpha = true) (reads : Reads rule closings value.toList b)
    (takes : ∀ c middle start next, c.systemName? = some (name, middle) →
      middle.expectChar '=' = .ok start → rule start = .ok (b, next) →
      nestedOption nesting inner o c = .ok (after, next)) :
    ReadsOption nesting inner o (name, value) after := by
  refine ⟨⟨'$', _, by rw [pairChars, chars]; rfl, by decide⟩, ?_⟩
  intro c rest before ahead
  obtain ⟨middle, start, found, equals, text⟩ :=
    exists_value chars nonempty alpha reads.visible ahead
  obtain ⟨next, read, left⟩ := reads.reads start rest before text
  exact ⟨next, takes c middle start next found equals read, left⟩

/-- What is known of options that are read where so many levels may be opened, but for the options
of their expansions. -/
structure Fits (good : Nat → Expr → Prop) (nesting : Nat) (o : QueryOptions) : Prop where
  filter : ∀ e, o.filter = some e → good nesting e
  orderBy : ∀ item ∈ o.orderBy, item.path.isSpelled = true
  select : ∀ select, o.select = some select → selectFits select
  top : ∀ n, o.top = some n → n < 2 ^ 64
  skip : ∀ n, o.skip = some n → n < 2 ^ 64
  skipToken : o.skipToken = none

/-- The same of expansions, whose own options are read one level further in. -/
def ExpandFits (good : Nat → Expr → Prop) : Nat → List Expansion → Prop
  | 0, items => ∀ item ∈ items, isIdentifier item.1 = true ∧ item.2 = empty
  | nesting + 1, items => ∀ item ∈ items, isIdentifier item.1 = true ∧
      Fits good nesting item.2 ∧ ExpandFits good nesting item.2.expand

theorem takesOptions_nested (fits : Fits Expr.Restored nesting o)
    (expands : o.expand ≠ [] →
      Reads inner closings (",".intercalate (expansionTexts o.expand)).toList o.expand) :
    TakesOptions (ReadsOption nesting inner) o where
  filter acc e unset found := by
    refine readsOption rfl (by decide) (by decide) (reads_expression (fits.filter e found)) ?_
    intro c middle start next found equals read
    rw [nestedOption, found]
    simp only [bind, Except.bind, equals, once, unset, read]
    rfl
  orderBy acc unset some := by
    refine readsOption rfl (by decide) (by decide) (reads_orderItems some fits.orderBy) ?_
    intro c middle start next found equals read
    rw [nestedOption, found]
    simp only [bind, Except.bind, equals, once, unset, read]
    rfl
  select acc select unset found := by
    refine readsOption rfl (by decide) (by decide) (reads_selection (fits.select select found)) ?_
    intro c middle start next found equals read
    rw [nestedOption, found]
    simp only [bind, Except.bind, equals, once, unset, read]
    rfl
  expand acc unset some := by
    refine readsOption rfl (by decide) (by decide) (expands some) ?_
    intro c middle start next found equals read
    rw [nestedOption, found]
    simp only [bind, Except.bind, equals, once, unset, read]
    rfl
  top acc n found := by
    refine readsOption rfl (by decide) (by decide) (reads_unsigned (fits.top n found)) ?_
    intro c middle start next found equals read
    rw [nestedOption, found]
    simp only [bind, Except.bind, equals, read]
    rfl
  skip acc n found := by
    refine readsOption rfl (by decide) (by decide) (reads_unsigned (fits.skip n found)) ?_
    intro c middle start next found equals read
    rw [nestedOption, found]
    simp only [bind, Except.bind, equals, read]
    rfl
  count acc := by
    refine readsOption rfl (by decide) (by decide) reads_true ?_
    intro c middle start next found equals read
    rw [nestedOption, found]
    simp only [bind, Except.bind, equals, read]
    rfl

/-- Options are read one after the other up to the closing bracket. -/
theorem nestedOptions_eq_ok {first : String × String} {others : List (String × String)}
    {last : QueryOptions} (folds : Folds (ReadsOption nesting inner) o (first :: others) last)
    {fuel : Nat} (enough : others.length < fuel) {c : Cursor} {rest : List Char}
    (ahead : c.ahead =
      pairChars first ++ (others.flatMap (fun pair => ';' :: pairChars pair) ++ ')' :: rest)) :
    ∃ next, nestedOptions nesting inner fuel o c = .ok (last, next) ∧ next.rest = rest := by
  induction others generalizing first o fuel c with
  | nil =>
    obtain ⟨fuel, rfl⟩ : ∃ n, fuel = n + 1 := ⟨fuel - 1, by simp at enough; omega⟩
    cases folds with | cons reads done
    cases done
    obtain ⟨middle, read, left⟩ := reads.reads c _ (Before.cons (by decide) _) ahead
    have bracket : middle.ahead = ')' :: rest := Cursor.ahead_of_char left (by decide)
    have noSemicolon : middle.char? ';' = none :=
      Cursor.char?_eq_none (by rw [bracket]; simp)
    obtain ⟨next, closed, ends⟩ := Cursor.expectChar_eq_ok bracket
    refine ⟨next, ?_, ends⟩
    rw [nestedOptions, read]
    simp only [bind, Except.bind, noSemicolon, closed]
    rfl
  | cons other others ih =>
    obtain ⟨fuel, rfl⟩ : ∃ n, fuel = n + 1 := ⟨fuel - 1, by simp at enough; omega⟩
    cases folds with | cons reads later
    rw [List.flatMap_cons, List.cons_append, List.cons_append, List.append_assoc] at ahead
    obtain ⟨middle, read, behind⟩ := reads.reads c _ (Before.cons (by decide) _) ahead
    obtain ⟨after, semicolon, left⟩ :=
      Cursor.char?_eq_some (Cursor.ahead_of_char behind (by decide))
    have ahead : after.ahead = pairChars other ++
        (others.flatMap (fun pair => ';' :: pairChars pair) ++ ')' :: rest) := by
      cases later with | cons taken _
      exact taken.ahead_of_rest left
    obtain ⟨next, options, ends⟩ := ih later (by simpa using enough) ahead
    refine ⟨next, ?_, ends⟩
    rw [nestedOptions, read]
    simp only [bind, Except.bind, semicolon, options]

end Nested

/-! ## Expansions -/

theorem eq_empty_of_isEmpty {o : QueryOptions} (none : o.isEmpty = true) : o = empty := by
  obtain ⟨filter, orderBy, select, expand, top, skip, count, skipToken⟩ := o
  simp only [isEmpty, Bool.and_eq_true, Option.isNone_iff_eq_none, List.isEmpty_iff,
    Bool.not_eq_true'] at none
  obtain ⟨⟨⟨⟨⟨⟨⟨rfl, rfl⟩, rfl⟩, rfl⟩, rfl⟩, rfl⟩, rfl⟩, rfl⟩ := none
  rfl

/-- Options of which one is set have a pair. -/
theorem toPairs_ne_nil {o : QueryOptions} (some : o.isEmpty = false) (plain : o.skipToken = none) :
    o.toPairs ≠ [] := by
  obtain ⟨filter, orderBy, select, expand, top, skip, count, skipToken⟩ := o
  simp only at plain
  subst plain
  intro none
  rw [Bool.eq_false_iff] at some
  apply some
  simp only [toPairs, pairsWith, List.append_eq_nil_iff] at none
  obtain ⟨⟨⟨⟨⟨⟨noFilter, noOrder⟩, noSelect⟩, noExpand⟩, noTop⟩, noSkip⟩, noCount⟩ := none
  have unset {α : Type} {name : String} {text : α → String} {value : Option α}
      (empty : pair? name (value.map text) = []) : value.isNone = true := by
    cases value with
    | none => rfl
    | some a => cases empty
  rw [isEmpty, unset noFilter, unset noSelect, unset noTop, unset noSkip]
  cases orderBy <;> cases expand <;> cases count <;> simp_all

theorem withoutToken_eq {o : QueryOptions} (plain : o.skipToken = none) :
    { o with skipToken := none } = o := by
  obtain ⟨filter, orderBy, select, expand, top, skip, count, skipToken⟩ := o
  simp only at plain
  rw [plain]

theorem expansionTexts_eq_map (items : List Expansion) :
    expansionTexts items = items.map Expansion.toText := by
  induction items with
  | nil => rw [expansionTexts, List.map_nil]
  | cons item rest ih =>
    obtain ⟨name, options⟩ := item
    rw [expansionTexts, ih, List.map_cons]
    rfl

theorem toList_toText_cons {o : QueryOptions} {first : String × String}
    {others : List (String × String)} (pairs : o.toPairs = first :: others) :
    o.toText.toList = pairChars first ++ others.flatMap fun pair => ';' :: pairChars pair := by
  have equals : "=".toList = ['='] := rfl
  have semicolon : ";".toList = [';'] := rfl
  have chars (pair : String × String) : (pair.1 ++ "=" ++ pair.2).toList = pairChars pair := by
    rw [String.toList_append, String.toList_append, equals, List.append_assoc, pairChars,
      List.singleton_append]
  rw [toText_eq, pairTexts, pairs, List.map_cons, Text.toList_intercalate_cons, List.flatMap_map,
    semicolon]
  simp only [chars, List.singleton_append]

/-- A navigation property is read with the options in the bracket behind its name. -/
theorem reads_expansion {inner : Rule QueryOptions} {name : String} {o : QueryOptions}
    (identifier : isIdentifier name = true)
    (options : o.isEmpty = false → ∀ c rest, c.rest = o.toText.toList ++ ')' :: rest →
      ∃ next, inner c = .ok (o, next) ∧ next.rest = rest) :
    Reads (expansion inner) itemStops (Expansion.toText (name, o)).toList (name, o) := by
  obtain ⟨first, run, chars, start, _⟩ := exists_chars_of_isIdentifier identifier
  have shown : Text.isBlank first = false :=
    Text.isBlank_of_isNameChar (Text.isNameChar_of_isNameStart first start)
  cases none : o.isEmpty with
  | true =>
    have text : Expansion.toText (name, o) = name := by
      rw [Expansion.toText, expansionText, if_pos none]
    rw [text, eq_empty_of_isEmpty none]
    refine ⟨⟨first, run, chars, shown⟩, ?_⟩
    intro c rest before ahead
    obtain ⟨next, found, left⟩ := Cursor.name?_eq_some identifier ahead before (by decide)
    have noBracket : next.char? '(' = Option.none :=
      char?_eq_none_of_before (left ▸ before) (by decide)
    exact ⟨next, by rw [expansion, found]; simp only [noBracket], left⟩
  | false =>
    have bracket : "(".toList = ['('] := rfl
    have closing : ")".toList = [')'] := rfl
    have text : (Expansion.toText (name, o)).toList =
        name.toList ++ '(' :: (o.toText.toList ++ [')']) := by
      rw [Expansion.toText, expansionText, if_neg (by simp [none]), String.toList_append,
        String.toList_append, String.toList_append, bracket, closing, List.append_assoc,
        List.append_assoc, List.singleton_append]
    rw [text]
    refine ⟨⟨first, _, by rw [chars]; rfl, shown⟩, ?_⟩
    intro c rest before ahead
    have split : c.ahead = name.toList ++ '(' :: (o.toText.toList ++ ')' :: rest) := by
      rw [ahead]
      simp
    obtain ⟨middle, found, behind⟩ :=
      Cursor.name?_eq_some identifier split (Before.singleton '(' _) (by decide)
    obtain ⟨opened, opens, inside⟩ :=
      Cursor.char?_eq_some (Cursor.ahead_of_char behind (by decide))
    obtain ⟨next, read, left⟩ := options none opened rest inside
    refine ⟨next, ?_, left⟩
    rw [expansion, found]
    simp only [opens, bind, Except.bind, read]
    rfl

/-- Expansions are read back from their texts, by induction on the levels that may be opened. -/
theorem reads_expansions (nesting : Nat) : ∀ {items : List Expansion},
    ExpandFits Expr.Restored nesting items → items ≠ [] →
    Reads (expansions nesting) closings (",".intercalate (expansionTexts items)).toList items := by
  induction nesting with
  | zero =>
    intro items fits some
    rw [expansionTexts_eq_map]
    refine Reads.listOf (fun item member => ?_) some apart_comma
    obtain ⟨identifier, plain⟩ := fits item member
    obtain ⟨name, o⟩ := item
    simp only at plain
    subst plain
    exact reads_expansion identifier fun filled => by cases filled
  | succ nesting ih =>
    intro items fits some
    rw [expansionTexts_eq_map]
    refine Reads.listOf (fun item member => ?_) some apart_comma
    obtain ⟨identifier, options, inside⟩ := fits item member
    obtain ⟨name, o⟩ := item
    refine reads_expansion identifier fun filled c rest left => ?_
    obtain ⟨first, others, pairs⟩ :=
      List.exists_cons_of_ne_nil (toPairs_ne_nil filled options.skipToken)
    have takes : TakesOptions (ReadsOption nesting (expansions nesting)) o :=
      takesOptions_nested options fun list => ih inside list
    have folds := takes.folds
    have whole : { o with skipToken := none } = o := withoutToken_eq options.skipToken
    have taken : Folds (ReadsOption nesting (expansions nesting)) empty (first :: others) o := by
      rw [pairs, whole] at folds
      exact folds
    rw [toList_toText_cons pairs, List.append_assoc] at left
    have ahead : c.ahead = pairChars first ++
        (others.flatMap (fun pair => ';' :: pairChars pair) ++ ')' :: rest) := by
      cases taken with | cons reads _
      exact reads.ahead_of_rest left
    have enough : others.length < c.rest.length + 1 := by
      have count := Text.length_le_flatMap ';' pairChars others
      have size := congrArg List.length left
      simp only [List.length_append] at size
      omega
    exact nestedOptions_eq_ok taken enough ahead

end QueryOptions

end OData
