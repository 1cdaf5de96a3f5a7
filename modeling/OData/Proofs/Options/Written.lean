import OData.Proofs.Options.Soundness

/-!
# Query options: expansions as they are written

What stands in the brackets of an expansion is a list of options, each with a name and a value.  The
options that are read from it are those that come out when each value is put in its place, from the
left to the right; so the last one of a name counts.  An expansion is accepted if no name comes
twice in one bracket, but for those of which the reader does not ask whether they came before.
-/

set_option autoImplicit false

namespace OData.QueryOptions

open Text (Cursor)
open OData.Expr (Rule parseWhole)

/-! ## Options as they are written -/

/-- An option of an expansion. -/
inductive WrittenOption where
  | filter (e : Expr)
  | orderBy (items : List OrderItem)
  | select (chosen : Select)
  | expand (items : List (String × List WrittenOption))
  | top (n : Nat)
  | skip (n : Nat)
  | count (b : Bool)

/-- A navigation property with the options in the bracket behind it. -/
abbrev WrittenExpansion := String × List WrittenOption

def WrittenOption.name : WrittenOption → String
  | filter _ => "$filter"
  | orderBy _ => "$orderby"
  | select _ => "$select"
  | expand _ => "$expand"
  | top _ => "$top"
  | skip _ => "$skip"
  | count _ => "$count"

/-- One option, whatever stands before it. -/
def writtenOption (nesting : Nat) (inner : Rule (List WrittenExpansion)) : Rule WrittenOption :=
  fun c =>
    match c.systemName? with
    | none => c.skipBlanks.error "expected '$' query option"
    | some (name, next) => do
      let next ← next.expectChar '='
      match name with
      | "$filter" =>
        let (filter, next) ← Expr.expression nesting next
        pure (.filter filter, next)
      | "$orderby" =>
        let (items, next) ← orderItems next
        pure (.orderBy items, next)
      | "$select" =>
        let (chosen, next) ← selection next
        pure (.select chosen, next)
      | "$expand" =>
        let (items, next) ← inner next
        pure (.expand items, next)
      | "$top" =>
        let (n, next) ← unsigned next
        pure (.top n, next)
      | "$skip" =>
        let (n, next) ← unsigned next
        pure (.skip n, next)
      | "$count" =>
        let (b, next) ← boolean next
        pure (.count b, next)
      | _ => c.error ("query option '" ++ name ++ "' is not supported inside $expand")

/-- Options separated by semicolons up to a closing parenthesis. -/
def writtenOptions (nesting : Nat) (inner : Rule (List WrittenExpansion)) :
    Nat → Rule (List WrittenOption)
  | 0, c => c.error "expected ')'"
  | fuel + 1, c => do
    let (first, next) ← writtenOption nesting inner c
    match next.char? ';' with
    | some next =>
      let (others, next) ← writtenOptions nesting inner fuel next
      pure (first :: others, next)
    | none =>
      let next ← next.expectChar ')'
      pure ([first], next)

def writtenExpansion (inner : Rule (List WrittenOption)) : Rule WrittenExpansion := fun c =>
  match c.name? with
  | none => c.skipBlanks.error "expected navigation property"
  | some (name, next) =>
    match next.char? '(' with
    | some next => do
      let (options, next) ← inner next
      pure ((name, options), next)
    | none => .ok ((name, []), next)

def writtenExpansions : Nat → Rule (List WrittenExpansion)
  | 0 => listOf (writtenExpansion Expr.tooDeep)
  | nesting + 1 => listOf (writtenExpansion fun c =>
      writtenOptions nesting (writtenExpansions nesting) (c.rest.length + 1) c)

/-- Reads the options of expansions as they are written, however often their names come. -/
def parseWritten : String → Result (List WrittenExpansion) :=
  parseWhole (writtenExpansions Expr.maxNesting)

/-! ## What they say -/

mutual

/-- Puts the value of an option into its place. -/
def WrittenOption.put : WrittenOption → QueryOptions → QueryOptions
  | .filter e, o => { o with filter := some e }
  | .orderBy items, o => { o with orderBy := items }
  | .select chosen, o => { o with select := some chosen }
  | .expand items, o => { o with expand := meanings items }
  | .top n, o => { o with top := some n }
  | .skip n, o => { o with skip := some n }
  | .count b, o => { o with count := b }

/-- Puts the values of options into their places, from the left to the right. -/
def putAll : List WrittenOption → QueryOptions → QueryOptions
  | [], o => o
  | first :: others, o => putAll others (first.put o)

def meanings : List WrittenExpansion → List Expansion
  | [] => []
  | (name, options) :: rest => (name, putAll options empty) :: meanings rest

end

mutual

/-- The names of the options in each bracket inside an option. -/
def WrittenOption.brackets : WrittenOption → List (List String)
  | .expand items => brackets items
  | _ => []

def bracketsInside : List WrittenOption → List (List String)
  | [] => []
  | first :: others => first.brackets ++ bracketsInside others

/-- The names of the options in each bracket of expansions, at any depth. -/
def brackets : List WrittenExpansion → List (List String)
  | [] => []
  | (_, options) :: rest =>
    options.map WrittenOption.name :: (bracketsInside options ++ brackets rest)

end

/-! ## What may come twice -/

/-- The names of which the reader does not ask whether they came before. -/
def repeatable : List String := ["$top", "$skip", "$count"]

/-- Whether no name comes twice, but for those that may. -/
def ComeOnce (names : List String) : Prop := ∀ name, 2 ≤ names.count name → name ∈ repeatable

instance (names : List String) : Decidable (ComeOnce names) :=
  decidable_of_iff (∀ name ∈ names, 2 ≤ names.count name → name ∈ repeatable)
    ⟨fun each name twice => each name (List.count_pos_iff.mp (by omega)) twice,
      fun all name _ => all name⟩

theorem comeOnce_cons {name : String} {names : List String} :
    ComeOnce (name :: names) ↔ (name ∈ repeatable ∨ name ∉ names) ∧ ComeOnce names := by
  constructor
  · intro once
    refine ⟨or_iff_not_imp_right.mpr fun again => once name ?_, fun other twice => once other ?_⟩
    · rw [List.count_cons_self]
      have := List.count_pos_iff.mpr (not_not.mp again)
      omega
    · exact Nat.le_trans twice (List.count_le_count_cons)
  · rintro ⟨first, others⟩ other twice
    by_cases same : name = other
    · subst same
      rcases first with may | absent
      · exact may
      · rw [List.count_cons_self, List.count_eq_zero.mpr absent] at twice
        omega
    · rw [List.count_cons_of_ne same] at twice
      exact others other twice

/-- Whether an option of which it is asked came before. -/
def isSet (o : QueryOptions) : String → Bool
  | "$filter" => o.filter.isSome
  | "$orderby" => !o.orderBy.isEmpty
  | "$select" => o.select.isSome
  | "$expand" => !o.expand.isEmpty
  | _ => false

/-- Whether the lists in an option have items. -/
def WrittenOption.hasItems : WrittenOption → Bool
  | .orderBy items => !items.isEmpty
  | .expand items => !items.isEmpty
  | _ => true

theorem isEmpty_meanings (items : List WrittenExpansion) :
    (meanings items).isEmpty = items.isEmpty := by
  rcases items with _ | ⟨⟨name, options⟩, rest⟩ <;> rfl

/-- The names of which the reader asks whether they came before. -/
def asked : List String := ["$filter", "$orderby", "$select", "$expand"]

theorem isSet_of_not_mem {name : String} (other : name ∉ asked) (o : QueryOptions) :
    isSet o name = false := by
  simp only [asked, List.mem_cons, List.not_mem_nil, or_false, not_or] at other
  rw [isSet.eq_def]
  split
  · exact absurd rfl other.1
  · exact absurd rfl other.2.1
  · exact absurd rfl other.2.2.1
  · exact absurd rfl other.2.2.2
  · rfl

theorem WrittenOption.name_mem (w : WrittenOption) : w.name ∈ asked ∨ w.name ∈ repeatable := by
  cases w with
  | filter | orderBy | select | expand => exact .inl (by simp [name, asked])
  | top | skip | count => exact .inr (by simp [name, repeatable])

theorem not_mem_repeatable {name : String} (member : name ∈ asked) : name ∉ repeatable := by
  have apart : ∀ name ∈ asked, name ∉ repeatable := by decide
  exact apart name member

/-- After an option was put, its name is set if it is asked for, and all others are as before. -/
theorem isSet_put {w : WrittenOption} (items : w.hasItems = true) (o : QueryOptions)
    (name : String) :
    isSet (w.put o) name = true ↔
      isSet o name = true ∨ (w.name = name ∧ name ∉ repeatable) := by
  by_cases member : name ∈ asked
  · have plain := not_mem_repeatable member
    simp only [plain, not_false_eq_true, and_true]
    simp only [asked, List.mem_cons, List.not_mem_nil, or_false] at member
    rcases member with rfl | rfl | rfl | rfl
    · cases w <;> simp [isSet, WrittenOption.put, WrittenOption.name]
    · cases w with
      | orderBy list =>
        simpa [isSet, WrittenOption.put, WrittenOption.name, WrittenOption.hasItems] using items
      | _ => simp [isSet, WrittenOption.put, WrittenOption.name]
    · cases w <;> simp [isSet, WrittenOption.put, WrittenOption.name]
    · cases w with
      | expand list =>
        have some : (!list.isEmpty) = true := items
        simp [isSet, WrittenOption.put, WrittenOption.name, isEmpty_meanings, some]
      | _ => simp [isSet, WrittenOption.put, WrittenOption.name]
  · rw [isSet_of_not_mem member, isSet_of_not_mem member]
    refine iff_of_false Bool.false_ne_true ?_
    rintro (set | ⟨rfl, plain⟩)
    · cases set
    · rcases w.name_mem with named | may
      · exact member named
      · exact plain may

/-- Whether no option is put under a name that is set already. -/
def Fresh : QueryOptions → List WrittenOption → Prop
  | _, [] => True
  | o, first :: others => isSet o first.name = false ∧ Fresh (first.put o) others

theorem fresh_iff {written : List WrittenOption} (items : ∀ w ∈ written, w.hasItems = true)
    (o : QueryOptions) : Fresh o written ↔
      (∀ w ∈ written, isSet o w.name = false) ∧ ComeOnce (written.map WrittenOption.name) := by
  induction written generalizing o with
  | nil => simp [Fresh, ComeOnce]
  | cons w others ih =>
    have later := ih (fun v member => items v (List.mem_cons_of_mem w member)) (w.put o)
    have put (v : WrittenOption) : isSet (w.put o) v.name = false ↔
        isSet o v.name = false ∧ (w.name = v.name → w.name ∈ repeatable) := by
      rw [← Bool.not_eq_true, isSet_put (items w List.mem_cons_self), not_or, Bool.not_eq_true,
        not_and, not_not]
      exact and_congr_right fun _ =>
        ⟨fun may same => same ▸ may same, fun may same => same ▸ may same⟩
    have apart : w.name ∈ repeatable ∨ w.name ∉ others.map WrittenOption.name ↔
        ∀ v ∈ others, w.name = v.name → w.name ∈ repeatable := by
      rw [or_iff_not_imp_right, not_not, List.mem_map]
      exact ⟨fun may v member same => may ⟨v, member, same.symm⟩,
        fun may ⟨v, member, same⟩ => may v member same.symm⟩
    rw [Fresh, later, List.map_cons, comeOnce_cons, List.forall_mem_cons, apart]
    simp only [put, forall_and]
    tauto

/-! ## Reading -/

variable {nesting : Nat} {inner : Rule (List Expansion)} {list : Rule (List WrittenExpansion)}

/-- What expansions are read as is what they say as they are written, if no name comes twice in one
of their brackets. -/
def Means (inner : Rule (List Expansion)) (list : Rule (List WrittenExpansion)) : Prop :=
  ∀ c items next, inner c = .ok (items, next) ↔ ∃ written, list c = .ok (written, next) ∧
    meanings written = items ∧ ∀ names ∈ brackets written, ComeOnce names

theorem once_bind_eq_ok_iff {β : Type} (rule : Rule β) (make : β → WrittenOption)
    {o after : QueryOptions} {name : String} (named : ∀ b, (make b).name = name)
    (flat : ∀ b, (make b).brackets = []) (c : Cursor) (seen : Bool) (set : isSet o name = seen)
    {d next : Cursor} :
    (once c name seen >>= fun _ => rule d >>= fun found =>
        pure ((make found.1).put o, found.2)) = .ok (after, next) ↔
      ∃ w, (rule d >>= fun found => pure (make found.1, found.2)) = .ok (w, next) ∧
        w.put o = after ∧ isSet o w.name = false ∧ ∀ names ∈ w.brackets, ComeOnce names := by
  constructor
  · intro read
    obtain ⟨⟨⟩, fresh, read⟩ := Result.bind_eq_ok.mp read
    obtain ⟨⟨b, last⟩, value, same⟩ := Result.bind_eq_ok.mp read
    cases same
    refine ⟨make b, Result.bind_eq_ok.mpr ⟨(b, last), value, rfl⟩, rfl, ?_, by simp [flat]⟩
    rw [named, set]
    cases seen with
    | false => rfl
    | true => cases fresh
  · rintro ⟨w, read, rfl, unset, -⟩
    obtain ⟨⟨b, last⟩, value, same⟩ := Result.bind_eq_ok.mp read
    cases same
    rw [named, set] at unset
    rw [unset, value]
    rfl

theorem once_expand_eq_ok_iff (means : Means inner list) {o after : QueryOptions}
    {c d next : Cursor} :
    (once c "$expand" (!o.expand.isEmpty) >>= fun _ => inner d >>= fun found =>
        pure ({ o with expand := found.1 }, found.2)) = .ok (after, next) ↔
      ∃ w, (list d >>= fun found => pure (WrittenOption.expand found.1, found.2)) = .ok (w, next) ∧
        w.put o = after ∧ isSet o w.name = false ∧ ∀ names ∈ w.brackets, ComeOnce names := by
  constructor
  · intro read
    obtain ⟨⟨⟩, fresh, read⟩ := Result.bind_eq_ok.mp read
    obtain ⟨⟨items, last⟩, value, same⟩ := Result.bind_eq_ok.mp read
    cases same
    obtain ⟨written, found, rfl, each⟩ := (means d items last).mp value
    refine ⟨.expand written, Result.bind_eq_ok.mpr ⟨(written, last), found, rfl⟩, rfl, ?_, each⟩
    cases set : isSet o "$expand" with
    | false => exact set
    | true =>
      have seen : (!o.expand.isEmpty) = true := set
      rw [seen] at fresh
      cases fresh
  · rintro ⟨w, read, rfl, unset, each⟩
    obtain ⟨⟨written, last⟩, value, same⟩ := Result.bind_eq_ok.mp read
    cases same
    have seen : (!o.expand.isEmpty) = false := unset
    rw [seen, (means d (meanings written) last).mpr ⟨written, value, rfl, each⟩]
    rfl

/-- One option is read if it is not set, and its value is put. -/
theorem nestedOption_eq_ok_iff (means : Means inner list) {o after : QueryOptions}
    {c next : Cursor} : nestedOption nesting inner o c = .ok (after, next) ↔
      ∃ w, writtenOption nesting list c = .ok (w, next) ∧ w.put o = after ∧
        isSet o w.name = false ∧ ∀ names ∈ w.brackets, ComeOnce names := by
  rw [nestedOption, writtenOption]
  cases found : c.systemName? with
  | none => simp [Cursor.error]
  | some token =>
    obtain ⟨name, behind⟩ := token
    simp only
    cases equals : behind.expectChar '=' with
    | error e => simp [bind, Except.bind]
    | ok start =>
      have passes {α : Type} (f : Cursor → Result α) : (Except.ok start >>= f) = f start := rfl
      rw [passes, passes]
      split
      · exact once_bind_eq_ok_iff (Expr.expression nesting) .filter (fun _ => rfl) (fun _ => rfl)
          c _ rfl
      · exact once_bind_eq_ok_iff orderItems .orderBy (fun _ => rfl) (fun _ => rfl) c _ rfl
      · exact once_bind_eq_ok_iff selection .select (fun _ => rfl) (fun _ => rfl) c _ rfl
      · exact once_expand_eq_ok_iff means
      · exact once_bind_eq_ok_iff unsigned .top (fun _ => rfl) (fun _ => rfl) c false rfl
      · exact once_bind_eq_ok_iff unsigned .skip (fun _ => rfl) (fun _ => rfl) c false rfl
      · exact once_bind_eq_ok_iff boolean .count (fun _ => rfl) (fun _ => rfl) c false rfl
      · simp [Cursor.error]

/-- The options of an expansion are read if none is set when its turn comes. -/
theorem nestedOptions_eq_ok_iff (means : Means inner list) {fuel : Nat} {o last : QueryOptions}
    {c next : Cursor} : nestedOptions nesting inner fuel o c = .ok (last, next) ↔
      ∃ written, writtenOptions nesting list fuel c = .ok (written, next) ∧
        putAll written o = last ∧ Fresh o written ∧
        ∀ names ∈ bracketsInside written, ComeOnce names := by
  induction fuel generalizing o c with
  | zero => simp [nestedOptions, writtenOptions, Cursor.error]
  | succ fuel ih =>
    rw [nestedOptions, writtenOptions]
    constructor
    · intro read
      obtain ⟨⟨after, behind⟩, option, rest⟩ := Result.bind_eq_ok.mp read
      obtain ⟨w, found, rfl, unset, own⟩ := (nestedOption_eq_ok_iff means).mp option
      rw [found]
      change (match behind.char? ';' with
        | some next => nestedOptions nesting inner fuel (w.put o) next
        | none => behind.expectChar ')' >>= fun next => pure (w.put o, next)) = _ at rest
      cases semicolon : behind.char? ';' with
      | some start =>
        rw [semicolon] at rest
        obtain ⟨others, more, all, fresh, inside⟩ := ih.mp rest
        refine ⟨w :: others, ?_, all, ⟨unset, fresh⟩, ?_⟩
        · simp only [bind, Except.bind, semicolon, more]
          rfl
        · rw [bracketsInside, List.forall_mem_append]
          exact ⟨own, inside⟩
      | none =>
        rw [semicolon] at rest
        obtain ⟨finish, closed, same⟩ := Result.bind_eq_ok.mp rest
        cases same
        refine ⟨[w], ?_, rfl, ⟨unset, trivial⟩, ?_⟩
        · simp only [bind, Except.bind, semicolon, closed]
          rfl
        · rw [bracketsInside, List.forall_mem_append]
          exact ⟨own, by simp [bracketsInside]⟩
    · rintro ⟨written, read, rfl, fresh, inside⟩
      obtain ⟨⟨w, behind⟩, option, rest⟩ := Result.bind_eq_ok.mp read
      have first (unset : isSet o w.name = false) (own : ∀ names ∈ w.brackets, ComeOnce names) :
          nestedOption nesting inner o c = .ok (w.put o, behind) :=
        (nestedOption_eq_ok_iff means).mpr ⟨w, option, rfl, unset, own⟩
      change (match behind.char? ';' with
        | some next => writtenOptions nesting list fuel next >>= fun found =>
          pure (w :: found.1, found.2)
        | none => behind.expectChar ')' >>= fun next => pure ([w], next)) = _ at rest
      cases semicolon : behind.char? ';' with
      | some start =>
        rw [semicolon] at rest
        obtain ⟨⟨others, finish⟩, more, same⟩ := Result.bind_eq_ok.mp rest
        cases same
        rw [bracketsInside, List.forall_mem_append] at inside
        rw [first fresh.1 inside.1]
        simp only [bind, Except.bind, semicolon]
        exact ih.mpr ⟨others, more, rfl, fresh.2, inside.2⟩
      | none =>
        rw [semicolon] at rest
        obtain ⟨finish, closed, same⟩ := Result.bind_eq_ok.mp rest
        cases same
        rw [bracketsInside, List.forall_mem_append] at inside
        rw [first fresh.1 inside.1]
        simp only [bind, Except.bind, semicolon, closed]
        rfl

theorem hasItems_of_writtenOption
    (some : ∀ {c items next}, list c = .ok (items, next) → items ≠ []) {c next : Cursor}
    {w : WrittenOption} (read : writtenOption nesting list c = .ok (w, next)) :
    w.hasItems = true := by
  have given {α : Type} {items : List α} (some : items ≠ []) : (!items.isEmpty) = true := by
    simpa using some
  rw [writtenOption] at read
  split at read
  next => cases read
  next name behind found =>
    obtain ⟨start, _, read⟩ := Result.bind_eq_ok.mp read
    split at read
    case h_2 =>
      obtain ⟨⟨items, last⟩, value, same⟩ := Result.bind_eq_ok.mp read
      cases same
      exact given (of_separated isSpelled_of_orderItem value).1
    case h_4 =>
      obtain ⟨⟨items, last⟩, value, same⟩ := Result.bind_eq_ok.mp read
      cases same
      exact given (some value)
    case h_8 => cases read
    all_goals
      obtain ⟨⟨value, last⟩, _, same⟩ := Result.bind_eq_ok.mp read
      cases same
      rfl

theorem hasItems_of_writtenOptions
    (some : ∀ {c items next}, list c = .ok (items, next) → items ≠ []) {fuel : Nat}
    {c next : Cursor} {written : List WrittenOption}
    (read : writtenOptions nesting list fuel c = .ok (written, next)) :
    ∀ w ∈ written, w.hasItems = true := by
  induction fuel generalizing c written with
  | zero => cases read
  | succ fuel ih =>
    rw [writtenOptions] at read
    obtain ⟨⟨first, behind⟩, option, rest⟩ := Result.bind_eq_ok.mp read
    have own := hasItems_of_writtenOption some option
    simp only at rest
    split at rest
    next start semicolon =>
      obtain ⟨⟨others, last⟩, more, same⟩ := Result.bind_eq_ok.mp rest
      cases same
      exact List.forall_mem_cons.mpr ⟨own, ih more⟩
    next =>
      obtain ⟨last, _, same⟩ := Result.bind_eq_ok.mp rest
      cases same
      exact List.forall_mem_singleton.mpr own

/-! ## Expansions -/

/-- Items of a list are read one by one. -/
theorem separated_eq_ok_iff {α β : Type} {item : Rule α} {other : Rule β} {R : β → α → Prop}
    (each : ∀ c a next, item c = .ok (a, next) ↔ ∃ b, other c = .ok (b, next) ∧ R b a) {fuel : Nat}
    {c next : Cursor} {items : List α} : separated item fuel c = .ok (items, next) ↔
      ∃ others, separated other fuel c = .ok (others, next) ∧ List.Forall₂ R others items := by
  induction fuel generalizing c items with
  | zero => simp [separated, Cursor.error]
  | succ fuel ih =>
    rw [separated, separated]
    constructor
    · intro read
      obtain ⟨⟨a, behind⟩, first, rest⟩ := Result.bind_eq_ok.mp read
      obtain ⟨b, found, related⟩ := (each c a behind).mp first
      rw [found]
      simp only at rest
      split at rest
      next start comma =>
        obtain ⟨⟨later, last⟩, more, same⟩ := Result.bind_eq_ok.mp rest
        cases same
        obtain ⟨others, list, all⟩ := ih.mp more
        refine ⟨b :: others, ?_, .cons related all⟩
        simp only [bind, Except.bind, comma, list]
        rfl
      next comma =>
        cases rest
        refine ⟨[b], ?_, .cons related .nil⟩
        simp only [bind, Except.bind, comma]
        rfl
    · rintro ⟨others, read, all⟩
      obtain ⟨⟨b, behind⟩, first, rest⟩ := Result.bind_eq_ok.mp read
      simp only at rest
      split at rest
      next start comma =>
        obtain ⟨⟨later, last⟩, more, same⟩ := Result.bind_eq_ok.mp rest
        cases same
        cases all with
        | cons related all =>
          rw [(each c _ behind).mpr ⟨b, first, related⟩]
          simp only [bind, Except.bind, comma, ih.mpr ⟨later, more, all⟩]
          rfl
      next comma =>
        cases rest
        cases all with
        | cons related all =>
          cases all
          rw [(each c _ _).mpr ⟨b, first, related⟩]
          simp only [bind, Except.bind, comma]
          rfl

theorem listOf_eq_ok_iff {α β : Type} {item : Rule α} {other : Rule β} {R : β → α → Prop}
    (each : ∀ c a next, item c = .ok (a, next) ↔ ∃ b, other c = .ok (b, next) ∧ R b a)
    {c next : Cursor} {items : List α} : listOf item c = .ok (items, next) ↔
      ∃ others, listOf other c = .ok (others, next) ∧ List.Forall₂ R others items :=
  separated_eq_ok_iff each

/-- An expansion is what it says, and no name comes twice in its brackets. -/
def Denotes (written : WrittenExpansion) (item : Expansion) : Prop :=
  meanings [written] = [item] ∧ ∀ names ∈ brackets [written], ComeOnce names

theorem forall₂_denotes_iff {written : List WrittenExpansion} {items : List Expansion} :
    List.Forall₂ Denotes written items ↔
      meanings written = items ∧ ∀ names ∈ brackets written, ComeOnce names := by
  induction written generalizing items with
  | nil => simp [meanings, brackets, eq_comm]
  | cons first rest ih =>
    obtain ⟨name, options⟩ := first
    cases items with
    | nil => simp [meanings]
    | cons item others =>
      rw [List.forall₂_cons, ih]
      simp only [Denotes, meanings, brackets, List.cons.injEq, and_true, List.append_nil,
        List.forall_mem_cons, List.forall_mem_append]
      tauto

theorem expansion_eq_ok_iff {inside : Rule QueryOptions} {bracket : Rule (List WrittenOption)}
    (means : ∀ c o next, inside c = .ok (o, next) ↔ ∃ written, bracket c = .ok (written, next) ∧
      putAll written empty = o ∧ ComeOnce (written.map WrittenOption.name) ∧
      ∀ names ∈ bracketsInside written, ComeOnce names) (c : Cursor) (item : Expansion)
    (next : Cursor) : expansion inside c = .ok (item, next) ↔
      ∃ written, writtenExpansion bracket c = .ok (written, next) ∧ Denotes written item := by
  rw [expansion, writtenExpansion]
  cases found : c.name? with
  | none => simp [Cursor.error]
  | some token =>
    obtain ⟨name, behind⟩ := token
    have denotes (options : List WrittenOption) (o : QueryOptions) :
        Denotes (name, options) (name, o) ↔ putAll options empty = o ∧
          ComeOnce (options.map WrittenOption.name) ∧
          ∀ names ∈ bracketsInside options, ComeOnce names := by
      simp [Denotes, meanings, brackets]
    simp only
    cases opened : behind.char? '(' with
    | none =>
      have plain : Denotes (name, []) (name, empty) :=
        (denotes [] empty).mpr ⟨rfl, by simp [ComeOnce], by simp [bracketsInside]⟩
      constructor
      · rintro ⟨⟩
        exact ⟨(name, []), rfl, plain⟩
      · rintro ⟨written, ⟨⟩, same, -⟩
        cases same
        rfl
    | some start =>
      constructor
      · intro read
        obtain ⟨⟨o, last⟩, options, same⟩ := Result.bind_eq_ok.mp read
        cases same
        obtain ⟨written, taken, said⟩ := (means start o last).mp options
        exact ⟨(name, written), Result.bind_eq_ok.mpr ⟨(written, last), taken, rfl⟩,
          (denotes written o).mpr said⟩
      · rintro ⟨written, read, said⟩
        obtain ⟨⟨options, last⟩, taken, same⟩ := Result.bind_eq_ok.mp read
        cases same
        obtain ⟨other, o⟩ := item
        obtain rfl : name = other := by
          have first := said.1
          rw [meanings, List.cons.injEq, Prod.mk.injEq] at first
          exact first.1.1
        exact Result.bind_eq_ok.mpr ⟨(o, last), (means start o last).mpr
          ⟨options, taken, (denotes options o).mp said⟩, rfl⟩

theorem ne_nil_of_listOf {α : Type} {item : Rule α} {c next : Cursor} {items : List α}
    (read : listOf item c = .ok (items, next)) : items ≠ [] := by
  have all : ∀ {c next a}, item c = .ok (a, next) → True := fun _ => trivial
  exact (of_separated all read).1

/-- What stands in a list of expansions is read as what it says, if no name comes twice in one
bracket. -/
theorem means_expansions (nesting : Nat) :
    Means (expansions nesting) (writtenExpansions nesting) := by
  induction nesting with
  | zero =>
    intro c items next
    have deep : ∀ (c : Cursor) (o : QueryOptions) (next : Cursor),
        Expr.tooDeep c = .ok (o, next) ↔ ∃ written : List WrittenOption,
          Expr.tooDeep c = .ok (written, next) ∧ putAll written empty = o ∧
          ComeOnce (written.map WrittenOption.name) ∧
          ∀ names ∈ bracketsInside written, ComeOnce names := by
      simp [Expr.tooDeep, Cursor.error]
    rw [expansions, writtenExpansions, listOf_eq_ok_iff (expansion_eq_ok_iff deep)]
    simp only [forall₂_denotes_iff]
  | succ nesting ih =>
    intro c items next
    have some : ∀ {c items next}, writtenExpansions nesting c = .ok (items, next) → items ≠ [] := by
      intro c items next read
      cases nesting with
      | zero => exact ne_nil_of_listOf read
      | succ nesting => exact ne_nil_of_listOf read
    have options : ∀ (c : Cursor) (o : QueryOptions) (next : Cursor),
        nestedOptions nesting (expansions nesting) (c.rest.length + 1) empty c = .ok (o, next) ↔
          ∃ written, writtenOptions nesting (writtenExpansions nesting) (c.rest.length + 1) c =
              .ok (written, next) ∧ putAll written empty = o ∧
            ComeOnce (written.map WrittenOption.name) ∧
            ∀ names ∈ bracketsInside written, ComeOnce names := by
      intro c o next
      rw [nestedOptions_eq_ok_iff ih]
      refine exists_congr fun written => and_congr_right fun read => and_congr_right fun _ =>
        and_congr_left fun _ => ?_
      rw [fresh_iff (hasItems_of_writtenOptions some read)]
      have unset : ∀ name, isSet empty name = false := by
        intro name
        rw [isSet.eq_def]
        split <;> rfl
      exact and_iff_right fun w _ => unset w.name
    rw [expansions, writtenExpansions, listOf_eq_ok_iff (expansion_eq_ok_iff options)]
    simp only [forall₂_denotes_iff]

theorem parseExpand_eq_ok_iff {text : String} {items : List Expansion} :
    parseExpand text = .ok items ↔ ∃ written, parseWritten text = .ok written ∧
      meanings written = items ∧ ∀ names ∈ brackets written, ComeOnce names := by
  have means := means_expansions Expr.maxNesting (Cursor.ofText text)
  rw [parseExpand, parseWritten, parseWhole, parseWhole]
  constructor
  · intro read
    obtain ⟨⟨found, next⟩, whole, rest⟩ := Result.bind_eq_ok.mp read
    obtain ⟨⟨⟩, finished, same⟩ := Result.bind_eq_ok.mp rest
    cases same
    obtain ⟨written, taken, said⟩ := (means items next).mp whole
    refine ⟨written, Result.bind_eq_ok.mpr ⟨(written, next), taken, ?_⟩, said⟩
    exact Result.bind_eq_ok.mpr ⟨(), finished, rfl⟩
  · rintro ⟨written, read, said⟩
    obtain ⟨⟨found, next⟩, taken, rest⟩ := Result.bind_eq_ok.mp read
    obtain ⟨⟨⟩, finished, same⟩ := Result.bind_eq_ok.mp rest
    cases same
    refine Result.bind_eq_ok.mpr ⟨(items, next), (means items next).mpr ⟨written, taken, said⟩, ?_⟩
    exact Result.bind_eq_ok.mpr ⟨(), finished, rfl⟩

/-! ## Options of a request -/

theorem nodup_of_readPairs {limits : QueryLimits} {pairs : List (String × String)}
    {seen : List String} {o last : QueryOptions}
    (read : readPairs limits seen o pairs = .ok last) :
    ((pairs.map Prod.fst).filter isOptionName).Nodup ∧
      ∀ name ∈ (pairs.map Prod.fst).filter isOptionName, name ∉ seen := by
  induction pairs generalizing seen o with
  | nil => simp
  | cons pair rest ih =>
    obtain ⟨name, value⟩ := pair
    rw [readPairs] at read
    rw [List.map_cons, List.filter_cons]
    split at read
    next option =>
      rw [if_pos option]
      split at read
      next => cases read
      next unseen =>
        obtain ⟨after, -, later⟩ := Result.bind_eq_ok.mp read
        obtain ⟨once, fresh⟩ := ih later
        refine ⟨List.nodup_cons.mpr ⟨fun again => fresh name again List.mem_cons_self, once⟩, ?_⟩
        refine List.forall_mem_cons.mpr ⟨by simpa using unseen, fun other member before => ?_⟩
        exact fresh other member (List.mem_cons_of_mem name before)
    next other =>
      rw [if_neg other]
      exact ih read

/-- Expansions are accepted just if no name comes twice in one of their brackets, but for `$top`,
`$skip` and `$count`, and are read as what they say, where the last option of a name counts.  No
option comes twice among those of a request. -/
theorem parseExpand_iff_comeOnce (text : String) (items : List Expansion) (limits : QueryLimits)
    (pairs : List (String × String)) (o : QueryOptions) :
    (parseExpand text = .ok items ↔
      ∃ written, parseWritten text = .ok written ∧ meanings written = items ∧
        ∀ names ∈ brackets written, ComeOnce names) ∧
      (ofPairs limits pairs = .ok o → ((pairs.map Prod.fst).filter isOptionName).Nodup) := by
  refine ⟨parseExpand_eq_ok_iff, fun read => ?_⟩
  obtain ⟨last, all, -⟩ := Result.bind_eq_ok.mp read
  exact (nodup_of_readPairs all).1

/-- Of two `$top` in one bracket the last one counts. -/
theorem parseExpand_topTwice :
    parseExpand "MyPets($top=1;$top=2)" = .ok [("MyPets", { empty with top := some 2 })] ∧
      ∃ written, parseWritten "MyPets($top=1;$top=2)" = .ok written ∧
        ¬ ∀ names ∈ brackets written, names.Nodup := by
  have read : parseWritten "MyPets($top=1;$top=2)" = .ok [("MyPets", [.top 1, .top 2])] := rfl
  refine ⟨(parseExpand_iff_comeOnce _ _ .standard [] empty).1.mpr ?_, _, read, by decide⟩
  exact ⟨_, read, rfl, by decide⟩

end OData.QueryOptions
