import OData.Proofs.Endpoint
import OData.Proofs.KeyPath
import OData.Proofs.Service.Identity
import OData.Service.Reference

/-!
# References to entities

An entity is referred to by its set and key, alone, below the route or below the URL of the service,
with or without a slash before it.  Reading a reference takes the URL and the route off wherever the
text begins with them, even inside the name of the set.
-/

set_option autoImplicit false

namespace OData

open Text

namespace Endpoint

variable {e : Endpoint} {cs entity : List Char}

/-! ## Taking the URL and the route off -/

/-- Drops the characters of the route and the slashes after them. -/
def withoutRoute (e : Endpoint) (cs : List Char) : List Char :=
  match after? e.route.toList cs with
  | some below => trimStart isSlash below
  | none => cs

theorem referenceText_eq (e : Endpoint) (cs : List Char) :
    e.referenceText cs = e.withoutRoute (e.afterUrl cs) := by
  cases found : after? e.route.toList (e.afterUrl cs) <;>
    simp only [referenceText, withoutRoute, found]

theorem suffix_withoutRoute (e : Endpoint) (cs : List Char) : e.withoutRoute cs <:+ cs := by
  rw [withoutRoute]
  split
  next below found =>
    rw [after?_eq_some_iff] at found
    rw [found]
    exact (suffix_trimStart isSlash below).trans (List.suffix_append _ below)
  next => exact List.suffix_refl cs

/-- Where the URL comes first, what is left stands behind it. -/
theorem suffix_referenceText_append (e : Endpoint) (below : List Char) :
    e.referenceText (e.url.toList ++ below) <:+ below := by
  rw [referenceText_eq, afterUrl, after?_append, Option.getD_some]
  exact (suffix_withoutRoute e _).trans (suffix_trimStart isSlash below)

theorem afterUrl_of_apart (apart : ¬ e.url.toList <+: cs) :
    e.afterUrl cs = trimStart isSlash cs := by
  rw [afterUrl, after?_eq_none_iff.mpr apart, Option.getD_none]

/-! ## The text of an entity -/

/-- Whether a text begins with a character that is neither a blank nor a slash. -/
def BeginsPlainly (cs : List Char) : Prop :=
  ∃ c rest, cs = c :: rest ∧ isBlank c = false ∧ isSlash c = false

theorem BeginsPlainly.append (plain : BeginsPlainly cs) (ds : List Char) :
    BeginsPlainly (cs ++ ds) := by
  obtain ⟨c, rest, rfl, shown⟩ := plain
  exact ⟨c, rest ++ ds, rfl, shown⟩

theorem BeginsPlainly.trimStart_slash (plain : BeginsPlainly cs) : trimStart isSlash cs = cs := by
  obtain ⟨c, rest, rfl, -, other⟩ := plain
  exact List.dropWhile_cons_of_neg (by simp [other])

theorem BeginsPlainly.trimStart_blank (plain : BeginsPlainly cs) : trimStart isBlank cs = cs := by
  obtain ⟨c, rest, rfl, shown, -⟩ := plain
  exact List.dropWhile_cons_of_neg (by simp [shown])

theorem BeginsPlainly.ne_nil (plain : BeginsPlainly cs) : cs ≠ [] := by
  obtain ⟨c, rest, rfl, -⟩ := plain
  exact List.cons_ne_nil c rest

/-- What the characters of a class leave of a text stays as it is where another follows. -/
theorem trimStart_append_of_self {p : Char → Bool} {ds : List Char} (stops : trimStart p ds = ds)
    (cs : List Char) : trimStart p (cs ++ ds) = trimStart p cs ++ ds := by
  rw [trimStart, List.dropWhile_append]
  split
  next nothing =>
    rw [List.isEmpty_iff] at nothing
    rw [trimStart, nothing, List.nil_append]
    exact stops
  next => rfl

/-- The route is not taken off a text that does not begin with it. -/
def Unrouted (e : Endpoint) (cs : List Char) : Prop :=
  e.route.toList = [] ∨ ¬ e.route.toList <+: cs

theorem withoutRoute_eq_self_iff (plain : BeginsPlainly entity) :
    e.withoutRoute entity = entity ↔ e.Unrouted entity := by
  rw [withoutRoute, Unrouted]
  cases found : after? e.route.toList entity with
  | none => exact iff_of_true rfl (.inr (after?_eq_none_iff.mp found))
  | some below =>
    rw [after?_eq_some_iff] at found
    have starts : e.route.toList <+: entity := ⟨below, found.symm⟩
    simp only [starts, not_true_eq_false, or_false]
    constructor
    · intro same
      have size := length_trimStart_le isSlash below
      rw [same, found, List.length_append] at size
      exact List.eq_nil_of_length_eq_zero (by omega)
    · intro empty
      rw [empty, List.nil_append] at found
      rw [← found, plain.trimStart_slash]

theorem withoutRoute_route (plain : BeginsPlainly entity) :
    e.withoutRoute (e.route.toList ++ '/' :: entity) = entity := by
  rw [withoutRoute, after?_append]
  exact (List.dropWhile_cons_of_pos (by decide)).trans plain.trimStart_slash

/-! ## Where the text of an entity is found -/

/-- What may stand before the text of an entity, other than the URL of the service. -/
def relativeLeads (e : Endpoint) : List String := ["", "/", e.route ++ "/", "/" ++ e.route ++ "/"]

/-- The references to an entity. -/
def references (e : Endpoint) (entity : String) : List String :=
  (e.relativeLeads ++ [e.url ++ "/"]).map fun lead => lead ++ entity

/-- Whether an endpoint finds the text of an entity in each of its references. -/
structure Resolves (e : Endpoint) (entity : String) : Prop where
  unrouted : e.Unrouted entity.toList
  /-- No part of a relative reference is taken for the URL. -/
  apart : e.base = [] ∨ ∀ lead ∈ e.relativeLeads,
    ¬ e.url.toList <+: trimStart isBlank lead.toList ++ entity.toList
  /-- Blanks and slashes that are taken off before the route leave it as it is, or nothing of it. -/
  whole : BeginsPlainly e.route.toList ∨
    trimStart isSlash (trimStart isBlank e.route.toList) = []
  based : trimStart isBlank e.base = e.base ∨ trimStart isBlank e.base = []

/-! ## References that are resolved -/

theorem afterUrl_of_slashes (slashes : ∀ c ∈ e.url.toList, isSlash c = true) (cs : List Char) :
    e.afterUrl cs = trimStart isSlash cs := by
  rw [afterUrl]
  cases found : after? e.url.toList cs with
  | none => rfl
  | some below =>
    rw [after?_eq_some_iff] at found
    rw [found, trimStart_append slashes, Option.getD_some]

/-- An entity is found behind slashes. -/
theorem referenceText_slashes (plain : BeginsPlainly entity) (unrouted : e.Unrouted entity)
    (lead : List Char) (slashes : ∀ c ∈ lead, isSlash c = true)
    (apart : ¬ e.url.toList <+: lead ++ entity ∨ ∀ c ∈ e.url.toList, isSlash c = true) :
    e.referenceText (lead ++ entity) = entity := by
  have left : e.afterUrl (lead ++ entity) = entity := by
    have trimmed : trimStart isSlash (lead ++ entity) = entity := by
      rw [trimStart_append slashes, plain.trimStart_slash]
    rcases apart with apart | all
    · rw [afterUrl_of_apart apart, trimmed]
    · rw [afterUrl_of_slashes all, trimmed]
  rw [referenceText_eq, left, (withoutRoute_eq_self_iff plain).mpr unrouted]

/-- An entity is found behind the URL and a slash. -/
theorem referenceText_url (plain : BeginsPlainly entity) (unrouted : e.Unrouted entity) :
    e.referenceText (e.url.toList ++ '/' :: entity) = entity := by
  have left : e.afterUrl (e.url.toList ++ '/' :: entity) = entity := by
    rw [afterUrl, after?_append, Option.getD_some]
    exact (List.dropWhile_cons_of_pos (by decide)).trans plain.trimStart_slash
  rw [referenceText_eq, left, (withoutRoute_eq_self_iff plain).mpr unrouted]

/-- An entity is found behind a route that is left whole. -/
theorem referenceText_route (plain : BeginsPlainly entity) {lead : List Char}
    (apart : ¬ e.url.toList <+: lead ++ entity)
    (left : trimStart isSlash lead = e.route.toList ++ ['/']) :
    e.referenceText (lead ++ entity) = entity := by
  rw [referenceText_eq, afterUrl_of_apart apart,
    trimStart_append_of_self plain.trimStart_slash, left, List.append_assoc, List.singleton_append,
    withoutRoute_route plain]

/-- A text of which blanks and then slashes leave nothing begins with a blank if not all of it is
slashes. -/
theorem slashes_or_blank (gone : trimStart isSlash (trimStart isBlank cs) = []) :
    (∀ c ∈ cs, isSlash c = true) ∨ ∃ c rest, cs = c :: rest ∧ isBlank c = true := by
  cases cs with
  | nil => exact .inl (by simp)
  | cons c rest =>
    cases blank : isBlank c with
    | true => exact .inr ⟨c, rest, rfl, blank⟩
    | false =>
      left
      rw [trimStart, trimStart, List.dropWhile_cons_of_neg (by simp [blank])] at gone
      exact List.dropWhile_eq_nil_iff.mp gone

theorem trimStart_blank_slash (cs : List Char) :
    trimStart isBlank ('/' :: cs) = '/' :: cs :=
  List.dropWhile_cons_of_neg (by decide)

theorem trimStart_slash_slash (cs : List Char) :
    trimStart isSlash ('/' :: cs) = trimStart isSlash cs :=
  List.dropWhile_cons_of_pos (by decide)

/-- Without a base the URL is a slash and the route. -/
theorem toList_url_of_bare (bare : e.base = []) : e.url.toList = '/' :: e.route.toList := by
  rw [toList_url, bare, List.nil_append]

/-- A route that begins with a blank is not found in slashes before an entity. -/
theorem not_url_prefix_slashes (bare : e.base = []) (plain : BeginsPlainly entity)
    {lead rest : List Char} {c : Char} (slashes : ∀ d ∈ lead, isSlash d = true)
    (route : e.route.toList = c :: rest) (blank : isBlank c = true) :
    ¬ e.url.toList <+: lead ++ entity := by
  rintro ⟨below, text⟩
  rw [toList_url_of_bare bare, route, List.cons_append, List.cons_append] at text
  obtain ⟨first, others, rfl, shown, other⟩ := plain
  rcases lead with _ | ⟨slash, _ | ⟨second, more⟩⟩
  · rw [← (List.cons.inj text).1] at other
    cases other
  · rw [← (List.cons.inj (List.cons.inj text).2).1, blank] at shown
    cases shown
  · have same := (List.cons.inj (List.cons.inj text).2).1
    have slashed := slashes second (by simp)
    rw [← same, isSlash, beq_iff_eq] at slashed
    rw [slashed] at blank
    cases blank

namespace Resolves

variable {entity : String}

theorem referenceText_bare (found : e.Resolves entity) (plain : BeginsPlainly entity.toList) :
    e.referenceText entity.toList = entity.toList := by
  refine referenceText_slashes plain found.unrouted [] (by simp) (.inl ?_)
  rcases found.apart with bare | apart
  · rintro ⟨below, text⟩
    obtain ⟨first, others, start, shown, other⟩ := plain
    rw [toList_url_of_bare bare, List.nil_append, start] at text
    rw [← (List.cons.inj text).1] at other
    cases other
  · exact apart "" (by simp [relativeLeads])

theorem referenceText_slash (found : e.Resolves entity) (plain : BeginsPlainly entity.toList) :
    e.referenceText ('/' :: entity.toList) = entity.toList := by
  refine referenceText_slashes plain found.unrouted ['/'] (by simp [isSlash]) ?_
  rcases found.apart with bare | apart
  · rw [toList_url_of_bare bare]
    rcases found.unrouted with empty | apart
    · rw [empty]
      exact .inr (by simp [isSlash])
    · exact .inl fun starts => apart ((List.cons_prefix_cons.mp starts).2)
  · exact .inl (apart "/" (by simp [relativeLeads]))

/-- The route, a slash and an entity, without the blanks before them. -/
theorem referenceText_routed (found : e.Resolves entity) (plain : BeginsPlainly entity.toList) :
    e.referenceText (trimStart isBlank (e.route.toList ++ ['/']) ++ entity.toList) =
      entity.toList := by
  have member : e.route ++ "/" ∈ e.relativeLeads := by simp [relativeLeads]
  have lead : (e.route ++ "/").toList = e.route.toList ++ ['/'] := String.toList_append
  rcases found.whole with begins | gone
  · have untrimmed := (begins.append ['/']).trimStart_blank
    have kept := (begins.append ['/']).trimStart_slash
    rw [untrimmed]
    refine referenceText_route plain ?_ kept
    rcases found.apart with bare | apart
    · rintro ⟨below, text⟩
      obtain ⟨first, others, start, shown, other⟩ := begins
      rw [toList_url_of_bare bare, start] at text
      rw [← (List.cons.inj text).1] at other
      cases other
    · have away := apart _ member
      rwa [lead, untrimmed] at away
  · have split : trimStart isBlank (e.route.toList ++ ['/']) =
        trimStart isBlank e.route.toList ++ ['/'] :=
      trimStart_append_of_self (trimStart_blank_slash []) e.route.toList
    have slashes : ∀ c ∈ trimStart isBlank e.route.toList ++ ['/'], isSlash c = true := by
      intro c among
      rcases List.mem_append.mp among with inside | last
      · exact List.dropWhile_eq_nil_iff.mp gone c inside
      · rw [List.mem_singleton.mp last]
        decide
    rw [split]
    refine referenceText_slashes plain found.unrouted _ slashes ?_
    rcases found.apart with bare | apart
    · rcases slashes_or_blank gone with all | ⟨c, rest, start, blank⟩
      · refine .inr fun c among => ?_
        rw [toList_url_of_bare bare] at among
        rcases List.mem_cons.mp among with rfl | inside
        · decide
        · exact all c inside
      · exact .inl (not_url_prefix_slashes bare plain slashes start blank)
    · have away := apart _ member
      rw [lead, split] at away
      exact .inl away

/-- A slash, the route, a slash and an entity. -/
theorem referenceText_slash_routed (found : e.Resolves entity)
    (plain : BeginsPlainly entity.toList) :
    e.referenceText ('/' :: (e.route.toList ++ '/' :: entity.toList)) = entity.toList := by
  rcases found.apart with bare | apart
  · have url := referenceText_url plain found.unrouted
    rwa [toList_url_of_bare bare] at url
  · have lead : ("/" ++ e.route ++ "/").toList = '/' :: (e.route.toList ++ ['/']) := by
      have slash : "/".toList = ['/'] := rfl
      simp [slash]
    have away := apart ("/" ++ e.route ++ "/") (by simp [relativeLeads])
    have text : '/' :: (e.route.toList ++ '/' :: entity.toList) =
        '/' :: (e.route.toList ++ ['/']) ++ entity.toList := by
      rw [List.cons_append, List.append_assoc, List.singleton_append]
    rw [lead, trimStart_blank_slash] at away
    rw [text]
    have behind : (∀ c ∈ e.route.toList.head?, isSlash c = false) → e.route.toList ≠ [] →
        trimStart isSlash ('/' :: (e.route.toList ++ ['/'])) = e.route.toList ++ ['/'] := by
      intro head nonempty
      rw [trimStart_slash_slash, trimStart_eq_self_iff, List.head?_append_of_ne_nil _ nonempty]
      exact head
    rcases found.whole with begins | gone
    · refine referenceText_route plain away (behind ?_ begins.ne_nil)
      exact trimStart_eq_self_iff.mp begins.trimStart_slash
    · rcases slashes_or_blank gone with all | ⟨c, rest, start, blank⟩
      · refine referenceText_slashes plain found.unrouted _ (fun d among => ?_) (.inl away)
        rcases List.mem_cons.mp among with rfl | inside
        · decide
        · rcases List.mem_append.mp inside with inner | last
          · exact all d inner
          · rw [List.mem_singleton.mp last]
            decide
      · refine referenceText_route plain away (behind ?_ ?_)
        · rw [start]
          rintro d ⟨⟩
          refine Bool.eq_false_iff.mpr fun slash => ?_
          rw [isSlash, beq_iff_eq] at slash
          rw [slash] at blank
          cases blank
        · rw [start]
          exact List.cons_ne_nil c rest

/-- The URL, a slash and an entity, without the blanks before them. -/
theorem referenceText_absolute (found : e.Resolves entity) (plain : BeginsPlainly entity.toList) :
    e.referenceText (trimStart isBlank (e.url.toList ++ ['/']) ++ entity.toList) =
      entity.toList := by
  have stops : trimStart isBlank ('/' :: (e.route.toList ++ ['/'])) = _ := trimStart_blank_slash _
  have split : trimStart isBlank (e.url.toList ++ ['/']) =
      trimStart isBlank e.base ++ '/' :: (e.route.toList ++ ['/']) := by
    rw [toList_url, List.append_assoc, List.cons_append, trimStart_append_of_self stops]
  rcases found.based with kept | gone
  · have whole : trimStart isBlank (e.url.toList ++ ['/']) = e.url.toList ++ ['/'] := by
      rw [split, kept, toList_url, List.append_assoc, List.cons_append]
    rw [whole, List.append_assoc, List.singleton_append]
    exact referenceText_url plain found.unrouted
  · rw [split, gone, List.nil_append, List.cons_append, List.append_assoc, List.singleton_append]
    exact found.referenceText_slash_routed plain

end Resolves

/-! ## Which references are resolved -/

/-- Whether a text begins plainly and ends with the bracket of a key. -/
structure IsEntity (cs : List Char) : Prop where
  plain : BeginsPlainly cs
  closed : cs.getLast? = some ')'

theorem IsEntity.trim_append (text : IsEntity entity) (lead : List Char) :
    trim isBlank (lead ++ entity) = trimStart isBlank lead ++ entity := by
  have last : ((trimStart isBlank lead ++ entity).reverse).head? = some ')' := by
    rw [List.head?_reverse, List.getLast?_append, text.closed, Option.some_or]
  have kept : (trimStart isBlank lead ++ entity).reverse.dropWhile isBlank =
      (trimStart isBlank lead ++ entity).reverse := by
    apply dropWhile_eq_self
    rw [last]
    rintro c ⟨⟩
    decide
  rw [trim, trimStart_append_of_self text.plain.trimStart_blank, trimEnd, kept,
    List.reverse_reverse]

/-- How many characters are no slashes. -/
def solid (cs : List Char) : Nat := cs.countP fun c => !isSlash c

theorem solid_append (cs ds : List Char) : solid (cs ++ ds) = solid cs + solid ds :=
  List.countP_append

theorem solid_slash (cs : List Char) : solid ('/' :: cs) = solid cs :=
  List.countP_cons_of_neg (by decide)

theorem solid_le_of_suffix {ds : List Char} (suffix : cs <:+ ds) : solid cs ≤ solid ds :=
  suffix.sublist.countP_le

theorem solid_eq_zero_iff : solid cs = 0 ↔ trimStart isSlash cs = [] := by
  rw [solid, List.countP_eq_zero, trimStart, List.dropWhile_eq_nil_iff]
  simp

theorem solid_trimStart_slash (cs : List Char) : solid (trimStart isSlash cs) = solid cs := by
  have slashes : solid (cs.takeWhile isSlash) = 0 := by
    rw [solid_eq_zero_iff, trimStart, List.dropWhile_eq_nil_iff]
    exact fun c among => List.mem_takeWhile_imp among
  rw [trimStart]
  conv => rhs; rw [← List.takeWhile_append_dropWhile (p := isSlash) (l := cs)]
  rw [solid_append, slashes, Nat.zero_add]

/-- Blanks are no slashes, so that none was taken off if as many other characters are left. -/
theorem trimStart_blank_of_solid (same : solid cs ≤ solid (trimStart isBlank cs)) :
    trimStart isBlank cs = cs := by
  cases cs with
  | nil => rfl
  | cons c rest =>
    cases blank : isBlank c with
    | false => exact List.dropWhile_cons_of_neg (by simp [blank])
    | true =>
      have other : isSlash c = false := by
        refine Bool.eq_false_iff.mpr fun slash => ?_
        rw [isSlash, beq_iff_eq] at slash
        rw [slash] at blank
        cases blank
      have dropped : trimStart isBlank (c :: rest) = trimStart isBlank rest :=
        List.dropWhile_cons_of_pos blank
      have more : solid (c :: rest) = solid rest + 1 :=
        List.countP_cons_of_pos (by simp [other])
      have fewer := solid_le_of_suffix (suffix_trimStart isBlank rest)
      rw [dropped, more] at same
      omega

/-- The base ends in no slash, so that a part at its end is not all slashes. -/
theorem solid_pos_of_suffix_base (given : cs ≠ []) (suffix : cs <:+ e.base) : 0 < solid cs := by
  rw [Nat.pos_iff_ne_zero, Ne, solid_eq_zero_iff, trimStart, List.dropWhile_eq_nil_iff]
  intro slashes
  obtain ⟨before, text⟩ := suffix
  have last : cs.getLast given ∈ e.base.getLast? := by
    rw [← text, List.getLast?_append_of_ne_nil _ given, List.getLast?_eq_some_getLast given]
    rfl
  rw [← Bool.true_eq_false, ← slashes _ (List.getLast_mem given)]
  exact isSlash_of_getLast?_base last

/-- What is left without the route is the text itself, or stands behind the route. -/
theorem withoutRoute_cases (left : e.withoutRoute cs = entity) :
    cs = entity ∨ ∃ below, cs = e.route.toList ++ below ∧ trimStart isSlash below = entity := by
  rw [withoutRoute] at left
  cases found : after? e.route.toList cs with
  | none =>
    rw [found] at left
    exact .inl left
  | some below =>
    rw [found] at left
    exact .inr ⟨below, after?_eq_some_iff.mp found, left⟩

/-- Where the URL comes first, an entity that is found stands behind it. -/
theorem suffix_behind_url {below : List Char} (text : e.url.toList ++ below = cs)
    (reads : e.referenceText cs = entity) : entity <:+ below := by
  rw [← reads, ← text]
  exact suffix_referenceText_append e below

theorem unrouted_of_reads (plain : BeginsPlainly entity)
    (reads : e.referenceText entity = entity) : e.Unrouted entity := by
  by_cases starts : e.url.toList <+: entity
  · obtain ⟨below, text⟩ := starts
    have short := (suffix_behind_url text reads).length_le
    have lengths := congrArg List.length text
    rw [toList_url, List.length_append, List.length_append, List.length_cons] at lengths
    omega
  · rw [referenceText_eq, afterUrl_of_apart starts, plain.trimStart_slash] at reads
    exact (withoutRoute_eq_self_iff plain).mp reads

theorem whole_of_reads
    (reads : e.referenceText (trimStart isBlank (e.route.toList ++ ['/']) ++ entity) = entity) :
    BeginsPlainly e.route.toList ∨ trimStart isSlash (trimStart isBlank e.route.toList) = [] := by
  refine or_iff_not_imp_right.mpr fun some => ?_
  have split : trimStart isBlank (e.route.toList ++ ['/']) ++ entity =
      trimStart isBlank e.route.toList ++ '/' :: entity := by
    rw [trimStart_append_of_self (trimStart_blank_slash []), List.append_assoc,
      List.singleton_append]
  have kept (cs : List Char) : trimStart isSlash (trimStart isBlank e.route.toList ++ cs) =
      trimStart isSlash (trimStart isBlank e.route.toList) ++ cs := by
    have stays : ¬ (List.dropWhile isSlash (trimStart isBlank e.route.toList)).isEmpty = true :=
      mt List.isEmpty_iff.mp some
    rw [trimStart, List.dropWhile_append, if_neg stays]
    rfl
  have fewer := solid_le_of_suffix (suffix_trimStart isBlank e.route.toList)
  rw [split] at reads
  by_cases starts : e.url.toList <+: trimStart isBlank e.route.toList ++ '/' :: entity
  · -- The URL is found only if it has no base, and then leaves a slash too few.
    exfalso
    obtain ⟨below, found⟩ := starts
    have suffix := suffix_behind_url found reads
    have more := solid_le_of_suffix suffix
    rw [toList_url] at found
    have counts := congrArg solid found
    simp only [solid_append, solid_slash] at counts
    have bare : e.base = [] := by
      by_contra based
      have := solid_pos_of_suffix_base based List.suffix_rfl
      omega
    have unpadded : trimStart isBlank e.route.toList = e.route.toList :=
      trimStart_blank_of_solid (by omega)
    have lengths := congrArg List.length found
    have below' := congrArg (fun cs => (trimStart isSlash cs).length) found
    rw [unpadded] at kept
    simp only [bare, unpadded, List.nil_append, List.cons_append, trimStart_slash_slash, kept,
      List.length_append, List.length_cons] at lengths below'
    omega
  · rw [referenceText_eq, afterUrl_of_apart starts, kept] at reads
    rcases withoutRoute_cases reads with same | ⟨below, found, rest⟩
    · have lengths := congrArg List.length same
      simp only [List.length_append, List.length_cons] at lengths
      omega
    · have counts := congrArg solid found
      simp only [solid_append, solid_slash, solid_trimStart_slash] at counts
      rw [← rest, solid_trimStart_slash] at counts
      have unpadded : trimStart isBlank e.route.toList = e.route.toList :=
        trimStart_blank_of_solid (by omega)
      rw [unpadded] at some found
      obtain ⟨c, others, route⟩ := List.exists_cons_of_ne_nil
        (l := e.route.toList) fun empty => some (by rw [empty]; rfl)
      obtain ⟨d, left, trimmed⟩ := List.exists_cons_of_ne_nil some
      refine ⟨c, others, route, ?_, ?_⟩
      · have first : c ∈ (trimStart isBlank e.route.toList).head? := by
          rw [unpadded, route]
          rfl
        exact head?_trimStart first
      · have same : d = c := by
          rw [trimmed, route] at found
          exact (List.cons.inj found).1
        have first : d ∈ (trimStart isSlash e.route.toList).head? := by
          rw [trimmed]
          rfl
        rw [← same]
        exact head?_trimStart first

theorem based_of_reads
    (reads : e.referenceText (trimStart isBlank (e.url.toList ++ ['/']) ++ entity) = entity) :
    trimStart isBlank e.base = e.base ∨ trimStart isBlank e.base = [] := by
  refine or_iff_not_imp_right.mpr fun some => trimStart_blank_of_solid ?_
  have stops : trimStart isBlank ('/' :: (e.route.toList ++ ['/'])) = _ := trimStart_blank_slash _
  have split : trimStart isBlank (e.url.toList ++ ['/']) ++ entity =
      trimStart isBlank e.base ++ '/' :: (e.route.toList ++ '/' :: entity) := by
    rw [toList_url, List.append_assoc, List.cons_append, trimStart_append_of_self stops,
      List.append_assoc, List.cons_append, List.append_assoc, List.singleton_append]
  have base := solid_pos_of_suffix_base some (suffix_trimStart isBlank e.base)
  rw [split] at reads
  by_cases starts :
      e.url.toList <+: trimStart isBlank e.base ++ '/' :: (e.route.toList ++ '/' :: entity)
  · obtain ⟨below, found⟩ := starts
    have more := solid_le_of_suffix (suffix_behind_url found reads)
    rw [toList_url] at found
    have counts := congrArg solid found
    simp only [solid_append, solid_slash] at counts
    omega
  · rw [referenceText_eq, afterUrl_of_apart starts] at reads
    rcases withoutRoute_cases reads with same | ⟨below, found, rest⟩
    · have counts := congrArg solid same
      simp only [solid_append, solid_slash, solid_trimStart_slash] at counts
      omega
    · have counts := congrArg solid found
      have behind := congrArg solid rest
      simp only [solid_append, solid_slash, solid_trimStart_slash] at counts behind
      omega

/-- No part of a relative reference is as long as a URL with a base, and the text of an entity. -/
theorem not_url_prefix_of_reads {entity : String} (based : e.base ≠ []) {lead : String}
    (relative : lead ∈ e.relativeLeads)
    (reads : e.referenceText (trimStart isBlank lead.toList ++ entity.toList) = entity.toList) :
    ¬ e.url.toList <+: trimStart isBlank lead.toList ++ entity.toList := by
  rintro ⟨below, text⟩
  have long := (suffix_behind_url text reads).length_le
  have slash : "/".toList = ['/'] := rfl
  by_cases last : lead = "/" ++ e.route ++ "/"
  · have routed : (e.routedAddress entity).toList = e.url.toList ++ below := by
      have shown : lead.toList = '/' :: (e.route.toList ++ ['/']) := by simp [last, slash]
      rw [text, shown, trimStart_blank_slash, toList_routedAddress]
      simp
    exact absurd (length_below_url_lt based routed) (by omega)
  · have short : lead.toList.length ≤ e.route.toList.length + 1 := by
      simp only [relativeLeads, List.mem_cons, List.not_mem_nil, or_false, last] at relative
      rcases relative with rfl | rfl | rfl <;> simp [slash]
    have trimmed := length_trimStart_le isBlank lead.toList
    have lengths := congrArg List.length text
    rw [toList_url] at lengths
    simp only [List.length_append, List.length_cons] at lengths
    have := List.length_pos_iff.mpr based
    omega

/-- Whether the text of an entity is found in each of its references. -/
def FindsEach (e : Endpoint) (entity : String) : Prop :=
  ∀ reference ∈ e.references entity,
    e.referenceText (trim isBlank reference.toList) = entity.toList

theorem findsEach_iff {entity : String} (text : IsEntity entity.toList) :
    e.FindsEach entity ↔ ∀ lead ∈ e.relativeLeads ++ [e.url ++ "/"],
      e.referenceText (trimStart isBlank lead.toList ++ entity.toList) = entity.toList := by
  rw [FindsEach, references, List.forall_mem_map]
  simp only [String.toList_append, text.trim_append]

/-- The text of an entity is found in each of its references exactly if the endpoint resolves it. -/
theorem findsEach_iff_resolves {entity : String} (text : IsEntity entity.toList) :
    e.FindsEach entity ↔ e.Resolves entity := by
  have slash : "/".toList = ['/'] := rfl
  rw [findsEach_iff text]
  constructor
  · intro reads
    have relative (lead : String) (among : lead ∈ e.relativeLeads) :=
      reads lead (List.mem_append_left _ among)
    have bare := relative "" (by simp [relativeLeads])
    have routed := relative (e.route ++ "/") (by simp [relativeLeads])
    have absolute := reads (e.url ++ "/") (by simp)
    rw [String.toList_append, slash] at routed absolute
    exact ⟨unrouted_of_reads text.plain bare,
      or_iff_not_imp_left.mpr fun based lead among =>
        not_url_prefix_of_reads based among (relative lead among),
      whole_of_reads routed, based_of_reads absolute⟩
  · intro found lead among
    simp only [relativeLeads, List.cons_append, List.nil_append, List.mem_cons, List.not_mem_nil,
      or_false] at among
    rcases among with rfl | rfl | rfl | rfl | rfl
    · exact found.referenceText_bare text.plain
    · exact found.referenceText_slash text.plain
    · rw [String.toList_append, slash]
      exact found.referenceText_routed text.plain
    · have lead : ("/" ++ e.route ++ "/").toList = '/' :: (e.route.toList ++ ['/']) := by
        simp [slash]
      rw [lead, trimStart_blank_slash, List.cons_append, List.append_assoc, List.singleton_append]
      exact found.referenceText_slash_routed text.plain
    · rw [String.toList_append, slash]
      exact found.referenceText_absolute text.plain

/-- What is taken off before the text of an entity has no bracket if the URL has none. -/
theorem exists_taken (clear : '(' ∉ e.url.toList) (cs : List Char) :
    ∃ taken, cs = taken ++ e.referenceText cs ∧ '(' ∉ taken := by
  have slashes (cs : List Char) :
      ∃ taken, cs = taken ++ trimStart isSlash cs ∧ '(' ∉ taken := by
    refine ⟨cs.takeWhile isSlash, List.takeWhile_append_dropWhile.symm, fun among => ?_⟩
    exact absurd (List.mem_takeWhile_imp among) (by decide)
  have url : ∃ taken, cs = taken ++ e.afterUrl cs ∧ '(' ∉ taken := by
    rw [afterUrl]
    cases found : after? e.url.toList cs with
    | none => exact slashes cs
    | some below =>
      obtain ⟨taken, text, free⟩ := slashes below
      refine ⟨e.url.toList ++ taken, ?_, by simp [clear, free]⟩
      rw [Option.getD_some, List.append_assoc, ← text]
      exact after?_eq_some_iff.mp found
  obtain ⟨first, text, free⟩ := url
  rw [toList_url, List.mem_append, List.mem_cons, not_or, not_or] at clear
  have route : ∃ taken, e.afterUrl cs = taken ++ e.withoutRoute (e.afterUrl cs) ∧ '(' ∉ taken := by
    rw [withoutRoute]
    split
    next below found =>
      obtain ⟨taken, rest, others⟩ := slashes below
      refine ⟨e.route.toList ++ taken, ?_, by simp [clear.2.2, others]⟩
      rw [List.append_assoc, ← rest]
      exact after?_eq_some_iff.mp found
    next => exact ⟨[], (List.nil_append _).symm, by simp⟩
  obtain ⟨second, rest, others⟩ := route
  refine ⟨first ++ second, ?_, by simp [free, others]⟩
  rw [List.append_assoc, referenceText_eq, ← rest]
  exact text

end Endpoint

namespace EntitySet

open Endpoint

variable {ctx : Context} {target : EntitySet}

/-- The text of an entity of a set. -/
def entityText (set : Identifier) (inner : String) : String := set.text ++ "(" ++ inner ++ ")"

theorem toList_entityText (set : Identifier) (inner : String) :
    (entityText set inner).toList = set.text.toList ++ '(' :: (inner.toList ++ [')']) := by
  have opening : "(".toList = ['('] := rfl
  have closing : ")".toList = [')'] := rfl
  simp [entityText, opening, closing]

theorem isEntity_entityText (set : Identifier) (inner : String) :
    IsEntity (entityText set inner).toList := by
  obtain ⟨c, run, chars, start, -⟩ := exists_chars_of_isIdentifier set.isIdentifier
  have letter := isNameChar_of_isNameStart c start
  constructor
  · rw [toList_entityText]
    refine BeginsPlainly.append ⟨c, run, chars, isBlank_of_isNameChar letter, ?_⟩ _
    exact ResourcePath.not_slash_of_isNameChar letter
  · rw [toList_entityText]
    simp [List.getLast?_append, List.getLast?_cons]

/-- A reference is read as that of the entity whose text is found in it. -/
theorem parseReference_of_found {set : Identifier} {inner reference : String}
    (found : ctx.config.endpoint.referenceText (trim isBlank reference.toList) =
      (entityText set inner).toList) :
    parseReference ctx target reference =
      if set = target.name then Key.parse target.entityType inner
      else .error (invalidReference reference
        ("expected an entity of '" ++ target.name.text ++ "'")) := by
  have named : (set.text = target.name.text) = (set = target.name) := by
    rw [eq_iff_iff]
    exact ⟨EntityType.Identifier.eq_of_text, congrArg Identifier.text⟩
  simp only [parseReference]
  rw [found, toList_entityText, splitFirst?_append (set.not_mem_text (by decide))]
  simp only [beforeLast?_eq_some_iff.mpr rfl, String.ofList_toList, named]

/-- A reference is accepted only if what is found in it is an entity of the set. -/
theorem exists_of_parseReference {reference : String} {read : Key}
    (accepted : parseReference ctx target reference = .ok read) :
    ∃ inner, ctx.config.endpoint.referenceText (trim isBlank reference.toList) =
        (entityText target.name inner).toList ∧
      Key.parse target.entityType inner = .ok read := by
  simp only [parseReference] at accepted
  split at accepted
  next => cases accepted
  next name rest first =>
    split at accepted
    next => cases accepted
    next inner last =>
      split at accepted
      next same =>
        refine ⟨String.ofList inner, ?_, accepted⟩
        rw [eq_of_splitFirst? first, beforeLast?_eq_some_iff.mp last, toList_entityText, ← same,
          String.toList_ofList, String.toList_ofList]
      next => cases accepted

/-- If the URL has no bracket, a reference to an entity of the set is accepted only where the text
of the entity is found in it. -/
theorem referenceText_of_parseReference {lead inner : String}
    (clear : '(' ∉ ctx.config.endpoint.url.toList) (outside : '(' ∉ lead.toList) {read : Key}
    (accepted : parseReference ctx target (lead ++ entityText target.name inner) = .ok read) :
    ctx.config.endpoint.referenceText
        (trim isBlank (lead ++ entityText target.name inner).toList) =
      (entityText target.name inner).toList := by
  obtain ⟨other, found, -⟩ := exists_of_parseReference accepted
  obtain ⟨taken, text, free⟩ := exists_taken clear
    (trim isBlank (lead ++ entityText target.name inner).toList)
  have trimmed : '(' ∉ trimStart isBlank lead.toList := fun among =>
    outside ((suffix_trimStart isBlank lead.toList).subset among)
  have name : '(' ∉ target.name.text.toList := target.name.not_mem_text (by decide)
  rw [String.toList_append, (isEntity_entityText target.name inner).trim_append] at found text ⊢
  rw [found, toList_entityText, toList_entityText, ← List.append_assoc, ← List.append_assoc] at text
  have rest := (eq_of_append_cons (by simp [trimmed, name]) (by simp [free, name]) text).2
  rw [found, toList_entityText, toList_entityText, rest]

theorem exists_lead_of_mem_references {e : Endpoint} {entity reference : String}
    (among : reference ∈ e.references entity) (clear : '(' ∉ e.url.toList) :
    ∃ lead, reference = lead ++ entity ∧ '(' ∉ lead.toList := by
  have slash : "/".toList = ['/'] := rfl
  have route : '(' ∉ e.route.toList := by
    rw [toList_url, List.mem_append, List.mem_cons, not_or, not_or] at clear
    exact clear.2.2
  obtain ⟨lead, member, rfl⟩ := List.mem_map.mp among
  refine ⟨lead, rfl, ?_⟩
  simp only [relativeLeads, List.cons_append, List.nil_append, List.mem_cons, List.not_mem_nil,
    or_false] at member
  rcases member with rfl | rfl | rfl | rfl | rfl <;> simp [slash, route, clear]

/-- Where the endpoint resolves an entity, each of its references is read as its key, and is refused
as a reference to an entity of another set. -/
theorem parseReference_of_resolves {set : Identifier} {inner reference : String}
    (resolves : ctx.config.endpoint.Resolves (entityText set inner))
    (among : reference ∈ ctx.config.endpoint.references (entityText set inner)) :
    parseReference ctx target reference =
      if set = target.name then Key.parse target.entityType inner
      else .error (invalidReference reference
        ("expected an entity of '" ++ target.name.text ++ "'")) :=
  parseReference_of_found
    ((findsEach_iff_resolves (isEntity_entityText set inner)).mpr resolves reference among)

/-- Where the name of a set is the route and the name of another set, its entities are taken for
those of the other. -/
theorem parseReference_of_route_append {set : Identifier} {inner : String}
    (name : set.text = ctx.config.endpoint.route ++ target.name.text)
    (apart : ¬ ctx.config.endpoint.url.toList <+: (entityText set inner).toList) :
    parseReference ctx target (entityText set inner) = Key.parse target.entityType inner := by
  have rest : (entityText set inner).toList =
      ctx.config.endpoint.route.toList ++ (entityText target.name inner).toList := by
    rw [toList_entityText, toList_entityText, name, String.toList_append, List.append_assoc]
  have plain := (isEntity_entityText target.name inner).plain
  have begins := (isEntity_entityText set inner).plain
  have found : ctx.config.endpoint.referenceText (trim isBlank (entityText set inner).toList) =
      (entityText target.name inner).toList := by
    have untrimmed := (isEntity_entityText set inner).trim_append []
    rw [List.nil_append, trimStart, List.dropWhile_nil, List.nil_append] at untrimmed
    rw [untrimmed, referenceText_eq, afterUrl_of_apart apart, begins.trimStart_slash,
      withoutRoute, rest, after?_append]
    exact plain.trimStart_slash
  rw [parseReference_of_found found, if_pos rfl]

/-- A reference to an entity is read as its key, whatever of the URL and the route stands before it,
if the endpoint resolves the text of the entity, and a reference that is so resolved is refused by
any other set.  Unless the URL has a bracket, one of the references is refused if the endpoint does
not resolve the entity. -/
theorem parseReference_references (ctx : Context) (target : EntitySet) {record : Record}
    {key : Key}
    (declared : target.entityType.Declared) (keyed : target.entityType.key ≠ [])
    (conforms : target.entityType.Conforms record)
    (made : Key.ofRecord target.entityType record = .ok key)
    (values : ∀ entry ∈ key.values, entry.2.isDouble = false ∧ entry.2.LexesBack) :
    (ctx.config.endpoint.Resolves (target.name.text ++ key.toText) →
      ∀ reference ∈ ctx.config.endpoint.references (target.name.text ++ key.toText),
        ∃ read, parseReference ctx target reference = .ok read ∧ key.Same read) ∧
    ('(' ∉ ctx.config.endpoint.url.toList →
      (∀ reference ∈ ctx.config.endpoint.references (target.name.text ++ key.toText),
        ∃ read, parseReference ctx target reference = .ok read) →
      ctx.config.endpoint.Resolves (target.name.text ++ key.toText)) ∧
    ∀ (set : Identifier) (inner : String), set ≠ target.name →
      ctx.config.endpoint.Resolves (set.text ++ "(" ++ inner ++ ")") →
      ∀ reference ∈ ctx.config.endpoint.references (set.text ++ "(" ++ inner ++ ")"),
        parseReference ctx target reference = .error (invalidReference reference
          ("expected an entity of '" ++ target.name.text ++ "'")) := by
  have text : target.name.text ++ key.toText = entityText target.name key.innerText := by
    rw [entityText, Key.toText_eq]
    simp only [String.append_assoc]
  rw [text]
  refine ⟨fun resolves reference among => ?_, fun clear accepted => ?_,
    fun set inner other resolves reference among => ?_⟩
  · rw [parseReference_of_resolves resolves among, if_pos rfl]
    exact Key.exists_parse_same declared keyed conforms made values
  · rw [← findsEach_iff_resolves (isEntity_entityText _ _)]
    intro reference among
    obtain ⟨read, parsed⟩ := accepted reference among
    obtain ⟨lead, rfl, outside⟩ := exists_lead_of_mem_references among clear
    exact referenceText_of_parseReference clear outside parsed
  · rw [parseReference_of_resolves resolves among, if_neg other]

/-! Labels of a service whose route begins the name of the set. -/

/-- A service at the root of its host, below the given name. -/
def contextBelow (space : String) : Context :=
  { Service.labelContext with
    config := { Config.standard with
      endpoint := { Endpoint.standard with mount := "", space := space } } }

def labelSet : EntitySet := ⟨Service.labels, none⟩

/-- Where the route is the name of the set, the route is taken off the entity itself. -/
theorem not_parseReference_setOfRoute :
    (Service.label.Declared ∧ Service.label.key ≠ [] ∧
      Service.label.Conforms (Service.labelled "so") ∧
      Key.ofRecord Service.label (Service.labelled "so") = .ok ⟨Service.labelled "so"⟩ ∧
      ∀ entry ∈ (Service.labelled "so"), entry.2.isDouble = false ∧ entry.2.LexesBack) ∧
    ¬ ∀ reference ∈ (contextBelow "Labels").config.endpoint.references "Labels('so')",
      ∃ read, parseReference (contextBelow "Labels") labelSet reference = .ok read := by
  have conforms : Service.label.Conforms (Service.labelled "so") := by
    intro property among
    rw [List.mem_singleton.mp among]
    exact ⟨_, rfl, rfl⟩
  have values : ∀ entry ∈ Service.labelled "so",
      entry.2.isDouble = false ∧ entry.2.LexesBack := by
    intro entry member
    rw [List.mem_singleton.mp member]
    exact ⟨rfl, Value.lexesBack_of_isSound rfl rfl rfl⟩
  refine ⟨⟨Service.declared_label, by decide, conforms, rfl, values⟩, fun accepted => ?_⟩
  have resolves : (contextBelow "Labels").config.endpoint.Resolves
      (labelSet.name.text ++ Key.toText ⟨Service.labelled "so"⟩) :=
    (parseReference_references (contextBelow "Labels") labelSet Service.declared_label (by decide)
      conforms rfl values).2.1 (by decide) accepted
  rcases resolves.unrouted with empty | apart
  · exact absurd empty (by decide)
  · exact apart (by decide +kernel)

end EntitySet

end OData
