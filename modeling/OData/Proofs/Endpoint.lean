import OData.Endpoint
import OData.Proofs.ResourcePath

/-!
# Addresses of an endpoint

The service writes a path as an address below its URL, or below its route.  Reading an address
takes the URL off, and then the route, whether or not the URL was there: a path whose own
segments begin with those of the route loses them.  What is left of both forms of an address is
the path itself exactly if the endpoint recognizes it in the sense of `Recognizes`.
-/

set_option autoImplicit false

namespace OData

namespace Endpoint

open Text

variable {e : Endpoint} {path : String}

/-! ## The steps of the reading -/

/-- The base of the URL without the slashes at its end. -/
def base (e : Endpoint) : List Char := trimEnd isSlash e.baseUrl.toList

theorem toList_url (e : Endpoint) : e.url.toList = e.base ++ '/' :: e.route.toList := by
  have slash : "/".toList = ['/'] := rfl
  simp [url, base, slash]

theorem isSlash_of_getLast?_base {c : Char} (last : c ∈ e.base.getLast?) : isSlash c = false := by
  rw [base, trimEnd, List.getLast?_reverse] at last
  exact head?_trimStart (p := isSlash) last

/-- Whether a path begins with the segments of the route. -/
def isRouted (e : Endpoint) (path : String) : Bool :=
  match Text.after? e.route.toList path.toList with
  | some below => endsSegment below
  | none => false

/-- Drops the segments of the route. -/
def afterRoute (e : Endpoint) (cs : List Char) : List Char :=
  match Text.after? e.route.toList cs with
  | some below => if endsSegment below then below else cs
  | none => cs

theorem toList_resourcePath (e : Endpoint) (path : String) :
    (e.resourcePath path).toList = trimStart isSlash (e.afterRoute (e.afterUrl path.toList)) := by
  rw [resourcePath, String.toList_ofList]
  cases found : after? e.route.toList (e.afterUrl path.toList) <;> simp only [afterRoute, found]

/-! ## What is left of a path below the service -/

/-- Whether a path begins with no slash. -/
def IsRelative (path : String) : Prop :=
  ∀ c ∈ path.toList.head?, isSlash c = false

theorem trimStart_eq_self_iff {cs : List Char} :
    trimStart isSlash cs = cs ↔ ∀ c ∈ cs.head?, isSlash c = false := by
  constructor
  · intro same c head
    rw [← same] at head
    exact head?_trimStart head
  · exact dropWhile_eq_self

theorem suffix_afterUrl (e : Endpoint) (cs : List Char) : e.afterUrl cs <:+ cs := by
  rw [afterUrl]
  cases found : after? e.url.toList cs with
  | none => exact suffix_trimStart isSlash cs
  | some below =>
    rw [after?_eq_some_iff] at found
    rw [found]
    exact (suffix_trimStart isSlash below).trans (List.suffix_append _ below)

theorem suffix_afterRoute (e : Endpoint) (cs : List Char) : e.afterRoute cs <:+ cs := by
  rw [afterRoute]
  split
  next below found =>
    rw [after?_eq_some_iff] at found
    split
    · rw [found]
      exact List.suffix_append _ below
    · exact List.suffix_refl cs
  next => exact List.suffix_refl cs

/-- The path of a resource is the end of the path of the request. -/
theorem suffix_resourcePath (e : Endpoint) (path : String) :
    (e.resourcePath path).toList <:+ path.toList := by
  rw [toList_resourcePath]
  exact (suffix_trimStart isSlash _).trans ((suffix_afterRoute e _).trans (suffix_afterUrl e _))

theorem length_afterRoute_le (e : Endpoint) (cs : List Char) :
    (e.afterRoute cs).length ≤ cs.length :=
  (suffix_afterRoute e cs).length_le

/-- A path that begins with the segments of the route is cut. -/
theorem afterRoute_of_isRouted (routed : e.isRouted path = true) :
    ∃ below, path.toList = e.route.toList ++ below ∧ e.afterRoute path.toList = below ∧
      endsSegment below = true := by
  rw [isRouted] at routed
  cases found : after? e.route.toList path.toList with
  | none =>
    rw [found] at routed
    cases routed
  | some below =>
    rw [found] at routed
    have ends : endsSegment below = true := routed
    refine ⟨below, after?_eq_some_iff.mp found, ?_, ends⟩
    simp only [afterRoute, found]
    rw [if_pos ends]

theorem afterRoute_of_not_isRouted (routed : e.isRouted path = false) :
    e.afterRoute path.toList = path.toList := by
  rw [isRouted] at routed
  rw [afterRoute]
  cases found : after? e.route.toList path.toList with
  | none => rfl
  | some below =>
    rw [found] at routed
    have inside : endsSegment below = false := routed
    simp only
    rw [if_neg (by rw [inside]; exact Bool.false_ne_true)]

theorem endsSegment_eq_false {cs : List Char} (given : cs ≠ [])
    (head : ∀ c ∈ cs.head?, isSlash c = false) : endsSegment cs = false := by
  cases cs with
  | nil => exact absurd rfl given
  | cons c rest => exact head c rfl

/-- Taking slashes and the route off a path leaves it as it is if there are none to take. -/
theorem trimStart_afterRoute_iff (given : path ≠ "") :
    trimStart isSlash (e.afterRoute (trimStart isSlash path.toList)) = path.toList ↔
      IsRelative path ∧ e.isRouted path = false := by
  constructor
  · intro same
    have shorter : path.toList.length ≤ (trimStart isSlash path.toList).length := by
      calc path.toList.length
          = (trimStart isSlash (e.afterRoute (trimStart isSlash path.toList))).length := by
            rw [same]
        _ ≤ (e.afterRoute (trimStart isSlash path.toList)).length := length_trimStart_le _ _
        _ ≤ (trimStart isSlash path.toList).length := length_afterRoute_le e _
    have whole : trimStart isSlash path.toList = path.toList :=
      (List.dropWhile_sublist isSlash).eq_of_length_le shorter
    have relative : IsRelative path := trimStart_eq_self_iff.mp whole
    refine ⟨relative, Bool.eq_false_iff.mpr fun routed => ?_⟩
    obtain ⟨below, text, cut, ends⟩ := afterRoute_of_isRouted routed
    rw [whole, cut] at same
    -- What is below the route is as long as the path only if the route is empty.
    have long : path.toList.length ≤ below.length := by
      rw [← same]
      exact length_trimStart_le _ _
    have empty : e.route.toList = [] := by
      rw [text, List.length_append] at long
      exact List.eq_nil_of_length_eq_zero (by omega)
    rw [empty, List.nil_append] at text
    have nonempty : path.toList ≠ [] := fun nil => given (String.toList_eq_nil_iff.mp nil)
    rw [← text, endsSegment_eq_false nonempty relative] at ends
    cases ends
  · rintro ⟨relative, routed⟩
    rw [trimStart_eq_self_iff.mpr relative, afterRoute_of_not_isRouted routed,
      trimStart_eq_self_iff.mpr relative]

/-- The text of a path that was read begins with no slash. -/
theorem isRelative_of_parse {text : String} {read : ResourcePath}
    (parsed : ResourcePath.parse text = .ok read) : IsRelative read.toText :=
  (ResourcePath.wellFormed_of_parse parsed).1.not_slash_of_head?

/-! ## Absolute addresses -/

/-- The address of a path below the URL of the service. -/
def address (e : Endpoint) (path : String) : String := e.url ++ "/" ++ path

theorem afterUrl_address (e : Endpoint) (path : String) :
    e.afterUrl (e.address path).toList = trimStart isSlash path.toList := by
  have slash : "/".toList = ['/'] := rfl
  have text : (e.address path).toList = e.url.toList ++ '/' :: path.toList := by
    simp [address, slash]
  rw [afterUrl, text, after?_append, Option.getD_some, trimStart,
    List.dropWhile_cons_of_pos (by decide), trimStart]

theorem resourcePath_address_iff (given : path ≠ "") :
    e.resourcePath (e.address path) = path ↔ IsRelative path ∧ e.isRouted path = false := by
  rw [← String.toList_inj, toList_resourcePath, afterUrl_address, trimStart_afterRoute_iff given]

theorem resourcePath_url {e : Endpoint} {path : String} (routed : e.isRouted path = false)
    (head : ∀ c ∈ path.toList.head?, isSlash c = false) :
    e.resourcePath (e.url ++ "/" ++ path) = path := by
  rw [← String.toList_inj, toList_resourcePath]
  have below : e.afterUrl (e.url ++ "/" ++ path).toList = _ := afterUrl_address e path
  rw [below, trimStart_eq_self_iff.mpr head, afterRoute_of_not_isRouted routed,
    trimStart_eq_self_iff.mpr head]

/-! ## Addresses below the route -/

/-- The address of a path below the route. -/
def routedAddress (e : Endpoint) (path : String) : String := "/" ++ e.route ++ "/" ++ path

theorem toList_routedAddress (e : Endpoint) (path : String) :
    (e.routedAddress path).toList = '/' :: (e.route.toList ++ '/' :: path.toList) := by
  have slash : "/".toList = ['/'] := rfl
  simp [routedAddress, slash]

/-- Without a base both addresses are one. -/
theorem routedAddress_eq_address (bare : e.base = []) (path : String) :
    e.routedAddress path = e.address path := by
  have slash : "/".toList = ['/'] := rfl
  rw [← String.toList_inj, toList_routedAddress]
  simp [address, toList_url, bare, slash]

/-- A URL that is found in a routed address takes a part of the path with it. -/
theorem length_below_url_lt (based : e.base ≠ []) {below : List Char}
    (found : (e.routedAddress path).toList = e.url.toList ++ below) :
    below.length < path.toList.length := by
  rw [toList_routedAddress, toList_url] at found
  have lengths := congrArg List.length found
  simp only [List.length_cons, List.length_append] at lengths
  have long : 2 ≤ e.base.length := by
    cases text : e.base with
    | nil => exact absurd text based
    | cons c rest =>
      cases rest with
      | cons d rest => simp
      | nil =>
        -- The address begins with a slash, and the base ends in none.
        rw [text] at found
        have slash : '/' = c := (List.cons.inj found).1
        have other : isSlash c = false := isSlash_of_getLast?_base (by rw [text]; rfl)
        rw [← slash] at other
        cases other
  omega

/-- Whether slashes before the route leave it as it is, or nothing of it. -/
def IsPlainRoute (e : Endpoint) : Prop :=
  (∀ c ∈ e.route.toList.head?, isSlash c = false) ∨ ∀ c ∈ e.route.toList, isSlash c = true

/-- A route that slashes begin is no part of what none begins. -/
theorem afterRoute_of_head {cs : List Char} (slashed : ∀ c ∈ e.route.toList.head?, isSlash c = true)
    (head : ∀ c ∈ cs.head?, isSlash c = false) : e.afterRoute cs = cs := by
  rw [afterRoute]
  split
  next below found =>
    rw [after?_eq_some_iff] at found
    cases text : e.route.toList with
    | nil =>
      rw [text, List.nil_append] at found
      rw [found, ite_self]
    | cons c rest =>
      rw [text] at slashed
      rw [text, List.cons_append] at found
      have other : isSlash c = false := head c (by rw [found]; rfl)
      rw [slashed c rfl] at other
      cases other
  next => rfl

/-- What is left of a path behind the route and a slash. -/
def belowRoute (e : Endpoint) (path : String) : List Char :=
  trimStart isSlash (e.afterRoute (trimStart isSlash (e.route.toList ++ '/' :: path.toList)))

/-- A route of slashes goes with the slashes before the path. -/
theorem belowRoute_of_slashes (slashes : ∀ c ∈ e.route.toList, isSlash c = true) :
    e.belowRoute path = trimStart isSlash path.toList := by
  have whole : ∀ c ∈ e.route.toList ++ ['/'], isSlash c = true := by
    intro c member
    rcases List.mem_append.mp member with inside | last
    · exact slashes c inside
    · rw [List.mem_singleton.mp last]
      decide
  have left : trimStart isSlash (e.route.toList ++ '/' :: path.toList) =
      trimStart isSlash path.toList := by
    rw [← trimStart_append whole path.toList, List.append_assoc, List.singleton_append]
  have kept : e.afterRoute (trimStart isSlash path.toList) = trimStart isSlash path.toList :=
    afterRoute_of_head (fun c head => slashes c (List.mem_of_mem_head? head))
      fun c => head?_trimStart
  rw [belowRoute, left, kept, trimStart_eq_self_iff.mpr fun c => head?_trimStart]

/-- A route that no slash begins is taken off, and the slash after it. -/
theorem belowRoute_of_head (head : ∀ c ∈ e.route.toList.head?, isSlash c = false)
    (nonempty : e.route.toList ≠ []) : e.belowRoute path = trimStart isSlash path.toList := by
  have whole : trimStart isSlash (e.route.toList ++ '/' :: path.toList) =
      e.route.toList ++ '/' :: path.toList := by
    rw [trimStart_eq_self_iff, List.head?_append_of_ne_nil _ nonempty]
    exact head
  have below : e.afterRoute (e.route.toList ++ '/' :: path.toList) = '/' :: path.toList := by
    rw [afterRoute, after?_append]
    rfl
  rw [belowRoute, whole, below, trimStart, List.dropWhile_cons_of_pos (by decide), trimStart]

/-- What the slashes leave of a route stays before the path. -/
theorem length_lt_belowRoute (path : String)
    (slashed : ∀ c ∈ e.route.toList.head?, isSlash c = true)
    (mixed : ¬ ∀ c ∈ e.route.toList, isSlash c = true) :
    path.toList.length < (e.belowRoute path).length := by
  have stays : (e.route.toList.dropWhile isSlash).isEmpty = false := by
    rw [List.isEmpty_eq_false_iff]
    exact fun nil => mixed (List.dropWhile_eq_nil_iff.mp nil)
  have left : trimStart isSlash (e.route.toList ++ '/' :: path.toList) =
      trimStart isSlash e.route.toList ++ '/' :: path.toList := by
    rw [trimStart, List.dropWhile_append, stays, if_neg Bool.false_ne_true, trimStart]
  rw [belowRoute, afterRoute_of_head slashed fun c => head?_trimStart,
    trimStart_eq_self_iff.mpr fun c => head?_trimStart, left, List.length_append, List.length_cons]
  omega

theorem belowRoute_iff : e.belowRoute path = path.toList ↔ IsRelative path ∧ e.IsPlainRoute := by
  by_cases slashes : ∀ c ∈ e.route.toList, isSlash c = true
  · rw [belowRoute_of_slashes slashes, trimStart_eq_self_iff]
    exact ⟨fun relative => ⟨relative, .inr slashes⟩, And.left⟩
  · obtain ⟨c, rest, text⟩ : ∃ c rest, e.route.toList = c :: rest :=
      List.exists_cons_of_ne_nil fun nil => slashes (by simp [nil])
    have first (good : Bool) (same : isSlash c = good) :
        ∀ d ∈ e.route.toList.head?, isSlash d = good := by
      rw [text]
      rintro d ⟨⟩
      exact same
    cases slash : isSlash c with
    | true =>
      have long := length_lt_belowRoute path (first true slash) slashes
      refine iff_of_false (fun same => ?_) fun holds => ?_
      · rw [same] at long
        exact lt_irrefl _ long
      · rcases holds.2 with head | all
        · exact absurd (head c (by rw [text]; rfl)) (by rw [slash]; decide)
        · exact slashes all
    | false =>
      rw [belowRoute_of_head (first false slash) (by rw [text]; exact List.cons_ne_nil c rest),
        trimStart_eq_self_iff]
      exact ⟨fun relative => ⟨relative, .inl (first false slash)⟩, And.left⟩

theorem toList_resourcePath_routedAddress
    (apart : ¬ e.url.toList <+: (e.routedAddress path).toList) :
    (e.resourcePath (e.routedAddress path)).toList = e.belowRoute path := by
  rw [toList_resourcePath, afterUrl, after?_eq_none_iff.mpr apart, Option.getD_none,
    toList_routedAddress, trimStart, trimStart, List.dropWhile_cons_of_pos (by decide)]
  rfl

theorem length_resourcePath_lt (based : e.base ≠ [])
    (starts : e.url.toList <+: (e.routedAddress path).toList) :
    (e.resourcePath (e.routedAddress path)).toList.length < path.toList.length := by
  obtain ⟨below, found⟩ := starts
  rw [toList_resourcePath, afterUrl, ← found, after?_append, Option.getD_some]
  calc (trimStart isSlash (e.afterRoute (trimStart isSlash below))).length
      ≤ (e.afterRoute (trimStart isSlash below)).length := length_trimStart_le _ _
    _ ≤ (trimStart isSlash below).length := length_afterRoute_le e _
    _ ≤ below.length := length_trimStart_le _ _
    _ < path.toList.length := length_below_url_lt based found.symm

theorem resourcePath_routedAddress_iff (path : String) (based : e.base ≠ []) :
    e.resourcePath (e.routedAddress path) = path ↔
      ¬ e.url.toList <+: (e.routedAddress path).toList ∧ IsRelative path ∧ e.IsPlainRoute := by
  by_cases starts : e.url.toList <+: (e.routedAddress path).toList
  · refine iff_of_false (fun same => ?_) fun apart => apart.1 starts
    have short := length_resourcePath_lt based starts
    rw [same] at short
    exact lt_irrefl _ short
  · rw [← String.toList_inj, toList_resourcePath_routedAddress starts, belowRoute_iff,
      and_iff_right starts]

/-! ## Both addresses -/

/-- Whether an endpoint reads a path from its addresses. -/
structure Recognizes (e : Endpoint) (path : String) : Prop where
  relative : IsRelative path
  unrouted : e.isRouted path = false
  /-- No part of a routed address is taken for the URL, or for slashes before the path. -/
  routed : e.base = [] ∨ ¬ e.url.toList <+: (e.routedAddress path).toList ∧ e.IsPlainRoute

/-- Reading both addresses of a path gives the path back exactly if the endpoint recognizes it: if
the path begins neither with a slash nor with the segments of the route, and nothing in the routed
address is taken for the URL of the service or for slashes before the path. -/
theorem resourcePath_addresses_iff (e : Endpoint) (path : ResourcePath)
    (given : path.toText ≠ "") :
    (e.resourcePath (e.url ++ "/" ++ path.toText) = path.toText ∧
      e.resourcePath ("/" ++ e.route ++ "/" ++ path.toText) = path.toText) ↔
      e.Recognizes path.toText := by
  have absolute := resourcePath_address_iff (e := e) given
  rw [address] at absolute
  by_cases bare : e.base = []
  · have same : "/" ++ e.route ++ "/" ++ path.toText = e.url ++ "/" ++ path.toText :=
      routedAddress_eq_address bare path.toText
    rw [same, and_self, absolute]
    exact ⟨fun holds => ⟨holds.1, holds.2, .inl bare⟩,
      fun recognizes => ⟨recognizes.relative, recognizes.unrouted⟩⟩
  · have below := resourcePath_routedAddress_iff path.toText bare
    rw [routedAddress] at below
    rw [absolute, below]
    constructor
    · rintro ⟨⟨relative, unrouted⟩, apart, -, plain⟩
      exact ⟨relative, unrouted, .inr ⟨apart, plain⟩⟩
    · rintro ⟨relative, unrouted, bare' | ⟨apart, plain⟩⟩
      · exact absurd bare' bare
      · exact ⟨⟨relative, unrouted⟩, apart, relative, plain⟩

/-- A service at the root of its host. -/
def petsService : Endpoint :=
  { standard with mount := "", space := "Pets" }

/-- Where the route is the name of an entity set, the address of the set is read as that of the
service. -/
theorem not_recognizes_setOfRoute :
    (ResourcePath.resource [⟨"Pets", none⟩] none).toText ≠ "" ∧
      ¬ (petsService.resourcePath
            (petsService.url ++ "/" ++ (ResourcePath.resource [⟨"Pets", none⟩] none).toText) =
          (ResourcePath.resource [⟨"Pets", none⟩] none).toText ∧
        petsService.resourcePath ("/" ++ petsService.route ++ "/" ++
            (ResourcePath.resource [⟨"Pets", none⟩] none).toText) =
          (ResourcePath.resource [⟨"Pets", none⟩] none).toText) := by
  have given : (ResourcePath.resource [⟨"Pets", none⟩] none).toText ≠ "" := by decide
  refine ⟨given, fun back => ?_⟩
  have recognizes := (resourcePath_addresses_iff petsService _ given).mp back
  exact absurd recognizes.unrouted (by decide)

end Endpoint

end OData
