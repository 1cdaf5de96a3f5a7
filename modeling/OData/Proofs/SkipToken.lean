import OData.Proofs.Json.Members
import OData.Proofs.Text.Base64Url
import OData.Proofs.Text.Pieces
import OData.SkipToken

/-!
# Skip tokens: reading what was written

A token whose numbers are of 64 bits is read back as itself (`decode_encode`), and the numbers of a
token that is read are of 64 bits.  Every text that is read is base 64 of a document that denotes
the token and states the first version.
-/

set_option autoImplicit false

namespace OData

/-- No digit of base 64 is blank. -/
theorem Text.isBlank_of_mem_encode {bytes : List UInt8} {c : Char}
    (member : c ∈ (Base64Url.encode bytes).toList) : isBlank c = false := by
  obtain ⟨n, small, rfl⟩ := Base64Url.mem_encode member
  have all : ∀ m ∈ List.range 64, isBlank (Base64Url.digit m) = false := by decide
  exact all n (List.mem_range.mpr small)

namespace SkipToken

open Json (compact quoted)
open Json.Raw (Stands)

/-- The largest number in a token is of 64 bits. -/
def Fits (t : SkipToken) : Prop := t.offset < 2 ^ 64 ∧ ∀ n ∈ t.remaining, n < 2 ^ 64

theorem compact_int (n : Nat) : compact (.int n) = toString n := rfl

theorem compact_str (s : String) : compact (.str s) = quoted s := rfl

def remainingText (remaining : Option Nat) : String :=
  match remaining with
  | some n => toString n
  | none => "null"

theorem compact_remaining (remaining : Option Nat) :
    compact ((remaining.map fun n => Json.int n).getD .null) = remainingText remaining := by
  cases remaining with
  | none => rfl
  | some n => exact compact_int n

theorem stands_remaining (remaining : Option Nat) : Stands (remainingText remaining) := by
  cases remaining with
  | none => exact Json.Raw.stands_null
  | some n => exact Json.Raw.stands_toString n

theorem asUnsigned?_int {n : Nat} (small : n < 2 ^ 64) : (Json.int n).asUnsigned? = some n := by
  rw [Json.asUnsigned?, if_pos (by omega), Int.toNat_natCast]

theorem optional?_remaining {remaining : Option Nat} (small : ∀ n ∈ remaining, n < 2 ^ 64) :
    (Json.ofText? (remainingText remaining)).bind (fun json => optional? json) =
      some remaining := by
  cases remaining with
  | none => rfl
  | some n =>
    have bound := small n rfl
    rw [remainingText, Json.ofText?_toString bound, Option.bind_some, optional?,
      asUnsigned?_int bound]
    · rfl
    · simp

/-- The members of a token as they are written. -/
def writtenMembers (t : SkipToken) : List (String × Json.Raw.Bytes) :=
  [("v", Text.Utf8.encode (toString version)), ("o", Text.Utf8.encode (toString t.offset)),
    ("r", Text.Utf8.encode (remainingText t.remaining)),
    ("h", Text.Utf8.encode (quoted t.fingerprint))]

theorem members?_toJson (t : SkipToken) :
    Json.Raw.members? (Text.Utf8.encode t.toJson.compact) = some t.writtenMembers := by
  rw [toJson, Json.Raw.members?_compact]
  · simp only [List.map_cons, List.map_nil, compact_int, compact_remaining, compact_str]
    rfl
  · intro member inside
    simp only [List.mem_cons, List.not_mem_nil, or_false] at inside
    rcases inside with rfl | rfl | rfl | rfl
    · exact Json.Raw.stands_toString version
    · exact Json.Raw.stands_toString t.offset
    · rw [compact_remaining]
      exact stands_remaining t.remaining
    · exact Json.Raw.stands_quoted t.fingerprint

theorem member?_of_filter {members : List (String × Json.Raw.Bytes)} {name : String}
    (text : String) (one : members.filter (·.1 == name) = [(name, Text.Utf8.encode text)]) :
    member? members name = (Json.ofText? text).map some := by
  rw [member?, one]
  simp only [Json.Raw.read?_encode]

theorem member?_version (t : SkipToken) :
    member? t.writtenMembers "v" = some (some (.int version)) := by
  rw [writtenMembers, member?_of_filter (toString version) (by simp),
    Json.ofText?_toString (by rw [version]; omega)]
  rfl

theorem member?_offset {t : SkipToken} (small : t.offset < 2 ^ 64) :
    member? t.writtenMembers "o" = some (some (.int t.offset)) := by
  rw [writtenMembers, member?_of_filter (toString t.offset) (by simp),
    Json.ofText?_toString small]
  rfl

theorem member?_remaining (t : SkipToken) :
    member? t.writtenMembers "r" = (Json.ofText? (remainingText t.remaining)).map some := by
  rw [writtenMembers, member?_of_filter (remainingText t.remaining) (by simp)]

theorem member?_fingerprint (t : SkipToken) :
    member? t.writtenMembers "h" = some (some (.str t.fingerprint)) := by
  rw [writtenMembers, member?_of_filter (quoted t.fingerprint) (by simp),
    Json.ofText?_quoted]
  rfl

theorem ofMembers?_of_members {members : List (String × Json.Raw.Bytes)} {v o r h : Json}
    {n : Nat} {t : SkipToken} (atV : member? members "v" = some (some v))
    (atO : member? members "o" = some (some o)) (atR : member? members "r" = some (some r))
    (atH : member? members "h" = some (some h)) (number : byte? v = some n)
    (offset : o.asUnsigned? = some t.offset) (remaining : optional? r = some t.remaining)
    (fingerprint : h.asString? = some t.fingerprint) : ofMembers? members = some (n, t) := by
  rw [ofMembers?, atV, atO, atR, atH]
  simp only [Option.bind_eq_bind, Option.bind_some, number, offset, Option.getD_some, remaining,
    fingerprint]

theorem ofMembers?_writtenMembers {t : SkipToken} (fits : t.Fits) :
    ofMembers? t.writtenMembers = some (version, t) := by
  have counted := optional?_remaining fits.2
  cases json : Json.ofText? (remainingText t.remaining) with
  | none => rw [json] at counted; cases counted
  | some r =>
    rw [json, Option.bind_some] at counted
    refine ofMembers?_of_members (member?_version t) (member?_offset fits.1) ?_
      (member?_fingerprint t) (by decide) (asUnsigned?_int fits.1) counted rfl
    rw [member?_remaining, json, Option.map_some]

/-- A token whose numbers are of 64 bits is read back as itself, whatever blanks stand around it. -/
theorem decode_padded (fault : String → String) {t : SkipToken} (fits : t.Fits)
    {before after : List Char}
    (start : ∀ c ∈ before, Text.isBlank c = true) (stop : ∀ c ∈ after, Text.isBlank c = true) :
    decode fault (String.ofList (before ++ t.encode.toList ++ after)) = .ok t := by
  have read : ofBytes? (Text.Utf8.encode t.toJson.compact) = some (version, t) := by
    rw [ofBytes?, members?_toJson]
    exact ofMembers?_writtenMembers fits
  rw [decode, encode, String.toList_ofList,
    Text.trim_append start (fun _ => Text.isBlank_of_mem_encode) stop, String.ofList_toList,
    Text.Base64Url.decode_encode]
  simp only [Option.bind_eq_bind, Option.bind_some, read, if_true]

theorem decode_encode (fault : String → String) {t : SkipToken} (fits : t.Fits) :
    decode fault t.encode = .ok t := by
  have none : ∀ c ∈ ([] : List Char), Text.isBlank c = true := by simp
  have padded := decode_padded fault fits none none
  rwa [List.nil_append, List.append_nil, String.ofList_toList] at padded

/-! ## Numbers of tokens -/

theorem lt_of_optional? {json : Json} {remaining : Option Nat}
    (read : optional? json = some remaining) : ∀ n ∈ remaining, n < 2 ^ 64 := by
  unfold optional? at read
  split at read
  next =>
    cases read
    nofun
  next =>
    obtain ⟨n, number, same⟩ := Option.map_eq_some_iff.mp read
    cases same
    rintro _ ⟨⟩
    exact Json.lt_of_asUnsigned? number

theorem fits_of_ofMembers? {members : List (String × Json.Raw.Bytes)} {v : Nat} {t : SkipToken}
    (read : ofMembers? members = some (v, t)) : t.Fits := by
  simp only [ofMembers?, Option.bind_eq_bind, Option.bind_eq_some_iff] at read
  obtain ⟨_, _, _, _, _, _, _, _, _, _, _, offset, _, _, _, remaining, _, _, _, _, _, _, same⟩ :=
    read
  cases same
  exact ⟨Json.lt_of_asUnsigned? offset, lt_of_optional? remaining⟩

theorem fits_of_ofItems? {items : List Json} {v : Nat} {t : SkipToken}
    (read : ofItems? items = some (v, t)) : t.Fits := by
  unfold ofItems? at read
  split at read
  next =>
    simp only [Option.bind_eq_bind, Option.bind_eq_some_iff] at read
    obtain ⟨_, _, _, offset, _, remaining, _, _, same⟩ := read
    cases same
    exact ⟨Json.lt_of_asUnsigned? offset, lt_of_optional? remaining⟩
  next => cases read

theorem fits_of_ofBytes? {bytes : Json.Raw.Bytes} {v : Nat} {t : SkipToken}
    (read : ofBytes? bytes = some (v, t)) : t.Fits := by
  rw [ofBytes?] at read
  split at read
  next => exact fits_of_ofMembers? read
  next =>
    obtain ⟨_, _, read⟩ := Option.bind_eq_some_iff.mp read
    obtain ⟨_, _, read⟩ := Option.bind_eq_some_iff.mp read
    exact fits_of_ofItems? read

/-- A text that is read is base 64 of bytes in which the first version is stated. -/
theorem exists_bytes_of_decode {fault : String → String} {text : String} {t : SkipToken}
    (read : decode fault text = .ok t) :
    ∃ bytes, Text.Base64Url.encode bytes = String.ofList (Text.trim Text.isBlank text.toList) ∧
      ofBytes? bytes = some (version, t) := by
  rw [decode] at read
  split at read
  next v token payload =>
    obtain ⟨bytes, taken, found⟩ := Option.bind_eq_some_iff.mp payload
    split at read
    next first =>
      cases read
      exact ⟨bytes, Text.Base64Url.encode_of_decode taken, first ▸ found⟩
    next => cases read
  next => cases read

/-- The numbers of a token that is read are of 64 bits. -/
theorem fits_of_decode {fault : String → String} {text : String} {t : SkipToken}
    (read : decode fault text = .ok t) : t.Fits := by
  obtain ⟨bytes, -, found⟩ := exists_bytes_of_decode read
  exact fits_of_ofBytes? found

/-! ## What a text denotes -/

/-- Whether an object has one member of a name, and it has a value. -/
def HasMember (members : List (String × Json.Raw.Bytes)) (name : String) (value : Json) : Prop :=
  ∃ raw, members.filter (·.1 == name) = [(name, raw)] ∧ Json.Raw.read? raw = some value

/-- How many more records are wanted, if that is bounded. -/
def remainingJson (remaining : Option Nat) : Json := (remaining.map fun n => Json.int n).getD .null

/-- Whether a document denotes a token of a version: it is an object with a member for each part,
of which the budget may be missing, or an array of the parts. -/
inductive Denotes (bytes : Json.Raw.Bytes) (v : Nat) (t : SkipToken) : Prop
  | object (members : List (String × Json.Raw.Bytes))
      (taken : Json.Raw.members? bytes = some members)
      (version : HasMember members "v" (.int v))
      (offset : HasMember members "o" (.int t.offset))
      (remaining : HasMember members "r" (remainingJson t.remaining) ∨
        "r" ∉ members.map Prod.fst ∧ t.remaining = none)
      (fingerprint : HasMember members "h" (.str t.fingerprint))
  | array (items : List Json.Raw.Bytes) (taken : Json.Raw.items? bytes = some items)
      (parts : items.mapM Json.Raw.read? =
        some [.int v, .int t.offset, remainingJson t.remaining, .str t.fingerprint])

theorem hasMember_of_member? {members : List (String × Json.Raw.Bytes)} {name : String}
    {value : Json} (read : member? members name = some (some value)) :
    HasMember members name value := by
  rw [member?] at read
  split at read
  next => cases read
  next other raw one =>
    obtain ⟨json, taken, same⟩ := Option.map_eq_some_iff.mp read
    cases same
    have named : (other, raw) ∈ members.filter (·.1 == name) := by simp [one]
    have same : other = name := by simpa using (List.mem_filter.mp named).2
    exact ⟨raw, same ▸ one, taken⟩
  next => cases read

theorem not_mem_of_member? {members : List (String × Json.Raw.Bytes)} {name : String}
    (read : member? members name = some none) : name ∉ members.map Prod.fst := by
  rw [member?] at read
  split at read
  next none =>
    intro member
    obtain ⟨found, inside, same⟩ := List.mem_map.mp member
    have kept := List.filter_eq_nil_iff.mp none found inside
    exact kept (by simp [same])
  next =>
    obtain ⟨_, _, same⟩ := Option.map_eq_some_iff.mp read
    cases same
  next => cases read

theorem eq_int_of_asUnsigned? {json : Json} {n : Nat} (read : json.asUnsigned? = some n) :
    json = .int n := by
  unfold Json.asUnsigned? at read
  split at read
  next m =>
    split at read
    next range =>
      cases read
      rw [Int.toNat_of_nonneg range.1]
    next => cases read
  next => cases read

theorem eq_int_of_byte? {json : Json} {n : Nat} (read : byte? json = some n) : json = .int n := by
  obtain ⟨m, number, read⟩ := Option.bind_eq_some_iff.mp read
  split at read
  next =>
    cases read
    exact eq_int_of_asUnsigned? number
  next => cases read

theorem eq_of_optional? {json : Json} {remaining : Option Nat}
    (read : optional? json = some remaining) : json = remainingJson remaining := by
  unfold optional? at read
  split at read
  next =>
    cases read
    rfl
  next =>
    obtain ⟨n, number, same⟩ := Option.map_eq_some_iff.mp read
    cases same
    exact eq_int_of_asUnsigned? number

theorem eq_str_of_asString? {json : Json} {s : String} (read : json.asString? = some s) :
    json = .str s := by
  unfold Json.asString? at read
  split at read
  next => cases read; rfl
  next => cases read

theorem denotes_of_ofMembers? {bytes : Json.Raw.Bytes} {members : List (String × Json.Raw.Bytes)}
    {v : Nat} {t : SkipToken} (taken : Json.Raw.members? bytes = some members)
    (read : ofMembers? members = some (v, t)) : Denotes bytes v t := by
  simp only [ofMembers?, Option.bind_eq_bind, Option.bind_eq_some_iff] at read
  obtain ⟨foundV, atV, v', rfl, n, version, foundO, atO, o, rfl, offset, number, foundR, atR,
    remaining, budget, foundH, atH, h, rfl, fingerprint, text, same⟩ := read
  cases same
  cases eq_int_of_byte? version
  cases eq_int_of_asUnsigned? number
  cases eq_str_of_asString? text
  refine .object members taken (hasMember_of_member? atV) (hasMember_of_member? atO) ?_
    (hasMember_of_member? atH)
  cases foundR with
  | none =>
    refine .inr ⟨not_mem_of_member? atR, ?_⟩
    cases budget
    rfl
  | some r =>
    cases eq_of_optional? budget
    exact .inl (hasMember_of_member? atR)

theorem denotes_of_ofBytes? {bytes : Json.Raw.Bytes} {v : Nat} {t : SkipToken}
    (read : ofBytes? bytes = some (v, t)) : Denotes bytes v t := by
  rw [ofBytes?] at read
  split at read
  next members taken => exact denotes_of_ofMembers? taken read
  next =>
    obtain ⟨items, taken, read⟩ := Option.bind_eq_some_iff.mp read
    obtain ⟨parts, values, read⟩ := Option.bind_eq_some_iff.mp read
    unfold ofItems? at read
    split at read
    next v o r h =>
      simp only [Option.bind_eq_bind, Option.bind_eq_some_iff] at read
      obtain ⟨_, version, _, offset, _, remaining, _, fingerprint, same⟩ := read
      cases same
      refine .array items taken ?_
      rw [values, eq_int_of_byte? version, eq_int_of_asUnsigned? offset,
        eq_of_optional? remaining, eq_str_of_asString? fingerprint]
    next => cases read

/-- A token and the documents of texts that are read: the token is read from its own text, whatever
blanks stand around it, and every text that is read states the first version. -/
theorem decode_faithful (fault : String → String) :
    (∀ (t : SkipToken) (before after : List Char), t.Fits →
      (∀ c ∈ before, Text.isBlank c = true) → (∀ c ∈ after, Text.isBlank c = true) →
      decode fault (String.ofList (before ++ t.encode.toList ++ after)) = .ok t) ∧
    ∀ (text : String) (t : SkipToken), decode fault text = .ok t →
      ∃ bytes, Text.Base64Url.encode bytes =
        String.ofList (Text.trim Text.isBlank text.toList) ∧ Denotes bytes 1 t := by
  refine ⟨fun t before after fits start stop => decode_padded fault fits start stop, ?_⟩
  intro text t read
  obtain ⟨bytes, same, found⟩ := exists_bytes_of_decode read
  exact ⟨bytes, same, denotes_of_ofBytes? found⟩

/-- The largest numbers, and characters that are escaped or take several bytes. -/
def largest : SkipToken := ⟨2 ^ 64 - 1, some (2 ^ 64 - 1), "\"ü😀\n"⟩

theorem decode_faithful_largest :
    largest.encode = "eyJ2IjoxLCJvIjoxODQ0Njc0NDA3MzcwOTU1MTYxNSwiciI6MTg0NDY3NDQwNzM3MDk1" ++
      "NTE2MTUsImgiOiJcIsO88J-YgFxuIn0" ∧
    decode (fun _ => "invalid token") ("\t " ++ largest.encode ++ "\u3000\n") = .ok largest ∧
    ∃ bytes, Text.Base64Url.encode bytes = largest.encode ∧ Denotes bytes 1 largest := by
  have fits : largest.Fits := by
    refine ⟨by decide, ?_⟩
    rintro _ ⟨⟩
    decide
  have start : ∀ c ∈ "\t ".toList, Text.isBlank c = true := List.all_eq_true.mp (by decide)
  have stop : ∀ c ∈ "\u3000\n".toList, Text.isBlank c = true := List.all_eq_true.mp (by decide)
  have solid : ∀ c ∈ largest.encode.toList, Text.isBlank c = false :=
    fun _ => Text.isBlank_of_mem_encode
  have padded : ("\t " ++ largest.encode ++ "\u3000\n").toList =
      "\t ".toList ++ largest.encode.toList ++ "\u3000\n".toList := by
    simp only [String.toList_append]
  have read := (decode_faithful fun _ => "invalid token").1 largest _ _ fits start stop
  rw [← padded, String.ofList_toList] at read
  obtain ⟨bytes, same, denotes⟩ := (decode_faithful _).2 _ _ read
  rw [padded, Text.trim_append start solid stop, String.ofList_toList] at same
  exact ⟨by decide +kernel, read, bytes, same, denotes⟩

end SkipToken

end OData
