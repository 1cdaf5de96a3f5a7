import OData.Proofs.Endpoint
import OData.Proofs.Options.Roundtrip
import OData.Proofs.Text.Form
import OData.Proofs.Text.Pieces
import OData.Service.Basic
import OData.Transaction

/-!
# Transactions: requests that are read

A request is split at the first question mark and its query into pairs, from which the options are
read.  The pairs are read in order and none but the last skip token counts, so that the request with
another skip token behind the other pairs has the same options apart from the token.

The link to the next page has the parameters of the request without their skip token, and the token
of the next page behind them.  No question mark comes before its query: a path that was read has no
other characters than the path of the request, which ends at the first one.
-/

set_option autoImplicit false

namespace OData

/-! ## Skip tokens among the pairs -/

namespace QueryOptions

variable {limits : QueryLimits}

/-- An option other than the skip token is read in the same way whatever the token is. -/
theorem readPair_withToken {name : String} (other : name ≠ Request.skipTokenName) (value : String)
    (o : QueryOptions) (token : Option String) :
    readPair limits { o with skipToken := token } name value =
      (readPair limits o name value).map fun after => { after with skipToken := token } := by
  rw [readPair.eq_def, readPair.eq_def]
  split
  · cases limits.checkFilterLength value with
    | error => rfl
    | ok => cases Expr.parse value <;> rfl
  · cases parseOrderBy value <;> rfl
  · cases parseSelect value <;> rfl
  · cases parseExpand value <;> rfl
  · cases parseUnsigned value <;> rfl
  · cases parseUnsigned value <;> rfl
  · cases parseBool value <;> rfl
  · exact absurd rfl other
  · split <;> rfl

/-- The pairs without their skip tokens, and another one behind them, are read as the same options
with this token. -/
theorem readPairs_resumed (token : String) {pairs : List (String × String)} :
    ∀ {seen : List String} {o last : QueryOptions} (old : Option String),
      readPairs limits seen o pairs = .ok last →
        readPairs limits (seen.filter (· != Request.skipTokenName)) { o with skipToken := old }
          (pairs.filter (·.1 != Request.skipTokenName) ++ [(Request.skipTokenName, token)]) =
            .ok { last with skipToken := some token } := by
  induction pairs with
  | nil =>
    intro seen o last old read
    cases read
    have unseen : (seen.filter (· != Request.skipTokenName)).contains Request.skipTokenName =
        false := by simp
    rw [List.filter_nil, List.nil_append, readPairs, if_pos (by decide), unseen]
    rfl
  | cons pair rest ih =>
    obtain ⟨name, value⟩ := pair
    intro seen o last old read
    rw [readPairs] at read
    by_cases skips : name = Request.skipTokenName
    · -- The old token is dropped, and its name is not seen any more.
      subst skips
      rw [if_pos (by decide)] at read
      split at read
      next => cases read
      next =>
        have dropped := ih old read
        simpa using dropped
    · have keeps : (name != Request.skipTokenName) = true := bne_iff_ne.mpr skips
      have first : ((name, value) :: rest).filter (·.1 != Request.skipTokenName) =
          (name, value) :: rest.filter (·.1 != Request.skipTokenName) :=
        List.filter_cons_of_pos keeps
      rw [first, List.cons_append, readPairs]
      split at read
      next option =>
        rw [if_pos option]
        split at read
        next => cases read
        next unseen =>
          obtain ⟨after, taken, later⟩ := Result.bind_eq_ok.mp read
          have fresh : (seen.filter (· != Request.skipTokenName)).contains name = false := by
            simpa using fun among => absurd among (by simpa using unseen)
          have names : (name :: seen).filter (· != Request.skipTokenName) =
              name :: seen.filter (· != Request.skipTokenName) := List.filter_cons_of_pos keeps
          rw [fresh, readPair_withToken skips, taken, ← ih old later, names]
          rfl
      next plain =>
        rw [if_neg plain]
        exact ih old read

/-- The limits do not depend on the skip token, either. -/
theorem ofPairs_resumed (token : String) {pairs : List (String × String)} {o : QueryOptions}
    (read : ofPairs limits pairs = .ok o) :
    ofPairs limits
        (pairs.filter (·.1 != Request.skipTokenName) ++ [(Request.skipTokenName, token)]) =
      .ok { o with skipToken := some token } := by
  obtain ⟨last, all, checked⟩ := Result.bind_eq_ok.mp read
  obtain ⟨⟨⟩, within, same⟩ := Result.bind_eq_ok.mp checked
  cases same
  have resumed := readPairs_resumed token none all
  rw [← QueryLimits.check_withToken 0 o (some token)] at within
  refine Result.bind_eq_ok.mpr ⟨_, resumed, Result.bind_eq_ok.mpr ⟨(), within, rfl⟩⟩

end QueryOptions

/-! ## Requests -/

namespace Transaction

theorem splitUri_eq {uri : String} (absent : '?' ∉ uri.toList) : splitUri uri = (uri, "") := by
  rw [splitUri, Text.splitFirst?_eq_none absent]

theorem splitUri_append {address : String} (absent : '?' ∉ address.toList) (query : String) :
    splitUri (address ++ "?" ++ query) = (address, query) := by
  have mark : "?".toList = ['?'] := rfl
  have text : (address ++ "?" ++ query).toList = address.toList ++ '?' :: query.toList := by
    simp [mark]
  rw [splitUri, text, Text.splitFirst?_append absent]
  simp only [String.ofList_toList]

/-- No question mark stands in the path of a request. -/
theorem not_mem_splitUri (uri : String) : '?' ∉ (splitUri uri).1.toList := by
  rw [splitUri]
  split
  next path query found =>
    rw [String.toList_ofList]
    exact Text.not_mem_of_splitFirst? found
  next none => exact Text.not_mem_of_splitFirst?_eq_none none

/-- A request without a query has no options. -/
theorem ofUri_eq_ok (limits : QueryLimits) (method : Method) {uri : String}
    (body : Option Json) (drawn : Guid) (absent : '?' ∉ uri.toList) :
    ofUri limits method uri body drawn =
      .ok ⟨⟨method, uri, [], body⟩, QueryOptions.empty, 0, drawn⟩ := by
  have pairs : Text.Form.decodePairs "" = [] := by decide
  have options : QueryOptions.ofPairs limits [] = .ok QueryOptions.empty := by
    have depth : limits.checkExpandDepth 0 = .ok () := by
      simp [QueryLimits.checkExpandDepth, QueryLimits.require]
    have fields : limits.checkOrderBy 0 = .ok () := by
      simp [QueryLimits.checkOrderBy, QueryLimits.require]
    have within : limits.check 0 QueryOptions.empty = .ok () := by
      rw [QueryOptions.empty, QueryLimits.check, depth, List.length_nil, fields]
      rfl
    rw [QueryOptions.ofPairs, QueryOptions.readPairs]
    simp only [bind, Except.bind, within]
    rfl
  rw [ofUri, splitUri_eq absent]
  simp only [pairs, options]
  rfl

/-- A request with written pairs has the options that are read from these. -/
theorem ofUri_encodePairs {limits : QueryLimits} (method : Method) {address : String}
    (body : Option Json) (drawn : Guid) (absent : '?' ∉ address.toList)
    {pairs : List (String × String)}
    {options : QueryOptions} (read : QueryOptions.ofPairs limits pairs = .ok options) :
    ofUri limits method (address ++ "?" ++ Text.Form.encodePairs pairs) body drawn =
      .ok ⟨⟨method, address, pairs, body⟩, options, 0, drawn⟩ := by
  rw [ofUri, splitUri_append absent]
  simp only [Text.Form.decodePairs_encodePairs, read]
  rfl

variable {limits : QueryLimits} {method : Method} {uri : String} {body : Option Json}
  {drawn : Guid} {t : Transaction}

/-- What is read from a request: its parts, and the options of its pairs. -/
theorem ofUri_spec (sent : ofUri limits method uri body drawn = .ok t) :
    t.request = ⟨method, (splitUri uri).1, Text.Form.decodePairs (splitUri uri).2, body⟩ ∧
      t.depth = 0 ∧ QueryOptions.ofPairs limits t.request.parameters = .ok t.options := by
  obtain ⟨options, read, result⟩ := Result.bind_eq_ok.mp sent
  cases result
  exact ⟨rfl, rfl, read⟩

/-- What is read from a request is the same whatever guid was drawn for it. -/
theorem ofUri_redrawn (sent : ofUri limits method uri body drawn = .ok t) (other : Guid) :
    ofUri limits method uri body other = .ok { t with drawn := other } := by
  obtain ⟨options, read, result⟩ := Result.bind_eq_ok.mp sent
  cases result
  exact Result.bind_eq_ok.mpr ⟨options, read, rfl⟩

end Transaction

/-! ## Links to the next page -/

namespace Service

variable {ctx : Context} {limits : QueryLimits} {method : Method} {uri : String}
  {body : Option Json} {drawn : Guid} {t : Transaction} {path : ResourcePath}

/-- The parameters of a request with the skip token of its next page. -/
def nextParameters (t : Transaction) (token : String) : List (String × String) :=
  t.request.parameters.filter (·.1 != Request.skipTokenName) ++ [(Request.skipTokenName, token)]

theorem nextLink_eq (ctx : Context) (t : Transaction) (path : ResourcePath) (token : String) :
    nextLink ctx t path token = ctx.config.endpoint.url ++ "/" ++ path.toText ++ "?" ++
      Text.Form.encodePairs (nextParameters t token) := by
  rw [nextLink, nextParameters, Text.Form.encodePairs_append_singleton, Request.queryText]
  simp only [String.append_assoc]

/-- No question mark stands in the address before the query. -/
theorem not_mem_address (queryless : '?' ∉ ctx.config.endpoint.url.toList)
    (sent : Transaction.ofUri limits method uri body drawn = .ok t)
    (parsed : ResourcePath.parse (ctx.config.endpoint.resourcePath t.request.path) = .ok path) :
    '?' ∉ (ctx.config.endpoint.url ++ "/" ++ path.toText).toList := by
  have slash : "/".toList = ['/'] := rfl
  have absent : '?' ∉ path.toText.toList := by
    intro member
    have among := (Endpoint.suffix_resourcePath ctx.config.endpoint t.request.path).subset
      ((ResourcePath.wellFormed_of_parse parsed).2.subset member)
    rw [(Transaction.ofUri_spec sent).1] at among
    exact Transaction.not_mem_splitUri uri among
  simp only [String.toList_append, slash, List.mem_append, List.mem_singleton, not_or]
  exact ⟨⟨queryless, by decide⟩, absent⟩

/-- The link to the next page repeats the request: its query has the parameters of the request in
their order, without a skip token, and then the token.  The link is read as a request with these
parameters, and with the options of the first one apart from the token. -/
theorem nextLink_repeats (queryless : '?' ∉ ctx.config.endpoint.url.toList)
    (sent : Transaction.ofUri limits method uri body drawn = .ok t)
    (parsed : ResourcePath.parse (ctx.config.endpoint.resourcePath t.request.path) = .ok path)
    (token : String) :
    Text.Form.decodePairs (Transaction.splitUri (nextLink ctx t path token)).2 =
        t.request.parameters.filter (·.1 != "$skiptoken") ++ [("$skiptoken", token)] ∧
      ∀ (again : Method) (content : Option Json) (next : Guid),
        Transaction.ofUri limits again (nextLink ctx t path token) content next =
          .ok ⟨⟨again, ctx.config.endpoint.url ++ "/" ++ path.toText,
              t.request.parameters.filter (·.1 != "$skiptoken") ++ [("$skiptoken", token)],
              content⟩,
            { t.options with skipToken := some token }, 0, next⟩ := by
  have absent := not_mem_address queryless sent parsed
  have read := QueryOptions.ofPairs_resumed token (Transaction.ofUri_spec sent).2.2
  rw [nextLink_eq]
  refine ⟨?_, fun again content next =>
    Transaction.ofUri_encodePairs again content next absent read⟩
  rw [Transaction.splitUri_append absent, Text.Form.decodePairs_encodePairs]
  rfl

/-! A page of pets, asked for with parameters that come twice, have no name or hold separators. -/

def petsContext : Context := ⟨⟨"Pets", none, [], [], []⟩, .standard, none, .standard⟩

def petsPath : ResourcePath := .resource [⟨"Owners", some "name='a/(b'"⟩, ⟨"MyPets", none⟩] none

def petsRequest : Transaction :=
  ⟨⟨.get, "/Owners(name='a/(b')/MyPets", [("q", "a&b= é+"), ("", ""), ("$skiptoken", "old"),
      ("$top", "3"), ("q", ""), ("$count", "true")], none⟩,
    { QueryOptions.empty with top := some 3, count := true, skipToken := some "old" }, 0, .nil⟩

def petsUri : String :=
  "/Owners(name='a/(b')/MyPets?q=a%26b%3D+%C3%A9%2b&&=&$skiptoken=old&$top=3&q&%24count=true"

theorem ofUri_petsUri :
    Transaction.ofUri .standard .get petsUri none .nil = .ok petsRequest := by
  have cut : Transaction.splitUri petsUri = ("/Owners(name='a/(b')/MyPets",
      "q=a%26b%3D+%C3%A9%2b&&=&$skiptoken=old&$top=3&q&%24count=true") := by rfl
  have pairs : Text.Form.decodePairs
      "q=a%26b%3D+%C3%A9%2b&&=&$skiptoken=old&$top=3&q&%24count=true" =
        petsRequest.request.parameters := by decide +kernel
  have options : QueryOptions.ofPairs .standard petsRequest.request.parameters =
      .ok petsRequest.options := by rfl
  rw [Transaction.ofUri, cut]
  simp only [pairs, options]
  rfl

theorem nextLink_repeats_pets :
    Transaction.ofUri .standard .get petsUri none .nil = .ok petsRequest ∧
      nextLink petsContext petsRequest petsPath "t&k?" =
        "http://localhost/odata/Default/Owners(name='a/(b')/MyPets" ++
          "?q=a%26b%3D+%C3%A9%2B&=&%24top=3&q=&%24count=true&%24skiptoken=t%26k%3F" ∧
      ∃ next, Transaction.ofUri .standard .get (nextLink petsContext petsRequest petsPath "t&k?")
          none .nil = .ok next ∧
        next.request.parameters = [("q", "a&b= é+"), ("", ""), ("$top", "3"), ("q", ""),
          ("$count", "true"), ("$skiptoken", "t&k?")] ∧
        next.options =
          { QueryOptions.empty with top := some 3, count := true, skipToken := some "t&k?" } := by
  have queryless : '?' ∉ petsContext.config.endpoint.url.toList := by decide
  have parsed : ResourcePath.parse
      (petsContext.config.endpoint.resourcePath petsRequest.request.path) = .ok petsPath := by rfl
  have repeats := nextLink_repeats queryless ofUri_petsUri parsed "t&k?"
  exact ⟨ofUri_petsUri, by decide +kernel, _, repeats.2 .get none .nil, by decide, rfl⟩

end Service

end OData
