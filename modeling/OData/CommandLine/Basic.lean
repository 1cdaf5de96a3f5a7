import OData.CommandLine.Help
import OData.Service.Basic
import OData.Sql.Text
import OData.Store.Seed
import OData.Schema.File
import OData.Text.LetterCase

/-!
# The command line

A run loads a configuration, a model and a data set from files, and then answers one request,
prints the SQL of one, or does nothing more.  What a run prints depends on its arguments, on what
the files hold, on the libraries and on the guid that was drawn, and on nothing else.
-/

set_option autoImplicit false

namespace OData.CommandLine

/-- What the files hold, by name; none for a file that cannot be read. -/
abbrev Files := String → Option String

inductive Failure where
  | misused (reason : String)
  /-- A file, said by what it is for, cannot be read. -/
  | unreadable (what path : String)
  | invalidDataset
  | invalidMethod (name : String)
  | invalidBody
  | requestFailed (status : Nat)
  /-- The program stops at a request. -/
  | stopped
  /-- The path whose SQL is asked for leads to no set. -/
  | noCollection
  | navigation
  | singleEntity
  | refused (error : Error)
  deriving DecidableEq, Repr

abbrev Attempt := Except Failure

def refuse {α : Type} : Result α → Attempt α := Except.mapError .refused

def reason : Nat → String
  | 200 => "OK"
  | 201 => "Created"
  | 204 => "No Content"
  | 400 => "Bad Request"
  | 404 => "Not Found"
  | 500 => "Internal Server Error"
  | 501 => "Not Implemented"
  | _ => ""

def statusText (status : Nat) : String := toString status ++ " " ++ reason status

def Failure.message : Failure → String
  | misused reason => reason
  | unreadable what path => "cannot read " ++ what ++ " " ++ path
  | invalidDataset => "dataset is not valid JSON"
  | invalidMethod name => "invalid HTTP method '" ++ name ++ "'"
  | invalidBody => "request body is not valid JSON"
  | requestFailed status => "request failed with status " ++ statusText status
  | stopped => "the program stopped"
  | noCollection => "SQL translation needs a collection path such as /Pets"
  | navigation => "SQL translation does not follow navigation properties"
  | singleEntity => "SQL translation needs a collection, not a single entity"
  | refused error => error.message

def Failure.exitCode : Failure → Nat
  | misused _ => 2
  | stopped => 101
  | _ => 1

/-- What a run leaves behind. -/
structure Outcome where
  output : String
  /-- What is told apart from the output. -/
  note : String
  failure : Option Failure
  deriving DecidableEq, Repr

namespace Outcome

def printed (output : String) : Outcome := ⟨output, "", none⟩

def failed (failure : Failure) : Outcome := ⟨"", "", some failure⟩

def ofAttempt : Attempt String → Outcome
  | .ok output => printed output
  | .error failure => failed failure

def exitCode (outcome : Outcome) : Nat := (outcome.failure.map Failure.exitCode).getD 0

end Outcome

/-! ## Files -/

def loadConfig (files : Files) : Option String → Result Config
  | none => .ok Config.standard
  | some path =>
    match files path with
    | some text => Config.ofText text
    | none => Config.fileMissing path

def readFile (files : Files) (what path : String) : Attempt String :=
  match files path with
  | some text => .ok text
  | none => .error (.unreadable what path)

def loadModel (files : Files) (path : String) : Attempt Model := do
  let text ← readFile files "model" path
  refuse (do (← ModelFile.ofText text).build)

def loadStore (files : Files) (model : Model) : Option String → Attempt Store
  | none => .ok Store.empty
  | some path => do
    let text ← readFile files "dataset" path
    match Json.ofText? text with
    | none => .error .invalidDataset
    | some data =>
      let (outcome, store) := (Store.seed model data).runOn Store.empty
      let _ ← refuse outcome
      pure store

/-- The service and the store that the files of a run describe. -/
def load (libraries : Libraries) (files : Files) (i : Invocation) : Attempt (Context × Store) := do
  let config ← refuse (loadConfig files i.config)
  let model ← loadModel files i.model
  let store ← loadStore files model i.data
  pure (⟨model, config, config.endpoint.metadataFile.bind files, libraries⟩, store)

/-- The files that a run reads, as far as the files that are known tell. -/
def filesOf (files : Files) (arguments : List String) : List String :=
  match Invocation.ofArguments arguments with
  | .error _ => []
  | .ok i =>
    let document := match loadConfig files i.config with
      | .ok config => config.endpoint.metadataFile
      | .error _ => none
    i.config.toList ++ [i.model] ++ i.data.toList ++ document.toList

/-! ## Commands -/

def bodyText : Body → String
  | .json document => document.pretty ++ "\n"
  | .text text => text ++ "\n"
  | .empty => ""

def readBody : Option String → Option (Option Json)
  | none => some none
  | some text => (Json.ofText? text).map some

def problemText (errorBody : Bool) (p : Problem) : String :=
  (if errorBody then p.toErrorBody else p.toJson).pretty ++ "\n"

/-- Answers a request. -/
def request (ctx : Context) (store : Store) (drawn : Guid) (errorBody : Bool)
    (method uri : String) (body : Option String) : Outcome :=
  match Method.ofName? (Text.toUpper method) with
  | none => Outcome.failed (.invalidMethod method)
  | some verb =>
    match readBody body with
    | none => Outcome.failed .invalidBody
    | some document =>
      match (Service.respond ctx verb uri document drawn store).1 with
      | some (.ok response) =>
        ⟨bodyText response.body, statusText response.status ++ "\n", none⟩
      | some (.error p) => ⟨problemText errorBody p, "", some (.requestFailed p.status)⟩
      | none => Outcome.failed .stopped

/-- The name of the set to which a path leads without a detour. -/
def collectionName : ResourcePath → Attempt String
  | .resource [⟨name, none⟩] none => .ok name
  | .resource [⟨_, some _⟩] none => .error .singleEntity
  | .resource _ none => .error .navigation
  | _ => .error .noCollection

/-- The limit and the offset of the page that some options ask for first. -/
def firstPage (pagination : Pagination) (options : QueryOptions) : Nat × Nat :=
  let most := pagination.maxPageSize
  ((options.top.map (min · most)).getD most, options.skip.getD 0)

/-- The queries for a page of a set and, if it is asked for, for the count. -/
def sqlQueries (ctx : Context) (definition : EntitySetDef) (options : QueryOptions) :
    Result (List SqlQuery) := do
  let plan ← (EntitySet.root definition).plan ctx options
  let (limit, offset) := firstPage ctx.config.pagination options
  let select ← SqlQuery.select definition plan offset limit
  let count ← SqlQuery.count definition plan
  pure (select :: if options.count then [count] else [])

def statement (query : SqlQuery) : String := query.toText ++ ";\n"

/-- The statements for a collection. -/
def sql (ctx : Context) (uri : String) : Attempt String := do
  let t ← refuse (Transaction.ofUri ctx.config.limits .get uri none .nil)
  let path ← refuse (ResourcePath.parse (ctx.config.endpoint.resourcePath t.request.path))
  let set ← refuse (Service.rootSet ctx (← collectionName path))
  let queries ← refuse (sqlQueries ctx set.definition t.options)
  pure (String.join (queries.map statement))

def perform (ctx : Context) (store : Store) (drawn : Guid) (errorBody : Bool) : Job → Outcome
  | .request method uri body => request ctx store drawn errorBody method uri body
  | .sql uri => Outcome.ofAttempt (sql ctx uri)
  | .check => Outcome.printed "Configuration is valid\n"

def run (libraries : Libraries) (drawn : Guid) (files : Files) (arguments : List String) :
    Outcome :=
  match Invocation.ofArguments arguments with
  | .error (.help topic long) => Outcome.printed (helpText topic long)
  | .error (.misuse reason) => Outcome.failed (.misused reason)
  | .ok i =>
    match load libraries files i with
    | .error failure => Outcome.failed failure
    | .ok (ctx, store) => perform ctx store drawn i.errorBody i.job

end OData.CommandLine
