import OData.Bound.Arithmetic
import OData.Bound.Basic
import OData.Bound.Binder
import OData.Bound.Evaluate
import OData.Calendar.Basic
import OData.Calendar.Reader
import OData.Capability
import OData.CapabilitySet
import OData.CommandLine.Arguments
import OData.CommandLine.Basic
import OData.CommandLine.Help
import OData.Config
import OData.CursorCall
import OData.Digest.Sha256
import OData.Endpoint
import OData.Error
import OData.Expr.Basic
import OData.Expr.Parser
import OData.Expr.Text
import OData.Guid
import OData.Identifier
import OData.Json.Basic
import OData.Json.Numeral
import OData.Json.Raw
import OData.Json.Reader
import OData.Json.Writer
import OData.Key
import OData.Main
import OData.Number.Decimal
import OData.Number.Double
import OData.Number.Shortest
import OData.Options.Basic
import OData.Options.Limits
import OData.Options.LimitsJson
import OData.Options.Parser
import OData.Options.Reader
import OData.Plan
import OData.PrimitiveType
import OData.Problem
import OData.Proofs.Action
import OData.Proofs.Stream
import OData.Proofs.Text.Base64Url
import OData.Record
import OData.ResourcePath
import OData.Schema.Declaration
import OData.Schema.EntityType
import OData.Schema.File
import OData.Schema.Metadata
import OData.Schema.Model
import OData.Service.Basic
import OData.Service.Entity
import OData.Service.EntitySet
import OData.Service.Linking
import OData.Service.Pager
import OData.Service.Reference
import OData.Service.Rendering
import OData.Service.Writing
import OData.SkipToken
import OData.Sorting
import OData.Sql.Basic
import OData.Sql.Text
import OData.Store.Basic
import OData.Store.Seed
import OData.Store.Table
import OData.Text.Base64Url
import OData.Text.Characters
import OData.Text.Cursor
import OData.Text.Form
import OData.Text.Hex
import OData.Text.LetterCase
import OData.Text.Pieces
import OData.Text.Utf8
import OData.Transaction
import OData.Value.Basic
import OData.Value.Json
import OData.Value.Reader
import OData.Value.Text
import OData.View.Model
import OData.View.Tree
import OData.Yaml.Flow
import OData.Yaml.Node
import OData.Yaml.Quoted
import OData.Yaml.Reader
import OData.Yaml.Resolve
import OData.Proofs.Text.Utf8
import OData.Proofs.Json.Strings
import OData.Proofs.Number.Digits
import OData.Proofs.Json.Members
import OData.Proofs.Paging
import OData.Proofs.Service.Reads
import OData.Proofs.Result
import OData.Proofs.Schema.EntityType
import OData.Proofs.Schema.Integrity
import OData.Proofs.Key
import OData.Proofs.Service.Atomicity
import OData.Proofs.Service.Resolution
import OData.Proofs.Calendar
import OData.Proofs.Guid
import OData.Proofs.Number.Decimal
import OData.Proofs.Value.Forms
import OData.Proofs.Value.Literals
import OData.Proofs.Expr.Tokens
import OData.Proofs.Expr.Readable
import OData.Proofs.Identifier
import OData.Proofs.Expr.Levels
import OData.Proofs.Expr.Steps
import OData.Proofs.Expr.Operands
import OData.Proofs.Expr.Roundtrip
import OData.Proofs.Value.Readings
import OData.Proofs.Expr.Legible
import OData.Proofs.Expr.Refusal
import OData.Proofs.Expr.Soundness
import OData.Proofs.Number.Double
import OData.Proofs.Sql.Translation
import OData.Proofs.Service.Linking
import OData.Proofs.Service.Creation
import OData.Proofs.Service.Keys
import OData.Proofs.Service.Writes
import OData.Proofs.Service.Unlinking
import OData.Proofs.Serving
import OData.Proofs.ResourcePath
import OData.Proofs.KeyText
import OData.Proofs.Service.Identity
import OData.Proofs.Service.Serving
import OData.Proofs.Service.Failures
import OData.Proofs.Expansion.Agreement
import OData.Proofs.Expansion.Answers
import OData.Proofs.Expansion.Completion
import OData.Proofs.Number.Rational
import OData.Proofs.Schema.Conformity
import OData.Proofs.Service.Conforming
import OData.Proofs.Store.Calls
import OData.Proofs.Value.Sorting
import OData.Proofs.Order
import OData.Proofs.Fingerprint
import OData.Proofs.Service.Capabilities
import OData.Proofs.Bound.Membership
import OData.Proofs.Bound.Whole
import OData.Proofs.Number.Rounding
import OData.Proofs.Value.Lexing
import OData.Proofs.Json.Numeral
import OData.Proofs.KeyPath
import OData.Proofs.Number.Layout
import OData.Proofs.Value.Json
import OData.Proofs.Service.Reference
import OData.Proofs.Options.Nested
import OData.Proofs.Options.Written
import OData.Proofs.Expansion.Annotations
import OData.Proofs.Store.Generation
import OData.Proofs.Options.Height
import OData.Proofs.PageArithmetic
import OData.Proofs.Schema.References
import OData.Proofs.Transaction
import OData.Proofs.Sql.Pattern
import OData.Proofs.Service.Partners
import OData.Proofs.Store.Seed
import OData.Proofs.CommandLine
import OData.Proofs.CursorCall
