import DocQuery.Attribute.Basic
import DocQuery.Attribute.Plain
import DocQuery.Attribute.Wire
import DocQuery.Base64
import DocQuery.Client
import DocQuery.Condition.Basic
import DocQuery.Condition.Chain
import DocQuery.Condition.Formula
import DocQuery.Condition.Lexer
import DocQuery.Condition.Pattern
import DocQuery.Condition.Reader
import DocQuery.Condition.Resolution
import DocQuery.Condition.Test
import DocQuery.Condition.Text
import DocQuery.Condition.Token
import DocQuery.Decimal.Binary64
import DocQuery.Decimal.Layout
import DocQuery.Decimal.Number
import DocQuery.Decimal.Numeral
import DocQuery.Decimal.Rounding
import DocQuery.Decimal.Scaling
import DocQuery.Decimal.Shortest
import DocQuery.Dictionary
import DocQuery.Json.Basic
import DocQuery.Json.Reader
import DocQuery.Json.Text
import DocQuery.NameSet
import DocQuery.Paging.Cursor
import DocQuery.Paging.Pager
import DocQuery.Query.Basic
import DocQuery.Query.Draft
import DocQuery.Query.Order
import DocQuery.Query.Positional
import DocQuery.QueryFault
import DocQuery.Rows
import DocQuery.Search.Basic
import DocQuery.Search.Plan
import DocQuery.Search.Query
import DocQuery.Settings
import DocQuery.Store.Basic
import DocQuery.Store.Check
import DocQuery.Store.Failure
import DocQuery.Store.Names
import DocQuery.Store.Output
import DocQuery.Store.Plan
import DocQuery.Store.Request
import DocQuery.Table.Info
import DocQuery.Table.Schema
import DocQuery.Text.Blank
import DocQuery.Text.Pieces
import DocQuery.Wire.Decoding
import DocQuery.Wire.Encoding
import DocQuery.Wire.Record
import DocQuery.Word
import DocQuery.Proofs.Acceptance
import DocQuery.Proofs.Attribute.Plain
import DocQuery.Proofs.Attribute.Wire
import DocQuery.Proofs.Base64
import DocQuery.Proofs.Candidates
import DocQuery.Proofs.Client
import DocQuery.Proofs.Condition.Derivation
import DocQuery.Proofs.Condition.Formula
import DocQuery.Proofs.Condition.Literal
import DocQuery.Proofs.Condition.Matching
import DocQuery.Proofs.Condition.Parentheses
import DocQuery.Proofs.Condition.Parsing
import DocQuery.Proofs.Condition.Pattern
import DocQuery.Proofs.Condition.Runs
import DocQuery.Proofs.Condition.Scanning
import DocQuery.Proofs.Condition.Writing
import DocQuery.Proofs.Decimal.Reading
import DocQuery.Proofs.Decimal.Rounding
import DocQuery.Proofs.Decimal.Text
import DocQuery.Proofs.Dictionary
import DocQuery.Proofs.Expression.Grammar
import DocQuery.Proofs.Expression.Mentions
import DocQuery.Proofs.Expression.Reading
import DocQuery.Proofs.Expression.Scanning
import DocQuery.Proofs.Fallible
import DocQuery.Proofs.Faults
import DocQuery.Proofs.Paging.Calls
import DocQuery.Proofs.Paging.Course
import DocQuery.Proofs.Paging.Ending
import DocQuery.Proofs.Paging.Listing
import DocQuery.Proofs.Paging.Policies
import DocQuery.Proofs.Paging.Resumption
import DocQuery.Proofs.Paging.Rounds
import DocQuery.Proofs.Paging.Sweep
import DocQuery.Proofs.Paging.Transcript
import DocQuery.Proofs.Paging.Window
import DocQuery.Proofs.Query.Combination
import DocQuery.Proofs.Query.Marks
import DocQuery.Proofs.Query.Membership
import DocQuery.Proofs.Query.Parameters
import DocQuery.Proofs.Query.Positional
import DocQuery.Proofs.Query.Steps
import DocQuery.Proofs.Related
import DocQuery.Proofs.Search.Encoding
import DocQuery.Proofs.Search.Meaning
import DocQuery.Proofs.Search.Pattern
import DocQuery.Proofs.Search.Reading
import DocQuery.Proofs.Store.Claims
import DocQuery.Proofs.Store.Clauses
import DocQuery.Proofs.Store.Fitting
import DocQuery.Proofs.Store.KeyCondition
import DocQuery.Proofs.Store.Names
import DocQuery.Proofs.Store.Parentheses
import DocQuery.Proofs.Store.Parts
import DocQuery.Proofs.Store.Pattern
import DocQuery.Proofs.Store.Plan
import DocQuery.Proofs.Store.Projection
import DocQuery.Proofs.Store.Rendering
import DocQuery.Proofs.Store.Tables
import DocQuery.Proofs.Text
import DocQuery.Proofs.Wire.Encoding
import DocQuery.Proofs.Wire.Messages
import DocQuery.Proofs.Wire.Record
