import WhereClause.Outcome
import WhereClause.Text.Blank
import WhereClause.Text.Capital
import WhereClause.Text.Digits
import WhereClause.Text.Quoted
import WhereClause.Double.Rounding
import WhereClause.Double.Shortest
import WhereClause.Json.Basic
import WhereClause.Json.Writer
import WhereClause.Json.Draft
import WhereClause.Uuid
import WhereClause.Calendar.Timestamp
import WhereClause.Value.Basic
import WhereClause.Schema
import WhereClause.Condition.Basic
import WhereClause.Dialect
import WhereClause.Condition.Validate
import WhereClause.Condition.Replace
import WhereClause.Json.Decode
import WhereClause.Json.Echo
import WhereClause.Schema.Form
import WhereClause.Schema.Origin
import WhereClause.Condition.Form
import WhereClause.Compiler
import WhereClause.Clause.Piece
import WhereClause.Condition.Pieces
import WhereClause.Clause.Token
import WhereClause.Condition.Outline
import WhereClause.Clause.Formula
import WhereClause.Condition.Meaning
import WhereClause.Condition.Rebuild
import WhereClause.Condition.Nodes
import WhereClause.Condition.Checks
import WhereClause.Condition.Shape
import WhereClause.Condition.Comparands
import WhereClause.Proofs.Spelling
import WhereClause.Proofs.Counting
import WhereClause.Proofs.Reading
import WhereClause.Proofs.Declared
import WhereClause.Proofs.Grammar
import WhereClause.Proofs.Meaning
import WhereClause.Proofs.Shape
import WhereClause.Proofs.Sameness
import WhereClause.Proofs.Rebuild
import WhereClause.Proofs.Acceptance
import WhereClause.Proofs.Visit
import WhereClause.Proofs.Conservation
import WhereClause.Proofs.Calls
import WhereClause.Proofs.Records
import WhereClause.Proofs.Lookup
import WhereClause.Proofs.Numerals
import WhereClause.Proofs.Documents
import WhereClause.Proofs.Decoding
import WhereClause.Proofs.ConditionStorage
import WhereClause.Proofs.SchemaStorage
import WhereClause.Proofs.Hashing
import WhereClause.Proofs.Mirrors
import WhereClause.Proofs.Keeping
import WhereClause.Proofs.Omissions
import WhereClause.Proofs.Extension
import WhereClause.Proofs.Verdict
import WhereClause.Proofs.Succession
import WhereClause.Proofs.Composition
import WhereClause.Proofs.Revision
import WhereClause.Proofs.Mentions
import WhereClause.Proofs.Course
import WhereClause.Proofs.Flaws
import WhereClause.Proofs.TypeNames
import WhereClause.Proofs.Quoting
import WhereClause.Proofs.Pairing
