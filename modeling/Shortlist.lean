import Shortlist.Criteria.Document
import Shortlist.Criteria.Draft
import Shortlist.Model.Basic
import Shortlist.Query.Statement
import Shortlist.Proofs.Clause.Meaning
import Shortlist.Proofs.Clause.Parameters
import Shortlist.Proofs.Compilation.Filters
import Shortlist.Proofs.Compilation.Build
import Shortlist.Proofs.Compilation.Meaning
import Shortlist.Proofs.Clause.Refusal
import Shortlist.Proofs.Compilation.Refusal
import Shortlist.Proofs.Query.Numbering
import Shortlist.Proofs.Query.Rendering
import Shortlist.Proofs.Query.Calls
import Shortlist.Proofs.Text.Scanner
import Shortlist.Proofs.Field.Shape
import Shortlist.Proofs.Dialect.Literal
import Shortlist.Proofs.Text.Plain
import Shortlist.Proofs.Query.Spelling
import Shortlist.Proofs.Compilation.Spelling
import Shortlist.Proofs.Compilation.Failure
import Shortlist.Proofs.Compilation.Session
import Shortlist.Proofs.Keyed.Order
import Shortlist.Proofs.Json.Reordered
import Shortlist.Proofs.Json.Reader
import Shortlist.Proofs.Toml.Reader
import Shortlist.Proofs.Criteria.Grammar
import Shortlist.Proofs.Criteria.Reordered
import Shortlist.Proofs.Compilation.Reordered
import Shortlist.Proofs.Criteria.Calls
import Shortlist.Proofs.Number.Decimal
import Shortlist.Proofs.Criteria.Number
import Shortlist.Proofs.Criteria.Written
import Shortlist.Proofs.Criteria.Accepted
import Shortlist.Proofs.Criteria.Violation
import Shortlist.Proofs.Criteria.Reports
import Shortlist.Proofs.Criteria.Reported
import Shortlist.Proofs.Criteria.First
import Shortlist.Proofs.Criteria.Sound
import Shortlist.Proofs.Clause.Unwrapped
import Shortlist.Proofs.Criteria.Page
import Shortlist.Proofs.Criteria.Whole
import Shortlist.Proofs.Compilation.Sound
import Shortlist.Proofs.Compilation.Page
import Shortlist.Proofs.Compilation.Refiltered
import Shortlist.Proofs.Criteria.Unwrapped
import Shortlist.Proofs.Compilation.Unwrapped
import Shortlist.Proofs.Text.Forced
import Shortlist.Proofs.Query.Layout
import Shortlist.Proofs.Query.Agreement
import Shortlist.Proofs.Compilation.Fresh
import Shortlist.Proofs.Compilation.Qualified
import Shortlist.Proofs.Dialect.Legible
import Shortlist.Proofs.Text.Name
import Shortlist.Proofs.Query.Legible
import Shortlist.Proofs.Query.Recovered
import Shortlist.Proofs.Compilation.Recovered
import Shortlist.Proofs.Clause.Rebound
import Shortlist.Proofs.Compilation.Rebound
import Shortlist.Proofs.Compilation.Split
import Shortlist.Proofs.Dialect.Fragments
import Shortlist.Proofs.Compilation.Dialects
import Shortlist.Proofs.Compilation.Overwritten
import Shortlist.Proofs.Text.Words
import Shortlist.Proofs.Join.Condition
import Shortlist.Proofs.Compilation.Joined
import Shortlist.Proofs.Compilation.Unread
import Shortlist.Proofs.Clause.Admitted
import Shortlist.Proofs.Compilation.Admitted
import Shortlist.Proofs.Text.Quoting
import Shortlist.Proofs.Join.Quoted
import Shortlist.Proofs.Compilation.Spliced
import Shortlist.Proofs.Criteria.Decoded
import Shortlist.Proofs.Field.Grammar
import Shortlist.Proofs.Handlers.Key
import Shortlist.Proofs.Handlers.Registered
import Shortlist.Proofs.Dialect.Decodable
import Shortlist.Proofs.Number.Padded
import Shortlist.Proofs.Criteria.Padded
import Shortlist.Proofs.Model.Alias
import Shortlist.Proofs.Model.Name
