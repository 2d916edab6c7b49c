import DecisionRules.Action
import DecisionRules.Action.Execute
import DecisionRules.Action.Result
import DecisionRules.Action.Validate
import DecisionRules.Assoc
import DecisionRules.Breach
import DecisionRules.Cache
import DecisionRules.Cache.Fingerprint
import DecisionRules.Calendar
import DecisionRules.Condition
import DecisionRules.Condition.Evaluate
import DecisionRules.Condition.Trace
import DecisionRules.Condition.Validate
import DecisionRules.Deadline.Forest
import DecisionRules.Deadline.Instant
import DecisionRules.Deadline.Numeral
import DecisionRules.Deadline.Token
import DecisionRules.Digest.Sha256
import DecisionRules.Engine
import DecisionRules.Engine.Evaluate
import DecisionRules.Environment
import DecisionRules.Event
import DecisionRules.Event.Bus
import DecisionRules.Expression.Basic
import DecisionRules.Expression.Eval
import DecisionRules.Expression.Lexer
import DecisionRules.Expression.Literal
import DecisionRules.Expression.Parser
import DecisionRules.Failure
import DecisionRules.Group
import DecisionRules.Host
import DecisionRules.Host.Catalogue
import DecisionRules.Identifier
import DecisionRules.Journal
import DecisionRules.Log.Record
import DecisionRules.Log.Redact
import DecisionRules.Log.Setup
import DecisionRules.Maintenance
import DecisionRules.Number.Arithmetic
import DecisionRules.Number.Binary
import DecisionRules.Number.Layout
import DecisionRules.Number.Precision
import DecisionRules.Number.Reader
import DecisionRules.Number.Shortest
import DecisionRules.Operators
import DecisionRules.Operators.Builtin
import DecisionRules.Pattern.Basic
import DecisionRules.Pattern.Class
import DecisionRules.Pattern.Escape
import DecisionRules.Pattern.Reader
import DecisionRules.Pattern.Search
import DecisionRules.Priority
import DecisionRules.Proofs.Action.Attempt
import DecisionRules.Proofs.Action.Blind
import DecisionRules.Proofs.Action.Hidden
import DecisionRules.Proofs.Action.Isolation
import DecisionRules.Proofs.Action.Protected
import DecisionRules.Proofs.Action.Quiet
import DecisionRules.Proofs.Action.Store
import DecisionRules.Proofs.Action.Told
import DecisionRules.Proofs.Arithmetic
import DecisionRules.Proofs.Assoc
import DecisionRules.Proofs.Cache.Bookkeeping
import DecisionRules.Proofs.Cache.Canonical
import DecisionRules.Proofs.Cache.Entries
import DecisionRules.Proofs.Cache.Fingerprint
import DecisionRules.Proofs.Cache.History
import DecisionRules.Proofs.Cache.Lookup
import DecisionRules.Proofs.Condition.Comparison
import DecisionRules.Proofs.Condition.Composition
import DecisionRules.Proofs.Condition.Depth
import DecisionRules.Proofs.Condition.Duality
import DecisionRules.Proofs.Condition.Explanation
import DecisionRules.Proofs.Condition.Layers
import DecisionRules.Proofs.Condition.Limit
import DecisionRules.Proofs.Condition.Membership
import DecisionRules.Proofs.Condition.Native
import DecisionRules.Proofs.Condition.Node
import DecisionRules.Proofs.Condition.Operands
import DecisionRules.Proofs.Condition.Plain
import DecisionRules.Proofs.Condition.Soundness
import DecisionRules.Proofs.Condition.Strictness
import DecisionRules.Proofs.Deadline
import DecisionRules.Proofs.Engine.Accounting
import DecisionRules.Proofs.Engine.Books
import DecisionRules.Proofs.Engine.Calls
import DecisionRules.Proofs.Engine.Currency
import DecisionRules.Proofs.Engine.DepthLimit
import DecisionRules.Proofs.Engine.Fresh
import DecisionRules.Proofs.Engine.Inert
import DecisionRules.Proofs.Engine.News
import DecisionRules.Proofs.Engine.Order
import DecisionRules.Proofs.Engine.Provenance
import DecisionRules.Proofs.Engine.ReadOnly
import DecisionRules.Proofs.Engine.Run
import DecisionRules.Proofs.Engine.Transparency
import DecisionRules.Proofs.Engine.Truncation
import DecisionRules.Proofs.Engine.Twin
import DecisionRules.Proofs.Event.Subscription
import DecisionRules.Proofs.Expression.Boundary
import DecisionRules.Proofs.Expression.Comparison
import DecisionRules.Proofs.Expression.Course
import DecisionRules.Proofs.Expression.Cutting
import DecisionRules.Proofs.Expression.Descent
import DecisionRules.Proofs.Expression.Embedding
import DecisionRules.Proofs.Expression.Evaluation
import DecisionRules.Proofs.Expression.Extent
import DecisionRules.Proofs.Expression.Failing
import DecisionRules.Proofs.Expression.Filling
import DecisionRules.Proofs.Expression.Grammar
import DecisionRules.Proofs.Expression.Growth
import DecisionRules.Proofs.Expression.Layout
import DecisionRules.Proofs.Expression.Leaves
import DecisionRules.Proofs.Expression.Lexeme
import DecisionRules.Proofs.Expression.Longest
import DecisionRules.Proofs.Expression.Magnitude
import DecisionRules.Proofs.Expression.Operand
import DecisionRules.Proofs.Expression.Ordinary
import DecisionRules.Proofs.Expression.Quoted
import DecisionRules.Proofs.Expression.Reading
import DecisionRules.Proofs.Expression.Regroup
import DecisionRules.Proofs.Expression.Substitution
import DecisionRules.Proofs.Instant
import DecisionRules.Proofs.Number.Binary
import DecisionRules.Proofs.Number.Digits
import DecisionRules.Proofs.Number.Layout
import DecisionRules.Proofs.Number.Shortest
import DecisionRules.Proofs.Number.Value
import DecisionRules.Proofs.Number.Width
import DecisionRules.Proofs.Outcome
import DecisionRules.Proofs.Registry.Atomicity
import DecisionRules.Proofs.Registry.Books
import DecisionRules.Proofs.Registry.Change
import DecisionRules.Proofs.Registry.Consistency
import DecisionRules.Proofs.Registry.Disabling
import DecisionRules.Proofs.Registry.Draft
import DecisionRules.Proofs.Registry.Membership
import DecisionRules.Proofs.Registry.Turn
import DecisionRules.Proofs.Registry.Version
import DecisionRules.Proofs.Run
import DecisionRules.Proofs.Schema
import DecisionRules.Proofs.Scope
import DecisionRules.Proofs.Scope.Interpolation
import DecisionRules.Proofs.Scope.Lookup
import DecisionRules.Proofs.Scope.Path
import DecisionRules.Proofs.Selection
import DecisionRules.Proofs.Settings
import DecisionRules.Proofs.Sort
import DecisionRules.Proofs.Statistics
import DecisionRules.Proofs.Text.Digit
import DecisionRules.Proofs.Text.Json
import DecisionRules.Proofs.Value.Equality
import DecisionRules.Registry
import DecisionRules.Report
import DecisionRules.Rule
import DecisionRules.Schema.Coerce
import DecisionRules.Schema.Issue
import DecisionRules.Scope
import DecisionRules.Scope.Resolve
import DecisionRules.Selection
import DecisionRules.Settings
import DecisionRules.Sort
import DecisionRules.Template
import DecisionRules.Text.Blank
import DecisionRules.Text.Case
import DecisionRules.Text.Digit
import DecisionRules.Text.Hex
import DecisionRules.Text.Json
import DecisionRules.Text.Json.Reader
import DecisionRules.Text.Percent
import DecisionRules.Text.Printable
import DecisionRules.Text.Quoted
import DecisionRules.Text.Ranges
import DecisionRules.Text.Search
import DecisionRules.Text.Units
import DecisionRules.Text.Word
import DecisionRules.Value
import DecisionRules.Value.Arithmetic
import DecisionRules.Value.Compare
import DecisionRules.Value.Display
import DecisionRules.Value.Entries
import DecisionRules.Value.Member
import DecisionRules.Value.Numeric
import DecisionRules.Webhook
import DecisionRules.Webhook.Client
import DecisionRules.Webhook.Message
import DecisionRules.Webhook.Retry
import DecisionRules.Webhook.Transport
import DecisionRules.Proofs.Registry.Amendment
import DecisionRules.Proofs.Registry.Seniority
import DecisionRules.Proofs.Webhook.Course
import DecisionRules.Proofs.Webhook.Retries
import DecisionRules.Proofs.Webhook.Deadline
import DecisionRules.Proofs.Log.Masking
import DecisionRules.Proofs.Log.Bearer
import DecisionRules.Proofs.Log.Fields
import DecisionRules.Proofs.Webhook.Limits
import DecisionRules.Proofs.Webhook.Message
import DecisionRules.Proofs.Webhook.Allowance
