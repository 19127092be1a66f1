import TableClient.Ascending
import TableClient.AttributeValue.Basic
import TableClient.AttributeValue.Native
import TableClient.AttributeValue.Text
import TableClient.AttributeValue.Wire
import TableClient.Base64
import TableClient.Client.Config
import TableClient.Client.Connection
import TableClient.Client.Error
import TableClient.Client.World
import TableClient.Crc32
import TableClient.Decimal.Layout
import TableClient.Decimal.Literal
import TableClient.Decimal.Shortest
import TableClient.Dict
import TableClient.Duration
import TableClient.Expression.Compile
import TableClient.Expression.Condition
import TableClient.Expression.Error
import TableClient.Expression.FromMap
import TableClient.Expression.Numbered
import TableClient.Expression.Path
import TableClient.Expression.Placeholder
import TableClient.Expression.Text
import TableClient.Expression.Update
import TableClient.Expression.Vocabulary
import TableClient.Http.Request
import TableClient.Http.Response
import TableClient.Json.Reader
import TableClient.Json.Text
import TableClient.Json.Token
import TableClient.Json.Value
import TableClient.Naming
import TableClient.Payload.Input
import TableClient.Payload.Kind
import TableClient.Payload.Output
import TableClient.Request.Batch
import TableClient.Request.Item
import TableClient.Request.Parts
import TableClient.Request.Query
import TableClient.Request.Scan
import TableClient.Request.Table
import TableClient.Scan.Budget
import TableClient.Scan.Paced
import TableClient.Scan.Run
import TableClient.Schema.Batch
import TableClient.Schema.Capacity
import TableClient.Schema.ConditionMap
import TableClient.Schema.Names
import TableClient.Schema.Table
import TableClient.Service.Error
import TableClient.Service.Operation
import TableClient.TableDescriptor
import TableClient.Text.Blank
import TableClient.Text.Case
import TableClient.Text.Quoted
import TableClient.Text.Unprinted
import TableClient.Wire.Record
import TableClient.Wire.Value
import TableClient.Proofs.Expression.Interning
import TableClient.Proofs.Expression.Numbering
import TableClient.Proofs.Decimal.Digits
import TableClient.Proofs.Expression.PathText
import TableClient.Proofs.Expression.Token
import TableClient.Proofs.Expression.Reader
import TableClient.Proofs.Expression.Grouping
import TableClient.Proofs.Expression.ReadBack
import TableClient.Proofs.Expression.PlaceholderTable
import TableClient.Proofs.Expression.Faithful
import TableClient.Proofs.Expression.Discipline
import TableClient.Proofs.Request.Expressions
import TableClient.Proofs.AttributeValue.Wire
import TableClient.Proofs.Json.Ordered
import TableClient.Proofs.Client.Ensures
import TableClient.Proofs.Scan.Step
import TableClient.Proofs.Wire.Record
import TableClient.Proofs.Scan.Documents
import TableClient.Proofs.Scan.Complete
import TableClient.Proofs.Scan.Attempt
import TableClient.Proofs.Scan.Deadline
import TableClient.Proofs.Scan.HeldTable
import TableClient.Proofs.Scan.Resume
import TableClient.Proofs.Expression.SortCondition
import TableClient.Proofs.Request.Routing
import TableClient.Proofs.Request.KeyTypes
import TableClient.Proofs.AttributeValue.Format
import TableClient.Proofs.Expression.Independence
import TableClient.Proofs.Scan.Throttling
import TableClient.Proofs.Scan.Windows
import TableClient.Proofs.Request.Forms
import TableClient.Proofs.Request.Batch
import TableClient.Proofs.Payload.Merge
import TableClient.Proofs.Client.Metadata
import TableClient.Proofs.Client.Batch
import TableClient.Proofs.Client.Operations
import TableClient.Proofs.Client.Runs
import TableClient.Proofs.Http.Response
import TableClient.Proofs.Scan.Responses
import TableClient.Proofs.Ascending
import TableClient.Proofs.AttributeValue.Native
import TableClient.Proofs.Expression.Expressible
import TableClient.Proofs.Request.KeyLiterals
import TableClient.Proofs.Request.Limit
import TableClient.Proofs.Wire.RoundTrip
import TableClient.Proofs.Payload.Requests
import TableClient.Proofs.Scan.Checked
import TableClient.Proofs.Expression.Comparison
import TableClient.Proofs.Expression.Expectation
import TableClient.Proofs.Expression.KeyCondition
import TableClient.Proofs.Expression.Acceptance
import TableClient.Proofs.Expression.Interleaving
import TableClient.Proofs.Expression.Entries
import TableClient.Proofs.Expression.CompiledMaps
import TableClient.Proofs.Request.PrimaryKey
import TableClient.Proofs.Expression.Interned
import TableClient.Proofs.Expression.Malformed
import TableClient.Proofs.Expression.InternTree
import TableClient.Proofs.Expression.SharedTable
import TableClient.Proofs.Payload.MergeLaws
import TableClient.Proofs.Request.MapOrder
import TableClient.Proofs.Duration
import TableClient.Proofs.Scan.Backoff
