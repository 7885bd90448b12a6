import HttpBinding.Charsets
import HttpBinding.Client.Arguments
import HttpBinding.Client.Assembly
import HttpBinding.Client.Basic
import HttpBinding.Client.Builder
import HttpBinding.Client.Capability
import HttpBinding.Client.Decoration
import HttpBinding.Codec.Adapters
import HttpBinding.Codec.Decoder
import HttpBinding.Codec.Encoder
import HttpBinding.Codec.ErrorDecoder
import HttpBinding.Codec.Form
import HttpBinding.Codec.QueryMap
import HttpBinding.Config
import HttpBinding.Entries
import HttpBinding.Exchange.Direct
import HttpBinding.Exchange.Handler
import HttpBinding.Exchange.Log
import HttpBinding.Exchange.Suspended
import HttpBinding.Exchange.Trace
import HttpBinding.Exchange.Wire
import HttpBinding.Fault
import HttpBinding.Interceptor
import HttpBinding.Interface.Declaration
import HttpBinding.Interface.Extension
import HttpBinding.Interface.Hints
import HttpBinding.Interface.Lineage
import HttpBinding.Interface.Members
import HttpBinding.Json.Reader
import HttpBinding.Json.Value
import HttpBinding.Message.Method
import HttpBinding.Message.Options
import HttpBinding.Message.Request
import HttpBinding.Message.Response
import HttpBinding.Moment.Basic
import HttpBinding.Moment.HttpDate
import HttpBinding.Moment.Iso
import HttpBinding.Number.Binary64
import HttpBinding.Number.Decimal
import HttpBinding.Number.Numeral
import HttpBinding.Number.Quantity
import HttpBinding.Number.Rounding
import HttpBinding.Octets.Base64
import HttpBinding.Octets.Charset
import HttpBinding.Octets.Hex
import HttpBinding.Octets.Percent
import HttpBinding.Octets.Utf8
import HttpBinding.Plan.Basic
import HttpBinding.Plan.BuildFault
import HttpBinding.Plan.Contract
import HttpBinding.Plan.Filling
import HttpBinding.Plan.Reading
import HttpBinding.Plan.Shorthand
import HttpBinding.Proofs.Client.Binding
import HttpBinding.Proofs.Client.Calls
import HttpBinding.Proofs.Client.Dispatch
import HttpBinding.Proofs.Codec.ErrorDecoding
import HttpBinding.Proofs.Codec.FormReading
import HttpBinding.Proofs.Codec.RoundTrip
import HttpBinding.Proofs.Codec.Unheld
import HttpBinding.Proofs.Exchange.ArrivedHeaders
import HttpBinding.Proofs.Exchange.Attempt
import HttpBinding.Proofs.Exchange.Bodies
import HttpBinding.Proofs.Exchange.Fetching
import HttpBinding.Proofs.Exchange.Levels
import HttpBinding.Proofs.Exchange.Logging
import HttpBinding.Proofs.Exchange.ReferenceRun
import HttpBinding.Proofs.Exchange.Release
import HttpBinding.Proofs.Exchange.Succession
import HttpBinding.Proofs.Exchange.Suspension
import HttpBinding.Proofs.Exchange.Transcript
import HttpBinding.Proofs.Exchange.Transparency
import HttpBinding.Proofs.Exchange.Unwrapping
import HttpBinding.Proofs.Exchange.Views
import HttpBinding.Proofs.Interface.Survival
import HttpBinding.Proofs.Json.RoundTrip
import HttpBinding.Proofs.Number.Growth
import HttpBinding.Proofs.Octets.Alphabet
import HttpBinding.Proofs.Octets.Percent
import HttpBinding.Proofs.Octets.Utf8
import HttpBinding.Proofs.Plan.Acceptance
import HttpBinding.Proofs.Plan.Address
import HttpBinding.Proofs.Plan.Apart
import HttpBinding.Proofs.Plan.Asked
import HttpBinding.Proofs.Plan.BodyArgument
import HttpBinding.Proofs.Plan.ContentType
import HttpBinding.Proofs.Plan.Directives
import HttpBinding.Proofs.Plan.Filling
import HttpBinding.Proofs.Plan.Forms
import HttpBinding.Proofs.Plan.HeaderLines
import HttpBinding.Proofs.Plan.Keys
import HttpBinding.Proofs.Plan.Refusals
import HttpBinding.Proofs.Plan.Relevance
import HttpBinding.Proofs.Plan.Reordering
import HttpBinding.Proofs.Plan.Roles
import HttpBinding.Proofs.Plan.Skeleton
import HttpBinding.Proofs.Plan.TwoCalls
import HttpBinding.Proofs.Plan.TwoRequests
import HttpBinding.Proofs.Plan.Upkeep
import HttpBinding.Proofs.Plan.Variables
import HttpBinding.Proofs.Retryer.Decision
import HttpBinding.Proofs.Retryer.Waits
import HttpBinding.Proofs.Schema.Plain
import HttpBinding.Proofs.Schema.RoundTrip
import HttpBinding.Proofs.Target.Absolute
import HttpBinding.Proofs.Target.Below
import HttpBinding.Proofs.Target.Merging
import HttpBinding.Proofs.Template.DistinctNames
import HttpBinding.Proofs.Template.Filling
import HttpBinding.Proofs.Template.GappedTables
import HttpBinding.Proofs.Template.Gaps
import HttpBinding.Proofs.Template.HeaderMap
import HttpBinding.Proofs.Template.JoinedValues
import HttpBinding.Proofs.Template.Literals
import HttpBinding.Proofs.Template.Marks
import HttpBinding.Proofs.Template.PathStructure
import HttpBinding.Proofs.Template.Preservation
import HttpBinding.Proofs.Template.Queries
import HttpBinding.Proofs.Template.QueryMap
import HttpBinding.Proofs.Template.QueryNames
import HttpBinding.Proofs.Template.QueryStructure
import HttpBinding.Proofs.Template.Relevance
import HttpBinding.Proofs.Template.Rendering
import HttpBinding.Proofs.Template.Replacement
import HttpBinding.Proofs.Template.WellFormed
import HttpBinding.Proofs.Text.Gaps
import HttpBinding.Proofs.Text.Split
import HttpBinding.Proofs.Text.SplitAround
import HttpBinding.Retryer
import HttpBinding.Schema.Adapters
import HttpBinding.Schema.Basic
import HttpBinding.Schema.Dump
import HttpBinding.Schema.Making
import HttpBinding.Schema.Type
import HttpBinding.Schema.Validate
import HttpBinding.Target
import HttpBinding.Template.Basic
import HttpBinding.Template.Placeholder
import HttpBinding.Template.Resolve
import HttpBinding.Text.Blank
import HttpBinding.Text.Case
import HttpBinding.Text.CaseTable
import HttpBinding.Text.CodeRanges
import HttpBinding.Text.Digit
import HttpBinding.Text.Printable
import HttpBinding.Text.Quoted
import HttpBinding.Text.Split
import HttpBinding.Value
import HttpBinding.Value.Order
