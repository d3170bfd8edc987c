import ApiContract.CommandLine.Arguments
import ApiContract.CommandLine.Basic
import ApiContract.Decimal.Binary64
import ApiContract.Decimal.Layout
import ApiContract.Decimal.Reader
import ApiContract.Decimal.Shortest
import ApiContract.DefinitionError
import ApiContract.Description.Basic
import ApiContract.Description.Reader
import ApiContract.Entries
import ApiContract.Http.Header
import ApiContract.Http.Message
import ApiContract.Http.Status
import ApiContract.Json.Parser
import ApiContract.Json.Pointer
import ApiContract.Json.Printer
import ApiContract.Json.Value
import ApiContract.Main
import ApiContract.Parameter.Basic
import ApiContract.Parameter.Decoding
import ApiContract.Parameter.Encoding
import ApiContract.Parameter.Error
import ApiContract.Parameter.Style
import ApiContract.Parameter.Template
import ApiContract.Pattern.Backtracking
import ApiContract.Pattern.Basic
import ApiContract.Pattern.Bracket
import ApiContract.Pattern.CharSet
import ApiContract.Pattern.Node
import ApiContract.Pattern.Parser
import ApiContract.Pattern.Property
import ApiContract.Pattern.Reach
import ApiContract.Proofs.Description.Fidelity
import ApiContract.Proofs.Json.Pointer
import ApiContract.Proofs.Reference.Library
import ApiContract.Proofs.Schema.Building
import ApiContract.Proofs.Schema.Completion
import ApiContract.Proofs.Schema.Construction
import ApiContract.Proofs.Schema.Frames
import ApiContract.Proofs.Schema.Satisfaction
import ApiContract.Proofs.Schema.Transcription
import ApiContract.Proofs.Schema.Verdict
import ApiContract.Proofs.Session.Admission
import ApiContract.Proofs.Session.Outcome
import ApiContract.Reference.Error
import ApiContract.Reference.Library
import ApiContract.Reference.Location
import ApiContract.Schema.Builder
import ApiContract.Schema.Catalog
import ApiContract.Schema.Composition
import ApiContract.Schema.Descriptor
import ApiContract.Schema.Hint
import ApiContract.Schema.Validation
import ApiContract.Schema.Violation
import ApiContract.Security.Credential
import ApiContract.Security.Scheme
import ApiContract.Session.Basic
import ApiContract.Session.Error
import ApiContract.Session.Exchange
import ApiContract.Session.Request
import ApiContract.Session.Result
import ApiContract.Session.Security
import ApiContract.Source.Document
import ApiContract.Source.Error
import ApiContract.Source.Files
import ApiContract.Text.Base64
import ApiContract.Text.Blank
import ApiContract.Text.CaseFolding
import ApiContract.Text.Category
import ApiContract.Text.CodeRange
import ApiContract.Text.FormEncoded
import ApiContract.Text.Letters
import ApiContract.Text.Percent
import ApiContract.Text.Pieces
import ApiContract.Text.Quoted
import ApiContract.Text.Script
import ApiContract.Text.Utf8
import ApiContract.Url.Basic
import ApiContract.Url.Domain
import ApiContract.Url.FilePath
import ApiContract.Url.Host
import ApiContract.Url.Parser
import ApiContract.Url.Query
import ApiContract.Yaml.Basic
import ApiContract.Yaml.Cursor
import ApiContract.Yaml.Document
import ApiContract.Yaml.Expansion
import ApiContract.Yaml.Node
import ApiContract.Yaml.Property
import ApiContract.Yaml.Resolution
import ApiContract.Yaml.Scalar.Block
import ApiContract.Yaml.Scalar.Plain
import ApiContract.Yaml.Scalar.Quoted
import ApiContract.Yaml.Token
import ApiContract.Yaml.Tokens
import ApiContract.Proofs.Json.Sameness
import ApiContract.Proofs.Schema.Compatibility
import ApiContract.Proofs.Schema.Merging
import ApiContract.Proofs.Schema.Agreement
import ApiContract.Proofs.Schema.MergedView
import ApiContract.Proofs.Description.WellFormed
import ApiContract.Proofs.Decimal.Digits
import ApiContract.Proofs.Url.Text
import ApiContract.Proofs.Text.Percent
import ApiContract.Proofs.Url.HostReading
import ApiContract.Proofs.Url.Reading
import ApiContract.Proofs.Reference.Chain
import ApiContract.Proofs.Reference.Reflection
import ApiContract.Proofs.Reference.Ending
import ApiContract.Proofs.Reference.Caching
import ApiContract.Proofs.Schema.Relocation
import ApiContract.Proofs.Schema.Nesting
import ApiContract.Proofs.Reference.Finite
import ApiContract.Proofs.Reference.Walk
import ApiContract.Proofs.Reference.Sites
import ApiContract.Proofs.Schema.Ending
import ApiContract.Proofs.Schema.Descent
import ApiContract.Proofs.Description.Ending
import ApiContract.Proofs.Url.Scheme
import ApiContract.Proofs.Url.Segments
import ApiContract.Proofs.Url.Extension
import ApiContract.Proofs.Parameter.PathText
import ApiContract.Proofs.Parameter.Template
import ApiContract.Proofs.Session.Target
import ApiContract.Proofs.Except
import ApiContract.Proofs.RelatedLists
import ApiContract.Proofs.Entries
import ApiContract.Proofs.Session.Security
import ApiContract.Proofs.Session.Preparation
import ApiContract.Proofs.Session.History
import ApiContract.Proofs.Session.Challenge
import ApiContract.Proofs.Session.Confinement
import ApiContract.Proofs.Session.Disclosure
import ApiContract.Proofs.Parameter.Atoms
import ApiContract.Proofs.Parameter.Pairs
import ApiContract.Proofs.Parameter.DeepObject
import ApiContract.Proofs.Parameter.TextStyles
import ApiContract.Proofs.Decimal.Integers
import ApiContract.Proofs.Parameter.Scalars
import ApiContract.Proofs.Schema.Denial
import ApiContract.Proofs.Schema.Likeness
import ApiContract.Proofs.Schema.Constraints
import ApiContract.Proofs.Schema.Dispatch
import ApiContract.Proofs.Json.Position
import ApiContract.Proofs.Json.Reordering
import ApiContract.Proofs.Schema.Findings
import ApiContract.Proofs.Schema.Strictness
import ApiContract.Proofs.Schema.Reordering
import ApiContract.Proofs.Description.Transcription
import ApiContract.Proofs.Description.Sharing
import ApiContract.Proofs.Parameter.Interleaving
import ApiContract.Proofs.Parameter.PathValues
import ApiContract.Proofs.Session.Placeholders
import ApiContract.Proofs.Session.Variables
import ApiContract.Proofs.Text.Decoding
import ApiContract.Proofs.Text.FormEncoded
import ApiContract.Proofs.Url.Tail
import ApiContract.Proofs.Session.Pairs
import ApiContract.Proofs.Session.Query
import ApiContract.Proofs.Session.Cookies
import ApiContract.Proofs.Description.Sites
import ApiContract.Proofs.Session.MediaTypes
import ApiContract.Proofs.Description.Links
import ApiContract.Proofs.Parameter.Supply
import ApiContract.Proofs.Session.Negotiation
import ApiContract.Proofs.Description.Inheritance
import ApiContract.Proofs.Schema.Accumulation
import ApiContract.Proofs.Schema.Hints
import ApiContract.Proofs.Reference.Location
