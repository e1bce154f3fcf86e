import ApiSmith.Client.Certificates
import ApiSmith.Client.Config
import ApiSmith.Client.Outcome
import ApiSmith.Client.Session
import ApiSmith.Client.Shared
import ApiSmith.Client.Url
import ApiSmith.CommandLine.Arguments
import ApiSmith.CommandLine.Run
import ApiSmith.Data.Value
import ApiSmith.Data.Value.Access
import ApiSmith.Data.Value.Literal
import ApiSmith.Data.Value.Same
import ApiSmith.Defect
import ApiSmith.Document
import ApiSmith.Json.Reading
import ApiSmith.Json.Writing
import ApiSmith.Log
import ApiSmith.Main
import ApiSmith.Naming
import ApiSmith.Notices.Center
import ApiSmith.Notices.Event
import ApiSmith.Notices.Registry
import ApiSmith.Number.Decimal
import ApiSmith.Number.Double
import ApiSmith.Number.Integer
import ApiSmith.Number.Shortest
import ApiSmith.Operation
import ApiSmith.Operation.Parameter
import ApiSmith.Operation.PathTemplate
import ApiSmith.Operation.Response
import ApiSmith.Operation.WireType
import ApiSmith.Package
import ApiSmith.Package.Dependencies
import ApiSmith.Package.Files
import ApiSmith.Package.Grouping
import ApiSmith.Package.Listing
import ApiSmith.Package.Page
import ApiSmith.Payload.Answer
import ApiSmith.Payload.DataType
import ApiSmith.Payload.Decoding
import ApiSmith.Payload.Dynamic
import ApiSmith.Payload.Encoding
import ApiSmith.Profile
import ApiSmith.Schema.Definition
import ApiSmith.Schema.Descriptor
import ApiSmith.Schema.Enum
import ApiSmith.Schema.Resolve
import ApiSmith.Text.Base64
import ApiSmith.Text.CodePoints
import ApiSmith.Text.Cut
import ApiSmith.Text.Encoding
import ApiSmith.Text.FormattedQuoted
import ApiSmith.Text.Identifier
import ApiSmith.Text.Likeness
import ApiSmith.Text.Lines
import ApiSmith.Text.Lowercase
import ApiSmith.Text.Percent
import ApiSmith.Text.PlainQuoted
import ApiSmith.Text.Printable
import ApiSmith.Text.Quoted
import ApiSmith.Text.Replacement
import ApiSmith.Text.TripleQuoted
import ApiSmith.Text.Uppercase
import ApiSmith.Text.Word
import ApiSmith.Time.Calendar
import ApiSmith.Time.Moment
import ApiSmith.Time.Reading
import ApiSmith.Yaml.Cursor
import ApiSmith.Yaml.Node
import ApiSmith.Yaml.Reading
import ApiSmith.Yaml.Scalar
import ApiSmith.Yaml.Token
import ApiSmith.Proofs.Aborts
import ApiSmith.Proofs.Accounting
import ApiSmith.Proofs.AddedTypes
import ApiSmith.Proofs.Annotations
import ApiSmith.Proofs.Answers
import ApiSmith.Proofs.ArrayLevels
import ApiSmith.Proofs.Assembly
import ApiSmith.Proofs.Base64
import ApiSmith.Proofs.Bindings
import ApiSmith.Proofs.Bodies
import ApiSmith.Proofs.Captures
import ApiSmith.Proofs.ClassBodies
import ApiSmith.Proofs.ClassNames
import ApiSmith.Proofs.Comments
import ApiSmith.Proofs.Compiling
import ApiSmith.Proofs.Cutting
import ApiSmith.Proofs.Decoding
import ApiSmith.Proofs.Definitions
import ApiSmith.Proofs.Dependencies
import ApiSmith.Proofs.Docstrings
import ApiSmith.Proofs.Dynamic
import ApiSmith.Proofs.Endings
import ApiSmith.Proofs.EnumLists
import ApiSmith.Proofs.EnumNames
import ApiSmith.Proofs.Fates
import ApiSmith.Proofs.FieldNames
import ApiSmith.Proofs.FileNames
import ApiSmith.Proofs.FilePaths
import ApiSmith.Proofs.Forms
import ApiSmith.Proofs.GroupNames
import ApiSmith.Proofs.Grouping
import ApiSmith.Proofs.Identifiers
import ApiSmith.Proofs.Inhabitants
import ApiSmith.Proofs.Integers
import ApiSmith.Proofs.Isolation
import ApiSmith.Proofs.JsonData
import ApiSmith.Proofs.KeptArtifacts
import ApiSmith.Proofs.Keys
import ApiSmith.Proofs.Kinds
import ApiSmith.Proofs.ListTypes
import ApiSmith.Proofs.Logged
import ApiSmith.Proofs.MemberNames
import ApiSmith.Proofs.MethodNames
import ApiSmith.Proofs.ModuleNames
import ApiSmith.Proofs.Moments
import ApiSmith.Proofs.Octets
import ApiSmith.Proofs.Operations
import ApiSmith.Proofs.ParameterForms
import ApiSmith.Proofs.PathRoots
import ApiSmith.Proofs.Placeholders
import ApiSmith.Proofs.Places
import ApiSmith.Proofs.PlainData
import ApiSmith.Proofs.Posts
import ApiSmith.Proofs.Pruning
import ApiSmith.Proofs.Queries
import ApiSmith.Proofs.QueryDates
import ApiSmith.Proofs.QuotedKeys
import ApiSmith.Proofs.Refusals
import ApiSmith.Proofs.Replacements
import ApiSmith.Proofs.Returning
import ApiSmith.Proofs.RoundTrip
import ApiSmith.Proofs.Runs
import ApiSmith.Proofs.SchemaSteps
import ApiSmith.Proofs.Sending
import ApiSmith.Proofs.Sessions
import ApiSmith.Proofs.Settings
import ApiSmith.Proofs.SnakeCase
import ApiSmith.Proofs.Statuses
import ApiSmith.Proofs.Strictness
import ApiSmith.Proofs.Subscriptions
import ApiSmith.Proofs.Tasks
import ApiSmith.Proofs.Turns
import ApiSmith.Proofs.WholeDecimals
