import Deployment.Account
import Deployment.Archive
import Deployment.Command.Invocation
import Deployment.Command.Line
import Deployment.Command.Report
import Deployment.Command.Run
import Deployment.Data.Keyed
import Deployment.Data.NameMap
import Deployment.Data.Stateful
import Deployment.Decimal.Shortest
import Deployment.Deploy.Fault
import Deployment.Deploy.Job
import Deployment.Deploy.Plant
import Deployment.Deploy.Pool
import Deployment.Deploy.Registration
import Deployment.Descriptor.Application
import Deployment.Descriptor.Dataset
import Deployment.Descriptor.Program
import Deployment.Descriptor.Workflow
import Deployment.Document.Buffered
import Deployment.Document.Layout
import Deployment.Document.Mismatch
import Deployment.Document.Slot
import Deployment.Identifier
import Deployment.Json.Cursor
import Deployment.Json.Form
import Deployment.Json.Number
import Deployment.Json.Quoted
import Deployment.Json.Reader
import Deployment.Json.Skip
import Deployment.Json.Value
import Deployment.Main
import Deployment.Metadata
import Deployment.Principal
import Deployment.Proofs.Command.Agreement
import Deployment.Proofs.Command.LastWord
import Deployment.Proofs.Command.LoneUpload
import Deployment.Proofs.Command.PieceSize
import Deployment.Proofs.Deploy.Deployed
import Deployment.Proofs.Deploy.Draining
import Deployment.Proofs.Deploy.Ledger
import Deployment.Proofs.Deploy.Looks
import Deployment.Proofs.Deploy.Namespace
import Deployment.Proofs.Deploy.Ownership
import Deployment.Proofs.Deploy.Registration
import Deployment.Proofs.Deploy.Retry
import Deployment.Proofs.Descriptor.Building
import Deployment.Proofs.Descriptor.Node
import Deployment.Proofs.Descriptor.RoundTrip
import Deployment.Proofs.Json.Collection
import Deployment.Proofs.Json.Form
import Deployment.Proofs.Json.Nesting
import Deployment.Proofs.Json.Number
import Deployment.Proofs.Json.Quoted
import Deployment.Proofs.Json.Reading
import Deployment.Proofs.Json.SetAside
import Deployment.Proofs.Json.Spelling
import Deployment.Proofs.Json.Step
import Deployment.Proofs.Principal.Grammar
import Deployment.Proofs.Record.Atomic
import Deployment.Proofs.Record.Form
import Deployment.Proofs.Record.RoundTrip
import Deployment.Proofs.Record.Saving
import Deployment.Proofs.Session.Archive
import Deployment.Proofs.Session.Confinement
import Deployment.Proofs.Session.Correspondence
import Deployment.Proofs.Session.Desk
import Deployment.Proofs.Session.Durability
import Deployment.Proofs.Session.Effect
import Deployment.Proofs.Session.Event
import Deployment.Proofs.Session.Interleaving
import Deployment.Proofs.Session.Leftover
import Deployment.Proofs.Session.Lifecycle
import Deployment.Proofs.Session.Noninterference
import Deployment.Proofs.Session.Order
import Deployment.Proofs.Session.Outcome
import Deployment.Proofs.Session.Refusal
import Deployment.Proofs.Session.Resumption
import Deployment.Proofs.Session.Shelved
import Deployment.Proofs.Session.Signature
import Deployment.Proofs.Session.Splitting
import Deployment.Proofs.Session.Tenancy
import Deployment.Proofs.Session.Territory
import Deployment.Proofs.Session.Unloaded
import Deployment.Proofs.Session.Unsaved
import Deployment.Proofs.Storage.Change
import Deployment.Proofs.Storage.Growth
import Deployment.Proofs.Storage.Moving
import Deployment.Proofs.Storage.Place
import Deployment.Proofs.Storage.Retention
import Deployment.Proofs.Storage.Writing
import Deployment.Proofs.Text.Digits
import Deployment.Proofs.Text.Utf8
import Deployment.Proofs.Time.Calendar
import Deployment.Proofs.Time.Reading
import Deployment.Proofs.Time.Year
import Deployment.Proofs.Verification.Alike
import Deployment.Proofs.Verification.FirstFault
import Deployment.Proofs.Verification.Gates
import Deployment.Proofs.Verification.Kinds
import Deployment.Proofs.Verification.Looking
import Deployment.Proofs.Verification.Requester
import Deployment.Proofs.Verification.Requirements
import Deployment.Proofs.Verification.Sharing
import Deployment.Proofs.Verification.Walk
import Deployment.Record
import Deployment.Resource
import Deployment.Service
import Deployment.Session.Fault
import Deployment.Session.Manager
import Deployment.Session.Upload
import Deployment.Settings
import Deployment.Status
import Deployment.Storage.Fault
import Deployment.Storage.FileTree
import Deployment.Storage.Path
import Deployment.Storage.Writer
import Deployment.Text.Blank
import Deployment.Text.Hidden
import Deployment.Text.Quoted
import Deployment.Text.Utf8
import Deployment.Time.Calendar
import Deployment.Time.Reading
import Deployment.Time.Timestamp
import Deployment.Toml.Document
import Deployment.Toml.Lexeme
import Deployment.Toml.Number
import Deployment.Toml.Value
import Deployment.Ulid
import Deployment.Verification.Admission
import Deployment.Verification.Fault
import Deployment.Verification.Graph
import Deployment.Verification.Registry
import Deployment.Verification.Verifier
import Deployment.Yaml.Decoder
import Deployment.Yaml.Lexeme
import Deployment.Yaml.Node
import Deployment.Yaml.Scalar
import Deployment.Yaml.Token
import Deployment.Yaml.Tokenizer
