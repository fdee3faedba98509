import AuditTrail.ByName
import AuditTrail.Cli.Arguments
import AuditTrail.Cli.Run
import AuditTrail.Did.Document
import AuditTrail.Did.Interleaving
import AuditTrail.Did.Resolver
import AuditTrail.Did.Web
import AuditTrail.Failure
import AuditTrail.Files.Path
import AuditTrail.Files.Tree
import AuditTrail.Hash.Sha256
import AuditTrail.Hash.Sha512
import AuditTrail.Http.Client
import AuditTrail.Http.Exchange
import AuditTrail.Http.Message
import AuditTrail.Identity
import AuditTrail.Issuer.Issue
import AuditTrail.Issuer.Signer
import AuditTrail.Issuer.Template
import AuditTrail.Issuer.Timestamp
import AuditTrail.Json.Canonical
import AuditTrail.Json.Pretty
import AuditTrail.Json.Record
import AuditTrail.Json.Tree
import AuditTrail.Json.Value
import AuditTrail.Json.Wire
import AuditTrail.Log.Chain
import AuditTrail.Log.Commitment
import AuditTrail.Log.Entry
import AuditTrail.Log.Source
import AuditTrail.Log.Structure
import AuditTrail.Main
import AuditTrail.Number.Double
import AuditTrail.Number.Layout
import AuditTrail.Number.Numeral
import AuditTrail.Number.Shortest
import AuditTrail.Replay.Config
import AuditTrail.Replay.Hints
import AuditTrail.Replay.Normalize
import AuditTrail.Replay.Run
import AuditTrail.Replay.Tokens
import AuditTrail.Report
import AuditTrail.Settings
import AuditTrail.Signature.Check
import AuditTrail.Signature.Ed25519
import AuditTrail.Signature.Fault
import AuditTrail.Signature.Jws
import AuditTrail.Signature.Key
import AuditTrail.Signature.Scheme
import AuditTrail.Simulation.Checks
import AuditTrail.Simulation.Network
import AuditTrail.Simulation.Runtime
import AuditTrail.Simulation.Script
import AuditTrail.Text.Base64Url
import AuditTrail.Text.Blank
import AuditTrail.Text.Bytes
import AuditTrail.Text.HiddenChars
import AuditTrail.Text.Percent
import AuditTrail.Text.Pieces
import AuditTrail.Text.Quoted
import AuditTrail.Text.Ranges
import AuditTrail.Text.WordChars
import AuditTrail.Toml.Read
import AuditTrail.Toml.Value
import AuditTrail.Url.Host
import AuditTrail.Url.Punycode
import AuditTrail.Url.Read
import AuditTrail.Verification
import AuditTrail.Yaml.Cursor
import AuditTrail.Yaml.Node
import AuditTrail.Yaml.Scalar
import AuditTrail.Yaml.Token
import AuditTrail.Proofs.ByName
import AuditTrail.Proofs.Did.Interleaving
import AuditTrail.Proofs.Did.Web
import AuditTrail.Proofs.Http.Client
import AuditTrail.Proofs.Http.Exchange
import AuditTrail.Proofs.Identity
import AuditTrail.Proofs.Identity.Grammar
import AuditTrail.Proofs.Issuer.Sound
import AuditTrail.Proofs.Json.Canonical
import AuditTrail.Proofs.Json.Layout
import AuditTrail.Proofs.Json.Numbers
import AuditTrail.Proofs.Json.Reading
import AuditTrail.Proofs.Json.Record
import AuditTrail.Proofs.Json.Respelling
import AuditTrail.Proofs.Json.Sameness
import AuditTrail.Proofs.Json.Wire
import AuditTrail.Proofs.Log.Chain
import AuditTrail.Proofs.Log.Commitment
import AuditTrail.Proofs.Log.Faults
import AuditTrail.Proofs.Log.Reload
import AuditTrail.Proofs.Log.Schema
import AuditTrail.Proofs.Log.Structure
import AuditTrail.Proofs.Log.Tamper
import AuditTrail.Proofs.Log.Wire
import AuditTrail.Proofs.Number.Decimals
import AuditTrail.Proofs.Number.Digits
import AuditTrail.Proofs.Number.Layout
import AuditTrail.Proofs.Number.Nearest
import AuditTrail.Proofs.Number.Reading
import AuditTrail.Proofs.Number.Rounding
import AuditTrail.Proofs.Number.Shape
import AuditTrail.Proofs.Number.Shortest
import AuditTrail.Proofs.Replay.Call
import AuditTrail.Proofs.Replay.Cancelled
import AuditTrail.Proofs.Replay.Config
import AuditTrail.Proofs.Replay.Constructor
import AuditTrail.Proofs.Replay.Faithful
import AuditTrail.Proofs.Replay.FinalState
import AuditTrail.Proofs.Replay.Granted
import AuditTrail.Proofs.Replay.Hints
import AuditTrail.Proofs.Replay.LiveId
import AuditTrail.Proofs.Replay.Normalize
import AuditTrail.Proofs.Replay.Once
import AuditTrail.Proofs.Replay.Requests
import AuditTrail.Proofs.Replay.Restored
import AuditTrail.Proofs.Replay.Run
import AuditTrail.Proofs.Replay.Tokens
import AuditTrail.Proofs.Replay.Verdict
import AuditTrail.Proofs.Signature.Binding
import AuditTrail.Proofs.Signature.Check
import AuditTrail.Proofs.Signature.Outcomes
import AuditTrail.Proofs.Signature.Spelling
import AuditTrail.Proofs.Text.Percent
import AuditTrail.Proofs.Verification
import AuditTrail.Proofs.Verification.Account
import AuditTrail.Proofs.Verification.Containment
import AuditTrail.Proofs.Verification.FailFast
