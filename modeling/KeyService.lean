import KeyService.Block.Aes
import KeyService.Block.Basic
import KeyService.Block.Chain
import KeyService.Block.GcmSiv
import KeyService.Block.Padding
import KeyService.Bytes
import KeyService.Bytes.Base64
import KeyService.Bytes.Words
import KeyService.Config
import KeyService.Curve.Document
import KeyService.Curve.Point
import KeyService.Curve.Signature
import KeyService.Der.Element
import KeyService.Der.KeyDocument
import KeyService.Digest.Hmac
import KeyService.Digest.Sha256
import KeyService.Engine.Algorithm
import KeyService.Engine.Basic
import KeyService.Engine.Ecies
import KeyService.Engine.KeyText
import KeyService.Envelope
import KeyService.Exchange.Derivation
import KeyService.Exchange.Endpoint
import KeyService.Exchange.Error
import KeyService.Exchange.Handshake
import KeyService.Exchange.Message
import KeyService.Exchange.Responder
import KeyService.Exchange.Session
import KeyService.Failure
import KeyService.Failure.Kind
import KeyService.Gateway.Basic
import KeyService.Gateway.Client
import KeyService.Gateway.Handlers
import KeyService.Gateway.Routes
import KeyService.Http.Coding
import KeyService.Http.Form
import KeyService.Http.MediaType
import KeyService.Http.Message
import KeyService.Http.Pattern
import KeyService.Http.Uri
import KeyService.Json.Codec
import KeyService.Json.Reader
import KeyService.Json.Value
import KeyService.KeyPair.Basic
import KeyService.KeyPair.Store
import KeyService.LocalText.Cipher
import KeyService.LocalText.Error
import KeyService.LocalText.Keys
import KeyService.LocalText.Record
import KeyService.LocalText.Scheme
import KeyService.LocalText.Store
import KeyService.Number.Modular
import KeyService.Payload.Cipher
import KeyService.Payload.DataKey
import KeyService.Program
import KeyService.Rsa.Generate
import KeyService.Rsa.Key
import KeyService.Rsa.Padding
import KeyService.ServiceError
import KeyService.Store.Directory
import KeyService.Store.Rows
import KeyService.Store.Table
import KeyService.Suite
import KeyService.Suite.Standard
import KeyService.Symmetric.Algorithm
import KeyService.Symmetric.Cipher
import KeyService.Symmetric.Key
import KeyService.Text.Blank
import KeyService.Text.DateTime
import KeyService.Text.Quoted
import KeyService.Text.Unpictured
import KeyService.Text.Utf8
import KeyService.Text.Uuid
import KeyService.Proofs.Program.Pool
import KeyService.Proofs.Bytes.Base64
import KeyService.Proofs.Curve.Laws
import KeyService.Proofs.Engine.KeyText
import KeyService.Proofs.Engine.FirstUse
import KeyService.Proofs.Exchange.Agreement
import KeyService.Proofs.Exchange.Authentication
import KeyService.Proofs.Exchange.Completion
import KeyService.Proofs.Exchange.Rotation
import KeyService.Proofs.Json.Object
import KeyService.Proofs.KeyPair.Agreement
import KeyService.Proofs.LocalText.Backend
import KeyService.Proofs.LocalText.FirstWriter
import KeyService.Proofs.Block.GcmSiv
import KeyService.Proofs.Symmetric.Inverse
import KeyService.Proofs.Symmetric.Refusal
import KeyService.Proofs.Symmetric.Naming
import KeyService.Proofs.LocalText.Load
import KeyService.Proofs.LocalText.Settled
import KeyService.Proofs.LocalText.Fleet
import KeyService.Proofs.LocalText.Files
import KeyService.Proofs.LocalText.Race
import KeyService.Proofs.LocalText.Convergence
import KeyService.Proofs.Payload.Crossing
import KeyService.Proofs.Exchange.Sessions
import KeyService.Proofs.Exchange.Lifecycle
import KeyService.Proofs.Json.Number
import KeyService.Proofs.Exchange.Message
import KeyService.Proofs.Http.Spelling
import KeyService.Proofs.Http.Naming
import KeyService.Proofs.Gateway.Envelope
import KeyService.Proofs.Gateway.Connection
import KeyService.Proofs.Gateway.Marked
import KeyService.Proofs.Gateway.Exchange
import KeyService.Proofs.Text.Visible
import KeyService.Proofs.Text.Letters
import KeyService.Proofs.Gateway.Echo
import KeyService.Proofs.Gateway.Stores
import KeyService.Proofs.Exchange.Endpoint
import KeyService.Proofs.Exchange.Frame
import KeyService.Proofs.LocalText.Loaded
import KeyService.Proofs.Gateway.Handlers
import KeyService.Proofs.Program.Alike
import KeyService.Proofs.Gateway.Discretion
import KeyService.Proofs.Gateway.Wrapping
import KeyService.Proofs.Gateway.Day
import KeyService.Proofs.Payload.Usable
import KeyService.Proofs.Exchange.Usable
import KeyService.Proofs.Json.Documents
import KeyService.Proofs.Exchange.Causes
import KeyService.Proofs.Exchange.Skew
import KeyService.Proofs.Exchange.Tampering
import KeyService.Proofs.Exchange.Outcome
import KeyService.Proofs.Gateway.Startup
import KeyService.Proofs.Gateway.Verdict
import KeyService.Proofs.LocalText.Opened
import KeyService.Proofs.Gateway.Restored
import KeyService.Proofs.Engine.Once
import KeyService.Proofs.Exchange.Address
import KeyService.Proofs.Engine.Conduct
import KeyService.Proofs.Engine.Inverse
import KeyService.Proofs.LocalText.Unwrap
import KeyService.Proofs.LocalText.Searching
import KeyService.Proofs.LocalText.Routing
import KeyService.Proofs.LocalText.Loading
import KeyService.Proofs.Exchange.Terms
import KeyService.Proofs.Store.Naming
import KeyService.Proofs.Gateway.Proposal
