import LedgerGateway.Abi.Decoding
import LedgerGateway.Abi.Encoding
import LedgerGateway.Abi.Interface
import LedgerGateway.Abi.Literal
import LedgerGateway.Abi.Ty
import LedgerGateway.Abi.TypeText
import LedgerGateway.Abi.Value
import LedgerGateway.Account.Basic
import LedgerGateway.Account.Ecdsa
import LedgerGateway.Account.Gm
import LedgerGateway.Account.Profile
import LedgerGateway.Account.Secret
import LedgerGateway.Bytes.BigEndian
import LedgerGateway.Bytes.Hex
import LedgerGateway.Bytes.Sized
import LedgerGateway.Call.Arguments
import LedgerGateway.Call.Error
import LedgerGateway.Call.Method
import LedgerGateway.Call.Proxy
import LedgerGateway.Configuration.Basic
import LedgerGateway.Configuration.Loader
import LedgerGateway.Configuration.Placeholder
import LedgerGateway.CryptoKind
import LedgerGateway.Curve.Weierstrass
import LedgerGateway.Envelope.Params
import LedgerGateway.Envelope.Request
import LedgerGateway.Envelope.TransactionRequest
import LedgerGateway.Gateway.Basic
import LedgerGateway.Gateway.Dispatcher
import LedgerGateway.Gateway.Error
import LedgerGateway.Gateway.Invocation
import LedgerGateway.Gateway.Node
import LedgerGateway.Gateway.Operations
import LedgerGateway.Gateway.Verification
import LedgerGateway.Hash.Blocks
import LedgerGateway.Hash.Keccak
import LedgerGateway.Hash.Sha256
import LedgerGateway.Hash.Sm3
import LedgerGateway.Json.Basic
import LedgerGateway.Json.Binary64
import LedgerGateway.Json.Decoder
import LedgerGateway.Json.Printer
import LedgerGateway.Json.Reader
import LedgerGateway.Ledger.Block
import LedgerGateway.Ledger.ProofUnit
import LedgerGateway.Ledger.Receipt
import LedgerGateway.Ledger.Transaction
import LedgerGateway.NodeVersion
import LedgerGateway.Proof.Merkle
import LedgerGateway.Proof.Receipt
import LedgerGateway.Proofs.Abi.Belonging
import LedgerGateway.Proofs.Abi.Decoded
import LedgerGateway.Proofs.Abi.Distinct
import LedgerGateway.Proofs.Abi.Grammar
import LedgerGateway.Proofs.Abi.Interface
import LedgerGateway.Proofs.Abi.Layout
import LedgerGateway.Proofs.Abi.Lexis
import LedgerGateway.Proofs.Abi.Literal
import LedgerGateway.Proofs.Abi.Meaning
import LedgerGateway.Proofs.Abi.Rendered
import LedgerGateway.Proofs.Abi.RoundTrip
import LedgerGateway.Proofs.Abi.Signature
import LedgerGateway.Proofs.Bytes.Address
import LedgerGateway.Proofs.Bytes.BigEndian
import LedgerGateway.Proofs.Bytes.Hex
import LedgerGateway.Proofs.Bytes.Spelling
import LedgerGateway.Proofs.Call.Arguments
import LedgerGateway.Proofs.Call.Method
import LedgerGateway.Proofs.Call.Proxy
import LedgerGateway.Proofs.Call.Refusals
import LedgerGateway.Proofs.Call.Resending
import LedgerGateway.Proofs.Call.Unwrapping
import LedgerGateway.Proofs.Configuration.Placeholder
import LedgerGateway.Proofs.Configuration.Seeding
import LedgerGateway.Proofs.Configuration.Startup
import LedgerGateway.Proofs.Configuration.Validation
import LedgerGateway.Proofs.Envelope.Written
import LedgerGateway.Proofs.Except
import LedgerGateway.Proofs.Gateway.Authenticity
import LedgerGateway.Proofs.Gateway.Blocks
import LedgerGateway.Proofs.Gateway.Calls
import LedgerGateway.Proofs.Gateway.Deployment
import LedgerGateway.Proofs.Gateway.DirectInvocations
import LedgerGateway.Proofs.Gateway.Dispatcher
import LedgerGateway.Proofs.Gateway.Exchange
import LedgerGateway.Proofs.Gateway.Failures
import LedgerGateway.Proofs.Gateway.Handling
import LedgerGateway.Proofs.Gateway.Identity
import LedgerGateway.Proofs.Gateway.Invocations
import LedgerGateway.Proofs.Gateway.Lookup
import LedgerGateway.Proofs.Gateway.Operations
import LedgerGateway.Proofs.Gateway.Overloads
import LedgerGateway.Proofs.Gateway.Pairing
import LedgerGateway.Proofs.Gateway.Questions
import LedgerGateway.Proofs.Gateway.Recovery
import LedgerGateway.Proofs.Gateway.Reports
import LedgerGateway.Proofs.Gateway.Requests
import LedgerGateway.Proofs.Gateway.Returns
import LedgerGateway.Proofs.Gateway.Soundness
import LedgerGateway.Proofs.Gateway.Submission
import LedgerGateway.Proofs.Gateway.Trust
import LedgerGateway.Proofs.Gateway.Verification
import LedgerGateway.Proofs.Gateway.Versions
import LedgerGateway.Proofs.Json.Numbers
import LedgerGateway.Proofs.Json.Records
import LedgerGateway.Proofs.Json.Strings
import LedgerGateway.Proofs.Json.Verbatim
import LedgerGateway.Proofs.Json.Written
import LedgerGateway.Proofs.Ledger.Written
import LedgerGateway.Proofs.NodeVersion
import LedgerGateway.Proofs.Proof.Content
import LedgerGateway.Proofs.Proof.Gas
import LedgerGateway.Proofs.Proof.Levels
import LedgerGateway.Proofs.Proof.Membership
import LedgerGateway.Proofs.Proof.Normalization
import LedgerGateway.Proofs.Proof.Recutting
import LedgerGateway.Proofs.Proof.Respelling
import LedgerGateway.Proofs.Proof.Tampering
import LedgerGateway.Proofs.Quantity
import LedgerGateway.Proofs.Quantity.Grammar
import LedgerGateway.Proofs.Registry
import LedgerGateway.Proofs.Registry.Changes
import LedgerGateway.Proofs.ResourcePath
import LedgerGateway.Proofs.Rlp.Grammar
import LedgerGateway.Proofs.Rlp.Reader
import LedgerGateway.Proofs.Text.Blank
import LedgerGateway.Proofs.Text.Grammar
import LedgerGateway.Proofs.Text.Numeral
import LedgerGateway.Proofs.Text.Segments
import LedgerGateway.Proofs.Text.Utf8
import LedgerGateway.Proofs.Text.Wide
import LedgerGateway.Proofs.Transaction
import LedgerGateway.Proofs.Transaction.Signing
import LedgerGateway.Proofs.Transaction.Spelling
import LedgerGateway.Quantity
import LedgerGateway.Registry
import LedgerGateway.ResourcePath
import LedgerGateway.Rlp.Basic
import LedgerGateway.Rlp.Grammar
import LedgerGateway.Rlp.Reader
import LedgerGateway.StatusCode
import LedgerGateway.Text.Blank
import LedgerGateway.Text.Numeral
import LedgerGateway.Text.Segments
import LedgerGateway.Text.Utf8
import LedgerGateway.Toml.Quoted
import LedgerGateway.Toml.Reader
import LedgerGateway.Toml.Value
import LedgerGateway.Toml.Word
import LedgerGateway.Transaction
