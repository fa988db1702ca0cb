import LedgerGateway.Ledger.Block
import LedgerGateway.Ledger.Transaction

/-!
# Nodes

The gateway asks a node, and whoever it trusts for blocks, in turn. A node is described by what it
answers; the answer may depend on everything that was asked before, so that a law about every node
holds of one that changes its mind. `Exchange` runs a dialogue and records what was asked.
-/

namespace LedgerGateway

/-- Why a node does not answer. -/
inductive ClientError where
  /-- The node could not be reached. -/
  | transport (reason : String)
  /-- The node refused to answer. -/
  | rejected (reason : String)
  /-- The answer cannot be understood. -/
  | invalidResponse (reason : String)
  deriving DecidableEq, Repr

/-- The wording of a missing answer. -/
def ClientError.message : ClientError → String
  | transport reason => "Transport error: " ++ reason
  | rejected reason => "Node rejected request: " ++ reason
  | invalidResponse reason => "Invalid node response: " ++ reason

inductive Question where
  | height
  | block (number : UInt64) (onlyHeader : Bool)
  | call (sender destination : String) (data : Bytes)
  /-- The receipt of a transaction that is submitted. -/
  | submit (signed : Bytes)
  | transaction (hash : String)
  | receipt (hash : String)
  | trustedBlock (number : UInt64)
  deriving DecidableEq, Repr

/-- What was asked, in order. -/
abbrev History := List Question

/-- A node, by what it answers after a history. -/
structure Node where
  height : History → Except ClientError UInt64
  /-- The JSON of a block, if the block is known. -/
  block : History → UInt64 → Bool → Except ClientError (Option Bytes)
  /-- The outcome of a call from an address to another. -/
  call : History → String → String → Bytes → Except ClientError CallOutput
  /-- The receipt of a submitted transaction. -/
  submit : History → Bytes → Except ClientError (Option Receipt)
  transaction : History → String → Except ClientError (Option TransactionWithProof)
  receipt : History → String → Except ClientError (Option ReceiptWithProof)

/-- A dialogue that ends with a value or an error. -/
abbrev Exchange (ε α : Type) := ExceptT ε (StateM History) α

namespace Exchange

variable {ε α : Type}

def ask (question : Question) (answer : History → Except ε α) : Exchange ε α :=
  ExceptT.mk fun history => (answer history, history ++ [question])

end Exchange

namespace Node

def askHeight (node : Node) : Exchange ClientError UInt64 := .ask .height node.height

def askBlock (node : Node) (number : UInt64) (onlyHeader : Bool) :
    Exchange ClientError (Option Bytes) :=
  .ask (.block number onlyHeader) (node.block · number onlyHeader)

def askCall (node : Node) (sender destination : String) (data : Bytes) :
    Exchange ClientError CallOutput :=
  .ask (.call sender destination data) (node.call · sender destination data)

def askSubmit (node : Node) (signed : Bytes) : Exchange ClientError (Option Receipt) :=
  .ask (.submit signed) (node.submit · signed)

def askTransaction (node : Node) (hash : String) :
    Exchange ClientError (Option TransactionWithProof) :=
  .ask (.transaction hash) (node.transaction · hash)

def askReceipt (node : Node) (hash : String) : Exchange ClientError (Option ReceiptWithProof) :=
  .ask (.receipt hash) (node.receipt · hash)

end Node

end LedgerGateway
