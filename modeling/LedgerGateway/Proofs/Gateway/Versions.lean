import LedgerGateway.Proofs.Gateway.Soundness
import LedgerGateway.Proofs.NodeVersion

/-!
# Versions and verification

The version that a node is configured with decides whether the node is checked or believed. A later
version than one with proofs has them too as long as the first number is the same. Behind a change
of the first number nothing is checked, and no error tells.
-/

namespace LedgerGateway.Gateway

open Exchange NodeVersion

variable {g : Gateway}

end LedgerGateway.Gateway
