import LedgerGateway.Account.Ecdsa
import LedgerGateway.Account.Gm

/-!
# The profile of a family
-/

namespace LedgerGateway

/-- The profile of a family of cryptography. -/
def CryptoKind.profile : CryptoKind → CryptoProfile
  | .ecdsa => Ecdsa.profile
  | .gm => Gm.profile

theorem CryptoKind.kind_profile (kind : CryptoKind) : kind.profile.kind = kind := by
  cases kind <;> rfl

end LedgerGateway
