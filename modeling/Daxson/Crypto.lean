import Daxson.Go
import Daxson.Lib.Sha256

/-! # The cryptographic functions

Every party can evaluate them, so they are parameters of the model. Only the lengths are fixed.
-/

namespace Daxson

structure Crypto where
  sha256 : Bytes → Bytes
  sha256_length : ∀ b, (sha256 b).length = 32
  hmac : Bytes → Bytes → Bytes
  hmac_length : ∀ k m, (hmac k m).length = 32
  ed25519Verify : Bytes → Bytes → Bytes → Bool
  ed25519Sign : Bytes → Bytes → Bytes
  ed25519Sign_length : ∀ k m, (ed25519Sign k m).length = 64

/-- The real hash functions, over a signature scheme that refuses everything. -/
def hashCrypto : Crypto where
  sha256 := Lib.Sha256.sum256
  sha256_length := Lib.Sha256.sum256_length
  hmac := Lib.Sha256.hmac
  hmac_length := Lib.Sha256.hmac_length
  ed25519Verify := fun _ _ _ => false
  ed25519Sign := fun _ _ => List.replicate 64 0xFF
  ed25519Sign_length := fun _ _ => rfl

end Daxson
