import Mk1.Library.Secp256k1
import Mk1.Primitives.Basic

/-!
# Signatures with fixed nonces

The signer of anchor transactions in `taiko/deterministic_signer.rs`. Scalars
are numbers modulo the order of secp256k1, and points are those of the library
`Secp256k1`. The two functions of other crates that the signer calls, the
multiplication of the generator and the reading of a signature, are the fields
of `Crates`.
-/

namespace Mk1

namespace DeterministicSigner

open Secp256k1

/-- `k256::Scalar`. -/
abbrev Scalar := ZMod order

instance : NeZero order := ⟨by decide⟩

/-- `[u8; 65]`, with the bytes of a number in big-endian order. -/
abbrev SignatureBytes := BitVec 520

/-- The coordinates of a point, as `k256::AffinePoint` gives them. -/
structure AffinePoint where
  x : B256
  y : B256
  deriving DecidableEq, Repr

/-- `AffineCoordinates::y_is_odd`. -/
def AffinePoint.yIsOdd (point : AffinePoint) : Bool := point.y.toNat % 2 == 1

/-- `alloy::signers::Signature`. -/
structure Signature where
  r : BitVec 256
  s : BitVec 256
  yParity : Bool
  deriving DecidableEq, Repr

/-- `DeterministicSignerError`. -/
inductive DeterministicSignerError where
  | invalidPrivateKeyBytes
  | cannotInvertZero
  | kTooLarge (k : Nat)
  | failedToSignHash
  deriving DecidableEq, Repr

/-- The text of an error. -/
def DeterministicSignerError.message : DeterministicSignerError → String
  | .invalidPrivateKeyBytes => "Invalid private key bytes"
  | .cannotInvertZero => "Cannot invert zero scalar"
  | .kTooLarge k => "K value is too large and it resulted in an overflow: " ++ toString k
  | .failedToSignHash => "Failed to sign hash using K = 1 and K = 2"

/-- The functions of other crates: `ProjectivePoint::GENERATOR * k` with `to_affine`, and
`Signature::try_from` for bytes. -/
structure Crates where
  mulGenerator : Scalar → AffinePoint
  signatureTryFrom : SignatureBytes → Option Signature

/-- Half of the order of the curve. -/
def HALF_ORDER : Nat := 0x7FFFFFFFFFFFFFFFFFFFFFFFFFFFFFFF5D576E7357A4501DDFE92F46681B20A0

/-- `Scalar::from_repr`: only the bytes of a number below the order are those of a scalar. -/
def fromRepr (bytes : B256) : Option Scalar :=
  if bytes.toNat < order then some (bytes.toNat : Scalar) else none

/-- `Scalar::to_bytes`. -/
def toBytes (scalar : Scalar) : B256 := BitVec.ofNat 256 scalar.val

/-- `Scalar::invert`. -/
def invert (scalar : Scalar) : Option Scalar := if scalar = 0 then none else some scalar⁻¹

theorem order_le : order ≤ 2 ^ 256 := by decide

theorem fromRepr_of_lt {bytes : B256} (h : bytes.toNat < order) :
    fromRepr bytes = some (bytes.toNat : Scalar) := if_pos h

theorem fromRepr_of_le {bytes : B256} (h : order ≤ bytes.toNat) : fromRepr bytes = none :=
  if_neg (Nat.not_lt.mpr h)

/-- A number that has been reduced fits within the field order. -/
theorem fromRepr_reduced (bytes : B256) :
    fromRepr (BitVec.ofNat 256 (bytes.toNat % order)) = some (bytes.toNat : Scalar) := by
  have hlt : bytes.toNat % order < order := Nat.mod_lt _ (by decide)
  have htoNat : (BitVec.ofNat 256 (bytes.toNat % order)).toNat = bytes.toNat % order := by
    rw [BitVec.toNat_ofNat, Nat.mod_eq_of_lt (hlt.trans_le order_le)]
  rw [fromRepr_of_lt (by rwa [htoNat]), htoNat, ZMod.natCast_mod]

/-- `scalar_from_bytes`: also `true` if there is overflow. -/
def scalarFromBytes (bytes : B256) : Scalar × Bool :=
  match fromRepr bytes with
  | some scalar => (scalar, false)
  | none =>
      -- there is no way to read the value that was rejected, so it is reduced by hand
      let reduced := BitVec.ofNat 256 (bytes.toNat % order)
      ((fromRepr reduced).get (Option.isSome_of_eq_some (fromRepr_reduced bytes)), true)

/-- The scalar of 32 bytes is their number modulo the order, and it overflows if that is not below
the order. -/
theorem scalarFromBytes_eq (bytes : B256) :
    scalarFromBytes bytes = ((bytes.toNat : Scalar), decide (order ≤ bytes.toNat)) := by
  unfold scalarFromBytes
  rcases lt_or_ge bytes.toNat order with hlt | hle
  · rw [fromRepr_of_lt hlt, decide_eq_false (Nat.not_le.mpr hlt)]
  · rw [fromRepr_of_le hle, decide_eq_true hle]
    exact congrArg (·, true) (Option.get_of_eq_some _ (fromRepr_reduced bytes))

/-- The last step of `sign_hash_with_fixed_k` on `s` and the recovery id: `s` is negated if it is
above half of the order. -/
def normalize (sScalar : Scalar) (recoveryId : BitVec 8) : Scalar × BitVec 8 :=
  if HALF_ORDER < sScalar.val then (-sScalar, recoveryId ^^^ 1) else (sScalar, recoveryId)

/-- `sign_hash_with_fixed_k`. -/
def signHashWithFixedK (crates : Crates) (sk message : B256) (k : Nat) :
    Except DeterministicSignerError SignatureBytes :=
  let kScalar : Scalar := k
  let (messageScalar, _) := scalarFromBytes message
  let (secretKeyScalar, _) := scalarFromBytes sk
  let rAffine := crates.mulGenerator kScalar
  let (rScalar, overflow) := scalarFromBytes rAffine.x
  if overflow then .error (.kTooLarge k)
  else
    let recoveryId : BitVec 8 := if rAffine.yIsOdd then 1 else 0
    match invert kScalar with
    | none => .error .cannotInvertZero
    | some kInv =>
        let sScalar := (messageScalar + rScalar * secretKeyScalar) * kInv
        let (sScalar, recoveryId) := normalize sScalar recoveryId
        .ok (toBytes rScalar ++ toBytes sScalar ++ recoveryId)

/-- `sign_hash_deterministic`. -/
def signHashDeterministic (crates : Crates) (secretKey hash : B256) :
    Except Panic (Except DeterministicSignerError Signature) :=
  match signHashWithFixedK crates secretKey hash 1 with
  | .ok sig => do return .ok (← expect (crates.signatureTryFrom sig) "infallible")
  | .error _ =>
      match signHashWithFixedK crates secretKey hash 2 with
      | .ok sig => do return .ok (← expect (crates.signatureTryFrom sig) "infallible")
      | .error _ => .ok (.error .failedToSignHash)

end DeterministicSigner

end Mk1
