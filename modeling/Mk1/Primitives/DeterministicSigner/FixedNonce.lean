import Mk1.Primitives.DeterministicSigner

/-!
# What the deterministic signer signs

A signature `(r, s)` with nonce `k` of a hash `z` under a key `d` has
`s * k = z + r * d` modulo the order, up to the sign that keeps `s` in the lower
half. `signHashWithFixedK_spec` says so for both nonces that are tried. The
signer does not reject `s = 0`, so the second nonce is never used:
`followsReference_iff` says for which keys and hashes this makes a difference.
-/

namespace Mk1

namespace DeterministicSigner

open Secp256k1

/-- A point as `k256` represents it. -/
def toAffine (point : Point) : AffinePoint :=
  ⟨BitVec.ofNat 256 (coordinates point).1, BitVec.ofNat 256 (coordinates point).2⟩

/-- The recovery id of a parity. -/
def recoveryIdOf (parity : Bool) : BitVec 8 := if parity then 1 else 0

/-- What the other crates do: the generator is multiplied in the group of the curve, and 65 bytes
that end with a parity are the signature that they spell. -/
structure Crates.Documented (crates : Crates) : Prop where
  mulGenerator_eq : ∀ k : Scalar, crates.mulGenerator k = toAffine (k.val • generator)
  signatureTryFrom_eq : ∀ (r s : B256) (parity : Bool),
    crates.signatureTryFrom (r ++ s ++ recoveryIdOf parity) = some ⟨r, s, parity⟩

/-- The `x` coordinate of a multiple of the generator, as a scalar. -/
noncomputable def nonceX (k : Nat) : Scalar := ((coordinates (k • generator)).1 : Scalar)

/-- The parity of the `y` coordinate of a multiple of the generator. -/
noncomputable def nonceYIsOdd (k : Nat) : Bool := (coordinates (k • generator)).2 % 2 == 1

/-- `z + r * d` for the nonce `k`, which is `s * k` in a signature. -/
noncomputable def signed (secretKey hash : B256) (k : Nat) : Scalar :=
  (hash.toNat : Scalar) + nonceX k * (secretKey.toNat : Scalar)

theorem nonceX_one : nonceX 1 = (generatorX : Scalar) := by
  rw [nonceX, one_nsmul, coordinates_generator]

theorem nonceX_two : nonceX 2 = (doubleX : Scalar) := by
  rw [nonceX, coordinates_two_nsmul_generator]

theorem toNat_toAffine_x (point : Point) : (toAffine point).x.toNat = (coordinates point).1 := by
  have hlt : (coordinates point).1 < 2 ^ 256 := (coordinates_lt point).1.trans (by decide)
  rw [toAffine, BitVec.toNat_ofNat, Nat.mod_eq_of_lt hlt]

theorem yIsOdd_toAffine (k : Nat) : (toAffine (k • generator)).yIsOdd = nonceYIsOdd k := by
  have hlt : (coordinates (k • generator)).2 < 2 ^ 256 :=
    (coordinates_lt (k • generator)).2.trans (by decide)
  rw [AffinePoint.yIsOdd, toAffine, BitVec.toNat_ofNat, Nat.mod_eq_of_lt hlt, nonceYIsOdd]

/-- A signature is a valid one with nonce `k` that is not malleable. -/
structure Valid (secretKey hash : B256) (k : Nat) (signature : Signature) : Prop where
  r_eq : (signature.r.toNat : Scalar) = nonceX k
  one_le_s : 1 ≤ signature.s.toNat
  s_le : signature.s.toNat ≤ (order - 1) / 2
  equation :
    (signature.s.toNat : Scalar) * k = signed secretKey hash k ∧
        signature.yParity = nonceYIsOdd k ∨
      (signature.s.toNat : Scalar) * k = -signed secretKey hash k ∧
        signature.yParity = !nonceYIsOdd k

/-- The signer returns the signature made with the first nonce unless `s` is zero there, and else
the one made with the second, and what it returns is valid. -/
def FollowsReference (crates : Crates) (secretKey hash : B256) : Prop :=
  ∃ k bytes signature, k = (if signed secretKey hash 1 ≠ 0 then 1 else 2) ∧
    signHashWithFixedK crates secretKey hash k = .ok bytes ∧
    crates.signatureTryFrom bytes = some signature ∧
    signHashDeterministic crates secretKey hash = .ok (.ok signature) ∧
    Valid secretKey hash k signature

@[simp] theorem toNat_toBytes (scalar : Scalar) : (toBytes scalar).toNat = scalar.val := by
  rw [toBytes, BitVec.toNat_ofNat, Nat.mod_eq_of_lt (scalar.val_lt.trans_le order_le)]

theorem recoveryIdOf_xor (parity : Bool) : recoveryIdOf parity ^^^ 1 = recoveryIdOf (!parity) := by
  cases parity <;> rfl

/-- The negation of a residue in the upper half is in the lower half. -/
theorem val_neg_le_half {n : Nat} [NeZero n] {s : ZMod n} (h : n / 2 < s.val) :
    (-s).val ≤ n / 2 := by
  rw [ZMod.neg_val]
  split
  · exact Nat.zero_le _
  · have := s.val_lt
    omega

/-- The last step keeps `s` and the recovery id, or it negates the one, which is not zero, and flips
the other. The result is in the lower half. -/
theorem normalize_cases (sScalar : Scalar) (parity : Bool) : ∃ s flipped,
    normalize sScalar (recoveryIdOf parity) = (s, recoveryIdOf flipped) ∧
      s.val ≤ HALF_ORDER ∧
      (s = sScalar ∧ flipped = parity ∨ s = -sScalar ∧ sScalar ≠ 0 ∧ flipped = !parity) := by
  by_cases hhigh : HALF_ORDER < sScalar.val
  · refine ⟨-sScalar, !parity, ?_, ?_, Or.inr ⟨rfl, ?_, rfl⟩⟩
    · rw [normalize, if_pos hhigh, recoveryIdOf_xor]
    · exact val_neg_le_half (n := order) hhigh
    · rintro rfl
      rw [ZMod.val_zero] at hhigh
      exact Nat.not_lt_zero _ hhigh
  · exact ⟨sScalar, parity, if_neg hhigh, Nat.not_lt.mp hhigh, Or.inl ⟨rfl, rfl⟩⟩

/-- A signature with `s` in the lower half is valid if `z + r * d` is not zero. -/
theorem valid_of_signed_ne_zero {secretKey hash : B256} {k : Nat} {s : Scalar} {flipped : Bool}
    (hne : signed secretKey hash k ≠ 0) (hs : s.val ≤ HALF_ORDER)
    (hsign : s * k = signed secretKey hash k ∧ flipped = nonceYIsOdd k ∨
      s * k = -signed secretKey hash k ∧ flipped = !nonceYIsOdd k) :
    Valid secretKey hash k ⟨toBytes (nonceX k), toBytes s, flipped⟩ where
  r_eq := by rw [toNat_toBytes, ZMod.natCast_zmod_val]
  one_le_s := by
    rw [toNat_toBytes, Nat.one_le_iff_ne_zero, Ne, ZMod.val_eq_zero]
    rintro rfl
    rw [zero_mul] at hsign
    rcases hsign with ⟨hzero, -⟩ | ⟨hzero, -⟩
    · exact hne hzero.symm
    · exact hne (neg_eq_zero.mp hzero.symm)
  s_le := by rwa [toNat_toBytes]
  equation := by rwa [toNat_toBytes, ZMod.natCast_zmod_val]

/-- A nonce that the signer can use: it can be inverted, and the `x` coordinate of its point is
below the order. -/
structure Usable (k : Nat) : Prop where
  lt : k < order
  coprime : k.Coprime order
  x_lt : (coordinates (k • generator)).1 < order

theorem usable_one : Usable 1 where
  lt := by decide
  coprime := Nat.coprime_one_left order
  x_lt := by
    rw [one_nsmul, coordinates_generator]
    decide

theorem usable_two : Usable 2 where
  lt := by decide
  coprime := by
    rw [Nat.coprime_two_left]
    exact ⟨HALF_ORDER, rfl⟩
  x_lt := by
    rw [coordinates_two_nsmul_generator]
    decide

namespace Usable

variable {k : Nat} (h : Usable k)
include h

theorem mul_inv : (k : Scalar) * (k : Scalar)⁻¹ = 1 := ZMod.coe_mul_inv_eq_one k h.coprime

theorem ne_zero : (k : Scalar) ≠ 0 := by
  intro hzero
  have hone := h.mul_inv
  rw [hzero, zero_mul] at hone
  exact absurd hone (by decide)

theorem invert_eq : invert (k : Scalar) = some (k : Scalar)⁻¹ := if_neg h.ne_zero

variable {crates : Crates} (hcrates : crates.Documented)
include hcrates

theorem mulGenerator_eq : crates.mulGenerator (k : Scalar) = toAffine (k • generator) := by
  rw [hcrates.mulGenerator_eq, ZMod.val_cast_of_lt h.lt]

/-- With a nonce that can be used, the signer has no error: it returns `r`, the `s` in the lower
half whose product with the nonce is `z + r * d` or its negation, and the parity that goes with
it. Zero is not negated. -/
theorem signHashWithFixedK_spec (secretKey hash : B256) : ∃ s flipped,
    signHashWithFixedK crates secretKey hash k =
        .ok (toBytes (nonceX k) ++ toBytes s ++ recoveryIdOf flipped) ∧
      s.val ≤ HALF_ORDER ∧
      (s * k = signed secretKey hash k ∧ flipped = nonceYIsOdd k ∨
        s * k = -signed secretKey hash k ∧ signed secretKey hash k ≠ 0 ∧
          flipped = !nonceYIsOdd k) := by
  have hr : scalarFromBytes (toAffine (k • generator)).x = (nonceX k, false) := by
    rw [scalarFromBytes_eq, toNat_toAffine_x, decide_eq_false (Nat.not_le.mpr h.x_lt), nonceX]
  obtain ⟨s, flipped, hnormalize, hs, hsign⟩ :=
    normalize_cases (signed secretKey hash k * (k : Scalar)⁻¹) (nonceYIsOdd k)
  refine ⟨s, flipped, ?_, hs, ?_⟩
  · rw [signed, recoveryIdOf] at hnormalize
    simp only [signHashWithFixedK, scalarFromBytes_eq hash, scalarFromBytes_eq secretKey,
      h.mulGenerator_eq hcrates, hr, h.invert_eq, yIsOdd_toAffine, hnormalize]
    rfl
  · have hcancel : signed secretKey hash k * (k : Scalar)⁻¹ * k = signed secretKey hash k := by
      rw [mul_assoc, mul_comm _ (k : Scalar), h.mul_inv, mul_one]
    rcases hsign with ⟨rfl, hflipped⟩ | ⟨rfl, hne, hflipped⟩
    · exact Or.inl ⟨hcancel, hflipped⟩
    · exact Or.inr ⟨by rw [neg_mul, hcancel], left_ne_zero_of_mul hne, hflipped⟩

/-- A nonce that can be used gives a signature, which is valid if `z + r * d` is not zero, and has
`s = 0` otherwise. -/
theorem exists_signature (secretKey hash : B256) : ∃ bytes signature,
    signHashWithFixedK crates secretKey hash k = .ok bytes ∧
      crates.signatureTryFrom bytes = some signature ∧
      (signed secretKey hash k ≠ 0 → Valid secretKey hash k signature) ∧
      (signed secretKey hash k = 0 → signature = ⟨toBytes (nonceX k), 0, nonceYIsOdd k⟩) := by
  obtain ⟨s, flipped, hsigned, hs, hsign⟩ := h.signHashWithFixedK_spec hcrates secretKey hash
  refine ⟨_, _, hsigned, hcrates.signatureTryFrom_eq _ _ _, fun hne => ?_, fun hzero => ?_⟩
  · exact valid_of_signed_ne_zero hne hs (hsign.imp_right fun h => ⟨h.1, h.2.2⟩)
  · rcases hsign with ⟨hproduct, rfl⟩ | ⟨-, hne, -⟩
    · have hcancel : s = s * k * (k : Scalar)⁻¹ := by rw [mul_assoc, h.mul_inv, mul_one]
      rw [hcancel, hproduct, hzero, zero_mul]
      rfl
    · exact absurd hzero hne

end Usable

/-- The first payload of the test against the reference implementation, signed with `k = 2`. -/
example : Valid 0x92954368afd3caa1f3ce3ead0069c1af414054aefe1ef9aeacc1bf426222ce38
    0x44943399d1507f3ce7525e9be2f987c3db9136dc759cb7f92f742154196868b9 2
    ⟨0xc6047f9441ed7d6d3045406e95c07cd85c778e4b8cef3ca7abac09b95c709ee5,
      0x38940d69b21d5b088beb706e9ebabe6422307e12863997a44239774467e240d5, true⟩ where
  r_eq := by
    rw [nonceX_two]
    decide +kernel
  one_le_s := by decide
  s_le := by decide
  equation := by
    refine Or.inr ⟨?_, ?_⟩
    · rw [signed, nonceX_two]
      decide +kernel
    · rw [nonceYIsOdd, coordinates_two_nsmul_generator]
      decide

/-- What the first nonce gives is returned. -/
theorem signHashDeterministic_of_ok {crates : Crates} {secretKey hash : B256}
    {bytes : SignatureBytes} {signature : Signature}
    (hfirst : signHashWithFixedK crates secretKey hash 1 = .ok bytes)
    (htryFrom : crates.signatureTryFrom bytes = some signature) :
    signHashDeterministic crates secretKey hash = .ok (.ok signature) := by
  rw [signHashDeterministic, hfirst]
  simp only [htryFrom]
  rfl

/-- If `z + r * d` is zero for the first nonce, a signature with `s = 0` is returned. -/
theorem signHashDeterministic_of_signed_eq_zero {crates : Crates} (hcrates : crates.Documented)
    {secretKey hash : B256} (hzero : signed secretKey hash 1 = 0) :
    signHashDeterministic crates secretKey hash =
      .ok (.ok ⟨toBytes (nonceX 1), 0, nonceYIsOdd 1⟩) := by
  obtain ⟨bytes, signature, hbytes, htryFrom, -, hzeroS⟩ :=
    usable_one.exists_signature hcrates secretKey hash
  rw [signHashDeterministic_of_ok hbytes htryFrom, hzeroS hzero]

/-- The second nonce is not tried where the first one gives `s = 0`. -/
theorem not_followsReference_of_signed_eq_zero {crates : Crates} (hcrates : crates.Documented)
    {secretKey hash : B256} (hzero : signed secretKey hash 1 = 0) :
    ¬ FollowsReference crates secretKey hash := by
  rintro ⟨k, -, signature, -, -, -, hreturned, hvalid⟩
  rw [signHashDeterministic_of_signed_eq_zero hcrates hzero] at hreturned
  cases hreturned
  exact absurd hvalid.one_le_s (by decide)

/-- The signer follows the reference exactly if `z + r * d` is not zero for the first nonce. -/
theorem followsReference_iff {crates : Crates} (hcrates : crates.Documented)
    (secretKey hash : B256) :
    FollowsReference crates secretKey hash ↔ signed secretKey hash 1 ≠ 0 := by
  constructor
  · intro hfollows hzero
    exact not_followsReference_of_signed_eq_zero hcrates hzero hfollows
  · intro hne
    obtain ⟨bytes, signature, hbytes, htryFrom, hvalid, -⟩ :=
      usable_one.exists_signature hcrates secretKey hash
    exact ⟨1, bytes, signature, (if_pos hne).symm, hbytes, htryFrom,
      signHashDeterministic_of_ok hbytes htryFrom, hvalid hne⟩

/-- `normalize_v` of `alloy`: the parity that a recovery byte stands for. -/
def normalizeV (v : Nat) : Option Bool :=
  if v = 0 ∨ v = 27 then some false
  else if v = 1 ∨ v = 28 then some true
  else if 35 ≤ v then some ((v - 35) % 2 == 1)
  else none

/-- The other crates, as they are documented. -/
noncomputable def documentedCrates : Crates where
  mulGenerator k := toAffine (k.val • generator)
  signatureTryFrom bytes := (normalizeV (bytes.extractLsb' 0 8).toNat).map fun parity =>
    ⟨bytes.extractLsb' 264 256, bytes.extractLsb' 8 256, parity⟩

theorem documented_documentedCrates : documentedCrates.Documented where
  mulGenerator_eq _ := rfl
  signatureTryFrom_eq r s parity := by
    have hv : (r ++ s ++ recoveryIdOf parity).extractLsb' 0 8 = recoveryIdOf parity :=
      BitVec.extractLsb'_append_eq_right
    have hs : (r ++ s ++ recoveryIdOf parity).extractLsb' 8 256 = s := by
      rw [BitVec.extractLsb'_append_eq_of_le (by decide)]
      exact BitVec.extractLsb'_append_eq_right
    have hr : (r ++ s ++ recoveryIdOf parity).extractLsb' 264 256 = r := by
      rw [BitVec.extractLsb'_append_eq_of_le (by decide)]
      exact BitVec.extractLsb'_append_eq_left
    have hparity : normalizeV (recoveryIdOf parity).toNat = some parity := by
      cases parity <;> rfl
    simp only [documentedCrates, hv, hs, hr, hparity, Option.map_some]

/-- The key 1 and the hash 1. -/
theorem followsReference_iff_at_one : FollowsReference documentedCrates 1 1 := by
  refine (followsReference_iff documented_documentedCrates 1 1).mpr ?_
  rw [signed, nonceX_one]
  decide +kernel

/-- For the key 1 and the hash `n - x(G)`, the signer returns `s = 0` with the first nonce, although
the second one has a valid signature. -/
theorem signer_returns_zero_s :
    signHashDeterministic documentedCrates 1 (BitVec.ofNat 256 (order - generatorX)) =
        .ok (.ok ⟨BitVec.ofNat 256 generatorX, 0, false⟩) ∧
      (∃ bytes signature,
        signHashWithFixedK documentedCrates 1 (BitVec.ofNat 256 (order - generatorX)) 2 =
            .ok bytes ∧
          documentedCrates.signatureTryFrom bytes = some signature ∧
          Valid 1 (BitVec.ofNat 256 (order - generatorX)) 2 signature) ∧
      ¬ FollowsReference documentedCrates 1 (BitVec.ofNat 256 (order - generatorX)) := by
  have hcrates := documented_documentedCrates
  have hzero : signed 1 (BitVec.ofNat 256 (order - generatorX)) 1 = 0 := by
    rw [signed, nonceX_one]
    decide +kernel
  have hsecond : signed 1 (BitVec.ofNat 256 (order - generatorX)) 2 ≠ 0 := by
    rw [signed, nonceX_two]
    decide +kernel
  refine ⟨?_, ?_, not_followsReference_of_signed_eq_zero hcrates hzero⟩
  · have hr : toBytes (nonceX 1) = BitVec.ofNat 256 generatorX := by
      rw [nonceX_one, toBytes, ZMod.val_cast_of_lt (by decide)]
    have hparity : nonceYIsOdd 1 = false := by
      rw [nonceYIsOdd, one_nsmul, coordinates_generator]
      decide
    rw [signHashDeterministic_of_signed_eq_zero hcrates hzero, hr, hparity]
  · obtain ⟨bytes, signature, hbytes, htryFrom, hvalid, -⟩ :=
      usable_two.exists_signature hcrates 1 (BitVec.ofNat 256 (order - generatorX))
    exact ⟨bytes, signature, hbytes, htryFrom, hvalid hsecond⟩

end DeterministicSigner

end Mk1
