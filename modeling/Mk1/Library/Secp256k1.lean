import Mathlib.Data.List.Prime
import Mathlib.NumberTheory.LucasPrimality
import Mathlib.Tactic.NormNum.Prime
import Mathlib.Tactic.ReduceModChar
import Mk1.Library.ShortWeierstrass

/-!
# The curve secp256k1

The curve `y² = x³ + 7` over the integers modulo the prime `fieldOrder`, the
group of its points, and the first two multiples of its generator.
`prime_of_factors` is Lucas's test for a number whose predecessor is given by
its prime factors; a chain of such tests shows that `fieldOrder` is prime.
-/

namespace Secp256k1

/-- Lucas's test, with the factors of `n - 1` as a list of primes. -/
theorem prime_of_factors {n : ℕ} (a : ZMod n) (factors : List ℕ)
    (hprime : ∀ q ∈ factors, q.Prime) (hprod : factors.prod = n - 1)
    (hfermat : a ^ (n - 1) = 1) (hproper : ∀ q ∈ factors, a ^ ((n - 1) / q) ≠ 1) : n.Prime := by
  refine lucas_primality n a hfermat fun q hq hdvd => ?_
  rw [← hprod] at hdvd
  obtain ⟨factor, hmem, hfactor⟩ := (Prime.dvd_prod_iff hq.prime).mp hdvd
  obtain rfl := (Nat.prime_dvd_prime_iff_eq hq (hprime factor hmem)).mp hfactor
  exact hproper q hmem

theorem prime_173378833005251801 : Nat.Prime 173378833005251801 := by
  refine prime_of_factors 6 [2, 2, 2, 5, 5, 2621, 24809, 13331831] ?_ ?_ ?_ ?_
  · norm_num
  · norm_num
  · reduce_mod_char
  · norm_num
    refine ⟨?_, ?_, ?_, ?_, ?_⟩ <;> reduce_mod_char <;> decide

theorem prime_22149492674086928081353 : Nat.Prime 22149492674086928081353 := by
  refine prime_of_factors 5 [2, 2, 2, 3, 5323, 173378833005251801] ?_ ?_ ?_ ?_
  · simp only [List.forall_mem_cons, prime_173378833005251801]
    norm_num
  · norm_num
  · reduce_mod_char
  · norm_num
    refine ⟨?_, ?_, ?_, ?_⟩ <;> reduce_mod_char <;> decide

theorem prime_132896956044521568488119 : Nat.Prime 132896956044521568488119 := by
  refine prime_of_factors 6 [2, 3, 22149492674086928081353] ?_ ?_ ?_ ?_
  · simp only [List.forall_mem_cons, prime_22149492674086928081353]
    norm_num
  · norm_num
  · reduce_mod_char
  · norm_num
    refine ⟨?_, ?_, ?_⟩ <;> reduce_mod_char <;> decide

theorem prime_255515944373312847190720520512484175977 :
    Nat.Prime 255515944373312847190720520512484175977 := by
  refine prime_of_factors 3 [2, 2, 2, 7, 7, 11, 1627, 2657, 4423, 41201, 96557, 7240687, 107590001]
    ?_ ?_ ?_ ?_
  · norm_num
  · norm_num
  · reduce_mod_char
  · norm_num
    refine ⟨?_, ?_, ?_, ?_, ?_, ?_, ?_, ?_, ?_, ?_⟩ <;> reduce_mod_char <;> decide

theorem prime_largest_factor :
    Nat.Prime 205115282021455665897114700593932402728804164701536103180137503955397371 := by
  refine prime_of_factors 10 [2, 3, 5, 29, 29, 31, 7723, 132896956044521568488119,
    255515944373312847190720520512484175977] ?_ ?_ ?_ ?_
  · simp only [List.forall_mem_cons, prime_132896956044521568488119,
      prime_255515944373312847190720520512484175977]
    norm_num
  · norm_num
  · reduce_mod_char
  · norm_num
    refine ⟨?_, ?_, ?_, ?_, ?_, ?_, ?_, ?_⟩ <;> reduce_mod_char <;> decide

/-- The order of the base field. -/
def fieldOrder : ℕ := 2 ^ 256 - 2 ^ 32 - 977

theorem prime_fieldOrder : fieldOrder.Prime := by
  refine prime_of_factors 3 [2, 3, 7, 13441,
    205115282021455665897114700593932402728804164701536103180137503955397371] ?_ ?_ ?_ ?_
  · simp only [List.forall_mem_cons, prime_largest_factor]
    norm_num
  · norm_num [fieldOrder]
  · unfold fieldOrder
    reduce_mod_char
  · unfold fieldOrder
    norm_num
    refine ⟨?_, ?_, ?_, ?_, ?_⟩ <;> reduce_mod_char <;> decide

instance : Fact fieldOrder.Prime := ⟨prime_fieldOrder⟩

/-- The base field. -/
abbrev BaseField := ZMod fieldOrder

/-- The group of the points of `y² = x³ + 7`. -/
abbrev Point := (ShortWeierstrass.curve (0 : BaseField) 7).Point

/-- Numbers with the same remainder are equal in the base field. -/
theorem natCast_eq_of_mod {left right : ℕ} (h : left % fieldOrder = right % fieldOrder) :
    (left : BaseField) = right :=
  (ZMod.natCast_eq_natCast_iff' left right fieldOrder).mpr h

/-- The `x` coordinate of the generator. -/
def generatorX : ℕ := 0x79BE667EF9DCBBAC55A06295CE870B07029BFCDB2DCE28D959F2815B16F81798

/-- The `y` coordinate of the generator. -/
def generatorY : ℕ := 0x483ADA7726A3C4655DA4FBFC0E1108A8FD17B448A68554199C47D08FFB10D4B8

/-- The slope of the tangent at the generator. -/
def tangentSlope : ℕ := 0xCB35B28428101A303EB9D1235992AC63F58857C2F631EE6936D3AEBBEDDCD1B1

/-- The `x` coordinate of twice the generator. -/
def doubleX : ℕ := 0xC6047F9441ED7D6D3045406E95C07CD85C778E4B8CEF3CA7ABAC09B95C709EE5

/-- The `y` coordinate of twice the generator. -/
def doubleY : ℕ := 0x1AE168FEA63DC339A3C58419466CEAEEF7F632653266D0E1236431A950CFE52A

theorem two_mul_generatorY_ne_zero : 2 * (generatorY : BaseField) ≠ 0 := by
  have h : ((2 * generatorY : ℕ) : BaseField) ≠ 0 := by
    rw [Ne, ZMod.natCast_eq_zero_iff, Nat.dvd_iff_mod_eq_zero]
    decide +kernel
  exact_mod_cast h

theorem nonsingular_generator : (ShortWeierstrass.curve (0 : BaseField) 7).Nonsingular
    (generatorX : BaseField) (generatorY : BaseField) := by
  refine ShortWeierstrass.nonsingular_of_equation ?_ two_mul_generatorY_ne_zero
  have h : ((generatorY ^ 2 : ℕ) : BaseField) = ((generatorX ^ 3 + 7 : ℕ) : BaseField) :=
    natCast_eq_of_mod (by decide +kernel)
  push_cast at h
  rw [zero_mul, add_zero, h]

/-- The generator of the group that signatures are made in. -/
def generator : Point :=
  .some (generatorX : BaseField) (generatorY : BaseField) nonsingular_generator

/-- The coordinates of a point as numbers, `(0, 0)` for the point at infinity. -/
def coordinates : Point → ℕ × ℕ
  | .zero => (0, 0)
  | .some x y _ => (x.val, y.val)

theorem coordinates_lt (point : Point) :
    (coordinates point).1 < fieldOrder ∧ (coordinates point).2 < fieldOrder := by
  cases point with
  | zero => exact ⟨prime_fieldOrder.pos, prime_fieldOrder.pos⟩
  | some x y h => exact ⟨x.val_lt, y.val_lt⟩

/-- Coordinates given by numbers below the order of the field are these numbers. -/
theorem coordinates_some {x y : ℕ} (hx : x < fieldOrder) (hy : y < fieldOrder)
    (h : (ShortWeierstrass.curve (0 : BaseField) 7).Nonsingular (x : BaseField) (y : BaseField)) :
    coordinates (.some (x : BaseField) (y : BaseField) h) = (x, y) := by
  rw [coordinates, ZMod.val_cast_of_lt hx, ZMod.val_cast_of_lt hy]

theorem coordinates_generator : coordinates generator = (generatorX, generatorY) :=
  coordinates_some (by decide +kernel) (by decide +kernel) nonsingular_generator

theorem coordinates_two_nsmul_generator : coordinates (2 • generator) = (doubleX, doubleY) := by
  have hslope : (tangentSlope : BaseField) * (2 * (generatorY : BaseField)) =
      3 * (generatorX : BaseField) ^ 2 + 0 := by
    have h : ((tangentSlope * (2 * generatorY) : ℕ) : BaseField) =
        ((3 * generatorX ^ 2 : ℕ) : BaseField) := natCast_eq_of_mod (by decide +kernel)
    push_cast at h
    rw [add_zero, h]
  have hX : (tangentSlope : BaseField) ^ 2 - 2 * generatorX = doubleX := by
    have h : ((tangentSlope ^ 2 : ℕ) : BaseField) =
        ((doubleX + 2 * generatorX : ℕ) : BaseField) := natCast_eq_of_mod (by decide +kernel)
    push_cast at h
    linear_combination h
  have hY : (tangentSlope : BaseField) * (generatorX - doubleX) - generatorY = doubleY := by
    have h : ((tangentSlope * generatorX : ℕ) : BaseField) =
        ((doubleY + generatorY + tangentSlope * doubleX : ℕ) : BaseField) :=
      natCast_eq_of_mod (by decide +kernel)
    push_cast at h
    linear_combination h
  obtain ⟨h', hdouble⟩ :=
    ShortWeierstrass.two_nsmul_some nonsingular_generator two_mul_generatorY_ne_zero hslope
  rw [generator, hdouble]
  revert h'
  rw [hX, hY]
  exact fun h' _ => coordinates_some (by decide +kernel) (by decide +kernel) h'

/-- The order of the generator, which scalars are reduced by. -/
def order : ℕ := 0xFFFFFFFFFFFFFFFFFFFFFFFFFFFFFFFEBAAEDCE6AF48A03BBFD25E8CD0364141

end Secp256k1
