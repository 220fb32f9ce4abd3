import Mathlib.Data.Nat.Notation

/-!
# Packing bytes into field elements

A field element has 32 bytes, the first of which must be below 64. Rows of 127
bytes are packed into rows of four field elements: each takes 31 of the bytes as
they are, and the other three bytes are split over the four first bytes. `pack`
and `unpack` do this to whole streams.
-/

namespace FieldElements

/-- The first bytes of the four field elements of a row, from the three bytes they hold. -/
def sextet (x y z : UInt8) : Nat → UInt8
  | 0 => x &&& 0b00111111
  | 1 => (y &&& 0b00001111) ||| ((x &&& 0b11000000) >>> (2 : UInt8))
  | 2 => z &&& 0b00111111
  | _ => ((z &&& 0b11000000) >>> (2 : UInt8)) ||| ((y &&& 0b11110000) >>> (4 : UInt8))

/-- The three bytes that the first bytes of the field elements of a row hold. -/
def byte (first second third fourth : UInt8) : Nat → UInt8
  | 0 => (first &&& 0b00111111) ||| ((second &&& 0b00110000) <<< (2 : UInt8))
  | 1 => (second &&& 0b00001111) ||| ((fourth &&& 0b00001111) <<< (4 : UInt8))
  | _ => (third &&& 0b00111111) ||| ((fourth &&& 0b00110000) <<< (2 : UInt8))

/-- Bytes with the same bits are equal. -/
theorem eq_of_bits {x y : UInt8}
    (h : ∀ i ∈ [0, 1, 2, 3, 4, 5, 6, 7], x.toBitVec.getLsbD i = y.toBitVec.getLsbD i) :
    x = y := by
  apply UInt8.toBitVec_inj.mp
  apply BitVec.eq_of_getLsbD_eq
  intro i hi
  have hmem : i ∈ [0, 1, 2, 3, 4, 5, 6, 7] := by
    simp only [List.mem_cons, List.not_mem_nil, or_false]
    omega
  exact h i hmem

/-- The bytes can be put together again. -/
theorem byte_sextet (x y z : UInt8) (k : Nat) :
    byte (sextet x y z 0) (sextet x y z 1) (sextet x y z 2) (sextet x y z 3) k =
      match k with
      | 0 => x
      | 1 => y
      | _ => z := by
  apply eq_of_bits
  match k with
  | 0 => simp [byte, sextet]
  | 1 => simp [byte, sextet]
  | k + 2 => simp [byte, sextet]

/-- The first bytes can be put together again, but for their two highest bits. -/
theorem sextet_byte (first second third fourth : UInt8) (j : Nat) :
    sextet (byte first second third fourth 0) (byte first second third fourth 1)
        (byte first second third fourth 2) j =
      (match j with
      | 0 => first
      | 1 => second
      | 2 => third
      | _ => fourth) &&& 0b00111111 := by
  apply eq_of_bits
  match j with
  | 0 => simp [byte, sextet]
  | 1 => simp [byte, sextet]
  | 2 => simp [byte, sextet]
  | j + 3 => simp [byte, sextet]

/-- A byte whose two highest bits are zero has no others to clear. -/
theorem and_eq_self {v : UInt8} (h : v &&& 0b11000000 = 0) : v &&& 0b00111111 = v := by
  have hbits : ∀ i, (v &&& 0b11000000).toBitVec.getLsbD i = false := fun i => by simp [h]
  have hsix : v.toBitVec[6] = false := by simpa using hbits 6
  have hseven : v.toBitVec[7] = false := by simpa using hbits 7
  apply eq_of_bits
  simp [hsix, hseven]

/-- A first byte is below 64. -/
theorem sextet_and (x y z : UInt8) (j : Nat) : sextet x y z j &&& 0b11000000 = 0 := by
  apply eq_of_bits
  match j with
  | 0 => simp [sextet]
  | 1 => simp [sextet]
  | 2 => simp [sextet]
  | j + 3 => simp [sextet]

/-! ## Streams -/

/-- The field elements of a stream of bytes. -/
def pack (stream : Nat → UInt8) (position : Nat) : UInt8 :=
  let row := position / 128
  let element := position % 128 / 32
  let offset := position % 32
  if offset = 0 then
    sextet (stream (127 * row + 31)) (stream (127 * row + 63)) (stream (127 * row + 95)) element
  else stream (127 * row + 32 * element + offset - 1)

/-- The bytes of a stream of field elements. -/
def unpack (blob : Nat → UInt8) (position : Nat) : UInt8 :=
  let row := position / 127
  let element := position % 127 / 32
  let offset := position % 127 % 32
  if offset = 31 then
    byte (blob (128 * row)) (blob (128 * row + 32)) (blob (128 * row + 64))
      (blob (128 * row + 96)) element
  else blob (128 * row + 32 * element + offset + 1)

/-- The first byte of a field element. -/
theorem pack_first (stream : Nat → UInt8) (row : Nat) {element : Nat} (h : element < 4) :
    pack stream (128 * row + 32 * element) =
      sextet (stream (127 * row + 31)) (stream (127 * row + 63)) (stream (127 * row + 95))
        element := by
  unfold pack
  have hrow : (128 * row + 32 * element) / 128 = row := by omega
  have helement : (128 * row + 32 * element) % 128 / 32 = element := by omega
  have hoffset : (128 * row + 32 * element) % 32 = 0 := by omega
  simp only [hrow, helement, hoffset, if_pos]

/-- The other bytes of a field element. -/
theorem pack_rest (stream : Nat → UInt8) (row : Nat) {element offset : Nat} (h : element < 4)
    (hoffset : offset < 31) :
    pack stream (128 * row + 32 * element + 1 + offset) =
      stream (127 * row + 32 * element + offset) := by
  unfold pack
  have hrow : (128 * row + 32 * element + 1 + offset) / 128 = row := by omega
  have helement : (128 * row + 32 * element + 1 + offset) % 128 / 32 = element := by omega
  have hmod : (128 * row + 32 * element + 1 + offset) % 32 = offset + 1 := by omega
  simp only [hrow, helement, hmod]
  rw [if_neg (by omega)]
  congr 1

/-- A byte that is held by the first bytes of a row. -/
theorem unpack_held (blob : Nat → UInt8) (row : Nat) {k : Nat} (h : k < 3) :
    unpack blob (127 * row + 32 * k + 31) =
      byte (blob (128 * row)) (blob (128 * row + 32)) (blob (128 * row + 64))
        (blob (128 * row + 96)) k := by
  unfold unpack
  have hrow : (127 * row + 32 * k + 31) / 127 = row := by omega
  have helement : (127 * row + 32 * k + 31) % 127 / 32 = k := by omega
  have hoffset : (127 * row + 32 * k + 31) % 127 % 32 = 31 := by omega
  simp only [hrow, helement, hoffset, if_pos]

/-- A byte that a field element takes as it is. -/
theorem unpack_rest (blob : Nat → UInt8) (row : Nat) {element offset : Nat} (h : element < 4)
    (hoffset : offset < 31) :
    unpack blob (127 * row + 32 * element + offset) =
      blob (128 * row + 32 * element + 1 + offset) := by
  unfold unpack
  have hrow : (127 * row + 32 * element + offset) / 127 = row := by omega
  have helement : (127 * row + 32 * element + offset) % 127 / 32 = element := by omega
  have hmod : (127 * row + 32 * element + offset) % 127 % 32 = offset := by omega
  simp only [hrow, helement, hmod]
  rw [if_neg (by omega)]
  congr 1
  omega

/-- Every position of a stream is one of a held byte or of one taken as it is. -/
theorem position_cases (position : Nat) :
    (∃ row k, k < 3 ∧ position = 127 * row + 32 * k + 31) ∨
      ∃ row element offset, element < 4 ∧ offset < 31 ∧
        position = 127 * row + 32 * element + offset := by
  by_cases h : position % 127 % 32 = 31
  · exact .inl ⟨position / 127, position % 127 / 32, by omega, by omega⟩
  · exact .inr ⟨position / 127, position % 127 / 32, position % 127 % 32, by omega, by omega,
      by omega⟩

/-- What was packed is unpacked again. -/
theorem unpack_pack (stream : Nat → UInt8) : unpack (pack stream) = stream := by
  funext position
  obtain ⟨row, k, hk, rfl⟩ | ⟨row, element, offset, helement, hoffset, rfl⟩ :=
    position_cases position
  · have hfirst : pack stream (128 * row) = _ := pack_first stream row (by omega : 0 < 4)
    have hsecond : pack stream (128 * row + 32) = _ := pack_first stream row (by omega : 1 < 4)
    have hthird : pack stream (128 * row + 64) = _ := pack_first stream row (by omega : 2 < 4)
    have hfourth : pack stream (128 * row + 96) = _ := pack_first stream row (by omega : 3 < 4)
    rw [unpack_held _ row hk, hfirst, hsecond, hthird, hfourth, byte_sextet]
    match k with
    | 0 => rfl
    | 1 => rfl
    | 2 => rfl
  · rw [unpack_rest _ row helement hoffset, pack_rest stream row helement hoffset]

/-- What was unpacked is packed again, but for the two highest bits of each field element. -/
theorem pack_unpack (blob : Nat → UInt8) (position : Nat) :
    pack (unpack blob) position =
      if position % 32 = 0 then blob position &&& 0b00111111 else blob position := by
  have hsplit : position = 128 * (position / 128) + 32 * (position % 128 / 32) + position % 32 := by
    omega
  generalize position / 128 = row at hsplit
  obtain ⟨element, helement, hmod⟩ : ∃ element, element < 4 ∧ position % 128 / 32 = element :=
    ⟨_, by omega, rfl⟩
  rw [hmod] at hsplit
  by_cases hoffset : position % 32 = 0
  · rw [hoffset, Nat.add_zero] at hsplit
    rw [if_pos hoffset, hsplit, pack_first _ row helement]
    have hheld : ∀ k < 3, unpack blob (127 * row + 32 * k + 31) = _ :=
      fun k hk => unpack_held blob row hk
    have hx := hheld 0 (by omega)
    have hy := hheld 1 (by omega)
    have hz := hheld 2 (by omega)
    simp only [Nat.mul_zero, Nat.mul_one, Nat.reduceMul, Nat.add_assoc, Nat.reduceAdd,
      Nat.zero_add] at hx hy hz
    rw [hx, hy, hz, sextet_byte]
    match element with
    | 0 => rfl
    | 1 => rfl
    | 2 => rfl
    | 3 => rfl
  · have hrest : position = 128 * row + 32 * element + 1 + (position % 32 - 1) := by omega
    rw [if_neg hoffset, hrest, pack_rest _ row helement (by omega),
      unpack_rest _ row helement (by omega)]

/-- Field elements that have ended are unpacked into zeros. -/
theorem unpack_eq_zero {blob : Nat → UInt8} {row position : Nat}
    (h : ∀ i, 128 * row ≤ i → blob i = 0) (hposition : 127 * row ≤ position) :
    unpack blob position = 0 := by
  obtain ⟨row', k, hk, rfl⟩ | ⟨row', element, offset, helement, hoffset, rfl⟩ :=
    position_cases position
  · rw [unpack_held _ row' hk, h _ (by omega), h _ (by omega), h _ (by omega), h _ (by omega)]
    match k with
    | 0 => rfl
    | 1 => rfl
    | 2 => rfl
  · rw [unpack_rest _ row' helement hoffset, h _ (by omega)]

/-- A stream that has ended is packed into zeros. -/
theorem pack_eq_zero {stream : Nat → UInt8} {row position : Nat}
    (h : ∀ i, 127 * row ≤ i → stream i = 0) (hposition : 128 * row ≤ position) :
    pack stream position = 0 := by
  have hsplit : position = 128 * (position / 128) + 32 * (position % 128 / 32) + position % 32 := by
    omega
  by_cases hoffset : position % 32 = 0
  · rw [hsplit, hoffset, Nat.add_zero, pack_first stream _ (by omega), h _ (by omega),
      h _ (by omega), h _ (by omega)]
    match position % 128 / 32 with
    | 0 => rfl
    | 1 => rfl
    | 2 => rfl
    | k + 3 => rfl
  · have hrest : position = 128 * (position / 128) + 32 * (position % 128 / 32) + 1 +
        (position % 32 - 1) := by
      omega
    rw [hrest, pack_rest stream _ (by omega) (by omega), h _ (by omega)]

end FieldElements
