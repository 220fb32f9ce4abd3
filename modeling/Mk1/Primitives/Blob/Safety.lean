import Mk1.Primitives.Blob.Canonical

/-!
# Decoding blobs of any content

The accesses of the decoder panic when they are out of bounds, and so do its subtractions when they
underflow. `decodeBlobData_safe` says that no blob makes it panic. Its states after the rounds are
those of `AfterRound`, whose positions depend on the number of rounds only.
-/

namespace Mk1

/-- A computation that returns a value or an error. -/
def NeverPanics {α : Type} (result : BlobResult α) : Prop :=
  ∀ panic, result ≠ .error (.panic panic)

/-- The states of the decoder after a number of rounds, as long as the output is not complete. -/
inductive AfterRound (blob : List UInt8) : Nat → Decoder → Prop
  | first {s : Decoder}
      (h : decodeFirstRound blob (List.replicate MAX_BLOB_DATA_SIZE 0) = .ok s) :
      AfterRound blob 1 s
  | next {round : Nat} {s s' : Decoder} (hprevious : AfterRound blob round s)
      (hround : round < ROUNDS) (hopen : s.outputPos < headerLength blob)
      (h : decodeRound blob s = .ok s') : AfterRound blob (round + 1) s'

section NeverPanics

variable {α β : Type}

theorem neverPanics_ok (value : α) : NeverPanics (.ok value) := by
  intro panic h
  cases h

theorem neverPanics_error (e : BlobError) : NeverPanics (.error (.error e) : BlobResult α) := by
  intro panic h
  cases h

/-- A computation does not panic if neither its first part nor what follows does. -/
theorem NeverPanics.bind {first : BlobResult α} {next : α → BlobResult β}
    (hfirst : NeverPanics first) (hnext : ∀ value, first = .ok value → NeverPanics (next value)) :
    NeverPanics (first >>= next) := by
  cases first with
  | ok value => exact hnext value rfl
  | error failure =>
      intro panic h
      have hfailure : failure = .panic panic := Except.error.inj h
      exact hfirst panic (congrArg Except.error hfailure)

/-- A check returns an error but does not panic. -/
theorem neverPanics_rejectIf (condition : Bool) (e : BlobError) :
    NeverPanics (rejectIf condition e) := by
  cases condition with
  | false => exact neverPanics_ok ()
  | true => exact neverPanics_error e

end NeverPanics

variable {blob : List UInt8}

/-- An access below the length of the blob does not panic. -/
theorem neverPanics_index {position : Nat} (h : position < blob.length) :
    NeverPanics (index blob position) := by
  rw [index_eq h]
  exact neverPanics_ok _

/-- The first round does not panic. -/
theorem neverPanics_decodeFirstRound (hblob : blob.length = BYTES_PER_BLOB) :
    NeverPanics (decodeFirstRound blob (List.replicate MAX_BLOB_DATA_SIZE 0)) := by
  rw [decodeFirstRound_eq hblob]
  split
  · exact neverPanics_ok _
  · exact neverPanics_error _

/-- The later rounds do not panic, whatever length that fits is declared. -/
theorem neverPanics_decodeRounds (hblob : blob.length = BYTES_PER_BLOB) {outputLen : Nat}
    (hlength : outputLen ≤ MAX_BLOB_DATA_SIZE) :
    NeverPanics (decodeRounds blob outputLen (ROUNDS - 1) (decoderAt blob 1)) := by
  obtain ⟨last, -, -, -, -, hrounds⟩ | ⟨row, -, -, -, -, hrounds⟩ :=
    decodeRounds_eq hblob hlength (ROUNDS - 1) (Nat.le_refl 1) rfl
  · rw [hrounds]
    exact neverPanics_ok _
  · rw [hrounds]
    exact neverPanics_error _

/-- After each round the state is the one that unpacks the rows so far. -/
theorem AfterRound.eq_decoderAt (hblob : blob.length = BYTES_PER_BLOB) {round : Nat} {s : Decoder}
    (h : AfterRound blob round s) : 1 ≤ round ∧ round ≤ ROUNDS ∧ s = decoderAt blob round := by
  induction h with
  | first hfirst =>
      rw [decodeFirstRound_eq hblob] at hfirst
      split at hfirst
      · exact ⟨Nat.le_refl 1, by unfold ROUNDS; omega, (Except.ok.inj hfirst).symm⟩
      · cases hfirst
  | next hprevious hround hopen hnext ih =>
      obtain ⟨hpositive, -, rfl⟩ := ih
      rw [decodeRound_eq hblob hpositive hround] at hnext
      split at hnext
      · exact ⟨Nat.le_add_left 1 _, hround, (Except.ok.inj hnext).symm⟩
      · cases hnext

/-- The loop over the later rounds ends in such a state. -/
theorem AfterRound.decodeRounds {rounds round : Nat} {s last : Decoder}
    (h : AfterRound blob round s) (hrounds : round + rounds = ROUNDS)
    (hlast : decodeRounds blob (headerLength blob) rounds s = .ok last) :
    ∃ reached, AfterRound blob reached last := by
  induction rounds generalizing round s with
  | zero =>
      cases hlast
      exact ⟨round, h⟩
  | succ rounds ih =>
      unfold Mk1.decodeRounds at hlast
      split at hlast
      · cases hlast
        exact ⟨round, h⟩
      · next hopen =>
          cases hnext : decodeRound blob s with
          | error failure =>
              rw [hnext] at hlast
              cases hlast
          | ok next =>
              rw [hnext] at hlast
              exact ih (h.next (by omega) (Nat.lt_of_not_le hopen) hnext) (by omega) hlast

/-- What is decoded is as much of the output after some round as the header declares. -/
theorem output_of_decodeBlobData (hblob : blob.length = BYTES_PER_BLOB) {data : List UInt8}
    (h : decodeBlobData blob = .ok data) :
    ∃ round s, AfterRound blob round s ∧ data = s.output.take (headerLength blob) := by
  obtain ⟨-, -, first, hfirst, last, hrounds, -, -, hdata⟩ :=
    (decodeBlobData_eq_ok_iff hblob).mp h
  obtain ⟨round, hreached⟩ := (AfterRound.first hfirst).decodeRounds rfl hrounds
  exact ⟨round, last, hreached, hdata.symm⟩

/-- No blob makes the decoder panic. -/
theorem neverPanics_decodeBlobData (hblob : blob.length = BYTES_PER_BLOB) :
    NeverPanics (decodeBlobData blob) := by
  have hsize : blob.length = 131072 := hblob
  have hindex : ∀ position < 131072, NeverPanics (index blob position) :=
    fun position h => neverPanics_index (hsize.symm ▸ h)
  unfold decodeBlobData
  dsimp only
  refine (hindex _ (by decide)).bind fun version _ => (neverPanics_rejectIf _ _).bind fun _ _ => ?_
  refine (hindex _ (by decide)).bind fun high _ => (hindex _ (by decide)).bind fun middle _ => ?_
  refine (hindex _ (by decide)).bind fun low _ => ?_
  refine (neverPanics_rejectIf _ _).bind fun _ hfits => ?_
  refine (neverPanics_decodeFirstRound hblob).bind fun s hs => ?_
  obtain ⟨-, -, rfl⟩ := (AfterRound.first hs).eq_decoderAt hblob
  refine (neverPanics_decodeRounds hblob ?_).bind fun last _ => ?_
  · by_contra hlong
    rw [rejectIf_of_true (decide_eq_true (Nat.lt_of_not_le hlong))] at hfits
    cases hfits
  · refine (neverPanics_rejectIf _ _).bind fun _ _ => (neverPanics_rejectIf _ _).bind fun _ _ => ?_
    exact neverPanics_ok _

/-- For a blob of any content, no access of the decoder is out of bounds and no subtraction
underflows, after each round the positions are those of the next row, and what is returned has the
declared length. It is taken from the output after some round. -/
theorem decodeBlobData_safe (hblob : blob.length = 131072) :
    NeverPanics (decodeBlobData blob) ∧
      (∀ rounds s, AfterRound blob rounds s →
        s.outputPos = 123 + 127 * (rounds - 1) ∧ s.inputPos = 128 * rounds ∧
          s.output.length = MAX_BLOB_DATA_SIZE) ∧
      ∀ data, decodeBlobData blob = .ok data →
        data.length = headerLength blob ∧
          ∃ rounds s, AfterRound blob rounds s ∧ data = s.output.take (headerLength blob) := by
  refine ⟨neverPanics_decodeBlobData hblob, fun rounds s hs => ?_, fun data hdata => ⟨?_, ?_⟩⟩
  · obtain ⟨hpositive, hrounds, rfl⟩ := hs.eq_decoderAt hblob
    refine ⟨?_, rfl, length_output blob hrounds⟩
    show 127 * rounds - 4 = 123 + 127 * (rounds - 1)
    omega
  · obtain ⟨-, rfl⟩ := wellFormed_of_decodeBlobData hblob hdata
    exact length_payload blob
  · exact output_of_decodeBlobData hblob hdata

/-- Not even a blob with all bits set makes the decoder panic. -/
theorem decodeBlobData_safe_ones : NeverPanics (decodeBlobData (List.replicate 131072 0xFF)) :=
  (decodeBlobData_safe List.length_replicate).1

end Mk1
