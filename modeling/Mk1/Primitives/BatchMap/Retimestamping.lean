import Mk1.Primitives.BatchMap.Reanchoring

/-!
# Re-timestamping

`BatchMap::retimestamp` threads a flag through the nested map: once a batch has
a block outside of the valid range, that batch and all later ones are moved to
the maximum timestamp. Over the flat list of batches this keeps the longest
prefix of batches in range and moves the rest (`intoVec_retimestamp`).
-/

namespace Mk1

/-- Whether all timestamps of a batch are in the valid range. -/
def Batch.inRange (minTs maxTs : Nat) (batch : Batch) : Bool :=
  !batch.blocks.any (BatchMap.timestampOutOfRange minTs maxTs)

/-- A batch is in range exactly when each of its blocks is. -/
theorem Batch.inRange_iff {minTs maxTs : Nat} {batch : Batch} :
    batch.inRange minTs maxTs = true ↔
      ∀ block ∈ batch.blocks, minTs ≤ block.timestamp ∧ block.timestamp ≤ maxTs := by
  simp [Batch.inRange, BatchMap.timestampOutOfRange]

namespace BatchMap

/-- With the flag set, every batch is moved. -/
theorem retimestampBatches_true (minTs maxTs : Nat) (batches : List Batch) :
    retimestampBatches minTs maxTs true batches =
      (true, batches.map fun batch => batch.setAllBlocksTimestamp maxTs) := by
  induction batches with
  | nil => rfl
  | cons batch rest ih => simp [retimestampBatches, ih]

/-- Without the flag, the batches in range before the first one out of range are kept. -/
theorem retimestampBatches_false (minTs maxTs : Nat) (batches : List Batch) :
    retimestampBatches minTs maxTs false batches =
      (!batches.all (Batch.inRange minTs maxTs),
        batches.takeWhile (Batch.inRange minTs maxTs) ++
          (batches.dropWhile (Batch.inRange minTs maxTs)).map
            fun batch => batch.setAllBlocksTimestamp maxTs) := by
  induction batches with
  | nil => rfl
  | cons batch rest ih =>
      cases hout : batch.blocks.any (timestampOutOfRange minTs maxTs) with
      | true =>
          have hrange : batch.inRange minTs maxTs = false := by simp [Batch.inRange, hout]
          simp [retimestampBatches, hout, hrange, retimestampBatches_true]
      | false =>
          have hrange : batch.inRange minTs maxTs = true := by simp [Batch.inRange, hout]
          simp [retimestampBatches, hout, hrange, ih]

/-- The loop over a list of batches may be run in pieces. -/
theorem retimestampBatches_append (minTs maxTs : Nat) (flag : Bool) (left right : List Batch) :
    retimestampBatches minTs maxTs flag (left ++ right) =
      ((retimestampBatches minTs maxTs (retimestampBatches minTs maxTs flag left).1 right).1,
        (retimestampBatches minTs maxTs flag left).2 ++
          (retimestampBatches minTs maxTs (retimestampBatches minTs maxTs flag left).1
            right).2) := by
  induction left generalizing flag with
  | nil => rfl
  | cons batch rest ih => simp [retimestampBatches, ih]

/-- The nested loops of `retimestamp` are one loop over all batches in order. -/
theorem accumValues_retimestampBatches (map : BatchMap .anchored) (minTs maxTs : Nat) :
    ((map.inner.accumValues (retimestampBatches minTs maxTs) false).1,
      (map.inner.accumValues (retimestampBatches minTs maxTs) false).2.values.flatten) =
        retimestampBatches minTs maxTs false map.inner.values.flatten :=
  OrderedMap.accumValues_flatten (f := retimestampBatches minTs maxTs) (fun _ => rfl)
    (retimestampBatches_append minTs maxTs) false

/-- The batches of a re-timestamped map: a prefix in range as it was, and the rest moved. -/
theorem intoVec_retimestamp (map : BatchMap .anchored) (minTs maxTs : Nat) :
    (map.retimestamp minTs maxTs).intoVec.batches =
      map.inner.values.flatten.takeWhile (Batch.inRange minTs maxTs) ++
        (map.inner.values.flatten.dropWhile (Batch.inRange minTs maxTs)).map
          fun batch => batch.setAllBlocksTimestamp maxTs := by
  have hloop := accumValues_retimestampBatches map minTs maxTs
  rw [retimestampBatches_false] at hloop
  exact (Prod.ext_iff.mp hloop).2

/-- A reason is added exactly when some batch is out of range. -/
theorem reorgReasons_retimestamp (map : BatchMap .anchored) (minTs maxTs : Nat) :
    (map.retimestamp minTs maxTs).reorgReasons =
      if map.inner.values.flatten.all (Batch.inRange minTs maxTs) then map.reorgReasons
      else map.reorgReasons ++ [.retimestamp minTs maxTs] := by
  have hloop := accumValues_retimestampBatches map minTs maxTs
  rw [retimestampBatches_false] at hloop
  have hflag : (map.inner.accumValues (retimestampBatches minTs maxTs) false).1 =
      !map.inner.values.flatten.all (Batch.inRange minTs maxTs) := (Prod.ext_iff.mp hloop).1
  simp only [retimestamp, hflag]
  cases map.inner.values.flatten.all (Batch.inRange minTs maxTs) with
  | true => rfl
  | false => rfl

end BatchMap

end Mk1
