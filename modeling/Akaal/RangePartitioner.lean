/-
# The range partitioner

`RangePartitioner.generate_partitions` of `transport/partitioning/range.py`: one partition
for the NULL keys when there are any, then a single partition when the smallest and the
largest key agree, or equal ranges of keys for a numeric strategy, or, when nothing else was
produced, one partition without bounds.

The bounds are computed with Python's own arithmetic: for integer keys in floats, for
`Decimal` keys in the decimal context.
-/
import Akaal.PythonNumber
import Akaal.TransportSpec

namespace Transport

open PyNumber

/-- What every partition of one call has in common. -/
structure PartitionTarget where
  tableName : String
  schemaName : String
  targetSchema : String
  pkColumns : List String
  deriving DecidableEq

namespace PartitionTarget

variable (target : PartitionTarget)

/-- A partition of the target table without bounds. -/
def partition (suffix : String) (strategy : PartitionStrategy) : TransportPartition PyNumber where
  partitionId := s!"part-{target.tableName}-{suffix}"
  tableName := target.tableName
  schemaName := target.schemaName
  targetSchema := target.targetSchema
  strategy := strategy
  pkColumns := target.pkColumns

/-- The partition of the NULL keys. -/
def nullPartition : TransportPartition PyNumber :=
  { target.partition "null" .nullPartition with isNullPartition := true }

/-- The partition with the given bounds. -/
def boundedPartition (suffix : String) (strategy : PartitionStrategy) (lower upper : PyNumber) :
    TransportPartition PyNumber :=
  { target.partition suffix strategy with lowerBound := some lower, upperBound := some upper }

/-- The partition of the whole table. -/
def fullPartition : TransportPartition PyNumber := target.partition "full" .singlePartition

end PartitionTarget

/-- `f"{i+1:03d}"`. -/
def partitionNumber (i : ℕ) : String :=
  let digits := toString (i + 1)
  String.ofList (List.replicate (3 - digits.length) '0') ++ digits

/-- The strategies that cut the keys into ranges. -/
def PartitionStrategy.isNumeric : PartitionStrategy → Bool
  | .pkNumericRange => true
  | .decimalRange => true
  | _ => false

/-- `pk_range`. -/
def pkRange (minPk maxPk : PyNumber) : Except PyError PyNumber := do
  let range ← sub maxPk minPk
  if range.nonpos then .ok (.int 1) else .ok range

/-- `actual_partitions`. -/
def actualPartitions (targetWorkers : ℤ) (range : PyNumber) : Except PyError ℤ := do
  let n ← range.toInt
  .ok (min targetWorkers n)

/-- `min_pk + (i * step)`: where the range with number `i` starts. -/
def rangeStart (minPk step : PyNumber) (i : ℕ) : Except PyError PyNumber := do
  let offset ← mul (.int i) step
  add minPk offset

/-- Where the range with number `i` of `n` ends. -/
def rangeEnd (minPk maxPk step : PyNumber) (n i : ℕ) : Except PyError PyNumber :=
  if i + 1 < n then rangeStart minPk step (i + 1) else add maxPk (.int 1)

/-- The partition of the range with number `i` of `n`. -/
def rangePartition (target : PartitionTarget) (strategy : PartitionStrategy)
    (minPk maxPk step : PyNumber) (n i : ℕ) : Except PyError (TransportPartition PyNumber) := do
  let lower ← rangeStart minPk step i
  let upper ← rangeEnd minPk maxPk step n i
  .ok (target.boundedPartition (partitionNumber i) strategy lower upper)

/-- The ranges of a numeric strategy. -/
def rangePartitions (target : PartitionTarget) (strategy : PartitionStrategy)
    (targetWorkers : ℤ) (minPk maxPk : PyNumber) :
    Except PyError (List (TransportPartition PyNumber)) := do
  let range ← pkRange minPk maxPk
  let actual ← actualPartitions targetWorkers range
  let step ← range.divInt (max 1 actual)
  (List.range actual.toNat).mapM (rangePartition target strategy minPk maxPk step actual.toNat)

/-- The fallback: the whole table, if there is no partition yet. -/
def withFallback (target : PartitionTarget) (partitions : List (TransportPartition PyNumber)) :
    List (TransportPartition PyNumber) :=
  if partitions = [] then [target.fullPartition] else partitions

/-- `generate_partitions`. -/
def generatePartitions (policy : TransportTuningPolicy) (target : PartitionTarget)
    (totalRows : ℕ) (minPk maxPk : Option PyNumber) (hasNullKeys : Bool)
    (strategy : PartitionStrategy) : Except PyError (List (TransportPartition PyNumber)) :=
  if totalRows = 0 then .ok []
  else
    let targetWorkers := max 1 policy.parallelism
    let nulls := if hasNullKeys then [target.nullPartition] else []
    match minPk, maxPk with
    | some lo, some hi =>
      if lo.eq hi then .ok (nulls ++ [target.boundedPartition "single" strategy lo hi])
      else if strategy.isNumeric then do
        let ranges ← rangePartitions target strategy targetWorkers lo hi
        .ok (withFallback target (nulls ++ ranges))
      else .ok (withFallback target nulls)
    | _, _ => .ok (withFallback target nulls)

end Transport
