/-!
# Batches

Rows are loaded in batches, so that the database takes many of them at once.
-/

namespace TraceArtifacts.Loading

/-- The batches of rows that are still to come. `size` is the present size of a batch, which shrinks to what
remains of the announced `total`; `loaded` counts the rows of earlier batches and `batch` holds the rows of this
one. Rows beyond the announced number stay in an unfinished batch, which is dropped. -/
def batchesFrom (total size loaded : Int) (batch : List α) : List α → List (List α)
  | [] => []
  | row :: rest =>
      let size := if total - loaded < size then total - loaded else size
      if (batch.length : Int) ≤ size then
        let batch := batch ++ [row]
        if (batch.length : Int) = size then
          batch :: batchesFrom total size (loaded + batch.length) [] rest
        else batchesFrom total size loaded batch rest
      else batchesFrom total size loaded batch rest

def batches (total size : Int) (rows : List α) : List (List α) := batchesFrom total size 0 [] rows

def fromStart (length : Nat) (i : Int) : Nat :=
  if i < 0 then (length + i).toNat else min i.toNat length

def slice (xs : List α) (start stop : Int) : List α :=
  (xs.drop (fromStart xs.length start)).take
    (fromStart xs.length stop - fromStart xs.length start)

def chunks (size : Int) (rows : List α) : List (Nat × List α) :=
  let count := (Int.tdiv rows.length size + 3).toNat
  ((List.range count).map fun (i : Nat) =>
      (i, slice rows ((i : Int) * size) ((i : Int) * size + size))).filter
    fun c => !c.2.isEmpty

end TraceArtifacts.Loading
