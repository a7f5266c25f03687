import TraceArtifacts.Loading.Catalogue
import TraceArtifacts.Loading.Load

/-!
# Loading standard data sets

A standard data set is loaded into the tables of a schema: the given one, or else the one that a source of schemas
gives.
-/

namespace TraceArtifacts.Loading

/-- Where a schema comes from if none is given. -/
inductive SchemaSource where
  | connection
  | user
deriving Repr, DecidableEq

def SchemaSource.schemaOr (source : SchemaSource) : Value → Loader Value
  | .null =>
      match source with
      | .connection => Loader.currentSchema
      | .user => do return (← get).user
  | v => pure v

def StandardSet.load (d : StandardSet) (schema : Value) (given : GivenShares) (size force : Value) :
    Loader (List String) := do
  let schema ← schema.asText
  loadShared (.ofTexts (d.tables.map fun t => schema ++ "." ++ t)) (.text d.columns) (.text d.inserts)
    (.text d.file) given size (if d.forcible then force else .bool false)
  return d.tables

def StandardSet.shares (d : StandardSet) : GivenShares := ⟨.float d.train, .float d.valid, .float d.test⟩

end TraceArtifacts.Loading
