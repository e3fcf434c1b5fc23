import Telemetry.Entries
import Telemetry.Mapping.Basic

/-!
# Categories, operations and the registry

A category is a family of calls that share their mappings, a list for each
phase. An operation adds the mappings of one call. The registry finds a
category by name; of several entries of one name the first counts.
-/

namespace Telemetry.Mapping

structure Category where
  name : String
  request : List FieldMapping := []
  response : List FieldMapping := []
  deriving DecidableEq, Repr

def Category.mappings (category : Category) : Phase → List FieldMapping
  | .request => category.request
  | .response => category.response

structure Operation where
  name : String
  category : String
  fields : List FieldMapping := []
  deriving DecidableEq, Repr

/-- An operation without mappings of its own. -/
def Operation.generic (category : String) : Operation where
  name := ""
  category := category

def Operation.mappings (operation : Operation) (phase : Phase) : List FieldMapping :=
  operation.fields.filter (·.phase == phase)

/-- A table of categories and the place of each name in it. -/
structure Registry where
  table : List Category
  index : List (String × Nat)

namespace Registry

/-- The index with a name at a place, unless it has the name already. -/
def note (index : List (String × Nat)) (name : String) (place : Nat) : List (String × Nat) :=
  match Entries.get? index name with
  | some _ => index
  | none => Entries.put index name place

def ofTable (table : List Category) : Registry where
  table := table
  index := table.zipIdx.foldl (fun index entry => note index entry.1.name entry.2) []

def category? (registry : Registry) (name : String) : Option Category :=
  (Entries.get? registry.index name).bind (registry.table[·]?)

def mappings (registry : Registry) (category : String) (phase : Phase) : List FieldMapping :=
  match registry.category? category with
  | some found => found.mappings phase
  | none => []

def categories (registry : Registry) : List Category :=
  (registry.table.zipIdx.filter fun entry =>
    Entries.get? registry.index entry.1.name == some entry.2).map (·.1)

end Registry

end Telemetry.Mapping
