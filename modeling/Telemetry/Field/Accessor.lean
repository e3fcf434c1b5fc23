import Telemetry.Entries
import Telemetry.Field.Value
import Telemetry.Text.Words

/-!
# Accessors

Which getter answers a field is found by its name: the field's own name,
then its snake case, then its snake case after `get_`. A cache remembers
what was found for a type and a field, hit or miss; the first answer is
never replaced, whatever table later objects of the type bring.
-/

namespace Telemetry.Field

structure Accessor where
  slot : Nat
  name : String
  deriving DecidableEq, Repr

def slotOf? (names : List String) (name : String) : Option Accessor :=
  (names.findIdx? (· == name)).map fun slot => ⟨slot, name⟩

/-- The spellings under which a field is looked for, best first. -/
def spellings (field : String) : List String :=
  let snake := Text.snakeCase field
  [field, snake, "get_" ++ snake]

/-- The getter that answers a field. No getter answers the empty name. -/
def discover (names : List String) (field : String) : Option Accessor :=
  if field.isEmpty then none else (spellings field).findSome? (slotOf? names)

/-- Reads the field from an object. A getter that faults counts as absent. -/
def Accessor.invoke (accessor : Accessor) (target : Object) : Option Value :=
  (target.call accessor.slot).toOption

structure Cache where
  entries : List ((TypeKey × String) × Option Accessor) := []
  deriving DecidableEq, Repr

namespace Cache

def find? (cache : Cache) (type : TypeKey) (field : String) : Option (Option Accessor) :=
  Entries.get? cache.entries (type, field)

def contains (cache : Cache) (type : TypeKey) (field : String) : Bool :=
  (cache.find? type field).isSome

def size (cache : Cache) : Nat :=
  cache.entries.length

def isEmpty (cache : Cache) : Bool :=
  cache.entries.isEmpty

def resolve (cache : Cache) (target : Object) (field : String) : Option Accessor × Cache :=
  match cache.find? target.type field with
  | some known => (known, cache)
  | none =>
    let found := discover target.names field
    (found, ⟨cache.entries ++ [((target.type, field), found)]⟩)

def read (cache : Cache) (target : Object) (field : String) : Option Value × Cache :=
  let (accessor, cache) := cache.resolve target field
  (accessor.bind (·.invoke target), cache)

end Cache

end Telemetry.Field
