import Telemetry.Field.Value

/-!
# Types that a getter may return

A getter returns a value of its own type; `Readable` says which field value
that is, and whether it is one at all.
-/

namespace Telemetry.Field

class Readable (α : Type) where
  /-- The field value, or nothing if the field holds none. -/
  read : α → Option Value

structure Blob where
  bytes : List UInt8
  deriving DecidableEq

def Blob.size (blob : Blob) : Nat :=
  blob.bytes.length

def Blob.isEmpty (blob : Blob) : Bool :=
  blob.bytes.isEmpty

/-- The keys of a mapping, ascending, each once. -/
structure KeySet where
  keys : List String
  deriving DecidableEq

def KeySet.ofList (names : List String) : KeySet :=
  ⟨(Sorted.ofList (names.map fun name => (name, ()))).map (·.1)⟩

instance : Readable Value := ⟨some⟩
instance : Readable Object := ⟨fun target => some (.object target)⟩
instance : Readable String := ⟨fun s => some (.text s)⟩
instance : Readable Bool := ⟨fun b => some (.bool b)⟩
instance : Readable Int8 := ⟨fun n => some (.int n.toInt64)⟩
instance : Readable Int16 := ⟨fun n => some (.int n.toInt64)⟩
instance : Readable Int32 := ⟨fun n => some (.int n.toInt64)⟩
instance : Readable Int64 := ⟨fun n => some (.int n)⟩
instance : Readable UInt8 := ⟨fun n => some (.int (Int64.ofNat n.toNat))⟩
instance : Readable UInt16 := ⟨fun n => some (.int (Int64.ofNat n.toNat))⟩
instance : Readable UInt32 := ⟨fun n => some (.int (Int64.ofNat n.toNat))⟩
/-- A number beyond `Int64` is read as a double. -/
instance : Readable UInt64 := ⟨fun n =>
  some (if n.toNat < 0x8000000000000000 then .int (Int64.ofNat n.toNat) else .float n.toFloat)⟩
instance : Readable Float := ⟨fun x => some (.float x)⟩
instance : Readable Float32 := ⟨fun x => some (.float x.toFloat)⟩
instance : Readable Blob := ⟨fun blob => some (.bytes blob.bytes)⟩
instance : Readable KeySet := ⟨fun names => some (.keys names.keys)⟩

instance [Readable α] : Readable (Option α) := ⟨fun value => value.bind Readable.read⟩

/-- Items that hold no value are left out. -/
instance [Readable α] : Readable (List α) := ⟨fun items => some (.list (items.filterMap Readable.read))⟩

end Telemetry.Field
