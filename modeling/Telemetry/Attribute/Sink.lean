import Telemetry.Attribute.Value
import Telemetry.Text.Order

/-!
# Attribute sinks

Where attributes are written. A sink has one writer for each type of value.
Records keep the last value of each key, in byte order of the keys; a list
of key-values and a span keep every write.
-/

namespace Telemetry.Attribute

class Sink (κ : Type) where
  putText : κ → String → String → κ
  putInt : κ → String → Int64 → κ
  putFloat : κ → String → Float → κ

def put [Sink κ] (sink : κ) (key : String) : Value → κ
  | .text s => Sink.putText sink key s
  | .int n => Sink.putInt sink key n
  | .float x => Sink.putFloat sink key x

-- ---------------------------------------------------------------------------
-- Records
-- ---------------------------------------------------------------------------

structure Records where
  entries : List (String × Value) := []
  deriving DecidableEq

namespace Records

def get? (records : Records) (key : String) : Option Value :=
  (records.entries.find? (·.1 == key)).map (·.2)

def text? (records : Records) (key : String) : Option String :=
  match records.get? key with
  | some (.text s) => some s
  | _ => none

def int? (records : Records) (key : String) : Option Int64 :=
  match records.get? key with
  | some (.int n) => some n
  | _ => none

def float? (records : Records) (key : String) : Option Float :=
  match records.get? key with
  | some (.float x) => some x
  | _ => none

def size (records : Records) : Nat :=
  records.entries.length

def isEmpty (records : Records) : Bool :=
  records.entries.isEmpty

def insert (records : Records) (key : String) (value : Value) : Records :=
  ⟨Sorted.put records.entries key value⟩

end Records

instance : Sink Records where
  putText records key s := records.insert key (.text s)
  putInt records key n := records.insert key (.int n)
  putFloat records key x := records.insert key (.float x)

-- ---------------------------------------------------------------------------
-- Key-values and spans
-- ---------------------------------------------------------------------------

structure KeyValues where
  entries : List (String × Value) := []
  deriving DecidableEq

def KeyValues.push (list : KeyValues) (key : String) (value : Value) : KeyValues :=
  ⟨list.entries ++ [(key, value)]⟩

instance : Sink KeyValues where
  putText list key s := list.push key (.text s)
  putInt list key n := list.push key (.int n)
  putFloat list key x := list.push key (.float x)

structure Span where
  attributes : List (String × Value) := []
  deriving DecidableEq

def Span.setAttribute (span : Span) (key : String) (value : Value) : Span :=
  ⟨span.attributes ++ [(key, value)]⟩

instance : Sink Span where
  putText span key s := span.setAttribute key (.text s)
  putInt span key n := span.setAttribute key (.int n)
  putFloat span key x := span.setAttribute key (.float x)

end Telemetry.Attribute
