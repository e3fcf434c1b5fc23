import Telemetry.Text.Utf8

/-!
# Byte order

Texts compared by their bytes, and association lists kept in ascending order
of their keys, each key once.
-/

namespace Telemetry.Text

def before (a b : String) : Bool :=
  Utf8.ofString a < Utf8.ofString b

end Telemetry.Text

namespace Telemetry.Sorted

/-- The entries with `key` holding `value`, in ascending order if they were. -/
def put : List (String × α) → String → α → List (String × α)
  | [], key, value => [(key, value)]
  | (k, a) :: rest, key, value =>
    if k = key then (key, value) :: rest
    else if Text.before key k then (key, value) :: (k, a) :: rest
    else (k, a) :: put rest key value

def ofList (pairs : List (String × α)) : List (String × α) :=
  pairs.foldl (fun entries pair => put entries pair.1 pair.2) []

end Telemetry.Sorted
