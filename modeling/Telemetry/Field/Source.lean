import Telemetry.Field.Accessor

/-!
# Sources of top-level fields

A call's request or response answers names at its top level. A provider
answers them from a state of its own, which a lookup may change, so it may
answer the same name differently the next time. A reflected object answers
them through the accessor cache of the traversal.
-/

namespace Telemetry.Field

inductive Source (σ : Type) where
  | provider (lookup : String → σ → Reading × σ)
  | reflected (target : Object)

/-- What a traversal reads and writes: the accessor cache, and the state of
the source. -/
structure World (σ : Type) where
  cache : Cache := {}
  state : σ

/-- A provider whose answers never change. -/
def Source.ofFields (field : String → Reading) : Source σ :=
  .provider fun name state => (field name, state)

/-- An object read through a cache of the source's own. -/
def Source.ofObject (target : Object) : Source Cache :=
  .provider fun name cache =>
    let (value, cache) := cache.read target name
    (.ofOption value, cache)

def Source.lookup (source : Source σ) (name : String) (w : World σ) : Reading × World σ :=
  match source with
  | .provider lookup =>
    let (reading, state) := lookup name w.state
    (reading, { w with state })
  | .reflected target =>
    let (value, cache) := w.cache.read target name
    (.ofOption value, { w with cache })

end Telemetry.Field
