import Telemetry.Failure
import Telemetry.Field.Source

/-!
# Walking a field path

The source answers the first segment; each later one is read from the object
that the segment before it gave. The walk stops at the first missing link
and says which it was.
-/

namespace Telemetry.Field

def walk (cache : Cache) (v : Value) : List String → Except Failure Value × Cache
  | [] => (.ok v, cache)
  | segment :: rest =>
    match v with
    | .object target =>
      match cache.resolve target segment with
      | (none, cache) => (.error (.noAccessor target.typeName segment), cache)
      | (some accessor, cache) =>
        match accessor.invoke target with
        | none => (.error (.pathMiss segment "no value"), cache)
        | some v => walk cache v rest
    | _ => (.error (.pathMiss segment "parent is not an object"), cache)

def Source.traverse (source : Source σ) (path : List String) (w : World σ) :
    Except Failure Value × World σ :=
  match path with
  | [] => (.error (.pathMiss "" "empty path"), w)
  | first :: rest =>
    match source.lookup first w with
    | (.absent, w) => (.error (.pathMiss first "no value"), w)
    | (.fault _, w) => (.error (.pathMiss first "field provider panicked"), w)
    | (.value v, w) =>
      let (result, cache) := walk w.cache v rest
      (result, { w with cache })

def Source.traverse? (source : Source σ) (path : List String) (w : World σ) :
    Option Value × World σ :=
  let (result, w) := source.traverse path w
  (result.toOption, w)

end Telemetry.Field
