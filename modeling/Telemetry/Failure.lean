import Telemetry.Payload.Tree

/-!
# Why an attribute is dropped

A failure concerns one attribute and never reaches the caller of an
extraction.
-/

namespace Telemetry

inductive Failure where
  | noAccessor (typeName field : String)
  | pathMiss (segment reason : String)
  | malformedPayload (error : Payload.Error)
  | outOfRange (literal : String)
  | mismatch (expected found : String)
  | tooLarge (size limit : Nat)
  deriving DecidableEq, Repr

def Failure.message : Failure → String
  | .noAccessor typeName field => "No accessor for field '" ++ field ++ "' on " ++ typeName
  | .pathMiss segment reason => "Path miss at '" ++ segment ++ "': " ++ reason
  | .malformedPayload error => "Malformed payload: " ++ error.message
  | .outOfRange literal => "Numeric value out of range: " ++ literal
  | .mismatch expected found => "Expected " ++ expected ++ ", found " ++ found
  | .tooLarge size limit =>
    "Payload of " ++ toString size ++ " bytes exceeds limit of " ++ toString limit ++ " bytes"

end Telemetry
