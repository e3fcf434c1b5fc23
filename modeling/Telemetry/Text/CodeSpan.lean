/-!
# Spans of code points

A Unicode property is a list of spans: every `step`-th code point from
`first` to `last`. The tables of this folder are lists of such spans, as
Unicode 17 has the properties.
-/

namespace Telemetry.Text

structure CodeSpan where
  first : Nat
  last : Nat
  step : Nat
  deriving DecidableEq, Repr

def CodeSpan.covers (span : CodeSpan) (n : Nat) : Bool :=
  span.first ≤ n && n ≤ span.last && (n - span.first) % span.step == 0

def covered (table : List CodeSpan) (n : Nat) : Bool :=
  table.any (·.covers n)

end Telemetry.Text
