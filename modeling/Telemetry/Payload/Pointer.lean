import Telemetry.Payload.Tree

/-!
# Pointers into a tree

A pointer such as `/usage/0/tokens` names the node reached by following its
segments: a key in an object, an index in an array. Empty segments are left
out, so leading, trailing and doubled slashes make no difference.
-/

namespace Telemetry.Payload

def piece (cs : List Char) : List String :=
  if cs.isEmpty then [] else [String.ofList cs.reverse]

/-- The non-empty pieces of a path; `cs` holds, last first, the characters
since the last slash. -/
def segmentsFrom (cs : List Char) : List Char → List String
  | [] => piece cs
  | c :: rest =>
    if c = '/' then piece cs ++ segmentsFrom [] rest else segmentsFrom (c :: cs) rest

/-- The non-empty pieces of a path between its slashes. -/
def segments (path : String) : List String :=
  segmentsFrom [] path.toList

/-- The member or item that one segment names. -/
def Tree.child? : Tree → String → Option Tree
  | .object members, key => Entries.get? members key
  | .array items, index => (Text.uint64? index).bind fun i => items[i.toNat]?
  | _, _ => none

def Tree.descend (t : Tree) : List String → Option Tree
  | [] => some t
  | segment :: rest => (t.child? segment).bind (·.descend rest)

def Tree.pointer (t : Tree) (path : String) : Option Tree :=
  t.descend (segments path)

def Tree.get? : Tree → String → Option Tree
  | .object members, key => Entries.get? members key
  | _, _ => none

theorem Tree.descend_append (t : Tree) (p q : List String) :
    t.descend (p ++ q) = (t.descend p).bind (·.descend q) := by
  induction p generalizing t with
  | nil => rfl
  | cons segment rest ih =>
    simp only [List.cons_append, descend]
    cases t.child? segment with
    | none => rfl
    | some node => exact ih node

end Telemetry.Payload
