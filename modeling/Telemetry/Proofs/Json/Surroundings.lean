import Telemetry.Proofs.Json.Documents

/-!
# Documents with a hole

`Surroundings` is a document without one of its values: what stands around
that value, at any depth. `Surroundings.fill` puts a value there.
-/

namespace Telemetry.Json

inductive Surroundings where
  | hole
  | array (gap : Gap) (before : List Item) (left : Gap) (inner : Surroundings) (right : Gap)
      (after : List Item)
  | object (gap : Gap) (before : List Member) (left : Gap) (key : List Piece)
      (beforeColon afterColon : Gap) (inner : Surroundings) (right : Gap) (after : List Member)

def Surroundings.fill (s : Spelling) : Surroundings → Spelling
  | .hole => s
  | .array gap before left inner right after =>
    .array gap (before ++ .mk left (inner.fill s) right :: after)
  | .object gap before left key beforeColon afterColon inner right after =>
    .object gap (before ++ .mk left key beforeColon afterColon (inner.fill s) right :: after)

def Surroundings.depth : Surroundings → Nat
  | .hole => 0
  | .array _ _ _ inner _ _ => inner.depth + 1
  | .object _ _ _ _ _ _ inner _ _ => inner.depth + 1

theorem items?_around (room : Nat) (before : List Item) (left : Gap) (s : Spelling) (right : Gap)
    (after : List Item) :
    items? room (before ++ .mk left s right :: after) =
      (items? room before).bind fun xs => (s.value? room).bind fun x =>
        (items? room after).map fun ys => xs ++ x :: ys := by
  induction before with
  | nil => simp [items?]
  | cons item before ih =>
    cases item with
    | mk before' v after' =>
      simp only [List.cons_append, items?, ih]
      cases v.value? room with
      | none => rfl
      | some y =>
        cases items? room before with
        | none => rfl
        | some xs =>
          cases s.value? room with
          | none => rfl
          | some x => cases items? room after <;> rfl

theorem members?_around (room : Nat) (before : List Member) (left : Gap) (key : List Piece)
    (beforeColon afterColon : Gap) (s : Spelling) (right : Gap) (after : List Member) :
    members? room (before ++ .mk left key beforeColon afterColon s right :: after) =
      (members? room before).bind fun ps => (string? key).bind fun k =>
        (s.value? room).bind fun x => (members? room after).map fun qs =>
          ps ++ (k, x) :: qs := by
  induction before with
  | nil => simp [members?]
  | cons member before ih =>
    cases member with
    | mk before' key' beforeColon' afterColon' v after' =>
      simp only [List.cons_append, members?, ih]
      cases string? key' with
      | none => rfl
      | some k' =>
        cases v.value? room with
        | none => rfl
        | some y =>
          cases members? room before with
          | none => rfl
          | some ps =>
            cases string? key with
            | none => rfl
            | some k =>
              cases s.value? room with
              | none => rfl
              | some x => cases members? room after <;> rfl

structure Template where
  before : Gap := []
  surroundings : Surroundings
  after : Gap := []

def Template.fill (s : Spelling) (t : Template) : Document :=
  ⟨t.before, t.surroundings.fill s, t.after⟩

end Telemetry.Json
