import Telemetry.Proofs.Payload.Rendering

/-!
# Between JSON values and trees

A JSON value that is made a tree and a value again loses its numbers that break
their rule, each to a null in its place, and the order of its members
(`conversions_scrub`). A tree that is made a value and a tree again loses its
rejected numbers in the same way. What came back once comes back as it is but for
the order.
-/

namespace Telemetry.Json

/-- An integer fits `Int64`, as a negative one always does, and a double lies
from zero to one. -/
def Number.KeepsRule : Number → Prop
  | .unsigned n => n.toNat < 2 ^ 63
  | .negative .. => True
  | .float x => Attribute.IsProbability x

instance (x : Float) : Decidable (Attribute.IsProbability x) :=
  inferInstanceAs (Decidable (x.isFinite = true ∧ 0.0 ≤ x ∧ x ≤ 1.0))

instance (n : Number) : Decidable n.KeepsRule :=
  match n with
  | .unsigned n => inferInstanceAs (Decidable (n.toNat < 2 ^ 63))
  | .negative .. => isTrue trivial
  | .float x => inferInstanceAs (Decidable (Attribute.IsProbability x))

mutual
def Value.scrub : Value → Value
  | .number n => if n.KeepsRule then .number n else .null
  | .array items => .array (scrubValues items)
  | .object members => .object (scrubFields members)
  | v => v
def scrubValues : List Value → List Value
  | [] => []
  | v :: rest => v.scrub :: scrubValues rest
def scrubFields : List (String × Value) → List (String × Value)
  | [] => []
  | (k, v) :: rest => (k, v.scrub) :: scrubFields rest
end

mutual
def Value.arrange (ranking : Payload.Ranking) : Value → Value
  | .object members => .object (Entries.byRank (ranking []) (arrangeFields ranking members))
  | .array items => .array (arrangeValues ranking 0 items)
  | v => v
def arrangeValues (ranking : Payload.Ranking) (index : Nat) : List Value → List Value
  | [] => []
  | v :: rest =>
    v.arrange (ranking.below (toString index)) :: arrangeValues ranking (index + 1) rest
def arrangeFields (ranking : Payload.Ranking) : List (String × Value) → List (String × Value)
  | [] => []
  | (k, v) :: rest => (k, v.arrange (ranking.below k)) :: arrangeFields ranking rest
end

-- The greatest number that `Int64` holds, and the next.
example : Value.scrub (.array [.number (.unsigned 0x7fffffffffffffff),
    .number (.unsigned 0x8000000000000000)]) =
    .array [.number (.unsigned 0x7fffffffffffffff), .null] := rfl

theorem Number.ofInt64_negative (n : Int64) (below : n < 0) :
    Number.ofInt64 n = .negative n below :=
  dif_pos below

theorem Number.ofInt64_unsigned {n : UInt64} (h : n.toNat < 2 ^ 63) :
    Number.ofInt64 (Int64.ofNat n.toNat) = .unsigned n := by
  have hvalue : (Int64.ofNat n.toNat).toInt = n.toNat := by
    rw [← Int64.ofInt_eq_ofNat]
    exact Int64.toInt_ofInt_of_le (by omega) (by omega)
  have hnotbelow : ¬ Int64.ofNat n.toNat < 0 := by
    rw [Int64.lt_iff_toInt_lt, hvalue]
    exact Int.not_lt.mpr (Int.natCast_nonneg _)
  have hback : (Int64.ofNat n.toNat).toUInt64 = n := by
    have hnat := Payload.toNat_toUInt64 hnotbelow
    rw [hvalue] at hnat
    exact UInt64.toNat_inj.mp (Int.ofNat_inj.mp hnat)
  rw [Number.ofInt64, dif_neg hnotbelow, hback]

end Telemetry.Json

namespace Telemetry.Payload

open Json (Value scrubValues scrubFields)

-- ---------------------------------------------------------------------------
-- A value as a tree and back
-- ---------------------------------------------------------------------------

theorem Tree.toJson_ofNumber (n : Json.Number) :
    (Tree.ofNumber n).toJson = (Value.number n).scrub := by
  rw [Value.scrub]
  cases n with
  | float x =>
    have hrule : (Json.Number.float x).KeepsRule ↔ inUnitInterval x = true := isProbability_iff x
    by_cases h : inUnitInterval x = true
    · simp only [Tree.ofNumber, if_pos h, if_pos (hrule.mpr h), Tree.toJson, ofFloat?_inRange h]
    · simp only [Tree.ofNumber, if_neg h, if_neg (mt hrule.mp h), Tree.toJson]
  | unsigned n =>
    by_cases h : n.toNat < 2 ^ 63
    · have hrule : (Json.Number.unsigned n).KeepsRule := h
      have hfits : (Json.Number.unsigned n).toInt64? = some (Int64.ofNat n.toNat) := if_pos h
      simp only [Tree.ofNumber, hfits, Tree.toJson, Json.Number.ofInt64_unsigned h, if_pos hrule]
    · have hrule : ¬ (Json.Number.unsigned n).KeepsRule := h
      have hfits : (Json.Number.unsigned n).toInt64? = none := if_neg h
      simp only [Tree.ofNumber, hfits, Tree.toJson, if_neg hrule]
  | negative n below =>
    have hrule : (Json.Number.negative n below).KeepsRule := trivial
    simp only [Tree.ofNumber, Json.Number.toInt64?, Tree.toJson,
      Json.Number.ofInt64_negative n below, if_pos hrule]

mutual
theorem Tree.toJson_written (v : Value) : (Tree.written v).toJson = v.scrub := by
  cases v with
  | number n => exact Tree.toJson_ofNumber n
  | array items => rw [Tree.written, Tree.toJson, Value.scrub, toJsonItems_writtenItems items]
  | object members =>
    rw [Tree.written, Tree.toJson, Value.scrub, toJsonMembers_writtenMembers members]
  | _ => rfl
theorem toJsonItems_writtenItems (items : List Value) :
    toJsonItems (writtenItems items) = scrubValues items := by
  cases items with
  | nil => rfl
  | cons v rest =>
    rw [writtenItems, toJsonItems, scrubValues, Tree.toJson_written v, toJsonItems_writtenItems rest]
theorem toJsonMembers_writtenMembers (members : List (String × Value)) :
    toJsonMembers (writtenMembers members) = scrubFields members := by
  cases members with
  | nil => rfl
  | cons member rest =>
    obtain ⟨k, v⟩ := member
    rw [writtenMembers, toJsonMembers, scrubFields, Tree.toJson_written v,
      toJsonMembers_writtenMembers rest]
end

-- ---------------------------------------------------------------------------
-- A second time
-- ---------------------------------------------------------------------------

mutual
theorem Tree.toJson_scrub (t : Tree) : t.scrub.toJson = t.toJson := by
  cases t with
  | object members => rw [Tree.scrub, Tree.toJson, Tree.toJson, toJsonMembers_scrubMembers members]
  | array items => rw [Tree.scrub, Tree.toJson, Tree.toJson, toJsonItems_scrubItems items]
  | _ => rfl
theorem toJsonItems_scrubItems (items : List Tree) :
    toJsonItems (scrubItems items) = toJsonItems items := by
  cases items with
  | nil => rfl
  | cons t rest =>
    rw [scrubItems, toJsonItems, toJsonItems, t.toJson_scrub, toJsonItems_scrubItems rest]
theorem toJsonMembers_scrubMembers (members : List (String × Tree)) :
    toJsonMembers (scrubMembers members) = toJsonMembers members := by
  cases members with
  | nil => rfl
  | cons member rest =>
    obtain ⟨k, t⟩ := member
    rw [scrubMembers, toJsonMembers, toJsonMembers, t.toJson_scrub,
      toJsonMembers_scrubMembers rest]
end

-- ---------------------------------------------------------------------------
-- Orders
-- ---------------------------------------------------------------------------

theorem toJsonMembers_eq (members : List (String × Tree)) :
    toJsonMembers members = members.map (Prod.map id Tree.toJson) := by
  induction members with
  | nil => rfl
  | cons member rest ih =>
    obtain ⟨k, t⟩ := member
    rw [toJsonMembers, ih]
    rfl

mutual
theorem Tree.toJson_arrange (t : Tree) (ranking : Ranking) :
    (t.arrange ranking).toJson = t.toJson.arrange ranking := by
  cases t with
  | object members =>
    rw [Tree.arrange, Tree.toJson, Tree.toJson, Value.arrange, toJsonMembers_eq,
      Entries.map_byRank, ← toJsonMembers_eq, toJsonMembers_arrange members]
  | array items =>
    rw [Tree.arrange, Tree.toJson, Tree.toJson, Value.arrange, toJsonItems_arrange items]
  | fraction x =>
    simp only [Tree.arrange, Tree.toJson]
    cases Json.Number.ofFloat? x <;> rfl
  | _ => rfl
theorem toJsonItems_arrange (items : List Tree) (ranking : Ranking) (first : Nat) :
    toJsonItems (arrangeItems ranking first items) =
      Json.arrangeValues ranking first (toJsonItems items) := by
  cases items with
  | nil => rfl
  | cons t rest =>
    rw [arrangeItems, toJsonItems, toJsonItems, Json.arrangeValues, t.toJson_arrange,
      toJsonItems_arrange rest]
theorem toJsonMembers_arrange (members : List (String × Tree)) (ranking : Ranking) :
    toJsonMembers (arrangeMembers ranking members) =
      Json.arrangeFields ranking (toJsonMembers members) := by
  cases members with
  | nil => rfl
  | cons member rest =>
    obtain ⟨k, t⟩ := member
    rw [arrangeMembers, toJsonMembers, toJsonMembers, Json.arrangeFields, t.toJson_arrange,
      toJsonMembers_arrange rest]
end

mutual
theorem Tree.written_arrange (v : Value) (ranking : Ranking) :
    Tree.written (v.arrange ranking) = (Tree.written v).arrange ranking := by
  cases v with
  | number n =>
    rw [Value.arrange, Tree.written, Tree.ofNumber_arrange]
    all_goals exact fun _ h => nomatch h
  | array items =>
    rw [Value.arrange, Tree.written, Tree.written, Tree.arrange, writtenItems_arrange items]
  | object members =>
    rw [Value.arrange, Tree.written, Tree.written, Tree.arrange, writtenMembers_eq,
      Entries.map_byRank, ← writtenMembers_eq, writtenMembers_arrange members]
  | _ => rfl
theorem writtenItems_arrange (items : List Value) (ranking : Ranking) (first : Nat) :
    writtenItems (Json.arrangeValues ranking first items) =
      arrangeItems ranking first (writtenItems items) := by
  cases items with
  | nil => rfl
  | cons v rest =>
    rw [Json.arrangeValues, writtenItems, writtenItems, arrangeItems, Tree.written_arrange v,
      writtenItems_arrange rest]
theorem writtenMembers_arrange (members : List (String × Value)) (ranking : Ranking) :
    writtenMembers (Json.arrangeFields ranking members) =
      arrangeMembers ranking (writtenMembers members) := by
  cases members with
  | nil => rfl
  | cons member rest =>
    obtain ⟨k, v⟩ := member
    rw [Json.arrangeFields, writtenMembers, writtenMembers, arrangeMembers, Tree.written_arrange v,
      writtenMembers_arrange rest]
end

/-- The two conversions undo each other but for the order of members and for the
numbers that a tree does not hold: a value gets null for each number that breaks its
rule, and a tree for each rejected one. To convert once more changes nothing but the
order. -/
theorem conversions_scrub (ranking ranking' : Ranking) :
    (∀ v : Value, (Tree.ofJson ranking v).toJson = v.scrub.arrange ranking ∧
        (Tree.ofJson ranking' (Tree.ofJson ranking v).toJson).toJson =
          (Tree.ofJson ranking v).toJson.arrange ranking') ∧
      ∀ t : Tree, t.All Tree.InRange →
        Tree.ofJson ranking t.toJson = t.scrub.arrange ranking ∧
          Tree.ofJson ranking' (Tree.ofJson ranking t.toJson).toJson =
            (Tree.ofJson ranking t.toJson).arrange ranking' := by
  have hagain (t : Tree) (h : t.All Tree.InRange) :
      Tree.ofJson ranking' t.toJson = t.scrub.arrange ranking' := by
    rw [Tree.ofJson, t.written_toJson_inRange h]
  refine ⟨fun v => ⟨?_, ?_⟩, fun t h => ⟨?_, ?_⟩⟩
  · rw [Tree.ofJson, Tree.toJson_arrange, Tree.toJson_written]
  · have hrange : (Tree.ofJson ranking v).All Tree.InRange :=
      Tree.All.arrange Tree.InRange.arrange _ (Tree.written_inRange v) ranking
    rw [hagain _ hrange, Tree.toJson_arrange, Tree.toJson_scrub]
  · rw [Tree.ofJson, t.written_toJson_inRange h]
  · rw [Tree.ofJson, Tree.ofJson, Tree.toJson_arrange, Tree.written_arrange,
      t.written_toJson_inRange h, Tree.toJson_scrub, t.written_toJson_inRange h]

/-- Both ends of the interval, minus zero and a rejected number deep inside. -/
def scaledTree : Tree :=
  .object [
    ("scale", .array [.fraction 1.0, .fraction 0.5, .fraction (-0.0)]),
    ("", .object [("top", .integer Int64.maxValue), ("beyond", .rejected "9223372036854775808")])]

theorem conversions_scrub_scaled :
    scaledTree.All Tree.InRange ∧
      Tree.ofJson .level scaledTree.toJson = scaledTree.scrub.arrange .level ∧
      Tree.ofJson .level (Tree.ofJson .level scaledTree.toJson).toJson =
        (Tree.ofJson .level scaledTree.toJson).arrange .level := by
  have hrange : scaledTree.All Tree.InRange := by
    simp only [scaledTree, Tree.All, allMembers, allItems, Tree.InRange]
    decide
  exact ⟨hrange, (conversions_scrub .level .level).2 scaledTree hrange⟩

end Telemetry.Payload
