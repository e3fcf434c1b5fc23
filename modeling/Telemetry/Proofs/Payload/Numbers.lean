import Telemetry.Proofs.Json.Integers
import Telemetry.Proofs.Payload.Place

/-!
# The rule for numbers, literal by literal

What a number literal becomes in the tree of a payload depends on the
literal alone (`numberNode?`), and it becomes that at its place, whatever the
document around it is (`parse_number`). The one thing that a literal can do
to the rest is to overflow: then the document has no tree at all.
-/

namespace Telemetry.Payload

open Json (Number Numeral Template)

/-- The node of a numeral: an integer of 64 bits itself, a double from zero
to one itself, and everything else rejected. -/
def numberNode? (n : Numeral) : Option Tree :=
  match n.integer? with
  | some i =>
    if -2 ^ 63 ≤ i ∧ i < 2 ^ 63 then some (.integer (Int64.ofInt i))
    else n.number?.map fun number => .rejected number.write
  | none =>
    n.double?.map fun x =>
      if inUnitInterval x then .fraction x else .rejected (Number.write (.float x))

theorem ofInt?_unsigned {i : Int} (hlow : 0 ≤ i) (hhigh : i < 2 ^ 64) :
    Number.ofInt? i = some (.unsigned (UInt64.ofNat i.toNat)) := by
  rw [Number.ofInt?, dif_neg (by omega), if_pos (by omega)]

theorem ofNumber_unsigned {i : Int} (hlow : 0 ≤ i) (hhigh : i < 2 ^ 64) :
    Tree.ofNumber (.unsigned (UInt64.ofNat i.toNat)) =
      if i < 2 ^ 63 then .integer (Int64.ofInt i)
      else .rejected (Number.write (.unsigned (UInt64.ofNat i.toNat))) := by
  have hvalue : (UInt64.ofNat i.toNat).toNat = i.toNat := by
    simp only [UInt64.toNat_ofNat']
    omega
  by_cases hsmall : i < 2 ^ 63
  · have hfits : (Number.unsigned (UInt64.ofNat i.toNat)).toInt64? = some (Int64.ofInt i) := by
      rw [Number.toInt64?, hvalue, if_pos (by omega), ← Int64.ofInt_eq_ofNat,
        Int.toNat_of_nonneg hlow]
    simp only [Tree.ofNumber, hfits, if_pos hsmall]
  · have hlarge : (Number.unsigned (UInt64.ofNat i.toNat)).toInt64? = none := by
      rw [Number.toInt64?, hvalue, if_neg (by omega)]
    simp only [Tree.ofNumber, hlarge, if_neg hsmall]

theorem ofNumber_ofInt? {i : Int} (hlow : -2 ^ 63 ≤ i) (hhigh : i < 2 ^ 63) :
    (Number.ofInt? i).map Tree.ofNumber = some (.integer (Int64.ofInt i)) := by
  by_cases hn : i < 0
  · rw [Number.ofInt?, dif_pos ⟨hlow, hn⟩]
    rfl
  · rw [ofInt?_unsigned (by omega) (by omega), Option.map_some,
      ofNumber_unsigned (by omega) (by omega), if_pos hhigh]

/-- An integer that leaves `Int64` is rejected, if it is read as an unsigned
one or, past 64 bits, as a double. -/
theorem ofNumber_rejected {n : Numeral} {i : Int} (hi : n.integer? = some i)
    (hlarge : i < -2 ^ 63 ∨ 2 ^ 63 ≤ i) {number : Number} (h : n.number? = some number) :
    Tree.ofNumber number = .rejected number.write := by
  rw [n.number?_eq, hi, Option.bind_some] at h
  by_cases hfits : 2 ^ 63 ≤ i ∧ i < 2 ^ 64
  · rw [ofInt?_unsigned (by omega) hfits.2, Option.some_or] at h
    cases h
    rw [ofNumber_unsigned (by omega) hfits.2, if_neg (by omega)]
  · rw [(Json.ofInt?_eq_none_iff i).mpr (by omega), Option.none_or] at h
    obtain ⟨x, hx, rfl⟩ := Option.map_eq_some_iff.mp h
    have houtside := Numeral.double?_outside hi (by omega) hx
    have hno : inUnitInterval x = false := by
      simpa [inUnitInterval] using fun _ => not_and.mp houtside
    simp only [Tree.ofNumber, hno]
    rfl

theorem node_eq (n : Numeral) : n.number?.map Tree.ofNumber = numberNode? n := by
  unfold numberNode?
  cases hi : n.integer? with
  | none =>
    rw [n.number?_eq, hi, Option.bind_none, Option.none_or, Option.map_map]
    rfl
  | some i =>
    dsimp only
    split
    · rename_i hfits
      have hinteger := ofNumber_ofInt? hfits.1 hfits.2
      rw [n.number?_eq, hi, Option.bind_some]
      cases hnumber : Number.ofInt? i with
      | none => simp [hnumber] at hinteger
      | some number => rwa [hnumber] at hinteger
    · rename_i hlarge
      cases hnumber : n.number? with
      | none => rfl
      | some number =>
        rw [Option.map_some, Option.map_some, ofNumber_rejected hi (by omega) hnumber]

theorem numberNode?_eq_none_iff (n : Numeral) : numberNode? n = none ↔ n.Overflows := by
  rw [← node_eq, Option.map_eq_none_iff, n.number?_eq_none_iff]

theorem tree?_null (room : Nat) : tree? room .null = some .null :=
  rfl

theorem tree?_number (room : Nat) (n : Numeral) : tree? room (.number n) = numberNode? n := by
  rw [← node_eq]
  simp only [tree?, Json.Spelling.value?, Option.map_map]
  rfl

theorem numberNode?_arrange (n : Numeral) (ranking : Ranking) :
    (numberNode? n).map (·.arrange ranking) = numberNode? n := by
  rw [← node_eq, Option.map_map]
  exact congrArg (n.number?.map ·) (funext fun number => Tree.ofNumber_arrange number ranking)

/-- In the hole of a template every numeral is the node that the rule makes of it,
at the place of the hole, and everything else is what it is around a null. A
numeral that overflows leaves no tree. -/
theorem parse_number (template : Template) (ranking : Ranking) :
    (parse (template.fill .null).bytes ranking).toOption =
        (template.place?.map fun place => (place.fill .null).arrange ranking) ∧
      ∀ n : Numeral,
        (parse (template.fill (.number n)).bytes ranking).toOption =
            (template.place?.bind fun place =>
              (numberNode? n).map fun t => (place.fill t).arrange ranking) ∧
          (numberNode? n = none ↔ n.Overflows) ∧
          ∀ place path t, template.place? = some place → place.path? = some path →
            parse (template.fill (.number n)).bytes ranking = .ok t →
              t.descend path = numberNode? n := by
  refine ⟨?_, fun n => ⟨?_, numberNode?_eq_none_iff n, ?_⟩⟩
  · rw [parse_fill, tree?_null]
    exact (Option.map_eq_bind ..).symm
  · rw [parse_fill, tree?_number]
  · intro place path t hplace hpath h
    obtain ⟨inner, hinner⟩ := parse_fill_path h hplace hpath
    rw [hinner, tree?_number, numberNode?_arrange]

-- ---------------------------------------------------------------------------
-- A number that fails its document
-- ---------------------------------------------------------------------------

def besideTwo : Template where
  surroundings := .object [] [] [] [.plain 'a' ⟨by decide, by decide, by decide⟩] [] [] .hole []
    [.mk [] [.plain 'b' ⟨by decide, by decide, by decide⟩] [] []
      (.number { whole := .digits 2 (by decide) [] }) []]

def one : Numeral where
  whole := .digits 1 (by decide) []

def tenTo400 : Numeral where
  whole := .digits 1 (by decide) []
  exponent := some { digits := ⟨4, [0, 0]⟩ }

theorem tenTo400_number? : tenTo400.literal.number? = none := by
  have hparts : tenTo400.literal.parts = (1, 0) := by decide
  have hscale : Json.scale (UInt64.ofNat 1).toFloat 400 = none := by
    rw [Json.scale, if_neg (by decide), if_neg (by decide), if_pos (by decide)]
  have hmagnitude : tenTo400.literal.magnitude? = none := by
    rw [Json.Literal.magnitude?, hparts]
    exact hscale
  rw [Json.Literal.number?_of_none rfl, Json.Literal.float?, hmagnitude]
  rfl

/-- The member beside the number is lost with it. -/
theorem parse_number_overflow :
    (besideTwo.fill (.number tenTo400)).bytes =
        Utf8.ofString "\x7b\"a\":1e400,\"b\":2\x7d" ∧
      (parse (besideTwo.fill (.number tenTo400)).bytes).toOption.isSome = false ∧
      (parse (besideTwo.fill (.number one)).bytes).toOption.isSome = true := by
  refine ⟨by decide, ?_, ?_⟩
  · rw [parse_document]
    simp [tree?, Template.fill, besideTwo, Json.Surroundings.fill, Json.Spelling.value?,
      Json.members?, Json.maxOpen, tenTo400_number?]
  · rw [parse_document]
    decide

end Telemetry.Payload
