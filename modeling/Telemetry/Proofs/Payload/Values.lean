import Telemetry.Payload.BodyAttribute
import Telemetry.Proofs.Payload.Arrangement

/-!
# What a payload can give

Every fraction in the tree of a document lies from zero to one
(`parse_inRange`), also below any pointer, and a node that has a text has one
that is not empty (`Tree.render_ne_empty`). So what an attribute is read as
is a value that a sink may hold, and it is read from a node that holds one
(`BodyAttribute.resolve_reads`).
-/

namespace Telemetry.Text

theorem toString_ne_empty (n : Int) : toString n ≠ "" := by
  cases n with
  | ofNat n => exact Nat.repr_ne_empty
  | negSucc n =>
    intro h
    exact absurd (String.append_eq_empty_iff.mp h).1 (by decide)

end Telemetry.Text

namespace Telemetry.Decimal

theorem ofDigits_ne_empty (n : Nat) : String.ofList (Nat.toDigits 10 n) ≠ "" := by
  simp [String.ofList_eq_empty_iff, Nat.toDigits_ne_nil]

theorem positional_ne_empty (showFraction : Bool) (d : Decimal) :
    d.positional showFraction ≠ "" := by
  intro h
  unfold positional at h
  dsimp only at h
  split at h
  · obtain ⟨⟨hdigits, -⟩, -⟩ := by simpa only [String.append_eq_empty_iff] using h
    exact ofDigits_ne_empty _ hdigits
  · split at h <;> simp [String.append_eq_empty_iff] at h

theorem scientific_ne_empty (plus : Bool) (d : Decimal) : d.scientific plus ≠ "" := by
  intro h
  simp [scientific, String.append_eq_empty_iff] at h

theorem Layout.write_ne_empty (layout : Layout) (x : Float) : layout.write x ≠ "" := by
  have htext (size : Float) : (if size.isInf then "inf"
      else if size == 0.0 then (if layout.showFraction then "0.0" else "0")
      else layout.ofDecimal (shortest layout.tie size)) ≠ "" := by
    split
    · decide
    · split
      · cases layout.showFraction <;> decide
      · unfold Layout.ofDecimal
        split
        · exact positional_ne_empty _ _
        · exact scientific_ne_empty _ _
  unfold Layout.write
  dsimp only
  split
  · decide
  · split
    · intro h
      exact htext _ (String.append_eq_empty_iff.mp h).2
    · exact htext _

end Telemetry.Decimal

namespace Telemetry.Attribute

def IsProbability (x : Float) : Prop :=
  x.isFinite = true ∧ 0.0 ≤ x ∧ x ≤ 1.0

/-- A text says something, and a number with a fraction is a probability. -/
def Value.Valid : Value → Prop
  | .text s => s ≠ ""
  | .int _ => True
  | .float x => IsProbability x

end Telemetry.Attribute

namespace Telemetry.Json

theorem Value.write_container_ne_empty {v : Value}
    (h : (∃ items, v = .array items) ∨ ∃ members, v = .object members) : v.write ≠ "" := by
  unfold Value.write
  rw [Ne, String.ofList_eq_empty_iff]
  rcases h with ⟨items, rfl⟩ | ⟨members, rfl⟩ <;> simp [Value.chars]

end Telemetry.Json

namespace Telemetry.Payload

open Attribute (IsProbability)

-- ---------------------------------------------------------------------------
-- Fractions
-- ---------------------------------------------------------------------------

def Tree.InRange : Tree → Prop
  | .fraction x => inUnitInterval x = true
  | _ => True

theorem Tree.ofNumber_inRange (n : Json.Number) : (Tree.ofNumber n).All Tree.InRange := by
  cases n with
  | float x =>
    simp only [Tree.ofNumber]
    split
    · rename_i h
      exact h
    · trivial
  | unsigned n =>
    unfold Tree.ofNumber
    cases (Json.Number.unsigned n).toInt64? <;> trivial
  | negative n below => trivial

mutual
theorem Tree.written_inRange (v : Json.Value) : (Tree.written v).All Tree.InRange := by
  cases v with
  | number n => exact Tree.ofNumber_inRange n
  | array items => exact Tree.all_array.mpr ⟨trivial, writtenItems_inRange items⟩
  | object members => exact Tree.all_object.mpr ⟨trivial, writtenMembers_inRange members⟩
  | _ => trivial
theorem writtenItems_inRange (items : List Json.Value) :
    allItems Tree.InRange (writtenItems items) := by
  cases items with
  | nil => trivial
  | cons v rest => exact ⟨Tree.written_inRange v, writtenItems_inRange rest⟩
theorem writtenMembers_inRange (members : List (String × Json.Value)) :
    allMembers Tree.InRange (writtenMembers members) := by
  cases members with
  | nil => trivial
  | cons member rest =>
    obtain ⟨k, v⟩ := member
    exact ⟨Tree.written_inRange v, writtenMembers_inRange rest⟩
end

theorem Tree.InRange.arrange (ranking : Ranking) (t : Tree) (h : t.InRange) :
    (t.arrange ranking).InRange := by
  cases t with
  | object members =>
    rw [Tree.arrange]
    trivial
  | array items =>
    rw [Tree.arrange]
    trivial
  | _ => exact h

theorem parse_inRange {bytes : List UInt8} {ranking : Ranking} {t : Tree}
    (h : parse bytes ranking = .ok t) : t.All Tree.InRange := by
  unfold parse at h
  cases hv : Json.parse bytes with
  | error e => simp [hv, Tree.ofRead] at h
  | ok v =>
    rw [hv] at h
    cases h
    exact Tree.All.arrange Tree.InRange.arrange _ (Tree.written_inRange v) ranking

theorem isProbability_iff (x : Float) : IsProbability x ↔ inUnitInterval x = true := by
  simp [IsProbability, inUnitInterval, and_assoc]

theorem Tree.toProbability_isProbability {t : Tree} (h : t.InRange) {x : Float}
    (hx : t.toProbability = .ok x) : IsProbability x := by
  rw [isProbability_iff]
  cases t with
  | fraction y =>
    cases hx
    exact h
  | integer n =>
    simp only [Tree.toProbability] at hx
    split at hx
    · cases hx
      decide
    · split at hx
      · cases hx
        decide
      · cases hx
  | string s =>
    simp only [Tree.toProbability] at hx
    cases hp : probability? s with
    | none => simp [hp] at hx
    | some y =>
      rw [hp] at hx
      cases hx
      exact (Option.filter_eq_some_iff.mp hp).2
  | _ => cases hx

-- ---------------------------------------------------------------------------
-- Texts
-- ---------------------------------------------------------------------------

theorem nonEmpty_ne_empty {s text : String} (h : nonEmpty s = some text) : text ≠ "" := by
  unfold nonEmpty at h
  split at h
  · cases h
  · cases h
    simpa using ‹¬ s.isEmpty = true›

theorem Tree.render_ne_empty {t : Tree} {text : String} (h : t.render = some text) :
    text ≠ "" := by
  cases t with
  | string s => exact nonEmpty_ne_empty h
  | integer n =>
    cases h
    exact Text.toString_ne_empty n.toInt
  | fraction x =>
    cases h
    exact Decimal.plain.write_ne_empty x
  | bool b =>
    cases h
    cases b <;> decide
  | object members =>
    cases h
    exact Json.Value.write_container_ne_empty (.inr ⟨_, rfl⟩)
  | array items =>
    cases h
    exact Json.Value.write_container_ne_empty (.inl ⟨_, rfl⟩)
  | null => cases h
  | rejected literal => cases h

-- ---------------------------------------------------------------------------
-- Attributes
-- ---------------------------------------------------------------------------

/-- The node is neither null nor a number that breaks its rule. -/
def Tree.HoldsValue : Tree → Prop
  | .null => False
  | .rejected _ => False
  | _ => True

def Kind.read? (kind : Kind) (node : Tree) : Option Attribute.Value :=
  match kind with
  | .text => node.render.map .text
  | .sequence => node.render.map fun s => .text ("[" ++ s ++ "]")
  | .count => node.toCount.toOption.map .int
  | .probability => node.toProbability.toOption.map .float

/-- The attribute is read from this node of the tree: one that a candidate
leads to or, for a count, a text that a fallback leads to. -/
inductive BodyAttribute.ReadsFrom (wanted : BodyAttribute) (t node : Tree) :
    Attribute.Value → Prop
  | candidate {path : String} {value : Attribute.Value} (listed : path ∈ wanted.candidates)
      (leads : t.pointer path = some node) (read : wanted.kind.read? node = some value) :
      ReadsFrom wanted t node value
  | fallback {paths : List String} {path s : String} (count : wanted.kind = .count)
      (given : wanted.textFallback = some paths) (listed : path ∈ paths)
      (leads : t.pointer path = some node) (text : node.asString? = some s) :
      ReadsFrom wanted t node (.int (approximateCount s))

theorem firstMatch_eq_some {paths : List String} {t : Tree} {accept : Tree → Except Failure α}
    {a : α} (h : firstMatch paths t accept = some a) :
    ∃ path ∈ paths, ∃ node, t.pointer path = some node ∧ accept node = .ok a := by
  obtain ⟨path, hpath, hmatch⟩ := List.exists_of_findSome?_eq_some h
  obtain ⟨node, hnode, ha⟩ := Option.bind_eq_some_iff.mp hmatch
  refine ⟨path, hpath, node, hnode, ?_⟩
  cases haccept : accept node with
  | ok b =>
    rw [haccept] at ha
    cases ha
    rfl
  | error failure =>
    rw [haccept] at ha
    cases ha

theorem render_of_rendered {node : Tree} {s : String} (h : rendered node = .ok s) :
    node.render = some s := by
  unfold rendered at h
  split at h
  · rename_i hr
    cases h
    exact hr
  · cases h

theorem asString?_of_estimated {node : Tree} {n : Int64} (h : estimated node = .ok n) :
    ∃ s, node.asString? = some s ∧ n = approximateCount s := by
  unfold estimated at h
  split at h
  · rename_i s hs
    cases h
    exact ⟨s, hs, rfl⟩
  · cases h

/-- What an attribute resolves to bears the attribute's key and is read from
a node of the tree. -/
theorem BodyAttribute.resolve_reads {wanted : BodyAttribute} {t : Tree} {resolved : Resolved}
    (h : wanted.resolve t = some resolved) :
    resolved.key = wanted.key ∧ ∃ node, wanted.ReadsFrom t node resolved.value := by
  unfold BodyAttribute.resolve at h
  cases hk : wanted.kind with
  | text =>
    simp only [hk, Option.map_eq_some_iff] at h
    obtain ⟨s, hs, rfl⟩ := h
    obtain ⟨path, hpath, node, hnode, hr⟩ := firstMatch_eq_some hs
    exact ⟨rfl, node, .candidate hpath hnode (by simp [Kind.read?, hk, render_of_rendered hr])⟩
  | sequence =>
    simp only [hk, Option.map_eq_some_iff] at h
    obtain ⟨s, hs, rfl⟩ := h
    obtain ⟨path, hpath, node, hnode, hr⟩ := firstMatch_eq_some hs
    exact ⟨rfl, node, .candidate hpath hnode (by simp [Kind.read?, hk, render_of_rendered hr])⟩
  | probability =>
    simp only [hk, Option.map_eq_some_iff] at h
    obtain ⟨x, hx, rfl⟩ := h
    obtain ⟨path, hpath, node, hnode, hr⟩ := firstMatch_eq_some hx
    exact ⟨rfl, node, .candidate hpath hnode (by simp [Kind.read?, hk, hr, Except.toOption])⟩
  | count =>
    simp only [hk] at h
    split at h
    · rename_i n hn
      cases h
      obtain ⟨path, hpath, node, hnode, hr⟩ := firstMatch_eq_some hn
      exact ⟨rfl, node, .candidate hpath hnode (by simp [Kind.read?, hk, hr, Except.toOption])⟩
    · simp only [Option.map_eq_some_iff, Option.bind_eq_some_iff] at h
      obtain ⟨n, ⟨paths, hpaths, hn⟩, rfl⟩ := h
      obtain ⟨path, hpath, node, hnode, hr⟩ := firstMatch_eq_some hn
      obtain ⟨s, hs, rfl⟩ := asString?_of_estimated hr
      exact ⟨rfl, node, .fallback hk hpaths hpath hnode hs⟩

theorem Kind.read?_holdsValue {kind : Kind} {node : Tree} {value : Attribute.Value}
    (h : kind.read? node = some value) : node.HoldsValue := by
  cases node with
  | null => cases kind <;> cases h
  | rejected literal => cases kind <;> cases h
  | _ => trivial

theorem BodyAttribute.ReadsFrom.holdsValue {wanted : BodyAttribute} {t node : Tree}
    {value : Attribute.Value} (h : wanted.ReadsFrom t node value) : node.HoldsValue := by
  cases h with
  | candidate listed leads read => exact Kind.read?_holdsValue read
  | fallback count given listed leads text =>
    cases node with
    | string s => trivial
    | _ => cases text

theorem Kind.read?_valid {kind : Kind} {node : Tree} (h : node.InRange)
    {value : Attribute.Value} (hv : kind.read? node = some value) : value.Valid := by
  cases kind with
  | text =>
    obtain ⟨s, hs, rfl⟩ := Option.map_eq_some_iff.mp hv
    exact Tree.render_ne_empty hs
  | sequence =>
    obtain ⟨s, -, rfl⟩ := Option.map_eq_some_iff.mp hv
    intro hempty
    simp [String.append_eq_empty_iff] at hempty
  | count =>
    obtain ⟨n, -, rfl⟩ := Option.map_eq_some_iff.mp hv
    trivial
  | probability =>
    obtain ⟨x, hx, rfl⟩ := Option.map_eq_some_iff.mp hv
    cases hp : node.toProbability with
    | error failure =>
      rw [hp] at hx
      cases hx
    | ok y =>
      rw [hp] at hx
      cases hx
      exact Tree.toProbability_isProbability h hp

theorem BodyAttribute.ReadsFrom.valid {wanted : BodyAttribute} {t node : Tree}
    {value : Attribute.Value} (h : wanted.ReadsFrom t node value) (ht : t.All Tree.InRange) :
    value.Valid := by
  cases h with
  | candidate listed leads read => exact Kind.read?_valid (ht.pointer leads).self read
  | fallback => trivial

theorem BodyAttribute.ReadsFrom.int_of_count {wanted : BodyAttribute} {t node : Tree}
    {value : Attribute.Value} (h : wanted.ReadsFrom t node value) (hk : wanted.kind = .count) :
    ∃ n, value = .int n := by
  cases h with
  | candidate listed leads read =>
    rw [hk] at read
    obtain ⟨n, -, rfl⟩ := Option.map_eq_some_iff.mp read
    exact ⟨n, rfl⟩
  | fallback => exact ⟨_, rfl⟩

end Telemetry.Payload
