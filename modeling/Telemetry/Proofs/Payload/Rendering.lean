import Telemetry.Payload.Scalar
import Telemetry.Proofs.Json.Writing
import Telemetry.Proofs.Payload.Values

/-!
# Trees as JSON text

A tree whose fractions lie from zero to one is read back from its JSON value, but
for its rejected numbers, which leave null (`Tree.written_toJson_inRange`). A tree
without fractions is read back from its JSON text, but for its
rejected numbers, which are written as null (`parseText_toJson`). Its members stand
in the order of the maps that they come into, whatever it was before.
-/

namespace Telemetry.Payload

def Tree.NotFraction : Tree → Prop
  | .fraction _ => False
  | _ => True

def Tree.NotRejected : Tree → Prop
  | .rejected _ => False
  | _ => True

mutual
def Tree.scrub : Tree → Tree
  | .object members => .object (scrubMembers members)
  | .array items => .array (scrubItems items)
  | .rejected _ => .null
  | t => t
def scrubItems : List Tree → List Tree
  | [] => []
  | t :: rest => t.scrub :: scrubItems rest
def scrubMembers : List (String × Tree) → List (String × Tree)
  | [] => []
  | (k, t) :: rest => (k, t.scrub) :: scrubMembers rest
end

mutual
theorem Tree.scrub_eq (t : Tree) (h : t.All Tree.NotRejected) : t.scrub = t := by
  cases t with
  | object members =>
    rw [Tree.scrub, scrubMembers_eq members (Tree.all_object.mp h).2]
  | array items => rw [Tree.scrub, scrubItems_eq items (Tree.all_array.mp h).2]
  | rejected literal => exact h.elim
  | _ => rfl
theorem scrubItems_eq (items : List Tree) (h : allItems Tree.NotRejected items) :
    scrubItems items = items := by
  cases items with
  | nil => rfl
  | cons t rest => rw [scrubItems, t.scrub_eq h.1, scrubItems_eq rest h.2]
theorem scrubMembers_eq (members : List (String × Tree)) (h : allMembers Tree.NotRejected members) :
    scrubMembers members = members := by
  cases members with
  | nil => rfl
  | cons member rest =>
    obtain ⟨k, t⟩ := member
    rw [scrubMembers, t.scrub_eq h.1, scrubMembers_eq rest h.2]
end

-- ---------------------------------------------------------------------------
-- Integers
-- ---------------------------------------------------------------------------

theorem isInteger_ofInt64 (n : Int64) : (Json.Number.ofInt64 n).IsInteger := by
  unfold Json.Number.ofInt64
  split <;> trivial

theorem toNat_toUInt64 {n : Int64} (h : ¬ n < 0) : (n.toUInt64.toNat : Int) = n.toInt := by
  have hunsigned : n.toUInt64.toNat = n.toBitVec.toNat := rfl
  have hsigned : n.toInt = n.toBitVec.toInt := rfl
  rw [Int64.lt_iff_toInt_lt, hsigned] at h
  rw [hunsigned, hsigned]
  have hzero : (0 : Int64).toInt = 0 := rfl
  rw [hzero, BitVec.toInt_eq_toNat_cond] at h
  rw [BitVec.toInt_eq_toNat_cond]
  split <;> omega

theorem ofNumber_ofInt64 (n : Int64) : Tree.ofNumber (.ofInt64 n) = .integer n := by
  unfold Json.Number.ofInt64
  split
  · rfl
  · rename_i hn
    have hvalue := toNat_toUInt64 hn
    have hhigh := n.toInt_lt
    have hback : Int64.ofNat n.toUInt64.toNat = n := by
      rw [← Int64.ofInt_eq_ofNat, hvalue, Int64.ofInt_toInt]
    have hfits : (Json.Number.unsigned n.toUInt64).toInt64? = some n := by
      rw [Json.Number.toInt64?, if_pos (by omega), hback]
    simp only [Tree.ofNumber, hfits]

-- ---------------------------------------------------------------------------
-- There and back
-- ---------------------------------------------------------------------------

theorem ofFloat?_inRange {x : Float} (h : inUnitInterval x = true) :
    Json.Number.ofFloat? x = some (.float x) := by
  have hfinite : x.isFinite = true := ((isProbability_iff x).mpr h).1
  rw [Json.Number.ofFloat?, if_pos hfinite]

theorem Tree.written_fraction {x : Float} (h : inUnitInterval x = true) :
    Tree.written (Tree.fraction x).toJson = .fraction x := by
  simp only [Tree.toJson, ofFloat?_inRange h, Tree.written, Tree.ofNumber, h, if_true]

mutual
theorem Tree.written_toJson_inRange (t : Tree) (h : t.All Tree.InRange) :
    Tree.written t.toJson = t.scrub := by
  cases t with
  | object members =>
    rw [Tree.toJson, Tree.written, Tree.scrub,
      writtenMembers_toJsonMembers members (Tree.all_object.mp h).2]
  | array items =>
    rw [Tree.toJson, Tree.written, Tree.scrub,
      writtenItems_toJsonItems items (Tree.all_array.mp h).2]
  | integer n => exact ofNumber_ofInt64 n
  | fraction x => exact Tree.written_fraction h
  | _ => rfl
theorem writtenItems_toJsonItems (items : List Tree) (h : allItems Tree.InRange items) :
    writtenItems (toJsonItems items) = scrubItems items := by
  cases items with
  | nil => rfl
  | cons t rest =>
    rw [toJsonItems, writtenItems, scrubItems, t.written_toJson_inRange h.1,
      writtenItems_toJsonItems rest h.2]
theorem writtenMembers_toJsonMembers (members : List (String × Tree))
    (h : allMembers Tree.InRange members) :
    writtenMembers (toJsonMembers members) = scrubMembers members := by
  cases members with
  | nil => rfl
  | cons member rest =>
    obtain ⟨k, t⟩ := member
    rw [toJsonMembers, writtenMembers, scrubMembers, t.written_toJson_inRange h.1,
      writtenMembers_toJsonMembers rest h.2]
end

theorem Tree.NotFraction.inRange {t : Tree} (h : t.NotFraction) : t.InRange := by
  cases t with
  | fraction x => exact h.elim
  | _ => trivial

theorem Tree.written_toJson (t : Tree) (h : t.All Tree.NotFraction) :
    Tree.written t.toJson = t.scrub :=
  t.written_toJson_inRange (Tree.All.mono (fun _ => Tree.NotFraction.inRange) t h)

theorem toJsonMembers_keys (members : List (String × Tree)) :
    (toJsonMembers members).map (·.1) = members.map (·.1) := by
  induction members with
  | nil => rfl
  | cons member rest ih =>
    obtain ⟨k, t⟩ := member
    simp only [toJsonMembers, List.map_cons, ih]

mutual
theorem Tree.toJson_fits (t : Tree) {room : Nat} (hdepth : t.depth ≤ room)
    (hkeys : t.All Tree.KeysDiffer) (hwhole : t.All Tree.NotFraction) : t.toJson.Fits room := by
  cases t with
  | object members =>
    obtain ⟨hnodup, hkeys⟩ := Tree.all_object.mp hkeys
    rw [Tree.depth] at hdepth
    cases room with
    | zero => omega
    | succ room =>
      refine ⟨?_, toJsonMembers_fit members (by omega) hkeys (Tree.all_object.mp hwhole).2⟩
      rw [toJsonMembers_keys]
      exact hnodup
  | array items =>
    rw [Tree.depth] at hdepth
    cases room with
    | zero => omega
    | succ room =>
      exact toJsonItems_fit items (by omega) (Tree.all_array.mp hkeys).2
        (Tree.all_array.mp hwhole).2
  | integer n => exact isInteger_ofInt64 n
  | fraction x => exact hwhole.elim
  | _ => trivial
theorem toJsonItems_fit (items : List Tree) {room : Nat} (hdepth : itemsDepth items ≤ room)
    (hkeys : allItems Tree.KeysDiffer items) (hwhole : allItems Tree.NotFraction items) :
    Json.itemsFit room (toJsonItems items) := by
  cases items with
  | nil => trivial
  | cons t rest =>
    rw [itemsDepth] at hdepth
    exact ⟨t.toJson_fits (by omega) hkeys.1 hwhole.1,
      toJsonItems_fit rest (by omega) hkeys.2 hwhole.2⟩
theorem toJsonMembers_fit (members : List (String × Tree)) {room : Nat}
    (hdepth : membersDepth members ≤ room) (hkeys : allMembers Tree.KeysDiffer members)
    (hwhole : allMembers Tree.NotFraction members) :
    Json.membersFit room (toJsonMembers members) := by
  cases members with
  | nil => trivial
  | cons member rest =>
    obtain ⟨k, t⟩ := member
    rw [membersDepth] at hdepth
    exact ⟨t.toJson_fits (by omega) hkeys.1 hwhole.1,
      toJsonMembers_fit rest (by omega) hkeys.2 hwhole.2⟩
end

def Tree.IsContainer : Tree → Prop
  | .object _ => True
  | .array _ => True
  | _ => False

theorem Tree.render_container {t : Tree} (h : t.IsContainer) :
    t.render = some t.toJson.write := by
  cases t with
  | object members => rfl
  | array items => rfl
  | _ => exact h.elim

/-- The JSON of a tree is read as the tree without its rejected numbers, its members
in the order of the maps that they come into. It is also the text of a node that is a
container. -/
theorem parseText_toJson (t : Tree) (hdepth : t.depth ≤ 127) (hkeys : t.All Tree.KeysDiffer)
    (hwhole : t.All Tree.NotFraction) (ranking : Ranking) :
    parseText t.toJson.write ranking = .ok (t.scrub.arrange ranking) ∧
      (t.All Tree.NotRejected → parseText t.toJson.write ranking = .ok (t.arrange ranking)) ∧
      (t.IsContainer → t.render = some t.toJson.write) := by
  have hread : parseText t.toJson.write ranking = .ok (t.scrub.arrange ranking) := by
    rw [parseText, Json.parseText_write (t.toJson_fits hdepth hkeys hwhole), Tree.ofRead,
      Tree.ofJson, t.written_toJson hwhole]
  refine ⟨hread, fun hnumbers => ?_, Tree.render_container⟩
  rw [hread, t.scrub_eq hnumbers]

def writtenTree : Tree :=
  .object [
    ("\"\\", .array [.integer Int64.minValue, .rejected "1e999", .array []]),
    ("\x00😀", .string "\n\x1f/"),
    ("", .object [("é", .null), ("\"", .bool true)])]

theorem parseText_toJson_written :
    writtenTree.depth ≤ 127 ∧ writtenTree.All Tree.KeysDiffer ∧
      writtenTree.All Tree.NotFraction ∧
      parseText writtenTree.toJson.write = .ok writtenTree.scrub ∧
      writtenTree.render = some writtenTree.toJson.write := by
  have hdepth : writtenTree.depth ≤ 127 := by decide
  have hkeys : writtenTree.All Tree.KeysDiffer := by
    simp [writtenTree, Tree.All, allMembers, allItems, Tree.KeysDiffer]
  have hwhole : writtenTree.All Tree.NotFraction := by
    simp [writtenTree, Tree.All, allMembers, allItems, Tree.NotFraction]
  obtain ⟨hread, -, hrender⟩ := parseText_toJson writtenTree hdepth hkeys hwhole .level
  rw [Tree.arrange_level] at hread
  exact ⟨hdepth, hkeys, hwhole, hread, hrender trivial⟩

end Telemetry.Payload
