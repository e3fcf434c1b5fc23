import Telemetry.Payload.Pointer

/-!
# The nodes of a tree

`Tree.All` is a property of every node of a tree. It then holds of every node
that a pointer leads to (`Tree.All.pointer`).
-/

namespace Telemetry.Payload

mutual
def Tree.All (p : Tree → Prop) : Tree → Prop
  | .object members => p (.object members) ∧ allMembers p members
  | .array items => p (.array items) ∧ allItems p items
  | t => p t
def allItems (p : Tree → Prop) : List Tree → Prop
  | [] => True
  | t :: rest => t.All p ∧ allItems p rest
def allMembers (p : Tree → Prop) : List (String × Tree) → Prop
  | [] => True
  | (_, t) :: rest => t.All p ∧ allMembers p rest
end

mutual
/-- The number of containers in each other; an empty one counts. -/
def Tree.depth : Tree → Nat
  | .object members => membersDepth members + 1
  | .array items => itemsDepth items + 1
  | _ => 0
def itemsDepth : List Tree → Nat
  | [] => 0
  | t :: rest => max t.depth (itemsDepth rest)
def membersDepth : List (String × Tree) → Nat
  | [] => 0
  | (_, t) :: rest => max t.depth (membersDepth rest)
end

variable {p : Tree → Prop}

theorem Tree.all_object {members : List (String × Tree)} :
    (Tree.object members).All p ↔ p (.object members) ∧ allMembers p members := by
  rw [Tree.All]

theorem Tree.all_array {items : List Tree} :
    (Tree.array items).All p ↔ p (.array items) ∧ allItems p items := by
  rw [Tree.All]

theorem Tree.All.self {t : Tree} (h : t.All p) : p t := by
  cases t with
  | object members => exact (Tree.all_object.mp h).1
  | array items => exact (Tree.all_array.mp h).1
  | _ => exact h

section
variable {q : Tree → Prop}

mutual
theorem Tree.All.mono (implies : ∀ t, p t → q t) (t : Tree) (h : t.All p) : t.All q := by
  cases t with
  | object members =>
    obtain ⟨hself, hmembers⟩ := Tree.all_object.mp h
    exact Tree.all_object.mpr ⟨implies _ hself, allMembers.mono implies members hmembers⟩
  | array items =>
    obtain ⟨hself, hitems⟩ := Tree.all_array.mp h
    exact Tree.all_array.mpr ⟨implies _ hself, allItems.mono implies items hitems⟩
  | _ => exact implies _ h
theorem allItems.mono (implies : ∀ t, p t → q t) (items : List Tree) (h : allItems p items) :
    allItems q items := by
  cases items with
  | nil => trivial
  | cons t rest => exact ⟨Tree.All.mono implies t h.1, allItems.mono implies rest h.2⟩
theorem allMembers.mono (implies : ∀ t, p t → q t) (members : List (String × Tree))
    (h : allMembers p members) : allMembers q members := by
  cases members with
  | nil => trivial
  | cons member rest =>
    obtain ⟨k, t⟩ := member
    exact ⟨Tree.All.mono implies t h.1, allMembers.mono implies rest h.2⟩
end

end

theorem allItems.of_mem {items : List Tree} (h : allItems p items) {t : Tree} (ht : t ∈ items) :
    t.All p := by
  induction items with
  | nil => cases ht
  | cons head rest ih =>
    rcases List.mem_cons.mp ht with rfl | ht
    · exact h.1
    · exact ih h.2 ht

theorem allMembers.get? {members : List (String × Tree)} (h : allMembers p members) {key : String}
    {t : Tree} (ht : Entries.get? members key = some t) : t.All p := by
  induction members with
  | nil => cases ht
  | cons head rest ih =>
    obtain ⟨k, u⟩ := head
    simp only [Entries.get?] at ht
    split at ht
    · cases ht
      exact h.1
    · exact ih h.2 ht

theorem Tree.All.child? {t : Tree} (h : t.All p) {segment : String} {node : Tree}
    (hn : t.child? segment = some node) : node.All p := by
  cases t with
  | object members => exact (Tree.all_object.mp h).2.get? hn
  | array items =>
    obtain ⟨i, -, hi⟩ := Option.bind_eq_some_iff.mp hn
    exact (Tree.all_array.mp h).2.of_mem (List.mem_of_getElem? hi)
  | _ => cases hn

theorem Tree.All.descend {t : Tree} (h : t.All p) {segments : List String} {node : Tree}
    (hn : t.descend segments = some node) : node.All p := by
  induction segments generalizing t with
  | nil =>
    cases hn
    exact h
  | cons segment rest ih =>
    obtain ⟨child, hc, hrest⟩ := Option.bind_eq_some_iff.mp hn
    exact ih (h.child? hc) hrest

theorem Tree.All.pointer {t : Tree} (h : t.All p) {path : String} {node : Tree}
    (hn : t.pointer path = some node) : node.All p :=
  h.descend hn

end Telemetry.Payload
