import Telemetry.Proofs.Entries
import Telemetry.Proofs.Payload.Nodes

/-!
# Trees whose maps list their members in another order

To rank the keys of a tree's maps changes the order of members and nothing
else: a pointer leads to the node that it led to, arranged itself
(`Tree.pointer_arrange`), and what is true of every node whatever the order is
still true of every node (`Tree.All.arrange`). A tree none of whose maps has
two members has one order only (`Tree.arrange_few`).
-/

namespace Telemetry.Payload

-- ---------------------------------------------------------------------------
-- Members and items
-- ---------------------------------------------------------------------------

theorem arrangeMembers_eq (ranking : Ranking) (members : List (String × Tree)) :
    arrangeMembers ranking members =
      members.map fun member => (member.1, member.2.arrange (ranking.below member.1)) := by
  induction members with
  | nil => rfl
  | cons member rest ih =>
    obtain ⟨k, t⟩ := member
    rw [arrangeMembers, ih, List.map_cons]

theorem writtenMembers_eq (members : List (String × Json.Value)) :
    writtenMembers members = members.map (Prod.map id Tree.written) := by
  induction members with
  | nil => rfl
  | cons member rest ih =>
    obtain ⟨k, v⟩ := member
    rw [writtenMembers, ih]
    rfl

theorem keys_arrangeMembers (ranking : Ranking) (members : List (String × Tree)) :
    (arrangeMembers ranking members).map (·.1) = members.map (·.1) := by
  rw [arrangeMembers_eq, List.map_map]
  rfl

theorem get?_arrangeMembers (ranking : Ranking) (members : List (String × Tree)) (key : String) :
    Entries.get? (arrangeMembers ranking members) key =
      (Entries.get? members key).map (·.arrange (ranking.below key)) := by
  induction members with
  | nil => rfl
  | cons member rest ih =>
    obtain ⟨k, t⟩ := member
    simp only [arrangeMembers, Entries.get?]
    split
    · rename_i hk
      rw [hk, Option.map_some]
    · exact ih

theorem getElem?_arrangeItems (ranking : Ranking) (first : Nat) (items : List Tree) (i : Nat) :
    (arrangeItems ranking first items)[i]? =
      items[i]?.map (·.arrange (ranking.below (toString (first + i)))) := by
  induction items generalizing first i with
  | nil => rfl
  | cons t rest ih =>
    rw [arrangeItems]
    cases i with
    | zero => rfl
    | succ i => rw [List.getElem?_cons_succ, List.getElem?_cons_succ, ih, Nat.add_right_comm]; rfl

-- ---------------------------------------------------------------------------
-- One order
-- ---------------------------------------------------------------------------

mutual
theorem Tree.arrange_level (t : Tree) : t.arrange .level = t := by
  cases t with
  | object members =>
    rw [Tree.arrange, arrangeMembers_level members]
    exact congrArg _ (Entries.byRank_level members)
  | array items => rw [Tree.arrange, arrangeItems_level 0 items]
  | _ => rfl
theorem arrangeItems_level (first : Nat) (items : List Tree) :
    arrangeItems .level first items = items := by
  cases items with
  | nil => rfl
  | cons t rest =>
    rw [arrangeItems, arrangeItems_level (first + 1) rest]
    exact congrArg (· :: rest) t.arrange_level
theorem arrangeMembers_level (members : List (String × Tree)) :
    arrangeMembers .level members = members := by
  cases members with
  | nil => rfl
  | cons member rest =>
    obtain ⟨k, t⟩ := member
    rw [arrangeMembers, arrangeMembers_level rest]
    exact congrArg (fun u => (k, u) :: rest) t.arrange_level
end

theorem Tree.ofNumber_cases (n : Json.Number) :
    (∃ i, Tree.ofNumber n = .integer i) ∨ (∃ x, Tree.ofNumber n = .fraction x) ∨
      ∃ literal, Tree.ofNumber n = .rejected literal := by
  unfold Tree.ofNumber
  cases n with
  | float x =>
    dsimp only
    split
    · exact .inr (.inl ⟨_, rfl⟩)
    · exact .inr (.inr ⟨_, rfl⟩)
  | unsigned n =>
    cases (Json.Number.unsigned n).toInt64? with
    | some i => exact .inl ⟨_, rfl⟩
    | none => exact .inr (.inr ⟨_, rfl⟩)
  | negative n below => exact .inl ⟨_, rfl⟩

theorem Tree.ofNumber_arrange (n : Json.Number) (ranking : Ranking) :
    (Tree.ofNumber n).arrange ranking = Tree.ofNumber n := by
  rcases Tree.ofNumber_cases n with ⟨i, h⟩ | ⟨x, h⟩ | ⟨literal, h⟩ <;> rw [h] <;> rfl

/-- A map lists one member in one way. -/
def Tree.FewMembers : Tree → Prop
  | .object members => members.length ≤ 1
  | _ => True

theorem byRank_few {members : List (String × Tree)} (few : members.length ≤ 1)
    (rank : String → Nat) : Entries.byRank rank members = members := by
  match members, few with
  | [], _ => rfl
  | [member], _ => rfl

mutual
theorem Tree.arrange_few (t : Tree) (few : t.All Tree.FewMembers) (ranking : Ranking) :
    t.arrange ranking = t := by
  cases t with
  | object members =>
    obtain ⟨hself, hmembers⟩ := Tree.all_object.mp few
    rw [Tree.arrange, arrangeMembers_few members hmembers, byRank_few hself]
  | array items => rw [Tree.arrange, arrangeItems_few items (Tree.all_array.mp few).2]
  | _ => rfl
theorem arrangeItems_few (items : List Tree) (few : allItems Tree.FewMembers items)
    (ranking : Ranking) (first : Nat) : arrangeItems ranking first items = items := by
  cases items with
  | nil => rfl
  | cons t rest => rw [arrangeItems, t.arrange_few few.1, arrangeItems_few rest few.2]
theorem arrangeMembers_few (members : List (String × Tree))
    (few : allMembers Tree.FewMembers members) (ranking : Ranking) :
    arrangeMembers ranking members = members := by
  cases members with
  | nil => rfl
  | cons member rest =>
    obtain ⟨k, t⟩ := member
    rw [arrangeMembers, t.arrange_few few.1, arrangeMembers_few rest few.2]
end

-- ---------------------------------------------------------------------------
-- Every node
-- ---------------------------------------------------------------------------

section
variable {p : Tree → Prop}

theorem allMembers_iff {members : List (String × Tree)} :
    allMembers p members ↔ ∀ member ∈ members, member.2.All p := by
  induction members with
  | nil => simp [allMembers]
  | cons member rest ih => simp [allMembers, ih]

theorem allMembers.byRank {members : List (String × Tree)} (h : allMembers p members)
    (rank : String → Nat) : allMembers p (Entries.byRank rank members) := by
  rw [allMembers_iff] at h ⊢
  exact fun member hm => h member ((Entries.byRank_perm rank members).mem_iff.mp hm)

mutual
theorem Tree.All.arrange (keeps : ∀ ranking t, p t → p (t.arrange ranking)) (t : Tree)
    (h : t.All p) (ranking : Ranking) : (t.arrange ranking).All p := by
  cases t with
  | object members =>
    obtain ⟨hself, hmembers⟩ := Tree.all_object.mp h
    have hmap := keeps ranking _ hself
    rw [Tree.arrange] at hmap ⊢
    exact Tree.all_object.mpr ⟨hmap, (allMembers.arrange keeps members hmembers ranking).byRank _⟩
  | array items =>
    obtain ⟨hself, hitems⟩ := Tree.all_array.mp h
    have hlist := keeps ranking _ hself
    rw [Tree.arrange] at hlist ⊢
    exact Tree.all_array.mpr ⟨hlist, allItems.arrange keeps items hitems ranking 0⟩
  | _ => exact keeps ranking _ h
theorem allItems.arrange (keeps : ∀ ranking t, p t → p (t.arrange ranking)) (items : List Tree)
    (h : allItems p items) (ranking : Ranking) (first : Nat) :
    allItems p (arrangeItems ranking first items) := by
  cases items with
  | nil => trivial
  | cons t rest =>
    exact ⟨Tree.All.arrange keeps t h.1 _, allItems.arrange keeps rest h.2 ranking (first + 1)⟩
theorem allMembers.arrange (keeps : ∀ ranking t, p t → p (t.arrange ranking))
    (members : List (String × Tree)) (h : allMembers p members) (ranking : Ranking) :
    allMembers p (arrangeMembers ranking members) := by
  cases members with
  | nil => trivial
  | cons member rest =>
    obtain ⟨k, t⟩ := member
    exact ⟨Tree.All.arrange keeps t h.1 _, allMembers.arrange keeps rest h.2 ranking⟩
end

end

def Tree.KeysDiffer : Tree → Prop
  | .object members => (members.map (·.1)).Nodup
  | _ => True

theorem nodup_arrange {members : List (String × Tree)} (ranking : Ranking) (rank : String → Nat) :
    ((Entries.byRank rank (arrangeMembers ranking members)).map (·.1)).Nodup ↔
      (members.map (·.1)).Nodup := by
  rw [((Entries.byRank_perm rank _).map _).nodup_iff, keys_arrangeMembers]

theorem Tree.KeysDiffer.arrange {t : Tree} (h : t.KeysDiffer) (ranking : Ranking) :
    (t.arrange ranking).KeysDiffer := by
  cases t with
  | object members =>
    rw [Tree.arrange]
    exact (nodup_arrange ranking _).mpr h
  | array items =>
    rw [Tree.arrange]
    trivial
  | _ => trivial

-- ---------------------------------------------------------------------------
-- Pointers
-- ---------------------------------------------------------------------------

theorem Tree.child?_arrange {t : Tree} (h : t.KeysDiffer) (ranking : Ranking) (segment : String) :
    ∃ inner : Ranking, (t.arrange ranking).child? segment =
      (t.child? segment).map (·.arrange inner) := by
  cases t with
  | object members =>
    refine ⟨ranking.below segment, ?_⟩
    rw [Tree.arrange, Tree.child?, Tree.child?, ← get?_arrangeMembers]
    exact Entries.get?_perm (Entries.byRank_perm _ _) ((nodup_arrange ranking _).mpr h) segment
  | array items =>
    cases hi : Text.uint64? segment with
    | none => exact ⟨ranking, by simp [Tree.arrange, Tree.child?, hi]⟩
    | some i =>
      refine ⟨ranking.below (toString (0 + i.toNat)), ?_⟩
      simp only [Tree.arrange, Tree.child?, hi, Option.bind_some, getElem?_arrangeItems]
  | _ => exact ⟨ranking, rfl⟩

theorem Tree.descend_arrange {t : Tree} (h : t.All Tree.KeysDiffer) (ranking : Ranking)
    (segments : List String) :
    ∃ inner : Ranking, (t.arrange ranking).descend segments =
      (t.descend segments).map (·.arrange inner) := by
  induction segments generalizing t ranking with
  | nil => exact ⟨ranking, rfl⟩
  | cons segment rest ih =>
    obtain ⟨inner, hchild⟩ := Tree.child?_arrange h.self ranking segment
    rw [Tree.descend, Tree.descend, hchild]
    cases hc : t.child? segment with
    | none => exact ⟨ranking, rfl⟩
    | some child => exact ih (h.child? hc) inner

/-- A pointer leads to the node that it leads to in the other order, arranged
itself. -/
theorem Tree.pointer_arrange {t : Tree} (h : t.All Tree.KeysDiffer) (ranking : Ranking)
    (path : String) :
    ∃ inner : Ranking, (t.arrange ranking).pointer path =
      (t.pointer path).map (·.arrange inner) :=
  Tree.descend_arrange h ranking _

-- ---------------------------------------------------------------------------
-- Bodies
-- ---------------------------------------------------------------------------

theorem Tree.ofRead_eq (ranking : Ranking) (read : Except Json.ReadError Json.Value) :
    Tree.ofRead ranking read = (Tree.ofRead .level read).map (·.arrange ranking) := by
  cases read with
  | ok v =>
    rw [Tree.ofRead, Tree.ofRead, Except.map, Tree.ofJson, Tree.ofJson, Tree.arrange_level]
  | error e => rfl

theorem parse_eq (bytes : List UInt8) (ranking : Ranking) :
    parse bytes ranking = (parse bytes).map (·.arrange ranking) :=
  Tree.ofRead_eq ranking _

theorem parse_of_level {bytes : List UInt8} {t : Tree} (h : parse bytes = .ok t)
    (ranking : Ranking) : parse bytes ranking = .ok (t.arrange ranking) := by
  rw [parse_eq, h]
  rfl

theorem parse_error_of_level {bytes : List UInt8} (h : ∀ t, parse bytes ≠ .ok t)
    (ranking : Ranking) : ∃ error, parse bytes ranking = .error error := by
  rw [parse_eq]
  cases hparse : parse bytes with
  | error error => exact ⟨error, rfl⟩
  | ok t => exact absurd hparse (h t)

end Telemetry.Payload
