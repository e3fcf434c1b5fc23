import Telemetry.Payload.Pointer
import Telemetry.Proofs.Payload.CountTexts

/-!
# Pointers as routes

Only the parts of a pointer count, the texts between its slashes that are not
empty (`segments_eq_parts`). A route goes from a tree to one of its nodes by
keys and indices. The pointer that has the steps of a route as its parts leads
to the same node (`Route.pointer`), and a pointer that leads anywhere leads to
the end of a route (`exists_route`).
-/

namespace Telemetry.Payload

-- ---------------------------------------------------------------------------
-- Parts of a path
-- ---------------------------------------------------------------------------

def nonEmptyTexts (pieces : List (List Char)) : List String :=
  (pieces.filter fun cs => !cs.isEmpty).map String.ofList

/-- The texts between the slashes of a path that are not empty. -/
def parts (path : String) : List String :=
  nonEmptyTexts (path.toList.splitOn '/')

theorem nonEmptyTexts_append (first second : List (List Char)) :
    nonEmptyTexts (first ++ second) = nonEmptyTexts first ++ nonEmptyTexts second := by
  simp [nonEmptyTexts]

theorem piece_eq (cs : List Char) : piece cs = nonEmptyTexts [cs.reverse] := by
  cases cs with
  | nil => rfl
  | cons c cs => simp [piece, nonEmptyTexts]

theorem segmentsFrom_eq (cs rest : List Char) :
    segmentsFrom cs rest = nonEmptyTexts (rest.splitOnPPrepend (· == '/') cs) := by
  induction rest generalizing cs with
  | nil => exact piece_eq cs
  | cons c rest ih =>
    simp only [segmentsFrom, List.splitOnPPrepend_cons_eq_if, beq_iff_eq, ih, piece_eq,
      List.splitOnPPrepend_nil_right]
    split
    · exact (nonEmptyTexts_append [cs.reverse] _).symm
    · rfl

theorem segments_eq_parts (path : String) : segments path = parts path := by
  rw [segments, segmentsFrom_eq, List.splitOnPPrepend_nil_right, ← List.splitOn_eq_splitOnP, parts]

theorem parts_append (p q : String) : parts (p ++ "/" ++ q) = parts p ++ parts q := by
  have hsplit : (p ++ "/" ++ q).toList.splitOn '/' =
      p.toList.splitOn '/' ++ q.toList.splitOn '/' := by
    simpa using List.splitOn_append_cons_self (a := '/') p.toList q.toList
  rw [parts, hsplit, nonEmptyTexts_append]
  rfl

theorem parts_slash (p : String) : parts (p ++ "/") = parts p := by
  have happend := parts_append p ""
  rw [String.append_empty] at happend
  exact happend.trans (List.append_nil _)

def IsPart (s : String) : Prop :=
  s ≠ "" ∧ '/' ∉ s.toList

theorem isPart_toString (i : Nat) : IsPart (toString i) := by
  refine ⟨?_, ?_⟩
  · intro h
    have hdigits := congrArg String.toList h
    rw [Json.toList_toString_nat] at hdigits
    exact Nat.toDigits_ne_nil hdigits
  · intro h
    rw [Json.toList_toString_nat] at h
    exact absurd (Nat.isDigit_of_mem_toDigits (by decide) (by decide) h) (by decide)

theorem not_mem_of_mem_splitOn {c : Char} {cs piece : List Char} (h : piece ∈ cs.splitOn c) :
    c ∉ piece := by
  induction cs generalizing piece with
  | nil =>
    obtain rfl := List.mem_singleton.mp h
    exact List.not_mem_nil
  | cons head rest ih =>
    rw [List.splitOn_cons_eq_if_modifyHead] at h
    split at h
    · rcases List.mem_cons.mp h with rfl | h
      · exact List.not_mem_nil
      · exact ih h
    · rename_i hhead
      -- The character goes to the front of the first piece.
      obtain ⟨first, others, hsplit⟩ := List.exists_cons_of_ne_nil (List.splitOn_ne_nil c rest)
      rw [hsplit] at h ih
      rcases List.mem_cons.mp h with rfl | h
      · intro hc
        rcases List.mem_cons.mp hc with rfl | hc
        · exact hhead (beq_self_eq_true c)
        · exact ih List.mem_cons_self hc
      · exact ih (List.mem_cons_of_mem _ h)

theorem isPart_of_mem {path s : String} (h : s ∈ parts path) : IsPart s := by
  obtain ⟨cs, hcs, rfl⟩ := List.mem_map.mp h
  obtain ⟨hsplit, hne⟩ := List.mem_filter.mp hcs
  refine ⟨?_, ?_⟩
  · intro hempty
    simp [String.ofList_eq_empty_iff.mp hempty] at hne
  · rw [String.toList_ofList]
    exact not_mem_of_mem_splitOn hsplit

theorem parts_intercalate {names : List String} (h : ∀ name ∈ names, IsPart name) :
    parts ("/".intercalate names) = names := by
  cases names with
  | nil => rfl
  | cons name names =>
    have hflat : ∀ cs ∈ (name :: names).map String.toList, '/' ∉ cs := by
      intro cs hcs
      obtain ⟨s, hs, rfl⟩ := List.mem_map.mp hcs
      exact (h s hs).2
    have hsplit : ("/".intercalate (name :: names)).toList.splitOn '/' =
        (name :: names).map String.toList := by
      rw [String.toList_intercalate]
      exact List.splitOn_intercalate '/' hflat (by simp)
    have hkept : ∀ cs ∈ (name :: names).map String.toList, (!cs.isEmpty) = true := by
      intro cs hcs
      obtain ⟨s, hs, rfl⟩ := List.mem_map.mp hcs
      simpa using (h s hs).1
    rw [parts, hsplit, nonEmptyTexts, List.filter_eq_self.mpr hkept, List.map_map]
    exact (List.map_congr_left fun s _ => String.ofList_toList).trans (List.map_id _)

-- ---------------------------------------------------------------------------
-- Routes
-- ---------------------------------------------------------------------------

inductive Step where
  | key (name : String)
  | index (i : Nat)
  deriving DecidableEq, Repr

def Step.text : Step → String
  | .key name => name
  | .index i => toString i

/-- The steps lead from the tree to the node. A key that is a step has
something in it and no slash; an index fits 64 bits, as every index of an array
in memory does. -/
inductive Route : Tree → List Step → Tree → Prop
  | here {t : Tree} : Route t [] t
  | member {members : List (String × Tree)} {name : String} {child node : Tree} {rest : List Step}
    (nonempty : name ≠ "") (flat : '/' ∉ name.toList)
    (there : Entries.get? members name = some child) (later : Route child rest node) :
    Route (.object members) (.key name :: rest) node
  | item {items : List Tree} {i : Nat} {child node : Tree} {rest : List Step}
    (small : i < 2 ^ 64) (there : items[i]? = some child) (later : Route child rest node) :
    Route (.array items) (.index i :: rest) node

variable {t node : Tree} {route : List Step}

theorem Route.isPart (h : Route t route node) : ∀ name ∈ route.map Step.text, IsPart name := by
  induction h with
  | here => exact fun _ hname => nomatch hname
  | member nonempty flat _ _ ih =>
    intro name hname
    rcases List.mem_cons.mp hname with rfl | hname
    · exact ⟨nonempty, flat⟩
    · exact ih name hname
  | item _ _ _ ih =>
    intro name hname
    rcases List.mem_cons.mp hname with rfl | hname
    · exact isPart_toString _
    · exact ih name hname

theorem Route.descend (h : Route t route node) :
    t.descend (route.map Step.text) = some node := by
  induction h with
  | here => rfl
  | member _ _ there _ ih =>
    simp only [List.map_cons, Tree.descend, Tree.child?, Step.text, there, Option.bind_some, ih]
  | @item items i child node rest small there later ih =>
    have hindex : (UInt64.ofNat i).toNat = i := UInt64.toNat_ofNat_of_lt' small
    simp only [List.map_cons, Tree.descend, Tree.child?, Step.text, uint64?_toString small, hindex,
      there, Option.bind_some, ih]

theorem exists_route {segments : List String} (h : t.descend segments = some node)
    (named : ∀ segment ∈ segments, IsPart segment) : ∃ route, Route t route node := by
  induction segments generalizing t with
  | nil =>
    cases h
    exact ⟨[], .here⟩
  | cons segment rest ih =>
    obtain ⟨child, hchild, hrest⟩ := Option.bind_eq_some_iff.mp h
    obtain ⟨route, hroute⟩ :=
      ih hrest fun other hother => named other (List.mem_cons_of_mem _ hother)
    cases t with
    | object members =>
      obtain ⟨nonempty, flat⟩ := named segment List.mem_cons_self
      exact ⟨.key segment :: route, .member nonempty flat hchild hroute⟩
    | array items =>
      obtain ⟨index, -, there⟩ := Option.bind_eq_some_iff.mp hchild
      exact ⟨.index index.toNat :: route, .item index.toNat_lt there hroute⟩
    | _ => cases hchild

-- ---------------------------------------------------------------------------
-- Pointers
-- ---------------------------------------------------------------------------

theorem Tree.pointer_append (t : Tree) (p q : String) :
    t.pointer (p ++ "/" ++ q) = (t.pointer p).bind fun node => node.pointer q := by
  simp only [Tree.pointer, segments_eq_parts, parts_append, Tree.descend_append]

theorem Tree.pointer_congr (t : Tree) {p q : String} (h : parts p = parts q) :
    t.pointer p = t.pointer q := by
  simp only [Tree.pointer, segments_eq_parts, h]

theorem Route.pointer (h : Route t route node) :
    t.pointer ("/".intercalate (route.map Step.text)) = some node := by
  rw [Tree.pointer, segments_eq_parts, parts_intercalate h.isPart]
  exact h.descend

/-- Two pointers after each other lead where the second leads from where the
first does. A pointer counts by its parts, whatever slashes are before, after
and between them. The steps of a route with slashes between them lead to its
end, and no pointer leads anywhere else. -/
theorem Tree.pointer_routes (t : Tree) :
    (∀ p q, t.pointer (p ++ "/" ++ q) = (t.pointer p).bind fun node => node.pointer q) ∧
    (∀ p q, parts p = parts q → t.pointer p = t.pointer q) ∧
    (∀ p, t.pointer ("/" ++ p) = t.pointer p ∧ t.pointer (p ++ "/") = t.pointer p) ∧
    (∀ p q, t.pointer (p ++ "//" ++ q) = t.pointer (p ++ "/" ++ q)) ∧
    (∀ route node, Route t route node →
      t.pointer ("/".intercalate (route.map Step.text)) = some node) ∧
    ∀ node, (∃ path, t.pointer path = some node) ↔ ∃ route, Route t route node := by
  refine ⟨t.pointer_append, fun p q => t.pointer_congr, ?_, ?_, fun _ _ h => h.pointer, ?_⟩
  · intro p
    exact ⟨t.pointer_congr (parts_append "" p), t.pointer_congr (parts_slash p)⟩
  · intro p q
    apply t.pointer_congr
    have hslashes : "//" = "/" ++ "/" := by decide
    rw [hslashes, ← String.append_assoc, parts_append, parts_slash, parts_append]
  · intro node
    constructor
    · rintro ⟨path, h⟩
      rw [Tree.pointer, segments_eq_parts] at h
      exact exists_route h fun _ => isPart_of_mem
    · rintro ⟨route, h⟩
      exact ⟨_, h.pointer⟩

end Telemetry.Payload
