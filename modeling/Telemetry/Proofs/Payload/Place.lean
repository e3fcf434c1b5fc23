import Telemetry.Proofs.Json.Surroundings
import Telemetry.Proofs.Payload.Arrangement
import Telemetry.Proofs.Payload.CountTexts

/-!
# Where a value of a document stands in its tree

A hole in a document is a place in the tree, worked out from what stands around
the hole (`Template.place?`): the tree of the filled document is the same
everywhere else, whatever fills the hole (`parse_fill`). Under a key that comes
again later in its object there is no such place.
-/

namespace Telemetry.Payload

open Json (Document Spelling Surroundings Template Value)

/-- A tree with a place for another, or with none. -/
inductive Place where
  | here
  | gone (whole : Tree)
  | item (before : List Tree) (inner : Place) (after : List Tree)
  /-- Under a key that is one of the members already. -/
  | member (members : List (String × Tree)) (key : String) (inner : Place)

def Place.fill (t : Tree) : Place → Tree
  | .here => t
  | .gone whole => whole
  | .item before inner after => .array (before ++ inner.fill t :: after)
  | .member members key inner => .object (Entries.put members key (inner.fill t))

/-- The segments that lead to the place. An index fits 64 bits. -/
def Place.path? : Place → Option (List String)
  | .here => some []
  | .gone _ => none
  | .item before inner _ =>
    if before.length < 2 ^ 64 then inner.path?.map (toString before.length :: ·) else none
  | .member _ key inner => inner.path?.map (key :: ·)

def Place.among (first : List (String × Value)) (key : String) (second : List (String × Value))
    (inner : Place) : Place :=
  let members := writtenMembers (Entries.ofList (first ++ (key, .null) :: second))
  if key ∈ second.map (·.1) then .gone (.object members) else .member members key inner

end Telemetry.Payload

namespace Telemetry.Json

open Payload (Place writtenItems)

/-- The place of the hole, with room for `room` containers. There is none if what
stands around the hole denotes nothing. -/
def Surroundings.place? : Nat → Surroundings → Option Place
  | _, .hole => some .here
  | room + 1, .array _ before _ inner _ after =>
    (items? room before).bind fun xs => (items? room after).bind fun ys =>
      (inner.place? room).map (.item (writtenItems xs) · (writtenItems ys))
  | room + 1, .object _ before _ key _ _ inner _ after =>
    (members? room before).bind fun ps => (string? key).bind fun k =>
      (members? room after).bind fun qs => (inner.place? room).map (.among ps k qs)
  | 0, _ => none

def Template.place? (template : Template) : Option Place :=
  template.surroundings.place? maxOpen

end Telemetry.Json

namespace Telemetry.Payload

open Json (Document Spelling Surroundings Template Value)

-- ---------------------------------------------------------------------------
-- Values
-- ---------------------------------------------------------------------------

theorem writtenItems_append (first second : List Value) :
    writtenItems (first ++ second) = writtenItems first ++ writtenItems second := by
  induction first with
  | nil => rfl
  | cons v first ih => simp [writtenItems, ih]

theorem writtenMembers_append (first second : List (String × Value)) :
    writtenMembers (first ++ second) = writtenMembers first ++ writtenMembers second := by
  induction first with
  | nil => rfl
  | cons pair first ih =>
    obtain ⟨k, v⟩ := pair
    simp [writtenMembers, ih]

theorem writtenMembers_put (members : List (String × Value)) (k : String) (v : Value) :
    writtenMembers (Entries.put members k v) =
      Entries.put (writtenMembers members) k (Tree.written v) := by
  induction members with
  | nil => rfl
  | cons member rest ih =>
    obtain ⟨l, w⟩ := member
    simp only [Entries.put, writtenMembers]
    split
    · rfl
    · rw [writtenMembers, ih]

theorem fill_among (first second : List (String × Value)) (key : String) (inner : Place)
    {v : Value} {t : Tree} (h : Tree.written v = inner.fill t) :
    Tree.written (.object (Entries.ofList (first ++ (key, v) :: second))) =
      (Place.among first key second inner).fill t := by
  unfold Place.among
  dsimp only
  split
  · rename_i again
    rw [Place.fill, Tree.written, Entries.ofList_again first second again v .null]
  · rename_i last
    rw [Place.fill, Tree.written, Entries.ofList_last first second last v .null,
      writtenMembers_put, h]

-- ---------------------------------------------------------------------------
-- Surroundings
-- ---------------------------------------------------------------------------

def tree? (room : Nat) (s : Spelling) : Option Tree :=
  (s.value? room).map Tree.written

/-- What takes the tree of a value to the tree of another takes its place to a place
in that. -/
theorem tree?_outward {value? : Option Value} {place? : Option Place} {t? : Option Tree}
    (h : value?.map Tree.written = place?.bind fun place => t?.map fun t => place.fill t)
    (build : Value → Value) {outward : Place → Place}
    (around : ∀ v place t, Tree.written v = Place.fill t place →
      Tree.written (build v) = (outward place).fill t) :
    (value?.map build).map Tree.written =
      (place?.map outward).bind fun place => t?.map fun t => place.fill t := by
  cases place? with
  | none =>
    rw [Option.bind_none, Option.map_eq_none_iff] at h
    rw [h]
    rfl
  | some place =>
    cases t? with
    | none =>
      rw [Option.bind_some, Option.map_none, Option.map_eq_none_iff] at h
      rw [h]
      rfl
    | some t =>
      obtain ⟨v, rfl, hv⟩ := Option.map_eq_some_iff.mp h
      exact congrArg some (around v place t hv)

theorem tree?_fill (c : Surroundings) (room : Nat) (s : Spelling) :
    tree? room (c.fill s) =
      (c.place? room).bind fun place => (tree? (room - c.depth) s).map fun t => place.fill t := by
  induction c generalizing room with
  | hole => simp [Surroundings.fill, Surroundings.depth, Surroundings.place?, Place.fill]
  | array gap before left inner right after ih =>
    cases room with
    | zero => rfl
    | succ room =>
      simp only [tree?, Surroundings.fill, Surroundings.place?, Surroundings.depth,
        Nat.add_sub_add_right, Spelling.value?, Json.items?_around] at ih ⊢
      cases Json.items? room before with
      | none => rfl
      | some xs =>
        cases Json.items? room after with
        | none => cases (inner.fill s).value? room <;> rfl
        | some ys =>
          simp only [Option.bind_some, Option.map_some]
          rw [← tree?_outward (ih room) fun v => .array (xs ++ v :: ys)]
          · cases (inner.fill s).value? room <;> rfl
          · intro v place t h
            simp [Tree.written, writtenItems_append, writtenItems, Place.fill, h]
  | object gap before left key beforeColon afterColon inner right after ih =>
    cases room with
    | zero => rfl
    | succ room =>
      simp only [tree?, Surroundings.fill, Surroundings.place?, Surroundings.depth,
        Nat.add_sub_add_right, Spelling.value?, Json.members?_around] at ih ⊢
      cases Json.members? room before with
      | none => rfl
      | some ps =>
        cases Json.string? key with
        | none => rfl
        | some k =>
          cases Json.members? room after with
          | none => cases (inner.fill s).value? room <;> rfl
          | some qs =>
            simp only [Option.bind_some, Option.map_some]
            rw [← tree?_outward (ih room) fun v => .object (Entries.ofList (ps ++ (k, v) :: qs))]
            · cases (inner.fill s).value? room <;> rfl
            · exact fun v place t h => fill_among ps qs k place h

-- ---------------------------------------------------------------------------
-- Keys
-- ---------------------------------------------------------------------------

theorem allMembers_ofList {p : Tree → Prop} {pairs : List (String × Value)}
    (h : allMembers p (writtenMembers pairs)) :
    allMembers p (writtenMembers (Entries.ofList pairs)) := by
  rw [allMembers_iff, writtenMembers_eq, List.forall_mem_map] at h ⊢
  exact fun pair hpair => h pair (Entries.mem_of_mem_ofList hpair)

theorem Tree.ofNumber_keysDiffer (n : Json.Number) : (Tree.ofNumber n).All Tree.KeysDiffer := by
  rcases Tree.ofNumber_cases n with ⟨i, h⟩ | ⟨x, h⟩ | ⟨literal, h⟩ <;> rw [h] <;> trivial

mutual
theorem keysDiffer_value? (s : Spelling) {room : Nat} {v : Value} (h : s.value? room = some v) :
    (Tree.written v).All Tree.KeysDiffer := by
  cases s with
  | null => cases h; trivial
  | bool b => cases h; trivial
  | number n =>
    obtain ⟨number, -, rfl⟩ := Option.map_eq_some_iff.mp h
    exact Tree.ofNumber_keysDiffer number
  | string pieces =>
    obtain ⟨text, -, rfl⟩ := Option.map_eq_some_iff.mp h
    trivial
  | array gap items =>
    cases room with
    | zero => cases h
    | succ room =>
      obtain ⟨xs, hxs, rfl⟩ := Option.map_eq_some_iff.mp h
      exact Tree.all_array.mpr ⟨trivial, keysDiffer_items? items hxs⟩
  | object gap members =>
    cases room with
    | zero => cases h
    | succ room =>
      obtain ⟨ps, hps, rfl⟩ := Option.map_eq_some_iff.mp h
      refine Tree.all_object.mpr ⟨?_, allMembers_ofList (keysDiffer_members? members hps)⟩
      rw [Tree.KeysDiffer, writtenMembers_eq, List.map_map]
      exact Entries.keys_nodup_ofList ps
theorem keysDiffer_items? (items : List Json.Item) {room : Nat} {xs : List Value}
    (h : Json.items? room items = some xs) : allItems Tree.KeysDiffer (writtenItems xs) := by
  cases items with
  | nil => cases h; trivial
  | cons item rest =>
    cases item with
    | mk before s after =>
      obtain ⟨x, hx, htail⟩ := Option.bind_eq_some_iff.mp h
      obtain ⟨xs, hxs, rfl⟩ := Option.map_eq_some_iff.mp htail
      exact ⟨keysDiffer_value? s hx, keysDiffer_items? rest hxs⟩
theorem keysDiffer_members? (members : List Json.Member) {room : Nat}
    {ps : List (String × Value)} (h : Json.members? room members = some ps) :
    allMembers Tree.KeysDiffer (writtenMembers ps) := by
  cases members with
  | nil => cases h; trivial
  | cons member rest =>
    cases member with
    | mk before key beforeColon afterColon s after =>
      obtain ⟨k, -, hmore⟩ := Option.bind_eq_some_iff.mp h
      obtain ⟨x, hx, htail⟩ := Option.bind_eq_some_iff.mp hmore
      obtain ⟨ps, hps, rfl⟩ := Option.map_eq_some_iff.mp htail
      exact ⟨keysDiffer_value? s hx, keysDiffer_members? rest hps⟩
end

theorem tree?_keysDiffer {room : Nat} {s : Spelling} {t : Tree} (h : tree? room s = some t) :
    t.All Tree.KeysDiffer := by
  obtain ⟨v, hv, rfl⟩ := Option.map_eq_some_iff.mp h
  exact keysDiffer_value? s hv

-- ---------------------------------------------------------------------------
-- The way to a place
-- ---------------------------------------------------------------------------

theorem Place.descend_path {place : Place} {path : List String} (h : place.path? = some path)
    (t : Tree) : (place.fill t).descend path = some t := by
  induction place generalizing path with
  | here =>
    cases h
    rfl
  | gone whole => cases h
  | item before inner after ih =>
    obtain ⟨hsmall, hpath⟩ := Option.ite_none_right_eq_some.mp h
    obtain ⟨rest, hrest, rfl⟩ := Option.map_eq_some_iff.mp hpath
    have hindex : (UInt64.ofNat before.length).toNat = before.length :=
      UInt64.toNat_ofNat_of_lt' hsmall
    simp only [Place.fill, Tree.descend, Tree.child?, uint64?_toString hsmall, Option.bind_some,
      hindex, List.getElem?_append_right (Nat.le_refl _), Nat.sub_self, List.getElem?_cons_zero,
      ih hrest]
  | member members key inner ih =>
    obtain ⟨rest, hrest, rfl⟩ := Option.map_eq_some_iff.mp h
    simp only [Place.fill, Tree.descend, Tree.child?, Entries.get?_put, if_true, Option.bind_some,
      ih hrest]

-- ---------------------------------------------------------------------------
-- Bodies
-- ---------------------------------------------------------------------------

theorem parse_document (d : Document) (ranking : Ranking) :
    (parse d.bytes ranking).toOption = (tree? Json.maxOpen d.value).map (·.arrange ranking) := by
  have hd := d.parse
  unfold parse tree?
  unfold Document.value? at hd
  rw [← hd]
  cases Json.parse d.bytes <;> rfl

/-- Whatever fills the hole of a template stands at the same place of the body's
tree. -/
theorem parse_fill (template : Template) (ranking : Ranking) (s : Spelling) :
    (parse (template.fill s).bytes ranking).toOption =
      template.place?.bind fun place =>
        (tree? (Json.maxOpen - template.surroundings.depth) s).map fun t =>
          (place.fill t).arrange ranking := by
  rw [parse_document]
  simp only [Template.fill, tree?_fill, Template.place?, Option.map_bind, Option.map_map,
    Function.comp_def]

theorem exists_fill {template : Template} {ranking : Ranking} {s : Spelling} {t : Tree}
    (h : parse (template.fill s).bytes ranking = .ok t) :
    ∃ place filler, template.place? = some place ∧
      tree? (Json.maxOpen - template.surroundings.depth) s = some filler ∧
      (place.fill filler).All Tree.KeysDiffer ∧ t = (place.fill filler).arrange ranking := by
  rw [← Json.toOption_eq_some_iff, parse_document] at h
  obtain ⟨whole, htree, rfl⟩ := Option.map_eq_some_iff.mp h
  have hkeys := tree?_keysDiffer htree
  rw [Template.fill, tree?_fill] at htree
  obtain ⟨place, hplace, hfill⟩ := Option.bind_eq_some_iff.mp htree
  obtain ⟨filler, hfiller, rfl⟩ := Option.map_eq_some_iff.mp hfill
  exact ⟨place, filler, hplace, hfiller, hkeys, rfl⟩

/-- The path of the place leads to what fills the hole, its own maps in some order. -/
theorem parse_fill_path {template : Template} {ranking : Ranking} {s : Spelling} {t : Tree}
    (h : parse (template.fill s).bytes ranking = .ok t) {place : Place}
    (hplace : template.place? = some place) {path : List String} (hpath : place.path? = some path) :
    ∃ inner : Ranking, t.descend path =
      (tree? (Json.maxOpen - template.surroundings.depth) s).map (·.arrange inner) := by
  obtain ⟨place', filler, hplace', hfiller, hkeys, rfl⟩ := exists_fill h
  obtain rfl : place = place' := Option.some.inj (hplace.symm.trans hplace')
  obtain ⟨inner, hinner⟩ := Tree.descend_arrange hkeys ranking path
  exact ⟨inner, by rw [hinner, Place.descend_path hpath, hfiller]⟩

end Telemetry.Payload
