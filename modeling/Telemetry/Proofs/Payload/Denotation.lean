import Telemetry.Proofs.Json.Grammar
import Telemetry.Proofs.Payload.Numbers

/-!
# Bodies and the trees that they denote

A body has a tree exactly if it is a document whose containers are at most 127
deep in each other, whose surrogates come in pairs and whose numbers do not
overflow, and the tree is the one that the document denotes, its members in the
order of their maps (`parse_eq_ok_iff`). `denoted?` works it out from the
spelling: items keep their order, and a key that comes more than once has its
last value.
-/

namespace Telemetry.Json

-- ---------------------------------------------------------------------------
-- Tokens
-- ---------------------------------------------------------------------------

inductive Paired : List Piece → Prop
  | nil : Paired []
  | plain {c : Char} {h : isPlain c} {rest : List Piece} (later : Paired rest) :
    Paired (.plain c h :: rest)
  | short {e : ShortEscape} {rest : List Piece} (later : Paired rest) : Paired (.short e :: rest)
  | unit {u : CodeUnit} {rest : List Piece} (whole : ¬ isLeading u.value ∧ ¬ isTrailing u.value)
    (later : Paired rest) : Paired (.unit u :: rest)
  | pair {u w : CodeUnit} {rest : List Piece} (leading : isLeading u.value)
    (trailing : isTrailing w.value) (later : Paired rest) : Paired (.unit u :: .unit w :: rest)

theorem not_leading_and_trailing {n : Nat} (hl : isLeading n = true) : ¬ isTrailing n = true := by
  simp only [isLeading, isTrailing, Bool.and_eq_true, decide_eq_true_eq] at hl ⊢
  omega

theorem Paired.isSome {pieces : List Piece} (h : Paired pieces) :
    (characters? pieces).isSome = true := by
  induction h with
  | nil => rfl
  | plain later ih => simpa [characters?] using ih
  | short later ih => simpa [characters?] using ih
  | unit whole later ih =>
    rw [characters?_unit whole.2 whole.1]
    simpa using ih
  | pair leading trailing later ih =>
    rw [characters?_pair (not_leading_and_trailing leading) leading, if_pos trailing]
    simpa using ih

theorem Paired.of_isSome {pieces : List Piece} (h : (characters? pieces).isSome = true) :
    Paired pieces := by
  induction pieces using characters?.induct with
  | case1 => exact .nil
  | case2 c hc rest ih => exact .plain (ih (by simpa [characters?] using h))
  | case3 e rest ih => exact .short (ih (by simpa [characters?] using h))
  | case4 u rest htrail =>
    rw [characters?_trail htrail] at h
    cases h
  | case5 u htrail hlead w rest hpair ih =>
    rw [characters?_pair htrail hlead, if_pos hpair] at h
    exact .pair hlead hpair (ih (by simpa using h))
  | case6 u htrail hlead w rest hpair =>
    rw [characters?_pair htrail hlead, if_neg hpair] at h
    cases h
  | case7 u rest htrail hlead hlone =>
    rw [characters?_lone htrail hlead hlone] at h
    cases h
  | case8 u rest htrail hlead ih =>
    rw [characters?_unit htrail hlead] at h
    exact .unit ⟨hlead, htrail⟩ (ih (by simpa using h))

theorem string?_isSome (pieces : List Piece) : (string? pieces).isSome = true ↔ Paired pieces := by
  rw [string?, Option.isSome_map]
  exact ⟨Paired.of_isSome, Paired.isSome⟩

/-- The strings and numbers of a document, keys with them. -/
inductive Token where
  | number (n : Numeral)
  | string (pieces : List Piece)

def Token.Sound : Token → Prop
  | .number n => ¬ n.Overflows
  | .string pieces => Paired pieces

mutual
def Spelling.tokens : Spelling → List Token
  | .number n => [.number n]
  | .string pieces => [.string pieces]
  | .array _ items => itemTokens items
  | .object _ members => memberTokens members
  | _ => []
def itemTokens : List Item → List Token
  | [] => []
  | .mk _ s _ :: rest => s.tokens ++ itemTokens rest
def memberTokens : List Member → List Token
  | [] => []
  | .mk _ key _ _ s _ :: rest => .string key :: s.tokens ++ memberTokens rest
end

mutual
def Spelling.depth : Spelling → Nat
  | .array _ items => itemsDepth items + 1
  | .object _ members => membersDepth members + 1
  | _ => 0
def itemsDepth : List Item → Nat
  | [] => 0
  | .mk _ s _ :: rest => max s.depth (itemsDepth rest)
def membersDepth : List Member → Nat
  | [] => 0
  | .mk _ _ _ _ s _ :: rest => max s.depth (membersDepth rest)
end

end Telemetry.Json

namespace Telemetry.Payload

open Json (Document Spelling Token Value)

-- ---------------------------------------------------------------------------
-- Denotations
-- ---------------------------------------------------------------------------

mutual
/-- The tree that a spelling denotes, however deep it is. It denotes none if a
token in it is not sound. -/
def denoted? : Spelling → Option Tree
  | .null => some .null
  | .bool b => some (.bool b)
  | .number n => numberNode? n
  | .string pieces => (Json.string? pieces).map .string
  | .array _ items => (denotedItems? items).map .array
  | .object _ members => (denotedMembers? members).map fun pairs =>
    .object (Entries.lastValues pairs)
def denotedItems? : List Json.Item → Option (List Tree)
  | [] => some []
  | .mk _ s _ :: rest => (denoted? s).bind fun t => (denotedItems? rest).map (t :: ·)
def denotedMembers? : List Json.Member → Option (List (String × Tree))
  | [] => some []
  | .mk _ key _ _ s _ :: rest =>
    (Json.string? key).bind fun k => (denoted? s).bind fun t =>
      (denotedMembers? rest).map ((k, t) :: ·)
end

theorem writtenMembers_ofList (pairs : List (String × Value)) :
    writtenMembers (Entries.ofList pairs) = Entries.lastValues (writtenMembers pairs) := by
  rw [← Entries.ofList_eq_lastValues]
  induction pairs using List.reverseRecOn with
  | nil => rfl
  | append_singleton pairs pair ih =>
    obtain ⟨k, v⟩ := pair
    rw [Entries.ofList_concat, writtenMembers_put, ih, writtenMembers_append]
    exact (Entries.ofList_concat _ k (Tree.written v)).symm

mutual
/-- With room for `room` containers a spelling that is not deeper gives what it
denotes. -/
theorem tree?_eq (s : Spelling) (room : Nat) :
    tree? room s = if s.depth ≤ room then denoted? s else none := by
  cases s with
  | null => rfl
  | bool b => rfl
  | number n => exact tree?_number room n
  | string pieces =>
    simp only [tree?, Spelling.value?, Option.map_map]
    rfl
  | array gap items =>
    cases room with
    | zero => rfl
    | succ room =>
      have hitems := items?_eq items room
      have hmap : tree? (room + 1) (.array gap items) =
          ((Json.items? room items).map writtenItems).map .array := by
        simp only [tree?, Spelling.value?, Option.map_map]
        rfl
      rw [hmap, hitems, Spelling.depth, denoted?]
      by_cases hdepth : Json.itemsDepth items ≤ room
      · rw [if_pos hdepth, if_pos (Nat.succ_le_succ hdepth)]
      · rw [if_neg hdepth, if_neg (fun h => hdepth (Nat.le_of_succ_le_succ h)), Option.map_none]
  | object gap members =>
    cases room with
    | zero => rfl
    | succ room =>
      have hmembers := members?_eq members room
      have hmap : tree? (room + 1) (.object gap members) =
          ((Json.members? room members).map writtenMembers).map fun pairs =>
            .object (Entries.lastValues pairs) := by
        simp only [tree?, Spelling.value?, Option.map_map, Function.comp_def, Tree.written,
          writtenMembers_ofList]
      rw [hmap, hmembers, Spelling.depth, denoted?]
      by_cases hdepth : Json.membersDepth members ≤ room
      · rw [if_pos hdepth, if_pos (Nat.succ_le_succ hdepth)]
      · rw [if_neg hdepth, if_neg (fun h => hdepth (Nat.le_of_succ_le_succ h)), Option.map_none]
theorem items?_eq (items : List Json.Item) (room : Nat) :
    (Json.items? room items).map writtenItems =
      if Json.itemsDepth items ≤ room then denotedItems? items else none := by
  cases items with
  | nil => rfl
  | cons item rest =>
    cases item with
    | mk before s after =>
      have hs := tree?_eq s room
      have hrest := items?_eq rest room
      have hmap : (Json.items? room (.mk before s after :: rest)).map writtenItems =
          (tree? room s).bind fun t =>
            ((Json.items? room rest).map writtenItems).map (t :: ·) := by
        simp [Json.items?, tree?, Option.map_bind, Option.bind_map, Function.comp_def, writtenItems]
      rw [hmap, hs, hrest, Json.itemsDepth, denotedItems?]
      by_cases hdepth : s.depth ≤ room <;> by_cases hlater : Json.itemsDepth rest ≤ room <;>
        simp [hdepth, hlater]
theorem members?_eq (members : List Json.Member) (room : Nat) :
    (Json.members? room members).map writtenMembers =
      if Json.membersDepth members ≤ room then denotedMembers? members else none := by
  cases members with
  | nil => rfl
  | cons member rest =>
    cases member with
    | mk before key beforeColon afterColon s after =>
      have hs := tree?_eq s room
      have hrest := members?_eq rest room
      have hmap : (Json.members? room
            (.mk before key beforeColon afterColon s after :: rest)).map writtenMembers =
          (Json.string? key).bind fun k => (tree? room s).bind fun t =>
            ((Json.members? room rest).map writtenMembers).map ((k, t) :: ·) := by
        simp [Json.members?, tree?, Option.map_bind, Option.bind_map, Function.comp_def,
          writtenMembers]
      rw [hmap, hs, hrest, Json.membersDepth, denotedMembers?]
      by_cases hdepth : s.depth ≤ room <;> by_cases hlater : Json.membersDepth rest ≤ room <;>
        simp [hdepth, hlater]
end

theorem numberNode?_isSome (n : Json.Numeral) :
    (numberNode? n).isSome = true ↔ ¬ n.Overflows := by
  rw [← numberNode?_eq_none_iff, Option.isSome_iff_ne_none]

theorem isSome_bind_map {x : Option α} {y : Option β} {f : α → β → γ} :
    (x.bind fun a => y.map (f a)).isSome = true ↔ x.isSome = true ∧ y.isSome = true := by
  cases x <;> cases y <;> simp

mutual
theorem denoted?_isSome (s : Spelling) :
    (denoted? s).isSome = true ↔ ∀ token ∈ s.tokens, token.Sound := by
  cases s with
  | null => simp [denoted?, Spelling.tokens]
  | bool b => simp [denoted?, Spelling.tokens]
  | number n => simpa [denoted?, Spelling.tokens, Token.Sound] using numberNode?_isSome n
  | string pieces => simpa [denoted?, Spelling.tokens, Token.Sound] using Json.string?_isSome pieces
  | array gap items => simpa [denoted?, Spelling.tokens] using denotedItems?_isSome items
  | object gap members => simpa [denoted?, Spelling.tokens] using denotedMembers?_isSome members
theorem denotedItems?_isSome (items : List Json.Item) :
    (denotedItems? items).isSome = true ↔ ∀ token ∈ Json.itemTokens items, token.Sound := by
  cases items with
  | nil => simp [denotedItems?, Json.itemTokens]
  | cons item rest =>
    cases item with
    | mk before s after =>
      have hs := denoted?_isSome s
      have hrest := denotedItems?_isSome rest
      rw [denotedItems?, isSome_bind_map, hs, hrest, Json.itemTokens, List.forall_mem_append]
theorem denotedMembers?_isSome (members : List Json.Member) :
    (denotedMembers? members).isSome = true ↔ ∀ token ∈ Json.memberTokens members, token.Sound := by
  cases members with
  | nil => simp [denotedMembers?, Json.memberTokens]
  | cons member rest =>
    cases member with
    | mk before key beforeColon afterColon s after =>
      have hs := denoted?_isSome s
      have hrest := denotedMembers?_isSome rest
      have hpairs : (denotedMembers? (.mk before key beforeColon afterColon s after :: rest)).isSome =
          true ↔ (Json.string? key).isSome = true ∧ (denoted? s).isSome = true ∧
            (denotedMembers? rest).isSome = true := by
        rw [denotedMembers?]
        cases Json.string? key with
        | none => simp
        | some k => simpa using isSome_bind_map
      rw [hpairs, hs, hrest, Json.string?_isSome, Json.memberTokens, List.cons_append,
        List.forall_mem_cons, List.forall_mem_append]
      rfl
end

-- ---------------------------------------------------------------------------
-- Bodies
-- ---------------------------------------------------------------------------

theorem parse_document_iff (d : Document) (ranking : Ranking) (t : Tree) :
    parse d.bytes ranking = .ok t ↔
      d.value.depth ≤ 127 ∧ (denoted? d.value).map (·.arrange ranking) = some t := by
  rw [← Json.toOption_eq_some_iff, parse_document, tree?_eq]
  by_cases hdepth : d.value.depth ≤ 127
  · have hroom : d.value.depth ≤ Json.maxOpen := hdepth
    simp [hdepth, hroom]
  · have hroom : ¬ d.value.depth ≤ Json.maxOpen := hdepth
    simp [hdepth, hroom]

theorem exists_body {bytes : List UInt8} {ranking : Ranking} {t : Tree}
    (h : parse bytes ranking = .ok t) : ∃ d : Document, d.bytes = bytes := by
  unfold parse at h
  cases hv : Json.parse bytes with
  | ok v =>
    obtain ⟨d, hd, -⟩ := Json.exists_document hv
    exact ⟨d, hd⟩
  | error e =>
    rw [hv] at h
    cases h

theorem parse_keysDiffer {bytes : List UInt8} {t : Tree} (h : parse bytes = .ok t) :
    t.All Tree.KeysDiffer := by
  obtain ⟨d, rfl⟩ := exists_body h
  rw [← Json.toOption_eq_some_iff, parse_document] at h
  simp only [Tree.arrange_level, Option.map_id'] at h
  exact tree?_keysDiffer h

/-- The bodies that have a tree, and the trees that they have. -/
theorem parse_eq_ok_iff (bytes : List UInt8) (ranking : Ranking) :
    (∀ t, parse bytes ranking = .ok t ↔
        ∃ d : Document, d.bytes = bytes ∧ d.value.depth ≤ 127 ∧
          (denoted? d.value).map (·.arrange ranking) = some t) ∧
      ((∃ t, parse bytes ranking = .ok t) ↔
        ∃ d : Document, d.bytes = bytes ∧ d.value.depth ≤ 127 ∧
          ∀ token ∈ d.value.tokens, token.Sound) := by
  have htree (t : Tree) : parse bytes ranking = .ok t ↔
      ∃ d : Document, d.bytes = bytes ∧ d.value.depth ≤ 127 ∧
        (denoted? d.value).map (·.arrange ranking) = some t := by
    constructor
    · intro h
      obtain ⟨d, rfl⟩ := exists_body h
      exact ⟨d, rfl, (parse_document_iff d ranking t).mp h⟩
    · rintro ⟨d, rfl, hd⟩
      exact (parse_document_iff d ranking t).mpr hd
  refine ⟨htree, ?_⟩
  constructor
  · rintro ⟨t, ht⟩
    obtain ⟨d, hbytes, hdepth, hd⟩ := (htree t).mp ht
    obtain ⟨u, hu, -⟩ := Option.map_eq_some_iff.mp hd
    exact ⟨d, hbytes, hdepth, (denoted?_isSome _).mp (by rw [hu]; rfl)⟩
  · rintro ⟨d, hbytes, hdepth, hsound⟩
    obtain ⟨t, ht⟩ := Option.isSome_iff_exists.mp ((denoted?_isSome _).mpr hsound)
    exact ⟨_, (htree _).mpr ⟨d, hbytes, hdepth, by rw [ht, Option.map_some]⟩⟩

end Telemetry.Payload
