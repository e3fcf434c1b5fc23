import Telemetry.Proofs.Json.Writing
import Telemetry.Proofs.Payload.Candidates
import Telemetry.Proofs.Payload.CountTexts
import Telemetry.Proofs.Payload.Numbers

/-!
# Counts as numbers and as texts

A count may be written as an integer or as a string with the same digits. A
string of an integer literal is always the exact value, if `Int64` holds it, and
no count otherwise. The number is the same with two exceptions: the literal `-0`
is read as a double, which is no count, and a literal past the largest double
leaves no tree (`parse_count`). Where the node is there and the literal is not
`-0`, it is the same for an attribute which of the two stands in the tree, as
long as no text of the attribute leads to it.
-/

namespace Telemetry.Payload

open Json (Digit Numeral Template Whole digitValues spelled)

-- ---------------------------------------------------------------------------
-- Paths to a place
-- ---------------------------------------------------------------------------

def Place.At (place : Place) (path : String) : Prop :=
  ∀ t, (place.fill t).pointer path = some t

theorem getElem?_around {α : Type} (before after : List α) (i : Nat) :
    (∀ a, (before ++ a :: after)[i]? = some a) ∨
      ∃ there?, ∀ a, (before ++ a :: after)[i]? = there? := by
  rcases Nat.lt_trichotomy i before.length with hlt | rfl | hgt
  · exact .inr ⟨before[i]?, fun a => List.getElem?_append_left hlt⟩
  · exact .inl fun a => by simp
  · refine .inr ⟨after[i - (before.length + 1)]?, fun a => ?_⟩
    rw [List.getElem?_append_right (Nat.le_of_lt hgt), List.getElem?_cons, if_neg (by omega),
      Nat.sub_sub]

/-- A path leads to the place and maybe on from there, or else to something that
is there in any case, though the place may be inside of it. -/
theorem Place.descend_fill (place : Place) (path : List String) :
    (∃ rest, ∀ t, (place.fill t).descend path = t.descend rest) ∨
      ∃ reached? : Option Place, reached? ≠ some .here ∧
        ∀ t, (place.fill t).descend path = reached?.map fun reached => reached.fill t := by
  have hfixed (node? : Option Tree) : ∃ reached? : Option Place, reached? ≠ some .here ∧
      ∀ t, node? = reached?.map fun reached => reached.fill t := by
    refine ⟨node?.map .gone, by cases node? <;> simp, fun t => ?_⟩
    cases node? <;> rfl
  induction place generalizing path with
  | here => exact .inl ⟨path, fun t => rfl⟩
  | gone whole => exact .inr (hfixed (whole.descend path))
  | item before inner after ih =>
    cases path with
    | nil => exact .inr ⟨some (.item before inner after), by simp, fun t => rfl⟩
    | cons segment path =>
      simp only [Place.fill, Tree.descend, Tree.child?]
      cases Text.uint64? segment with
      | none => exact .inr (hfixed none)
      | some index =>
        rcases getElem?_around before after index.toNat with hinner | ⟨there?, hthere⟩
        · simp only [Option.bind_some, hinner]
          exact ih path
        · simp only [Option.bind_some, hthere]
          exact .inr (hfixed _)
  | member members key inner ih =>
    cases path with
    | nil => exact .inr ⟨some (.member members key inner), by simp, fun t => rfl⟩
    | cons segment path =>
      simp only [Place.fill, Tree.descend, Tree.child?, Entries.get?_put]
      by_cases hkey : key = segment
      · simp only [if_pos hkey, Option.bind_some]
        exact ih path
      · simp only [if_neg hkey]
        exact .inr (hfixed _)

def Tree.IsLeaf (t : Tree) : Prop :=
  ∀ segment, t.child? segment = none

theorem Place.pointer_fill {place : Place} {path : String} (h : ¬ place.At path) :
    ∃ reached? : Option Place, reached? ≠ some .here ∧
      ∀ t : Tree, t.IsLeaf →
        (place.fill t).pointer path = reached?.map fun reached => reached.fill t := by
  rcases place.descend_fill (segments path) with ⟨rest, hrest⟩ | ⟨reached?, hne, hreached⟩
  · cases rest with
    | nil => exact absurd hrest h
    | cons segment rest =>
      refine ⟨none, by simp, fun t leaf => ?_⟩
      rw [Tree.pointer, hrest, Tree.descend, leaf, Option.bind_none, Option.map_none]
  · exact ⟨reached?, hne, fun t leaf => hreached t⟩

section
variable {place : Place} {t t' : Tree}

/-- A path is read the same around two leaves if what is above them is, and they
are themselves where it leads to them. -/
theorem pointer_fill_bind {α : Type} {read : Tree → Option α} (leaf : t.IsLeaf) (leaf' : t'.IsLeaf)
    (above : ∀ reached : Place, reached ≠ .here → read (reached.fill t) = read (reached.fill t'))
    {path : String} (h : place.At path → read t = read t') :
    ((place.fill t).pointer path).bind read = ((place.fill t').pointer path).bind read := by
  by_cases hat : place.At path
  · rw [hat t, hat t', Option.bind_some, Option.bind_some, h hat]
  · obtain ⟨reached?, hne, hreached⟩ := Place.pointer_fill hat
    rw [hreached t leaf, hreached t' leaf']
    cases reached? with
    | none => rfl
    | some reached => exact above reached fun h => hne (congrArg some h)

/-- Two leaves that are the same count are the same for an attribute of which no
text leads to them. -/
theorem BodyAttribute.resolve_fill (wanted : BodyAttribute) (leaf : t.IsLeaf) (leaf' : t'.IsLeaf)
    (count : wanted.kind = .count) (same : t.toCount.toOption = t'.toCount.toOption)
    (apart : ∀ paths, wanted.textFallback = some paths → ∀ path ∈ paths, ¬ place.At path) :
    wanted.resolve (place.fill t) = wanted.resolve (place.fill t') := by
  have hdirect : firstRead? (place.fill t) Kind.count.read? wanted.candidates =
      firstRead? (place.fill t') Kind.count.read? wanted.candidates := by
    refine firstRead?_congr fun path _ => pointer_fill_bind leaf leaf' (fun reached hne => ?_) ?_
    · cases reached with
      | here => exact absurd rfl hne
      | _ => rfl
    · exact fun _ => congrArg (·.map Attribute.Value.int) same
  have htext (paths : List String) (h : wanted.textFallback = some paths) :
      firstRead? (place.fill t) Tree.asString? paths =
        firstRead? (place.fill t') Tree.asString? paths := by
    refine firstRead?_congr fun path hpath =>
      pointer_fill_bind leaf leaf' (fun reached hne => ?_) ?_
    · cases reached with
      | here => exact absurd rfl hne
      | _ => rfl
    · exact fun hat => absurd hat (apart paths h path hpath)
  have happroximated :
      wanted.approximated? (place.fill t) = wanted.approximated? (place.fill t') := by
    unfold approximated?
    cases hgiven : wanted.textFallback with
    | none => rfl
    | some paths => simp only [Option.bind_some, htext paths hgiven]
  rw [wanted.resolve_eq, wanted.resolve_eq, happroximated, direct?, direct?, count, hdirect]

end

-- ---------------------------------------------------------------------------
-- Integer literals
-- ---------------------------------------------------------------------------

structure IntegerLiteral where
  negative : Bool := false
  whole : Whole
  deriving DecidableEq, Repr

namespace IntegerLiteral

def numeral (l : IntegerLiteral) : Numeral where
  negative := l.negative
  whole := l.whole

def chars (l : IntegerLiteral) : List Char :=
  (if l.negative then ['-'] else []) ++ l.whole.list.map fun d => Nat.digitChar d.val

def text (l : IntegerLiteral) : String :=
  String.ofList l.chars

def size (l : IntegerLiteral) : Nat :=
  spelled 0 (digitValues l.whole.list)

def value (l : IntegerLiteral) : Int :=
  if l.negative then -(l.size : Int) else l.size

def minusZero : IntegerLiteral where
  negative := true
  whole := .zero

theorem encode_digitChars (ds : List Digit) :
    Utf8.encode (ds.map fun d => Nat.digitChar d.val) = Json.digitBytes ds := by
  induction ds with
  | nil => rfl
  | cons d ds ih =>
    have hd := Json.encode_digitChar d
    rw [List.map_cons, ← List.singleton_append, Utf8.encode_append, hd, ih]
    rfl

theorem numeral_bytes (l : IntegerLiteral) : l.numeral.bytes = Utf8.ofString l.text := by
  have hbytes : l.numeral.bytes =
      (if l.negative then [0x2d] else []) ++ Json.digitBytes l.whole.list :=
    (List.append_nil _).trans (List.append_nil _)
  have hminus : Utf8.encode ['-'] = [0x2d] := by decide
  rw [hbytes, Utf8.ofString_eq_encode, text, String.toList_ofList, chars, Utf8.encode_append,
    encode_digitChars]
  split
  · rw [hminus]
  · rfl

-- ---------------------------------------------------------------------------
-- The text
-- ---------------------------------------------------------------------------

theorem list_ne_nil (w : Whole) : w.list ≠ [] := by
  cases w <;> simp [Whole.list]

theorem spells_chars (l : IntegerLiteral) : Spells l.chars l.value := by
  unfold chars value size
  split
  · exact .minus (list_ne_nil l.whole)
  · exact .bare (list_ne_nil l.whole)

theorem toCount_text (l : IntegerLiteral) (n : Int64) :
    (Tree.string l.text).toCount = .ok n ↔ n.toInt = l.value := by
  have hcount : (Tree.string l.text).toCount = .ok n ↔ count? l.text = some n := by
    rw [Tree.toCount]
    cases count? l.text <;> simp
  have hspells : SpellsInteger l.text l.value :=
    .of_spells (by simpa only [text, String.toList_ofList] using l.spells_chars)
  rw [hcount, count?_eq_some_iff]
  constructor
  · exact fun h => h.unique hspells
  · exact fun h => h ▸ hspells

-- ---------------------------------------------------------------------------
-- The number
-- ---------------------------------------------------------------------------

theorem size_eq_zero_iff {l : IntegerLiteral} : l.size = 0 ↔ l.whole = .zero := by
  unfold size
  cases l.whole with
  | zero => exact ⟨fun _ => rfl, fun _ => rfl⟩
  | digits first nonzero rest =>
    have hfirst : (first : Nat) ≠ 0 := fun h => nonzero (Fin.ext h)
    have hsize := Json.le_spelled (0 * 10 + first) (digitValues rest)
    simp only [Whole.list, digitValues, List.map_cons, reduceCtorEq, iff_false]
    simp only [digitValues, spelled, List.foldl_cons] at hsize ⊢
    omega

theorem integer?_numeral {l : IntegerLiteral} (h : l ≠ minusZero) :
    l.numeral.integer? = some l.value := by
  have hspelled : l.numeral.integer? =
      if l.negative then if l.size = 0 then none else some (-(l.size : Int)) else some ↑l.size := by
    simp only [Numeral.integer?, Json.Literal.spelledInt?, Numeral.literal, numeral,
      Option.map_none, List.reverse_reverse, size]
    rfl
  rw [hspelled, value]
  by_cases hn : l.negative = true
  · have hsize : l.size ≠ 0 := fun hsize => h <| by
      obtain ⟨negative, whole⟩ := l
      exact congr (congrArg mk hn) (size_eq_zero_iff.mp hsize)
    rw [if_pos hn, if_pos hn, if_neg hsize]
  · rw [if_neg hn, if_neg hn]

theorem double?_minusZero : minusZero.numeral.double? = some (-0.0) := by
  have hscale : Json.scale (UInt64.ofNat 0).toFloat 0 = some 0.0 := by
    rw [Json.scale]
    decide
  exact congrArg (·.map fun x : Float => -x) hscale

theorem node_minusZero : numberNode? minusZero.numeral = some (.fraction (-0.0)) := by
  have hinteger : minusZero.numeral.integer? = none := rfl
  have hunit : inUnitInterval (-0.0) = true := by decide
  simp only [numberNode?, hinteger, double?_minusZero, Option.map_some, hunit, if_true]

/-- Only a literal past 64 bits can be past the largest double. -/
theorem value_of_overflows {l : IntegerLiteral} (h : l.numeral.Overflows) :
    l.value < -2 ^ 63 ∨ 2 ^ 64 ≤ l.value := by
  by_cases hzero : l = minusZero
  · subst hzero
    rw [Numeral.Overflows, double?_minusZero] at h
    cases h.1
  · exact h.2 _ (integer?_numeral hzero)

theorem toCount_node {l : IntegerLiteral} {node : Tree} (h : numberNode? l.numeral = some node) :
    node.IsLeaf ∧ ∀ n : Int64, node.toCount = .ok n ↔ n.toInt = l.value ∧ l ≠ minusZero := by
  by_cases hzero : l = minusZero
  · subst hzero
    rw [node_minusZero] at h
    cases h
    exact ⟨fun segment => rfl, fun n => by simp [Tree.toCount]⟩
  · simp only [numberNode?, integer?_numeral hzero] at h
    split at h
    · rename_i hfits
      have hvalue := Int64.toInt_ofInt_of_le hfits.1 hfits.2
      cases h
      refine ⟨fun segment => rfl, fun n => ?_⟩
      simp only [Tree.toCount, Except.ok.injEq, hzero, not_false_eq_true, and_true, ne_eq]
      constructor
      · rintro rfl
        exact hvalue
      · intro h
        rw [← h, Int64.ofInt_toInt]
    · rename_i hlarge
      obtain ⟨number, -, rfl⟩ := Option.map_eq_some_iff.mp h
      refine ⟨fun segment => rfl, fun n => ?_⟩
      have hlow : -2 ^ 63 ≤ n.toInt := n.minValue_le_toInt
      have hhigh := n.toInt_lt
      simp only [Tree.toCount, reduceCtorEq, false_iff]
      omega

end IntegerLiteral

-- ---------------------------------------------------------------------------
-- Documents
-- ---------------------------------------------------------------------------

/-- The key that a path starts with, if it cannot be an index. -/
def firstKey? (path : String) : Option String :=
  (segments path).head?.filter fun key => (Text.uint64? key).isNone

theorem Place.At.eq_member {place : Place} {path key : String} (h : place.At path)
    (hkey : firstKey? path = some key) :
    ∃ members inner, place = .member members key inner := by
  obtain ⟨hhead, hindex⟩ := Option.filter_eq_some_iff.mp hkey
  obtain ⟨rest, hsegments⟩ := List.head?_eq_some_iff.mp hhead
  have hleads (t : Tree) : ((place.fill t).child? key).bind (·.descend rest) = some t := by
    have hpath := h t
    rwa [Tree.pointer, hsegments, Tree.descend] at hpath
  -- What is there in any case cannot be both of these.
  have hnull := hleads .null
  have hbool := hleads (.bool true)
  cases place with
  | here => cases hnull
  | gone whole =>
    rw [Place.fill] at hnull hbool
    rw [hnull] at hbool
    cases hbool
  | item before inner after =>
    rw [Option.isNone_iff_eq_none] at hindex
    simp [Place.fill, Tree.child?, hindex] at hnull
  | member members other inner =>
    by_cases hsame : other = key
    · subst hsame
      exact ⟨members, inner, rfl⟩
    · simp only [Place.fill, Tree.child?, Entries.get?_put, if_neg hsame] at hnull hbool
      rw [hnull] at hbool
      cases hbool

/-- No text of a built-in attribute stands where one of its candidates leads. -/
theorem bodyAttributes_apart {wanted : BodyAttribute} (builtin : wanted ∈ bodyAttributes)
    {candidate : String} (listed : candidate ∈ wanted.candidates) {paths : List String}
    (given : wanted.textFallback = some paths) {path : String} (text : path ∈ paths) {place : Place}
    (h : place.At candidate) : ¬ place.At path := by
  have hkeys : ∀ wanted ∈ bodyAttributes, ∀ candidate ∈ wanted.candidates,
      ∀ path ∈ wanted.textFallback.getD [], (firstKey? candidate).isSome ∧
        (firstKey? path).isSome ∧ firstKey? candidate ≠ firstKey? path := by
    decide
  obtain ⟨hkey, hother, hne⟩ :=
    hkeys wanted builtin candidate listed path (by rwa [given, Option.getD_some])
  obtain ⟨key, hkey⟩ := Option.isSome_iff_exists.mp hkey
  obtain ⟨other, hother⟩ := Option.isSome_iff_exists.mp hother
  intro hpath
  obtain ⟨_, _, hmember⟩ := h.eq_member hkey
  obtain ⟨_, _, hagain⟩ := hpath.eq_member hother
  rw [hmember] at hagain
  cases hagain
  exact hne (hkey.trans hother.symm)

/-- What an integer literal and the string of its characters are as counts, at
the same place of the same document. -/
theorem parse_count (l : IntegerLiteral) (template : Template) (ranking : Ranking) :
    l.numeral.bytes = Utf8.ofString l.text ∧
    (∀ pieces, Json.string? pieces = some l.text →
      (parse (template.fill (.string pieces)).bytes ranking).toOption =
        template.place?.map fun place => (place.fill (.string l.text)).arrange ranking) ∧
    (parse (template.fill (.number l.numeral)).bytes ranking).toOption =
      (template.place?.bind fun place =>
        (numberNode? l.numeral).map fun node => (place.fill node).arrange ranking) ∧
    (numberNode? l.numeral = none ↔ l.numeral.Overflows) ∧
    (l.numeral.Overflows → l.value < -2 ^ 63 ∨ 2 ^ 64 ≤ l.value) ∧
    (∀ n : Int64, (Tree.string l.text).toCount = .ok n ↔ n.toInt = l.value) ∧
    (∀ node, numberNode? l.numeral = some node →
      ∀ n : Int64, node.toCount = .ok n ↔ n.toInt = l.value ∧ l ≠ .minusZero) ∧
    (l ≠ .minusZero → ∀ place, template.place? = some place →
      ∀ (wanted : BodyAttribute), wanted.kind = .count →
        ((∀ paths, wanted.textFallback = some paths → ∀ path ∈ paths, ¬ place.At path) ∨
          wanted ∈ bodyAttributes ∧ ∃ candidate ∈ wanted.candidates, place.At candidate) →
        ∀ t, parse (template.fill (.number l.numeral)).bytes ranking = .ok t →
          ∀ pieces, Json.string? pieces = some l.text → ∀ (ranking' : Ranking) t',
            parse (template.fill (.string pieces)).bytes ranking' = .ok t' →
              wanted.resolve t = wanted.resolve t') := by
  have hstring {pieces : List Json.Piece} (h : Json.string? pieces = some l.text) (room : Nat) :
      tree? room (.string pieces) = some (.string l.text) := by
    simp only [tree?, Json.Spelling.value?, h, Option.map_some, Tree.written]
  refine ⟨l.numeral_bytes, ?_, ?_, numberNode?_eq_none_iff _, IntegerLiteral.value_of_overflows,
    l.toCount_text, fun node hnode => (IntegerLiteral.toCount_node hnode).2, ?_⟩
  · intro pieces hpieces
    simp only [parse_fill, hstring hpieces, Option.map_some]
    exact (Option.map_eq_bind ..).symm
  · rw [parse_fill, tree?_number]
  · intro hzero place hplace wanted kind apart t ht pieces hpieces ranking' t' ht'
    obtain ⟨place₁, node, hplace₁, hnode, hkeys, rfl⟩ := exists_fill ht
    obtain ⟨place₂, text, hplace₂, htext, hkeys', rfl⟩ := exists_fill ht'
    obtain rfl : place = place₁ := Option.some.inj (hplace.symm.trans hplace₁)
    obtain rfl : place = place₂ := Option.some.inj (hplace.symm.trans hplace₂)
    rw [tree?_number] at hnode
    obtain rfl : Tree.string l.text = text := Option.some.inj ((hstring hpieces _).symm.trans htext)
    obtain ⟨leaf, hcount⟩ := IntegerLiteral.toCount_node hnode
    rw [BodyAttribute.resolve_arrange kind hkeys, BodyAttribute.resolve_arrange kind hkeys']
    refine wanted.resolve_fill leaf (fun segment => rfl) kind ?_ ?_
    · refine Option.ext fun n => ?_
      have hok (r : Except Failure Int64) : r.toOption = some n ↔ r = .ok n := by
        cases r <;> simp [Except.toOption]
      rw [hok, hok, hcount, l.toCount_text]
      exact and_iff_left hzero
    · intro paths given path text
      rcases apart with apart | ⟨builtin, candidate, listed, at_candidate⟩
      · exact apart paths given path text
      · exact bodyAttributes_apart builtin listed given text at_candidate

theorem tree?_pieces (room : Nat) (s : String) :
    tree? room (.string (Json.pieces s)) = some (.string s) := by
  simp only [tree?, Json.Spelling.value?, Json.string?_pieces, Option.map_some, Tree.written]

def maxTokensMember : Template where
  surroundings := .object [] [] [] (Json.pieces "max_tokens") [] [] .hole [] []

theorem parse_maxTokensMember (s : Json.Spelling) :
    (parse (maxTokensMember.fill s).bytes).toOption =
      (tree? (Json.maxOpen - 1) s).map fun t => .object [("max_tokens", t)] := by
  rw [parse_document]
  simp only [tree?, Template.fill, maxTokensMember, Json.Surroundings.fill, Json.Spelling.value?,
    Json.members?, Json.maxOpen, Json.string?_pieces, List.nil_append, Option.bind_some,
    Tree.arrange_level, Option.map_id']
  cases s.value? 126 <;> rfl

def five : IntegerLiteral where
  whole := .digits 5 (by decide) []

theorem parse_count_five :
    ∃ t t', parse (maxTokensMember.fill (.number five.numeral)).bytes = .ok t ∧
      parse (maxTokensMember.fill (.string (Json.pieces "5"))).bytes = .ok t' ∧
        maxTokens.resolve t = maxTokens.resolve t' := by
  obtain ⟨-, -, -, hnone, hlarge, -, -, hsame⟩ := parse_count five maxTokensMember .level
  have hleads : (Place.member [("max_tokens", .null)] "max_tokens" .here).At "/max_tokens" :=
    fun t => rfl
  have hplace : maxTokensMember.place? =
      some (.member [("max_tokens", .null)] "max_tokens" .here) := by
    simp only [maxTokensMember, Template.place?, Json.Surroundings.place?, Json.maxOpen,
      Json.members?, Json.string?_pieces, Option.bind_some, Option.map_some]
    rfl
  have htext : (parse (maxTokensMember.fill (.string (Json.pieces "5"))).bytes).toOption =
      some (.object [("max_tokens", .string "5")]) := by
    rw [parse_maxTokensMember, tree?_pieces, Option.map_some]
  cases hnode : numberNode? five.numeral with
  | none => exact absurd (hlarge (hnone.mp hnode)) (by decide)
  | some node =>
    have hnumber : (parse (maxTokensMember.fill (.number five.numeral)).bytes).toOption =
        some (.object [("max_tokens", node)]) := by
      rw [parse_maxTokensMember, tree?_number, hnode, Option.map_some]
    rw [Json.toOption_eq_some_iff] at htext hnumber
    exact ⟨_, _, hnumber, htext, hsame (by decide) _ hplace maxTokens rfl
      (.inr ⟨by decide, "/max_tokens", by decide, hleads⟩) _ hnumber _ (by decide) .level _ htext⟩

/-- The string `"-0"` is the count zero, and the number `-0` is none. -/
theorem count_minus_zero :
    (maxTokensMember.fill (.number IntegerLiteral.minusZero.numeral)).bytes =
        Utf8.ofString "\x7b\"max_tokens\":-0\x7d" ∧
      (maxTokensMember.fill (.string (Json.pieces "-0"))).bytes =
        Utf8.ofString "\x7b\"max_tokens\":\"-0\"\x7d" ∧
      (parse (maxTokensMember.fill (.string (Json.pieces "-0"))).bytes).toOption.bind
          maxTokens.resolve = some ⟨Attribute.Key.requestMaxTokens, .int 0, .direct⟩ ∧
      (parse (maxTokensMember.fill (.number IntegerLiteral.minusZero.numeral)).bytes).toOption.bind
          maxTokens.resolve = none := by
  refine ⟨by decide, by decide, ?_, ?_⟩
  · rw [parse_maxTokensMember, tree?_pieces]
    decide
  · rw [parse_maxTokensMember, tree?_number, IntegerLiteral.node_minusZero]
    decide

end Telemetry.Payload
