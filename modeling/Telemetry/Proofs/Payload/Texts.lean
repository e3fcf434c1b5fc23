import Telemetry.Proofs.Json.Origins
import Telemetry.Proofs.Payload.Denotation

/-!
# Texts in a body

A body that is UTF-8 is read as its text is (`parse_utf8`): the same tree or the
same error, and no string of it is refused for its bytes. A body that has a tree
is UTF-8 anyway, since it is a document and a document is spelled in characters
(`Document.wellFormed`). The strings and keys of the tree are strings of the
body, character by character what is spelled there (`codePoints`); nothing is put
in the place of a surrogate without its other half.
-/

namespace Telemetry.Json

open Utf8 (WellFormed Ascii)

-- ---------------------------------------------------------------------------
-- Documents are UTF-8
-- ---------------------------------------------------------------------------

theorem wellFormed_byte {b : UInt8} (ascii : Ascii b) : WellFormed [b] :=
  Utf8.wellFormed_of_ascii (List.forall_mem_singleton.mpr ascii)

theorem wellFormed_cons {b : UInt8} {rest : List UInt8} (ascii : Ascii b) (h : WellFormed rest) :
    WellFormed (b :: rest) :=
  (wellFormed_byte ascii).append h

theorem wellFormed_digits (ds : List Digit) : WellFormed (digitBytes ds) := by
  refine Utf8.wellFormed_of_ascii fun b hb => ?_
  obtain ⟨d, -, rfl⟩ := List.mem_map.mp hb
  exact ascii_of_isDigit (isDigit_byte d)

theorem Gap.wellFormed (gap : Gap) : WellFormed gap.bytes := by
  refine Utf8.wellFormed_of_ascii fun b hb => ?_
  obtain ⟨blank, -, rfl⟩ := List.mem_map.mp hb
  exact ascii_of_isSpace (isSpace_byte blank)

theorem Numeral.wellFormed (n : Numeral) : WellFormed n.bytes := by
  obtain ⟨negative, whole, fraction, exponent⟩ := n
  have hsign : WellFormed (if negative then [0x2d] else []) :=
    Utf8.wellFormed_of_ascii (by cases negative <;> simp [Ascii])
  have hfraction : WellFormed (fractionBytes fraction) := by
    cases fraction with
    | none => exact Utf8.wellFormed_nil
    | some ds => exact wellFormed_cons (by decide) (wellFormed_digits ds.list)
  have hexponent : WellFormed (exponentBytes exponent) := by
    cases exponent with
    | none => exact Utf8.wellFormed_nil
    | some e =>
      obtain ⟨capital, sign, digits⟩ := e
      have hmark : Ascii (if capital then 0x45 else 0x65) := by cases capital <;> decide
      refine wellFormed_cons hmark (.append ?_ (wellFormed_digits _))
      cases sign with
      | none => exact Utf8.wellFormed_nil
      | some negative => exact Utf8.wellFormed_of_ascii (by cases negative <;> simp [Ascii])
  exact ((hsign.append (wellFormed_digits whole.list)).append hfraction).append hexponent

theorem wellFormed_pieceBytes (pieces : List Piece) : WellFormed (pieceBytes pieces) := by
  induction pieces with
  | nil => exact Utf8.wellFormed_nil
  | cons piece rest ih =>
    refine .append ?_ ih
    cases piece with
    | plain c h => exact Utf8.wellFormed_encodeChar c
    | short e =>
      refine Utf8.wellFormed_of_ascii ?_
      cases e <;> simp [Piece.bytes, ShortEscape.letter, Ascii]
    | unit u =>
      have hmark : Ascii 0x5c ∧ Ascii 0x75 := by decide
      exact Utf8.wellFormed_of_ascii
        (by simpa [Piece.bytes, CodeUnit.bytes, ascii_hexDigit] using hmark)

theorem wellFormed_stringBytes (pieces : List Piece) : WellFormed (stringBytes pieces) :=
  wellFormed_cons (by decide) ((wellFormed_pieceBytes pieces).append (wellFormed_byte (by decide)))

mutual
theorem Spelling.wellFormed (s : Spelling) : WellFormed s.bytes := by
  cases s with
  | null => exact Utf8.wellFormed_of_ascii (by simp [Spelling.bytes, Ascii])
  | bool b => exact Utf8.wellFormed_of_ascii (by cases b <;> simp [Spelling.bytes, Ascii])
  | number n => exact n.wellFormed
  | string pieces => exact wellFormed_stringBytes pieces
  | array gap items =>
    exact wellFormed_cons (by decide) (gap.wellFormed.append
      ((itemBytes_wellFormed items Utf8.wellFormed_nil).append (wellFormed_byte (by decide))))
  | object gap members =>
    exact wellFormed_cons (by decide) (gap.wellFormed.append
      ((memberBytes_wellFormed members Utf8.wellFormed_nil).append (wellFormed_byte (by decide))))
theorem itemBytes_wellFormed (items : List Item) {separator : List UInt8}
    (h : WellFormed separator) : WellFormed (itemBytes separator items) := by
  cases items with
  | nil => exact Utf8.wellFormed_nil
  | cons item rest =>
    cases item with
    | mk before s after =>
      have hcomma : WellFormed [0x2c] := wellFormed_byte (by decide)
      exact h.append (before.wellFormed.append (s.wellFormed.append
        (after.wellFormed.append (itemBytes_wellFormed rest hcomma))))
theorem memberBytes_wellFormed (members : List Member) {separator : List UInt8}
    (h : WellFormed separator) : WellFormed (memberBytes separator members) := by
  cases members with
  | nil => exact Utf8.wellFormed_nil
  | cons member rest =>
    cases member with
    | mk before key beforeColon afterColon s after =>
      have hcomma : WellFormed [0x2c] := wellFormed_byte (by decide)
      exact h.append (before.wellFormed.append ((wellFormed_stringBytes key).append
        (beforeColon.wellFormed.append (wellFormed_cons (by decide)
          (afterColon.wellFormed.append (s.wellFormed.append
            (after.wellFormed.append (memberBytes_wellFormed rest hcomma))))))))
end

theorem Document.wellFormed (d : Document) : WellFormed d.bytes :=
  d.before.wellFormed.append (d.value.wellFormed.append d.after.wellFormed)

-- ---------------------------------------------------------------------------
-- Strings of a document
-- ---------------------------------------------------------------------------

/-- The code points that the pieces spell. A surrogate without its other half
stands for itself. -/
def codePoints : List Piece → List Nat
  | [] => []
  | .plain c _ :: rest => c.toNat :: codePoints rest
  | .short e :: rest => e.char.toNat :: codePoints rest
  | .unit u :: .unit w :: rest =>
    if isLeading u.value ∧ isTrailing w.value then
      (0x10000 + (u.value - 0xd800) * 0x400 + (w.value - 0xdc00)) :: codePoints rest
    else u.value :: codePoints (.unit w :: rest)
  | .unit u :: rest => u.value :: codePoints rest

theorem codePoints_unit {u : CodeUnit} (h : ¬ isLeading u.value = true) (rest : List Piece) :
    codePoints (.unit u :: rest) = u.value :: codePoints rest := by
  rcases rest with _ | ⟨piece, rest⟩
  · rfl
  · cases piece with
    | unit w => rw [codePoints, if_neg (fun both => h both.1)]
    | _ => rfl

theorem toNat_pairChar {lead trail : Nat} (hlead : isLeading lead = true)
    (htrail : isTrailing trail = true) :
    (pairChar lead trail).toNat = 0x10000 + (lead - 0xd800) * 0x400 + (trail - 0xdc00) := by
  simp only [isLeading, isTrailing, Bool.and_eq_true, decide_eq_true_eq] at hlead htrail
  rw [pairChar, Char.toNat_ofNat, if_pos (.inr (by omega))]

theorem toNat_unit {u : CodeUnit} (hlead : ¬ isLeading u.value = true)
    (htrail : ¬ isTrailing u.value = true) : (Char.ofNat u.value).toNat = u.value := by
  simp only [isLeading, isTrailing, Bool.and_eq_true, decide_eq_true_eq] at hlead htrail
  have hsize : u.value < 0x10000 := by
    have hfirst := u.first.value.isLt
    have hsecond := u.second.value.isLt
    have hthird := u.third.value.isLt
    have hfourth := u.fourth.value.isLt
    simp only [CodeUnit.value]
    omega
  have hvalid : u.value.isValidChar := by
    rcases Nat.lt_or_ge u.value 0xd800 with hlow | hhigh
    · exact .inl hlow
    · exact .inr (by omega)
  rw [Char.toNat_ofNat, if_pos hvalid]

theorem characters?_codePoints {pieces : List Piece} {cs : List Char}
    (h : characters? pieces = some cs) : cs.map Char.toNat = codePoints pieces := by
  induction pieces using characters?.induct generalizing cs with
  | case1 =>
    cases h
    rfl
  | case2 c hc rest ih =>
    obtain ⟨later, hlater, rfl⟩ := Option.map_eq_some_iff.mp h
    exact congrArg (c.toNat :: ·) (ih hlater)
  | case3 e rest ih =>
    obtain ⟨later, hlater, rfl⟩ := Option.map_eq_some_iff.mp h
    exact congrArg (e.char.toNat :: ·) (ih hlater)
  | case4 u rest htrail =>
    rw [characters?_trail htrail] at h
    cases h
  | case5 u htrail hlead w rest hpair ih =>
    rw [characters?_pair htrail hlead, if_pos hpair] at h
    obtain ⟨later, hlater, rfl⟩ := Option.map_eq_some_iff.mp h
    rw [codePoints, if_pos ⟨hlead, hpair⟩, List.map_cons, toNat_pairChar hlead hpair, ih hlater]
  | case6 u htrail hlead w rest hpair =>
    rw [characters?_pair htrail hlead, if_neg hpair] at h
    cases h
  | case7 u rest htrail hlead hlone =>
    rw [characters?_lone htrail hlead hlone] at h
    cases h
  | case8 u rest htrail hlead ih =>
    rw [characters?_unit htrail hlead] at h
    obtain ⟨later, hlater, rfl⟩ := Option.map_eq_some_iff.mp h
    rw [codePoints_unit hlead, List.map_cons, toNat_unit hlead htrail, ih hlater]

theorem string?_codePoints {pieces : List Piece} {s : String} (h : string? pieces = some s) :
    s.toList.map Char.toNat = codePoints pieces := by
  obtain ⟨cs, hcs, rfl⟩ := Option.map_eq_some_iff.mp h
  rw [String.toList_ofList]
  exact characters?_codePoints hcs

mutual
theorem Spelling.bytes_string (s : Spelling) {pieces : List Piece}
    (h : Token.string pieces ∈ s.tokens) : stringBytes pieces <:+: s.bytes := by
  cases s with
  | string own =>
    obtain ⟨rfl⟩ : pieces = own := by simpa [Spelling.tokens] using h
    exact List.infix_rfl
  | array gap items =>
    have hitems := itemBytes_string items [] h
    exact hitems.trans ⟨0x5b :: gap.bytes, [0x5d], by simp [Spelling.bytes]⟩
  | object gap members =>
    have hmembers := memberBytes_string members [] h
    exact hmembers.trans ⟨0x7b :: gap.bytes, [0x7d], by simp [Spelling.bytes]⟩
  | _ => simp [Spelling.tokens] at h
theorem itemBytes_string (items : List Item) (separator : List UInt8) {pieces : List Piece}
    (h : Token.string pieces ∈ itemTokens items) :
    stringBytes pieces <:+: itemBytes separator items := by
  cases items with
  | nil => cases h
  | cons item rest =>
    cases item with
    | mk before s after =>
      rcases List.mem_append.mp h with hs | hrest
      · exact (s.bytes_string hs).trans
          ⟨separator ++ before.bytes, after.bytes ++ itemBytes [0x2c] rest, by simp [itemBytes]⟩
      · exact (itemBytes_string rest [0x2c] hrest).trans
          ⟨separator ++ (before.bytes ++ (s.bytes ++ after.bytes)), [], by simp [itemBytes]⟩
theorem memberBytes_string (members : List Member) (separator : List UInt8) {pieces : List Piece}
    (h : Token.string pieces ∈ memberTokens members) :
    stringBytes pieces <:+: memberBytes separator members := by
  cases members with
  | nil => cases h
  | cons member rest =>
    cases member with
    | mk before key beforeColon afterColon s after =>
      rcases List.mem_cons.mp h with hkey | h
      · obtain ⟨rfl⟩ := Token.string.inj hkey
        refine ⟨separator ++ before.bytes, beforeColon.bytes ++ 0x3a :: (afterColon.bytes ++
          (s.bytes ++ (after.bytes ++ memberBytes [0x2c] rest))), ?_⟩
        simp [memberBytes]
      · rcases List.mem_append.mp h with hs | hrest
        · exact (s.bytes_string hs).trans
            ⟨separator ++ (before.bytes ++ (stringBytes key ++ (beforeColon.bytes ++
              0x3a :: afterColon.bytes))), after.bytes ++ memberBytes [0x2c] rest,
              by simp [memberBytes]⟩
        · exact (memberBytes_string rest [0x2c] hrest).trans
            ⟨separator ++ (before.bytes ++ (stringBytes key ++ (beforeColon.bytes ++
              0x3a :: (afterColon.bytes ++ (s.bytes ++ after.bytes))))), [],
              by simp [memberBytes]⟩
end

end Telemetry.Json

namespace Telemetry.Payload

open Json (Document Spelling Token)

-- ---------------------------------------------------------------------------
-- Strings of a tree
-- ---------------------------------------------------------------------------

mutual
def Tree.texts : Tree → List String
  | .object members => memberTexts members
  | .array items => itemTexts items
  | .string s => [s]
  | _ => []
def itemTexts : List Tree → List String
  | [] => []
  | t :: rest => t.texts ++ itemTexts rest
def memberTexts : List (String × Tree) → List String
  | [] => []
  | (k, t) :: rest => k :: t.texts ++ memberTexts rest
end

theorem mem_memberTexts {members : List (String × Tree)} {w : String} :
    w ∈ memberTexts members ↔ ∃ k t, (k, t) ∈ members ∧ (w = k ∨ w ∈ t.texts) := by
  induction members with
  | nil => simp [memberTexts]
  | cons member rest ih =>
    obtain ⟨k, t⟩ := member
    simp only [memberTexts, List.cons_append, List.mem_cons, List.mem_append, ih, Prod.mk.injEq]
    constructor
    · rintro (rfl | ht | ⟨l, u, hmem, hw⟩)
      · exact ⟨w, t, .inl ⟨rfl, rfl⟩, .inl rfl⟩
      · exact ⟨k, t, .inl ⟨rfl, rfl⟩, .inr ht⟩
      · exact ⟨l, u, .inr hmem, hw⟩
    · rintro ⟨l, u, ⟨rfl, rfl⟩ | hmem, hw⟩
      · exact hw.imp_right .inl
      · exact .inr (.inr ⟨l, u, hmem, hw⟩)

/-- A key that comes more than once adds nothing that is not spelled. -/
theorem memberTexts_lastValues {pairs : List (String × Tree)} {w : String}
    (h : w ∈ memberTexts (Entries.lastValues pairs)) : w ∈ memberTexts pairs := by
  obtain ⟨k, t, hmem, hw⟩ := mem_memberTexts.mp h
  rw [← Entries.ofList_eq_lastValues] at hmem
  exact mem_memberTexts.mpr ⟨k, t, Entries.mem_of_mem_ofList hmem, hw⟩

theorem texts_ofNumber (n : Json.Number) : (Tree.ofNumber n).texts = [] := by
  unfold Tree.ofNumber
  repeat' split
  all_goals rfl

def SpelledIn (w : String) (tokens : List Token) : Prop :=
  ∃ pieces, Token.string pieces ∈ tokens ∧ Json.string? pieces = some w

theorem SpelledIn.mono {w : String} {tokens more : List Token} (h : SpelledIn w tokens)
    (hsub : tokens ⊆ more) : SpelledIn w more := by
  obtain ⟨pieces, hmem, hw⟩ := h
  exact ⟨pieces, hsub hmem, hw⟩

mutual
theorem texts_denoted (s : Spelling) {t : Tree} (h : denoted? s = some t) {w : String}
    (hw : w ∈ t.texts) : SpelledIn w s.tokens := by
  cases s with
  | string pieces =>
    obtain ⟨text, htext, rfl⟩ := Option.map_eq_some_iff.mp h
    obtain rfl : w = text := by simpa [Tree.texts] using hw
    exact ⟨pieces, by simp [Spelling.tokens], htext⟩
  | array gap items =>
    obtain ⟨trees, htrees, rfl⟩ := Option.map_eq_some_iff.mp h
    exact itemTexts_denoted items htrees hw
  | object gap members =>
    obtain ⟨pairs, hpairs, rfl⟩ := Option.map_eq_some_iff.mp h
    exact memberTexts_denoted members hpairs (memberTexts_lastValues hw)
  | number n =>
    rw [denoted?, ← node_eq] at h
    obtain ⟨number, -, rfl⟩ := Option.map_eq_some_iff.mp h
    rw [texts_ofNumber] at hw
    cases hw
  | _ =>
    cases h
    cases hw
theorem itemTexts_denoted (items : List Json.Item) {trees : List Tree}
    (h : denotedItems? items = some trees) {w : String} (hw : w ∈ itemTexts trees) :
    SpelledIn w (Json.itemTokens items) := by
  cases items with
  | nil =>
    cases h
    cases hw
  | cons item rest =>
    cases item with
    | mk before s after =>
      obtain ⟨t, ht, h⟩ := Option.bind_eq_some_iff.mp h
      obtain ⟨later, hlater, rfl⟩ := Option.map_eq_some_iff.mp h
      rcases List.mem_append.mp hw with hw | hw
      · exact (texts_denoted s ht hw).mono (List.subset_append_left _ _)
      · exact (itemTexts_denoted rest hlater hw).mono (List.subset_append_right _ _)
theorem memberTexts_denoted (members : List Json.Member) {pairs : List (String × Tree)}
    (h : denotedMembers? members = some pairs) {w : String} (hw : w ∈ memberTexts pairs) :
    SpelledIn w (Json.memberTokens members) := by
  cases members with
  | nil =>
    cases h
    cases hw
  | cons member rest =>
    cases member with
    | mk before key beforeColon afterColon s after =>
      obtain ⟨k, hk, h⟩ := Option.bind_eq_some_iff.mp h
      obtain ⟨t, ht, h⟩ := Option.bind_eq_some_iff.mp h
      obtain ⟨later, hlater, rfl⟩ := Option.map_eq_some_iff.mp h
      rcases List.mem_cons.mp hw with rfl | hw
      · exact ⟨key, List.mem_cons_self, hk⟩
      · rcases List.mem_append.mp hw with hw | hw
        · refine (texts_denoted s ht hw).mono fun token htoken => ?_
          exact List.mem_cons_of_mem _ (List.mem_append_left _ htoken)
        · refine (memberTexts_denoted rest hlater hw).mono fun token htoken => ?_
          exact List.mem_cons_of_mem _ (List.mem_append_right _ htoken)
end

mutual
/-- The texts of a tree are the same in every order. -/
theorem texts_arrange (t : Tree) {ranking : Ranking} {w : String}
    (hw : w ∈ (t.arrange ranking).texts) : w ∈ t.texts := by
  cases t with
  | object members =>
    rw [Tree.arrange, Tree.texts, mem_memberTexts] at hw
    obtain ⟨k, t, hmem, h⟩ := hw
    rw [(Entries.byRank_perm _ _).mem_iff] at hmem
    exact memberTexts_arrange members (mem_memberTexts.mpr ⟨k, t, hmem, h⟩)
  | array items =>
    rw [Tree.arrange, Tree.texts] at hw
    exact itemTexts_arrange items hw
  | _ => exact hw
theorem itemTexts_arrange (items : List Tree) {ranking : Ranking} {first : Nat} {w : String}
    (hw : w ∈ itemTexts (arrangeItems ranking first items)) : w ∈ itemTexts items := by
  cases items with
  | nil => cases hw
  | cons t rest =>
    rw [arrangeItems, itemTexts, List.mem_append] at hw
    rw [itemTexts, List.mem_append]
    exact hw.imp (texts_arrange t) (itemTexts_arrange rest)
theorem memberTexts_arrange (members : List (String × Tree)) {ranking : Ranking} {w : String}
    (hw : w ∈ memberTexts (arrangeMembers ranking members)) : w ∈ memberTexts members := by
  cases members with
  | nil => cases hw
  | cons member rest =>
    obtain ⟨k, t⟩ := member
    simp only [arrangeMembers, memberTexts, List.cons_append, List.mem_cons, List.mem_append]
      at hw ⊢
    exact hw.imp_right (Or.imp (texts_arrange t) (memberTexts_arrange rest))
end

-- ---------------------------------------------------------------------------
-- What is wrong with a body
-- ---------------------------------------------------------------------------

theorem exists_flaw {bytes : List UInt8} {ranking : Ranking} {detail : String}
    (h : parse bytes ranking = .error (.invalid detail)) :
    ∃ flaw place, Json.parse bytes = .error (.malformed flaw place) ∧
      flaw.message.toList <+: detail.toList := by
  unfold parse at h
  cases hread : Json.parse bytes with
  | ok v =>
    rw [hread] at h
    cases h
  | error e =>
    rw [hread] at h
    cases e with
    | ended place => cases h
    | malformed flaw place =>
      cases h
      exact ⟨flaw, place, rfl, by simp [List.append_assoc]⟩

theorem invalidUtf8_of_message {flaw : Json.Flaw} {detail : List Char}
    (h : flaw.message.toList <+: detail) (hcode : "invalid unicode code point".toList <+: detail) :
    flaw = .invalidUtf8 := by
  rcases List.prefix_or_prefix_of_prefix h hcode with hprefix | hprefix
  · cases flaw <;> first | rfl | exact absurd hprefix (by decide)
  · cases flaw <;> first | rfl | exact absurd hprefix (by decide)

-- ---------------------------------------------------------------------------
-- Bodies
-- ---------------------------------------------------------------------------

/-- Bytes that are UTF-8 are read as their text, and only these have a tree, with
the strings that are spelled in them. -/
theorem parse_utf8 (bytes : List UInt8) (ranking : Ranking) :
    (∀ text, bytes = Utf8.ofString text →
      parse bytes ranking = parseText text ranking ∧
        ∀ first rest stack role content, bytes = first ++ 0x22 :: rest →
          Json.reached? .bytes {} first = some ⟨stack, .string role content .none⟩ →
            ∃ held, Utf8.toString? content.reverse = some held ∧
              Json.close .bytes content = .ok held) ∧
      (∀ detail, parse bytes ranking = .error (.invalid detail) →
        "invalid unicode code point".toList <+: detail.toList →
          ∀ text, bytes ≠ Utf8.ofString text) ∧
      ∀ t, parse bytes ranking = .ok t →
        (∃ text, bytes = Utf8.ofString text) ∧
          ∀ w ∈ t.texts, ∃ pieces, Json.stringBytes pieces <:+: bytes ∧
            w.toList.map Char.toNat = Json.codePoints pieces := by
  refine ⟨?_, ?_, ?_⟩
  · rintro text rfl
    refine ⟨congrArg (Tree.ofRead ranking) (Json.parse_origin text), ?_⟩
    intro first rest stack role content hsplit hreached
    have haligned := Json.aligned_reached (hsplit ▸ Json.start_aligned text) hreached
    have hcontent : Utf8.WellFormed content.reverse :=
      (Utf8.WellFormed.cut haligned (by decide)).1
    obtain ⟨held, hheld, hclose⟩ := Json.close_wellFormed hcontent
    exact ⟨held, hheld, hclose .bytes⟩
  · rintro detail h hcode text rfl
    obtain ⟨flaw, place, hread, hmessage⟩ := exists_flaw h
    rw [Json.parse_origin] at hread
    exact Json.run_legible hread (invalidUtf8_of_message hmessage hcode)
  · intro t h
    obtain ⟨d, rfl⟩ := exists_body h
    obtain ⟨-, harranged⟩ := (parse_document_iff d ranking t).mp h
    obtain ⟨u, hdenoted, rfl⟩ := Option.map_eq_some_iff.mp harranged
    refine ⟨d.wellFormed.exists_ofString, ?_⟩
    intro w hw
    obtain ⟨pieces, hmem, hpieces⟩ := texts_denoted d.value hdenoted (texts_arrange u hw)
    refine ⟨pieces, ?_, Json.string?_codePoints hpieces⟩
    exact (d.value.bytes_string hmem).trans ⟨d.before.bytes, d.after.bytes, by simp [Document.bytes]⟩

theorem parse_utf8_cases :
    (parse (Utf8.ofString "\"\\ud83d\\ude00ü\"") = parseText "\"\\ud83d\\ude00ü\"" ∧
        ∃ held, Utf8.toString? [0xf0, 0x9f, 0x98, 0x80, 0xc3, 0xbc] = some held ∧
          Json.close .bytes [0xbc, 0xc3, 0x80, 0x98, 0x9f, 0xf0] = .ok held) ∧
      (parse [0x22, 0xff, 0x22] =
          .error (.invalid "invalid unicode code point at line 1 column 2") ∧
        ∀ text, [0x22, 0xff, 0x22] ≠ Utf8.ofString text) ∧
      parse (Utf8.ofString "\"\\ud83d\\ude00ü\"") = .ok (.string "😀ü") ∧
        ∃ pieces, Json.stringBytes pieces <:+: Utf8.ofString "\"\\ud83d\\ude00ü\"" ∧
          "😀ü".toList.map Char.toNat = Json.codePoints pieces := by
  obtain ⟨hread, hclosing⟩ := (parse_utf8 _ .level).1 "\"\\ud83d\\ude00ü\"" rfl
  have hcode : parse [0x22, 0xff, 0x22] =
      .error (.invalid "invalid unicode code point at line 1 column 2") := by
    cbv
  have htree : parse (Utf8.ofString "\"\\ud83d\\ude00ü\"") = .ok (.string "😀ü") := by cbv
  refine ⟨⟨hread, ?_⟩, ⟨hcode, (parse_utf8 _ .level).2.1 _ hcode (by decide)⟩, htree, ?_⟩
  · exact hclosing (Utf8.ofString "\"\\ud83d\\ude00ü") [] [] .value
      [0xbc, 0xc3, 0x80, 0x98, 0x9f, 0xf0] (by decide) (by rfl)
  · exact ((parse_utf8 _ .level).2.2 _ htree).2 "😀ü" (by decide)
end Telemetry.Payload
