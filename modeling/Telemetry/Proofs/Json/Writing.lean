import Telemetry.Json.Writer
import Telemetry.Proofs.Entries
import Telemetry.Proofs.Json.Documents
import Telemetry.Proofs.Json.Integers

/-!
# Reading undoes writing

`Value.spelling` is the spelling that the writer gives a value: no white
space, integers without leading zeros, and escapes only where they are
needed. The writer writes exactly its bytes (`Value.spelling_bytes`) and it
denotes the value again (`Value.spelling_value?`), so the text of a value is
read as that value (`parseText_write`). This is for values without doubles,
in which an object names no key twice and containers are in each other as
deep as the reader allows.
-/

namespace Telemetry.Json

-- ---------------------------------------------------------------------------
-- Integers
-- ---------------------------------------------------------------------------

/-- The digits with one more after them; a zero alone gives way to it. -/
def Whole.push : Whole → Digit → Whole
  | .zero, d => if h : d ≠ 0 then .digits d h [] else .zero
  | .digits first nonzero rest, d => .digits first nonzero (rest ++ [d])

def Whole.ofNat (n : Nat) : Whole :=
  if n = 0 then .zero else (Whole.ofNat (n / 10)).push (Fin.ofNat 10 n)
termination_by n

def Numeral.ofInt (i : Int) : Numeral where
  negative := i < 0
  whole := .ofNat i.natAbs

theorem encode_digitChar : ∀ d : Digit, Utf8.encode [Nat.digitChar d.val] = [d.byte] := by
  decide

theorem Whole.push_list {w : Whole} (h : w ≠ .zero) (d : Digit) :
    (w.push d).list = w.list ++ [d] := by
  cases w with
  | zero => exact absurd rfl h
  | digits first nonzero rest => rfl

theorem Whole.ofNat_list (n : Nat) :
    digitBytes (Whole.ofNat n).list = Utf8.encode (Nat.toDigits 10 n) ∧
      spelled 0 (digitValues (Whole.ofNat n).list) = n := by
  induction n using Nat.strongRecOn with
  | ind n ih =>
    by_cases hsmall : n < 10
    · have hdigits := encode_digitChar ⟨n, hsmall⟩
      rw [Nat.toDigits_of_lt_base hsmall, hdigits]
      rcases Nat.eq_zero_or_pos n with rfl | hpos
      · rw [Whole.ofNat, if_pos rfl]
        exact ⟨rfl, rfl⟩
      · have hfin : Fin.ofNat 10 n = (⟨n, hsmall⟩ : Digit) := Fin.ext (Nat.mod_eq_of_lt hsmall)
        have hne : (⟨n, hsmall⟩ : Digit) ≠ 0 := fun h => by
          have := congrArg Fin.val h
          simp at this
          omega
        have hzero : Whole.ofNat (n / 10) = .zero := by
          rw [Whole.ofNat, if_pos (by omega)]
        rw [Whole.ofNat, if_neg (by omega), hzero, hfin, Whole.push, dif_pos hne]
        exact ⟨rfl, by simp [Whole.list, digitValues, spelled]⟩
    · obtain ⟨hbytes, hvalue⟩ := ih (n / 10) (by omega)
      have hne : Whole.ofNat (n / 10) ≠ .zero := by
        intro h
        rw [h] at hvalue
        have : spelled 0 (digitValues Whole.zero.list) = 0 := rfl
        omega
      have hlast := encode_digitChar (Fin.ofNat 10 n)
      rw [Whole.ofNat, if_neg (by omega), Whole.push_list hne]
      refine ⟨?_, ?_⟩
      · rw [Nat.toDigits_of_base_le (by omega) (by omega), Utf8.encode_append, ← hbytes]
        simpa [digitBytes] using hlast.symm
      · simp only [spelled, digitValues, List.map_append, List.foldl_append] at hvalue ⊢
        rw [hvalue]
        simp only [List.map_cons, List.map_nil, List.foldl_cons, List.foldl_nil, Fin.val_ofNat]
        omega

theorem toList_toString_nat (n : Nat) : (toString n).toList = Nat.toDigits 10 n :=
  String.toList_ofList

theorem toList_toString_int (i : Int) :
    (toString i).toList = (if i < 0 then ['-'] else []) ++ Nat.toDigits 10 i.natAbs := by
  cases i with
  | ofNat n =>
    rw [if_neg (by simp)]
    exact toList_toString_nat n
  | negSucc n =>
    have hsign : toString (Int.negSucc n) = "-" ++ toString (n + 1) := rfl
    rw [if_pos (Int.negSucc_lt_zero n), hsign, String.toList_append, toList_toString_nat]
    rfl

theorem Numeral.ofInt_bytes (i : Int) :
    (Numeral.ofInt i).bytes =
      Utf8.encode ((if i < 0 then ['-'] else []) ++ Nat.toDigits 10 i.natAbs) := by
  have hdigits := (Whole.ofNat_list i.natAbs).1
  have hminus : Utf8.encode ['-'] = [0x2d] := by decide
  simp only [Numeral.bytes, Numeral.ofInt, fractionBytes, exponentBytes, List.append_nil, hdigits,
    Utf8.encode_append, decide_eq_true_eq]
  split
  · rw [hminus]
  · rfl

theorem Numeral.ofInt_integer? (i : Int) : (Numeral.ofInt i).integer? = some i := by
  have hvalue := (Whole.ofNat_list i.natAbs).2
  unfold Numeral.integer? Literal.spelledInt?
  simp only [Numeral.literal, Numeral.ofInt, Option.map_none, List.reverse_reverse, hvalue]
  split
  · rename_i hn
    have hn : i < 0 := by simpa using hn
    rw [if_neg (by omega)]
    congr 1
    omega
  · rename_i hn
    have hn : ¬ i < 0 := by simpa using hn
    congr 1
    omega

def Number.numeral : Number → Numeral
  | .unsigned n => .ofInt n.toNat
  | .negative n _ => .ofInt n.toInt
  | .float _ => .ofInt 0

def Number.IsInteger : Number → Prop
  | .float _ => False
  | _ => True

theorem Number.numeral_bytes {n : Number} (h : n.IsInteger) :
    n.numeral.bytes = Utf8.encode n.write.toList := by
  cases n with
  | unsigned n =>
    rw [Number.numeral, Numeral.ofInt_bytes, if_neg (by omega)]
    simp only [Number.write, Text.ofUInt64, toList_toString_nat]
    rfl
  | negative n below =>
    rw [Number.numeral, Numeral.ofInt_bytes]
    simp only [Number.write, Text.ofInt64, toList_toString_int]
  | float x => exact h.elim

theorem Number.numeral_number? {n : Number} (h : n.IsInteger) : n.numeral.number? = some n := by
  cases n with
  | unsigned n =>
    have hsize : n.toNat < 2 ^ 64 := n.toNat_lt
    have hint : Number.ofInt? (n.toNat : Int) = some (.unsigned n) := by
      rw [Number.ofInt?, dif_neg (by omega), if_pos (by omega)]
      simp
    rw [Number.numeral, Numeral.number?_eq, Numeral.ofInt_integer?, Option.bind_some, hint]
    rfl
  | negative n below =>
    have hlow := n.minValue_le_toInt
    have hneg : n.toInt < 0 := Int64.lt_iff_toInt_lt.mp below
    have hint : Number.ofInt? n.toInt = some (.negative n below) := by
      rw [Number.ofInt?, dif_pos ⟨by exact hlow, hneg⟩]
      simp
    rw [Number.numeral, Numeral.number?_eq, Numeral.ofInt_integer?, Option.bind_some, hint]
    rfl
  | float x => exact h.elim

-- ---------------------------------------------------------------------------
-- Strings
-- ---------------------------------------------------------------------------

def CodeUnit.ofNat (n : Nat) : CodeUnit :=
  ⟨⟨Fin.ofNat 16 (n / 4096), false⟩, ⟨Fin.ofNat 16 (n / 256), false⟩,
    ⟨Fin.ofNat 16 (n / 16), false⟩, ⟨Fin.ofNat 16 n, false⟩⟩

def Piece.ofChar (c : Char) : Piece :=
  if hquote : c = '"' then .short .quote
  else if hbackslash : c = '\\' then .short .backslash
  else if c = '\x08' then .short .backspace
  else if c = '\x0c' then .short .formFeed
  else if c = '\n' then .short .newline
  else if c = '\r' then .short .return
  else if c = '\t' then .short .tab
  else if hlow : c.toNat < 0x20 then .unit (.ofNat c.toNat)
  else .plain c ⟨Nat.not_lt.mp hlow, hquote, hbackslash⟩

theorem control_bytes : ∀ n : Fin 0x20, (Piece.unit (.ofNat n.val)).bytes =
    Utf8.encode ['\\', 'u', '0', '0', hexDigit (n.val / 16), hexDigit (n.val % 16)] := by
  decide

theorem control_value : ∀ n : Fin 0x20, (CodeUnit.ofNat n.val).value = n.val := by
  decide

theorem Piece.ofChar_bytes (c : Char) :
    (Piece.ofChar c).bytes = Utf8.encode (escapeChar c) := by
  unfold Piece.ofChar escapeChar
  split_ifs with h1 h2 h3 h4 h5 h6 h7 h8
  · decide
  · decide
  · decide
  · decide
  · decide
  · decide
  · decide
  · exact control_bytes ⟨c.toNat, h8⟩
  · simp [Piece.bytes, Utf8.encode]

theorem Piece.ofChar_characters? (c : Char) (rest : List Piece) :
    characters? (Piece.ofChar c :: rest) = (characters? rest).map (c :: ·) := by
  unfold Piece.ofChar
  split_ifs with h1 h2 h3 h4 h5 h6 h7 h8
  · rw [characters?, h1]; rfl
  · rw [characters?, h2]; rfl
  · rw [characters?, h3]; rfl
  · rw [characters?, h4]; rfl
  · rw [characters?, h5]; rfl
  · rw [characters?, h6]; rfl
  · rw [characters?, h7]; rfl
  · have hvalue := control_value ⟨c.toNat, h8⟩
    have htrail : ¬ isTrailing (CodeUnit.ofNat c.toNat).value = true := by
      simp [isTrailing, hvalue]
      omega
    have hlead : ¬ isLeading (CodeUnit.ofNat c.toNat).value = true := by
      simp [isLeading, hvalue]
      omega
    rw [characters?_unit htrail hlead, hvalue]
    simp
  · rfl

def pieces (s : String) : List Piece :=
  s.toList.map Piece.ofChar

theorem stringBytes_pieces (s : String) : stringBytes (pieces s) = Utf8.encode (quote s) := by
  have hpieces (cs : List Char) :
      pieceBytes (cs.map Piece.ofChar) = Utf8.encode (cs.flatMap escapeChar) := by
    induction cs with
    | nil => rfl
    | cons c cs ih =>
      rw [List.flatMap_cons, Utf8.encode_append, ← ih, ← Piece.ofChar_bytes]
      rfl
  have hmark : Utf8.encode ['"'] = [0x22] := by decide
  rw [quote, List.cons_append, Utf8.encode_cons, Utf8.encode_append, hmark, ← hpieces]
  rfl

theorem string?_pieces (s : String) : string? (pieces s) = some s := by
  have hcharacters (cs : List Char) : characters? (cs.map Piece.ofChar) = some cs := by
    induction cs with
    | nil => rfl
    | cons c cs ih => rw [List.map_cons, Piece.ofChar_characters?, ih, Option.map_some]
  rw [string?, pieces, hcharacters, Option.map_some, String.ofList_toList]

-- ---------------------------------------------------------------------------
-- Values
-- ---------------------------------------------------------------------------

mutual
/-- The value has no double in it, no object with a key twice, and containers
that fit into each other `room` deep. -/
def Value.Fits (room : Nat) : Value → Prop
  | .number n => n.IsInteger
  | .array items =>
    match room with
    | 0 => False
    | room + 1 => itemsFit room items
  | .object members =>
    match room with
    | 0 => False
    | room + 1 => (members.map (·.1)).Nodup ∧ membersFit room members
  | _ => True
def itemsFit (room : Nat) : List Value → Prop
  | [] => True
  | v :: rest => v.Fits room ∧ itemsFit room rest
def membersFit (room : Nat) : List (String × Value) → Prop
  | [] => True
  | (_, v) :: rest => v.Fits room ∧ membersFit room rest
end

mutual
def Value.spelling : Value → Spelling
  | .null => .null
  | .bool b => .bool b
  | .number n => .number n.numeral
  | .string s => .string (pieces s)
  | .array items => .array [] (itemSpellings items)
  | .object members => .object [] (memberSpellings members)
def itemSpellings : List Value → List Item
  | [] => []
  | v :: rest => .mk [] v.spelling [] :: itemSpellings rest
def memberSpellings : List (String × Value) → List Member
  | [] => []
  | (k, v) :: rest => .mk [] (pieces k) [] [] v.spelling [] :: memberSpellings rest
end

theorem itemBytes_comma (item : Item) (rest : List Item) :
    itemBytes [0x2c] (item :: rest) = 0x2c :: itemBytes [] (item :: rest) := by
  cases item
  rfl

theorem memberBytes_comma (member : Member) (rest : List Member) :
    memberBytes [0x2c] (member :: rest) = 0x2c :: memberBytes [] (member :: rest) := by
  cases member
  rfl

theorem encode_comma : String.utf8EncodeChar ',' = [0x2c] := by
  decide

theorem encode_colon : String.utf8EncodeChar ':' = [0x3a] := by
  decide

mutual
theorem Value.spelling_bytes (v : Value) {room : Nat} (h : v.Fits room) :
    v.spelling.bytes = Utf8.encode v.chars := by
  cases v with
  | null => decide
  | bool b => cases b <;> decide
  | number n => exact Number.numeral_bytes h
  | string s => exact stringBytes_pieces s
  | array items =>
    cases room with
    | zero => exact h.elim
    | succ room =>
      have hitems : itemsFit room items := h
      have hbrackets : Utf8.encode [']'] = [0x5d] ∧ String.utf8EncodeChar '[' = [0x5b] := by decide
      simp only [Value.spelling, Spelling.bytes, Value.chars, List.cons_append, Utf8.encode_cons,
        Utf8.encode_append, hbrackets, itemSpellings_bytes items hitems]
      rfl
  | object members =>
    cases room with
    | zero => exact h.elim
    | succ room =>
      obtain ⟨-, hmembers⟩ : _ ∧ membersFit room members := h
      have hbrackets : Utf8.encode ['\x7d'] = [0x7d] ∧ String.utf8EncodeChar '\x7b' = [0x7b] := by
        decide
      simp only [Value.spelling, Spelling.bytes, Value.chars, List.cons_append, Utf8.encode_cons,
        Utf8.encode_append, hbrackets, memberSpellings_bytes members hmembers]
      rfl
theorem itemSpellings_bytes (items : List Value) {room : Nat} (h : itemsFit room items) :
    itemBytes [] (itemSpellings items) = Utf8.encode (itemChars items) := by
  cases items with
  | nil => rfl
  | cons v rest =>
    have hv := v.spelling_bytes h.1
    have hrest := itemSpellings_bytes rest h.2
    cases rest with
    | nil => simp [itemSpellings, itemBytes, itemChars, hv, Gap.bytes]
    | cons next rest =>
      simp only [itemSpellings] at hrest
      simp only [itemSpellings, itemChars, Utf8.encode_append, Utf8.encode_cons, encode_comma,
        ← hrest, ← hv]
      rw [itemBytes, itemBytes_comma]
      simp [Gap.bytes]
theorem memberSpellings_bytes (members : List (String × Value)) {room : Nat}
    (h : membersFit room members) :
    memberBytes [] (memberSpellings members) = Utf8.encode (memberChars members) := by
  cases members with
  | nil => rfl
  | cons member rest =>
    obtain ⟨k, v⟩ := member
    have hv := v.spelling_bytes h.1
    have hrest := memberSpellings_bytes rest h.2
    cases rest with
    | nil =>
      simp [memberSpellings, memberBytes, memberChars, hv, Gap.bytes, Utf8.encode_append,
        Utf8.encode_cons, encode_colon, stringBytes_pieces]
    | cons next rest =>
      obtain ⟨l, w⟩ := next
      simp only [memberSpellings] at hrest
      simp only [memberSpellings, memberChars, Utf8.encode_append, Utf8.encode_cons, encode_comma,
        encode_colon, ← hrest, ← hv, ← stringBytes_pieces]
      rw [memberBytes, memberBytes_comma]
      simp [Gap.bytes]
end

mutual
theorem Value.spelling_value? (v : Value) {room : Nat} (h : v.Fits room) :
    v.spelling.value? room = some v := by
  cases v with
  | null => rfl
  | bool b => rfl
  | number n => exact congrArg (·.map Value.number) (Number.numeral_number? h)
  | string s => exact congrArg (·.map Value.string) (string?_pieces s)
  | array items =>
    cases room with
    | zero => exact h.elim
    | succ room =>
      have hitems : itemsFit room items := h
      exact congrArg (·.map Value.array) (itemSpellings_items? items hitems)
  | object members =>
    cases room with
    | zero => exact h.elim
    | succ room =>
      obtain ⟨hkeys, hfit⟩ := h
      simp only [Value.spelling, Spelling.value?, memberSpellings_members? members hfit,
        Option.map_some, Entries.ofList_nodup hkeys]
theorem itemSpellings_items? (items : List Value) {room : Nat} (h : itemsFit room items) :
    items? room (itemSpellings items) = some items := by
  cases items with
  | nil => rfl
  | cons v rest =>
    simp only [itemSpellings, items?, v.spelling_value? h.1, itemSpellings_items? rest h.2,
      Option.bind_some, Option.map_some]
theorem memberSpellings_members? (members : List (String × Value)) {room : Nat}
    (h : membersFit room members) :
    members? room (memberSpellings members) = some members := by
  cases members with
  | nil => rfl
  | cons member rest =>
    obtain ⟨k, v⟩ := member
    simp only [memberSpellings, members?, string?_pieces, v.spelling_value? h.1,
      memberSpellings_members? rest h.2, Option.bind_some, Option.map_some]
end

/-- The text of a value is read as the value. -/
theorem parseText_write {v : Value} (h : v.Fits maxOpen) : parseText v.write = .ok v := by
  have hbytes : Utf8.ofString v.write = (Document.mk [] v.spelling []).bytes := by
    rw [Utf8.ofString_eq_encode, Value.write, String.toList_ofList, ← v.spelling_bytes h]
    exact (List.append_nil _).symm
  rw [← toOption_eq_some_iff, Document.parseText _ hbytes, Document.value?, v.spelling_value? h]

end Telemetry.Json
