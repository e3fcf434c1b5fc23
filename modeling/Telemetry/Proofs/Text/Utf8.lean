import Telemetry.Text.Utf8

/-!
# Decoding undoes encoding

The bytes of a character, with anything after them, are read back as that
character (`next?_encodeChar`), so the bytes of a text are read back as the
text (`toString?_encode`). No other bytes are a text (`toString?_eq_some`). Where
the bytes of a text hold an ASCII character, what stands before it and what
stands after it are texts (`WellFormed.cut`).
-/

namespace Telemetry.Utf8

theorem encode_append (first second : List Char) :
    encode (first ++ second) = encode first ++ encode second :=
  List.flatMap_append

theorem encode_cons (c : Char) (cs : List Char) :
    encode (c :: cs) = String.utf8EncodeChar c ++ encode cs :=
  List.flatMap_cons

theorem tail_ofNat {n : Nat} (h : n < 64) : tail (UInt8.ofNat (n + 0x80)) = some n := by
  have hn : (UInt8.ofNat (n + 0x80)).toNat = n + 0x80 := by
    simp only [UInt8.toNat_ofNat']
    omega
  simp only [tail, hn]
  rw [if_pos (by omega)]
  simp

section
variable {n : Nat}

theorem lead_ascii (h : n < 0x80) : lead (UInt8.ofNat n) = some (0, n, 0) := by
  simp only [lead, UInt8.toNat_ofNat']
  rw [Nat.mod_eq_of_lt (by omega), if_pos h]

theorem lead_ofTwo (h : n < 0x20) : lead (UInt8.ofNat (n + 0xc0)) = some (1, n, 0x80) := by
  simp only [lead, UInt8.toNat_ofNat']
  rw [Nat.mod_eq_of_lt (by omega), if_neg (by omega), if_neg (by omega), if_pos (by omega)]
  simp

theorem lead_ofThree (h : n < 0x10) : lead (UInt8.ofNat (n + 0xe0)) = some (2, n, 0x800) := by
  simp only [lead, UInt8.toNat_ofNat']
  rw [Nat.mod_eq_of_lt (by omega), if_neg (by omega), if_neg (by omega), if_neg (by omega),
    if_pos (by omega)]
  simp

theorem lead_ofFour (h : n < 0x08) : lead (UInt8.ofNat (n + 0xf0)) = some (3, n, 0x10000) := by
  simp only [lead, UInt8.toNat_ofNat']
  rw [Nat.mod_eq_of_lt (by omega), if_neg (by omega), if_neg (by omega), if_neg (by omega),
    if_neg (by omega), if_pos (by omega)]
  simp

end

theorem next?_encodeChar (c : Char) (rest : List UInt8) :
    next? (String.utf8EncodeChar c ++ rest) = some (c, rest) := by
  have hvalid : c.val.toNat.isValidChar := c.valid
  have hc : Char.ofNat c.val.toNat = c := Char.ofNat_toNat c
  have hmax : c.val.toNat < 0x110000 := by
    rcases hvalid with h | h <;> omega
  unfold String.utf8EncodeChar
  generalize c.val.toNat = n at hvalid hc hmax
  dsimp only
  split
  · rename_i h
    simp only [List.cons_append, List.nil_append, next?, lead_ascii (show n < 0x80 by omega),
      collect, hvalid, hc]
    simp
  · split
    · rename_i hlow h
      simp only [List.cons_append, List.nil_append, next?,
        lead_ofTwo (show n / 64 % 0x20 < 0x20 by omega), collect,
        tail_ofNat (show n % 0x40 < 64 by omega)]
      rw [show n / 64 % 0x20 * 64 + n % 0x40 = n by omega, if_pos ⟨by omega, hvalid⟩, hc]
    · split
      · rename_i hlow hmid h
        simp only [List.cons_append, List.nil_append, next?,
          lead_ofThree (show n / 4096 % 0x10 < 0x10 by omega), collect,
          tail_ofNat (show n / 64 % 0x40 < 64 by omega), tail_ofNat (show n % 0x40 < 64 by omega)]
        rw [show (n / 4096 % 0x10 * 64 + n / 64 % 0x40) * 64 + n % 0x40 = n by omega,
          if_pos ⟨by omega, hvalid⟩, hc]
      · rename_i hlow hmid h
        simp only [List.cons_append, List.nil_append, next?,
          lead_ofFour (show n / 262144 % 0x08 < 0x08 by omega), collect,
          tail_ofNat (show n / 4096 % 0x40 < 64 by omega),
          tail_ofNat (show n / 64 % 0x40 < 64 by omega), tail_ofNat (show n % 0x40 < 64 by omega)]
        have hvalue :
            ((n / 262144 % 0x08 * 64 + n / 4096 % 0x40) * 64 + n / 64 % 0x40) * 64 + n % 0x40 =
              n := by
          omega
        rw [hvalue, if_pos ⟨by omega, hvalid⟩, hc]

theorem decodeOnto_some {bs rest : List UInt8} {c : Char} (h : next? bs = some (c, rest))
    (read : List Char) : decodeOnto read bs = decodeOnto (c :: read) rest := by
  rw [decodeOnto.eq_def read bs]
  split
  · rename_i hnext
    rw [h] at hnext
    cases hnext
    rfl
  · rename_i hnext
    rw [h] at hnext
    cases hnext

theorem decodeOnto_none {bs : List UInt8} (h : next? bs = none) (read : List Char) :
    decodeOnto read bs = if bs.isEmpty then some read.reverse else none := by
  rw [decodeOnto.eq_def read bs]
  split
  · rename_i hnext
    rw [h] at hnext
    cases hnext
  · rfl

theorem decodeOnto_encode (cs read : List Char) :
    decodeOnto read (encode cs) = some (read.reverse ++ cs) := by
  induction cs generalizing read with
  | nil => exact (decodeOnto_none rfl read).trans (by simp [encode])
  | cons c cs ih =>
    have hnext : next? (encode (c :: cs)) = some (c, encode cs) := next?_encodeChar c (encode cs)
    simp [decodeOnto_some hnext, ih]

theorem toString?_encode (cs : List Char) : toString? (encode cs) = some (String.ofList cs) := by
  simp [toString?, decode?, decodeOnto_encode]

-- ---------------------------------------------------------------------------
-- Nothing else is decoded
-- ---------------------------------------------------------------------------

theorem tail_eq_some {a : UInt8} {n : Nat} (h : tail a = some n) :
    n < 64 ∧ a = UInt8.ofNat (n + 0x80) := by
  unfold tail at h
  split at h
  · rename_i ha
    obtain rfl := Option.some.inj h
    refine ⟨by omega, UInt8.toNat_inj.mp ?_⟩
    rw [UInt8.toNat_ofNat']
    omega
  · cases h

theorem lead_eq_some {a : UInt8} {k bits least : Nat} (h : lead a = some (k, bits, least)) :
    (k = 0 ∧ least = 0 ∧ bits < 0x80 ∧ a = UInt8.ofNat bits) ∨
      (k = 1 ∧ least = 0x80 ∧ bits < 0x20 ∧ a = UInt8.ofNat (bits + 0xc0)) ∨
      (k = 2 ∧ least = 0x800 ∧ bits < 0x10 ∧ a = UInt8.ofNat (bits + 0xe0)) ∨
      (k = 3 ∧ least = 0x10000 ∧ bits < 0x08 ∧ a = UInt8.ofNat (bits + 0xf0)) := by
  have hback {offset : Nat} (hoffset : offset ≤ a.toNat) :
      a = UInt8.ofNat (a.toNat - offset + offset) := by
    refine UInt8.toNat_inj.mp ?_
    rw [UInt8.toNat_ofNat', Nat.sub_add_cancel hoffset, Nat.mod_eq_of_lt a.toNat_lt]
  unfold lead at h
  dsimp only at h
  split at h
  · simp only [Option.some.injEq, Prod.mk.injEq] at h
    obtain ⟨rfl, rfl, rfl⟩ := h
    exact .inl ⟨rfl, rfl, by omega, hback (Nat.zero_le _)⟩
  · obtain ⟨hlow, h⟩ := Option.ite_none_left_eq_some.mp h
    split at h
    · simp only [Option.some.injEq, Prod.mk.injEq] at h
      obtain ⟨rfl, rfl, rfl⟩ := h
      exact .inr (.inl ⟨rfl, rfl, by omega, hback (by omega)⟩)
    · split at h
      · simp only [Option.some.injEq, Prod.mk.injEq] at h
        obtain ⟨rfl, rfl, rfl⟩ := h
        exact .inr (.inr (.inl ⟨rfl, rfl, by omega, hback (by omega)⟩))
      · obtain ⟨hhigh, h⟩ := Option.ite_none_right_eq_some.mp h
        simp only [Option.some.injEq, Prod.mk.injEq] at h
        obtain ⟨rfl, rfl, rfl⟩ := h
        exact .inr (.inr (.inr ⟨rfl, rfl, by omega, hback (by omega)⟩))

theorem collect_succ_eq_some {k bits n : Nat} {bs rest : List UInt8}
    (h : collect (k + 1) bits bs = some (n, rest)) :
    ∃ low later, low < 64 ∧ bs = UInt8.ofNat (low + 0x80) :: later ∧
      collect k (bits * 64 + low) later = some (n, rest) := by
  cases bs with
  | nil => cases h
  | cons a later =>
    simp only [collect] at h
    split at h
    · rename_i low hlow
      obtain ⟨hlt, rfl⟩ := tail_eq_some hlow
      exact ⟨low, later, hlt, rfl, h⟩
    · cases h

theorem val_ofNat {n : Nat} (h : n.isValidChar) : (Char.ofNat n).val.toNat = n := by
  rw [Char.ofNat, dif_pos h]
  rfl

theorem next?_eq_some {bs rest : List UInt8} {c : Char} (h : next? bs = some (c, rest)) :
    bs = String.utf8EncodeChar c ++ rest := by
  cases bs with
  | nil => cases h
  | cons a bs =>
    simp only [next?] at h
    split at h
    · cases h
    rename_i k bits least hlead
    split at h
    · cases h
    rename_i n later hcollect
    obtain ⟨⟨hleast, hvalid⟩, h⟩ := Option.ite_none_right_eq_some.mp h
    simp only [Option.some.injEq, Prod.mk.injEq] at h
    obtain ⟨rfl, rfl⟩ := h
    have hvalue : (Char.ofNat n).val.toNat = n := val_ofNat hvalid
    unfold String.utf8EncodeChar
    rw [hvalue]
    dsimp only
    rcases lead_eq_some hlead with ⟨rfl, rfl, hbits, rfl⟩ | ⟨rfl, rfl, hbits, rfl⟩ |
      ⟨rfl, rfl, hbits, rfl⟩ | ⟨rfl, rfl, hbits, rfl⟩
    · simp only [collect, Option.some.injEq, Prod.mk.injEq] at hcollect
      obtain ⟨rfl, rfl⟩ := hcollect
      rw [if_pos (by omega)]
      rfl
    · obtain ⟨x, bs, hx, rfl, hlast⟩ := collect_succ_eq_some hcollect
      simp only [collect, Option.some.injEq, Prod.mk.injEq] at hlast
      obtain ⟨rfl, rfl⟩ := hlast
      rw [if_neg (by omega), if_pos (by omega), show (bits * 64 + x) / 64 % 0x20 = bits by omega,
        show (bits * 64 + x) % 0x40 = x by omega]
      rfl
    · obtain ⟨x, bs, hx, rfl, hmiddle⟩ := collect_succ_eq_some hcollect
      obtain ⟨y, bs, hy, rfl, hlast⟩ := collect_succ_eq_some hmiddle
      simp only [collect, Option.some.injEq, Prod.mk.injEq] at hlast
      obtain ⟨rfl, rfl⟩ := hlast
      rw [if_neg (by omega), if_neg (by omega), if_pos (by omega),
        show ((bits * 64 + x) * 64 + y) / 4096 % 0x10 = bits by omega,
        show ((bits * 64 + x) * 64 + y) / 64 % 0x40 = x by omega,
        show ((bits * 64 + x) * 64 + y) % 0x40 = y by omega]
      rfl
    · obtain ⟨x, bs, hx, rfl, hsecond⟩ := collect_succ_eq_some hcollect
      obtain ⟨y, bs, hy, rfl, hthird⟩ := collect_succ_eq_some hsecond
      obtain ⟨z, bs, hz, rfl, hlast⟩ := collect_succ_eq_some hthird
      simp only [collect, Option.some.injEq, Prod.mk.injEq] at hlast
      obtain ⟨rfl, rfl⟩ := hlast
      rw [if_neg (by omega), if_neg (by omega), if_neg (by omega),
        show (((bits * 64 + x) * 64 + y) * 64 + z) / 262144 % 0x08 = bits by omega,
        show (((bits * 64 + x) * 64 + y) * 64 + z) / 4096 % 0x40 = x by omega,
        show (((bits * 64 + x) * 64 + y) * 64 + z) / 64 % 0x40 = y by omega,
        show (((bits * 64 + x) * 64 + y) * 64 + z) % 0x40 = z by omega]
      rfl

theorem decodeOnto_eq_some {read cs : List Char} {bs : List UInt8}
    (h : decodeOnto read bs = some cs) : ∃ later, cs = read.reverse ++ later ∧ bs = encode later := by
  induction read, bs using decodeOnto.induct with
  | case1 read bs c rest hnext ih =>
    obtain ⟨later, rfl, rfl⟩ := ih (decodeOnto_some hnext read ▸ h)
    exact ⟨c :: later, by simp, next?_eq_some hnext⟩
  | case2 read bs hnext hempty =>
    rw [decodeOnto_none hnext, if_pos hempty] at h
    obtain rfl := Option.some.inj h
    exact ⟨[], by simp, List.isEmpty_iff.mp hempty⟩
  | case3 read bs hnext hempty =>
    rw [decodeOnto_none hnext, if_neg hempty] at h
    cases h

theorem toString?_eq_some {bs : List UInt8} {s : String} (h : toString? bs = some s) :
    bs = encode s.toList := by
  obtain ⟨cs, hcs, rfl⟩ := Option.map_eq_some_iff.mp h
  obtain ⟨later, rfl, rfl⟩ := decodeOnto_eq_some hcs
  simp

theorem decode?_isSome_iff {bs : List UInt8} :
    (decode? bs).isSome = true ↔ ∃ text : String, bs = ofString text := by
  constructor
  · intro h
    obtain ⟨cs, hcs⟩ := Option.isSome_iff_exists.mp h
    have htext : toString? bs = some (String.ofList cs) := by simp [toString?, hcs]
    exact ⟨String.ofList cs, (toString?_eq_some htext).trans (ofString_eq_encode _).symm⟩
  · rintro ⟨text, rfl⟩
    simp [ofString_eq_encode, decode?, decodeOnto_encode]

-- ---------------------------------------------------------------------------
-- Cuts at ASCII characters
-- ---------------------------------------------------------------------------

def WellFormed (bytes : List UInt8) : Prop :=
  ∃ cs, bytes = encode cs

def Ascii (b : UInt8) : Prop :=
  b < 0x80

instance (b : UInt8) : Decidable (Ascii b) :=
  inferInstanceAs (Decidable (b < 0x80))

theorem wellFormed_nil : WellFormed [] :=
  ⟨[], rfl⟩

theorem wellFormed_ofString (text : String) : WellFormed (ofString text) :=
  ⟨text.toList, ofString_eq_encode text⟩

theorem wellFormed_encodeChar (c : Char) : WellFormed (String.utf8EncodeChar c) :=
  ⟨[c], by simp [encode]⟩

theorem WellFormed.append {first second : List UInt8} (h : WellFormed first)
    (h' : WellFormed second) : WellFormed (first ++ second) := by
  obtain ⟨cs, rfl⟩ := h
  obtain ⟨ds, rfl⟩ := h'
  exact ⟨cs ++ ds, (encode_append cs ds).symm⟩

theorem WellFormed.exists_ofString {bytes : List UInt8} (h : WellFormed bytes) :
    ∃ text : String, bytes = ofString text := by
  obtain ⟨cs, rfl⟩ := h
  exact ⟨String.ofList cs, by rw [ofString_eq_encode, String.toList_ofList]⟩

theorem WellFormed.exists_toString? {bytes : List UInt8} (h : WellFormed bytes) :
    ∃ text, toString? bytes = some text := by
  obtain ⟨cs, rfl⟩ := h
  exact ⟨String.ofList cs, toString?_encode cs⟩

theorem encodeChar_of_ascii {c : Char} {b : UInt8} (hb : b ∈ String.utf8EncodeChar c)
    (ascii : Ascii b) : String.utf8EncodeChar c = [b] := by
  have hlow : b.toNat < 0x80 := UInt8.lt_iff_toNat_lt.mp ascii
  unfold String.utf8EncodeChar at hb ⊢
  dsimp only at hb ⊢
  split at hb
  · rw [if_pos (by assumption), List.mem_singleton.mp hb]
  · -- no byte of a longer sequence is below 0x80
    split at hb
    · simp only [List.mem_cons, List.not_mem_nil, or_false] at hb
      rcases hb with rfl | rfl <;> rw [UInt8.toNat_ofNat'] at hlow <;> omega
    · split at hb
      · simp only [List.mem_cons, List.not_mem_nil, or_false] at hb
        rcases hb with rfl | rfl | rfl <;> rw [UInt8.toNat_ofNat'] at hlow <;> omega
      · simp only [List.mem_cons, List.not_mem_nil, or_false] at hb
        rcases hb with rfl | rfl | rfl | rfl <;> rw [UInt8.toNat_ofNat'] at hlow <;> omega

theorem WellFormed.cut {first rest : List UInt8} {b : UInt8}
    (h : WellFormed (first ++ b :: rest)) (ascii : Ascii b) :
    WellFormed first ∧ WellFormed rest := by
  obtain ⟨cs, hcs⟩ := h
  induction cs generalizing first with
  | nil => exact absurd (List.append_eq_nil_iff.mp hcs).2 (List.cons_ne_nil b rest)
  | cons c cs ih =>
    rw [encode_cons] at hcs
    rcases List.append_eq_append_iff.mp hcs with ⟨others, hc, hrest⟩ | ⟨more, rfl, hlater⟩
    · -- the byte is one of the first character's, unless this ends before it
      rcases others with _ | ⟨head, others⟩
      · rw [List.append_nil] at hc
        obtain ⟨-, hwhole⟩ := @ih [] hrest
        exact ⟨⟨[c], by simp [encode, hc]⟩, hwhole⟩
      · obtain ⟨rfl, rfl⟩ := List.cons.inj hrest
        have hone := encodeChar_of_ascii (c := c) (b := b) (by simp [hc]) ascii
        rw [hone] at hc
        obtain ⟨rfl, rfl⟩ : first = [] ∧ others = [] := by
          simpa [List.singleton_eq_append_iff] using hc
        exact ⟨wellFormed_nil, ⟨cs, by simp⟩⟩
    · obtain ⟨hmore, hwhole⟩ := ih hlater.symm
      exact ⟨(wellFormed_encodeChar c).append hmore, hwhole⟩

theorem WellFormed.tail {rest : List UInt8} {b : UInt8} (h : WellFormed (b :: rest))
    (ascii : Ascii b) : WellFormed rest := by
  have hbytes : WellFormed ([] ++ b :: rest) := h
  exact (hbytes.cut ascii).2

theorem wellFormed_of_ascii {bytes : List UInt8} (h : ∀ b ∈ bytes, Ascii b) :
    WellFormed bytes := by
  induction bytes with
  | nil => exact wellFormed_nil
  | cons b bytes ih =>
    have hlow : b.toNat < 0x80 := UInt8.lt_iff_toNat_lt.mp (h b List.mem_cons_self)
    have hbyte : WellFormed [b] := by
      refine ⟨[Char.ofNat b.toNat], ?_⟩
      have hvalue : (Char.ofNat b.toNat).val.toNat = b.toNat := val_ofNat (.inl (by omega))
      simp only [encode, List.flatMap_cons, List.flatMap_nil, List.append_nil]
      unfold String.utf8EncodeChar
      simp only [hvalue]
      rw [if_pos (by omega), UInt8.ofNat_toNat]
    exact hbyte.append (ih fun c hc => h c (List.mem_cons_of_mem _ hc))

end Telemetry.Utf8
