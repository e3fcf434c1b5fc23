import Telemetry.Proofs.Json.Scanning

/-!
# What a scan takes

Which texts a scan takes is said by a form: `Scan.Takes` holds if the scan
succeeds on the texts of that form and on no others, whatever comes after them
as long as no number goes on with it. A value is taken where a document stands
that denotes it (`takes_value`), an object where its members stand, each as its
key asks (`takes_members`), one of several forms where the first byte tells
which (`takes_choice`). The items of an array are read one at a time
(`item_sound`, `item_complete`). A text as a whole is scanned if it has the
form (`Takes.run_iff`). White space around a text of a form belongs to it, so that
nobody has to say which scan takes the white space between two tokens.
-/

namespace Telemetry.Json

variable {v : Value} {b : UInt8} {bytes rest text : List UInt8}

def Denotes (v : Value) (text : List UInt8) : Prop :=
  ∃ d : Document, d.bytes = text ∧ d.value? = some v

theorem Denotes.spaced (h : Denotes v text) (before after : Gap) :
    Denotes v (before.bytes ++ (text ++ after.bytes)) := by
  obtain ⟨d, rfl, hv⟩ := h
  exact ⟨⟨before ++ d.before, d.value, d.after ++ after⟩,
    by simp [Document.bytes, gap_append], hv⟩

theorem Denotes.after (h : Denotes v text) (gap : Gap) : Denotes v (gap.bytes ++ text) := by
  simpa [Gap.bytes] using h.spaced gap []

-- ---------------------------------------------------------------------------
-- First bytes
-- ---------------------------------------------------------------------------

def Opens : Value → UInt8 → Prop
  | .null, b => b = 0x6e
  | .bool _, b => b = 0x74 ∨ b = 0x66
  | .number _, b => b = 0x2d ∨ isDigit b = true
  | .string _, b => b = 0x22
  | .array _, b => b = 0x5b
  | .object _, b => b = 0x7b

theorem isDigit_not_space (h : isDigit b = true) : ¬ isSpace b = true := by
  intro hspace
  obtain ⟨blank, rfl⟩ := exists_blank hspace
  cases blank <;> simp [isDigit, Blank.byte] at h

theorem Opens.not_space (h : Opens v b) : ¬ isSpace b = true := by
  cases v with
  | bool _ => rcases h with rfl | rfl <;> decide
  | number _ =>
    rcases h with rfl | hdigit
    · decide
    · exact isDigit_not_space hdigit
  | _ => cases h; decide

theorem Opens.not_close (h : Opens v b) : b ≠ 0x5d := by
  rintro rfl
  cases v <;> simp [Opens, isDigit] at h

theorem Opens.container (h : Opens v b) (hb : Scan.isOpening b = true) :
    (∃ items, v = .array items) ∨ ∃ members, v = .object members := by
  have hb : b = 0x5b ∨ b = 0x7b := by simpa [Scan.isOpening] using hb
  cases v with
  | array items => exact .inl ⟨items, rfl⟩
  | object members => exact .inr ⟨members, rfl⟩
  | _ => rcases hb with rfl | rfl <;> simp [Opens, isDigit] at h

theorem Numeral.bytes_first (n : Numeral) :
    ∃ b later, n.bytes = b :: later ∧ (b = 0x2d ∨ isDigit b = true) := by
  obtain ⟨negative, whole, fraction, exponent⟩ := n
  cases negative with
  | true => exact ⟨0x2d, _, rfl, .inl rfl⟩
  | false =>
    cases whole with
    | zero => exact ⟨0x30, _, rfl, .inr rfl⟩
    | digits first _ _ => exact ⟨first.byte, _, rfl, .inr (isDigit_byte first)⟩

theorem Spelling.bytes_first {s : Spelling} {room : Nat} (h : s.value? room = some v) :
    ∃ b later, s.bytes = b :: later ∧ Opens v b := by
  cases s with
  | null =>
    cases h
    exact ⟨_, _, rfl, rfl⟩
  | bool x =>
    cases h
    cases x with
    | true => exact ⟨_, _, rfl, .inl rfl⟩
    | false => exact ⟨_, _, rfl, .inr rfl⟩
  | number n =>
    obtain ⟨_, -, rfl⟩ := Option.map_eq_some_iff.mp h
    exact n.bytes_first
  | string pieces =>
    obtain ⟨_, -, rfl⟩ := Option.map_eq_some_iff.mp h
    exact ⟨_, _, rfl, rfl⟩
  | array gap items =>
    cases room with
    | zero => cases h
    | succ room =>
      obtain ⟨_, -, rfl⟩ := Option.map_eq_some_iff.mp h
      exact ⟨_, _, rfl, rfl⟩
  | object gap members =>
    cases room with
    | zero => cases h
    | succ room =>
      obtain ⟨_, -, rfl⟩ := Option.map_eq_some_iff.mp h
      exact ⟨_, _, rfl, rfl⟩

theorem Denotes.first (h : Denotes v text) :
    ∃ (gap : Gap) (b : UInt8) (later : List UInt8), text = gap.bytes ++ b :: later ∧ Opens v b ∧
      Denotes v (b :: later) := by
  obtain ⟨⟨before, value, after⟩, rfl, hv⟩ := h
  obtain ⟨b, later, hbytes, hopens⟩ := Spelling.bytes_first hv
  refine ⟨before, b, later ++ after.bytes, ?_, hopens, ⟨[], value, after⟩, ?_, hv⟩
  · simp [Document.bytes, hbytes]
  · simp [Document.bytes, hbytes, Gap.bytes]

namespace Scan

variable {α β ρ : Type} {a : α}

-- ---------------------------------------------------------------------------
-- Forms
-- ---------------------------------------------------------------------------

/-- The scan takes the texts of a form and no others. -/
structure Takes (scan : Scan α) (Form : α → List UInt8 → Prop) : Prop where
  sound : ∀ {bytes a rest}, Gives scan bytes a rest → ∃ text, bytes = text ++ rest ∧ Form a text
  complete : ∀ {a text rest}, Form a text → Stops rest →
    ∃ gap : Gap, Gives scan (text ++ rest) a (gap.bytes ++ rest)
  spaced : ∀ {a text}, Form a text → ∀ before after : Gap,
    Form a (before.bytes ++ (text ++ after.bytes))

theorem all_isSpace_iff : bytes.all isSpace = true ↔ ∃ gap : Gap, bytes = gap.bytes := by
  constructor
  · intro h
    obtain ⟨gap, rest, rfl, hrest⟩ := exists_gap bytes
    cases rest with
    | nil => exact ⟨gap, List.append_nil _⟩
    | cons b rest => exact absurd (List.all_eq_true.mp h b (by simp)) (hrest b rfl)
  · rintro ⟨gap, rfl⟩
    simp [Gap.bytes, isSpace_byte]

theorem Takes.run_iff {scan : Scan α} {Form : α → List UInt8 → Prop} (h : Takes scan Form) :
    run scan bytes = .ok a ↔ Form a bytes := by
  have hrun : run scan bytes = .ok a ↔ ∃ rest, Gives scan bytes a rest ∧ rest.all isSpace = true := by
    simp only [run, Gives]
    cases StateT.run scan bytes with
    | error e => simp [bind, Except.bind]
    | ok taken =>
      obtain ⟨a', rest⟩ := taken
      simp only [bind, Except.bind]
      split <;> simp_all [pure, Except.pure, throw, throwThe, MonadExceptOf.throw]
  simp only [hrun, all_isSpace_iff]
  constructor
  · rintro ⟨rest, hgives, gap, rfl⟩
    obtain ⟨text, rfl, hform⟩ := h.sound hgives
    exact h.spaced hform [] gap
  · intro hform
    obtain ⟨gap, hgives⟩ := h.complete hform stops_nil
    exact ⟨gap.bytes, by simpa using hgives, gap, rfl⟩

theorem takes_value : Takes value Denotes where
  sound h := by
    obtain ⟨text, rfl, hreads⟩ := front_sound (gives_value.mp h)
    rw [← run_toOption .bytes {} {} text] at hreads
    exact ⟨text, rfl, exists_document (toOption_eq_some_iff.mp hreads)⟩
  complete := by
    rintro v text rest ⟨d, rfl, hv⟩ hrest
    obtain ⟨gap, hgap⟩ := front_complete (s := {}) nofun (d.reads.trans hv) hrest
    exact ⟨gap, gives_value.mpr hgap⟩
  spaced h := h.spaced

theorem gives_scalar {accept : Value → Option α} :
    Gives (scalar accept) bytes a rest ↔
      ∃ b mid v, Gives peek bytes b mid ∧ isOpening b = false ∧ Gives value mid v rest ∧
        accept v = some a := by
  simp only [scalar, gives_bind]
  constructor
  · rintro ⟨b, mid, hpeek, h⟩
    split at h
    · simp [gives_bind] at h
    · rename_i hopening
      obtain ⟨v, later, hvalue, h⟩ := gives_bind.mp h
      cases ha : accept v with
      | none => simp [ha] at h
      | some a' =>
        obtain ⟨rfl, rfl⟩ : a' = a ∧ later = rest := by simpa [ha] using h
        exact ⟨b, mid, v, hpeek, by simpa using hopening, hvalue, ha⟩
  · rintro ⟨b, mid, v, hpeek, hopening, hvalue, ha⟩
    refine ⟨b, mid, hpeek, ?_⟩
    rw [if_neg (by simp [hopening])]
    exact gives_bind.mpr ⟨v, rest, hvalue, by simp [ha]⟩

theorem gives_key {k : String} :
    Gives key bytes k rest ↔ ∃ mid, Gives peek bytes 0x22 mid ∧ Gives value mid (.string k) rest := by
  simp only [key, gives_bind]
  constructor
  · rintro ⟨b, mid, hpeek, h⟩
    split at h
    · simp [gives_bind] at h
    · rename_i hquote
      obtain ⟨v, later, hvalue, h⟩ := gives_bind.mp h
      obtain rfl := not_ne_iff.mp hquote
      cases v with
      | string k' =>
        obtain ⟨rfl, rfl⟩ : k' = k ∧ later = rest := by simpa using h
        exact ⟨mid, hpeek, hvalue⟩
      | _ => simp at h
  · rintro ⟨mid, hpeek, hvalue⟩
    refine ⟨0x22, mid, hpeek, ?_⟩
    rw [if_neg (by simp)]
    exact gives_bind.mpr ⟨.string k, rest, hvalue, by simp⟩

theorem Denotes.gives (h : Denotes v text) (hrest : Stops rest) :
    ∃ (b : UInt8) (mid : List UInt8) (gap : Gap), Opens v b ∧ Gives peek (text ++ rest) b mid ∧
      Gives value mid v (gap.bytes ++ rest) := by
  obtain ⟨before, b, later, rfl, hopens, hlater⟩ := h.first
  obtain ⟨gap, hvalue⟩ := takes_value.complete hlater hrest
  refine ⟨b, b :: (later ++ rest), gap, hopens, gives_peek.mpr ?_, hvalue⟩
  exact ⟨before, later ++ rest, by simp, rfl, hopens.not_space⟩

theorem takes_scalar {accept : Value → Option α} (harray : ∀ items, accept (.array items) = none)
    (hobject : ∀ members, accept (.object members) = none) :
    Takes (scalar accept) fun a text => ∃ v, Denotes v text ∧ accept v = some a where
  sound := by
    intro bytes a rest h
    obtain ⟨b, mid, v, hpeek, -, hvalue, ha⟩ := gives_scalar.mp h
    obtain ⟨gap, later, rfl, -, -⟩ := gives_peek.mp hpeek
    obtain ⟨text, rfl, hv⟩ := takes_value.sound hvalue
    exact ⟨gap.bytes ++ text, by simp, v, hv.after gap, ha⟩
  complete := by
    rintro a text rest ⟨v, hv, ha⟩ hrest
    obtain ⟨b, mid, gap, hopens, hpeek, hvalue⟩ := Denotes.gives hv hrest
    refine ⟨gap, gives_scalar.mpr ⟨b, mid, v, hpeek, ?_, hvalue, ha⟩⟩
    refine Bool.eq_false_iff.mpr fun hopening => ?_
    rcases hopens.container hopening with ⟨items, rfl⟩ | ⟨members, rfl⟩
    · simp [harray] at ha
    · simp [hobject] at ha
  spaced := by
    rintro a text ⟨v, hv, ha⟩ before after
    exact ⟨v, hv.spaced before after, ha⟩

theorem takes_key : Takes key fun k text => Denotes (.string k) text where
  sound := by
    intro bytes k rest h
    obtain ⟨mid, hpeek, hvalue⟩ := gives_key.mp h
    obtain ⟨gap, later, rfl, -, -⟩ := gives_peek.mp hpeek
    obtain ⟨text, rfl, hv⟩ := takes_value.sound hvalue
    exact ⟨gap.bytes ++ text, by simp, hv.after gap⟩
  complete := by
    intro k text rest h hrest
    obtain ⟨b, mid, gap, rfl, hpeek, hvalue⟩ := Denotes.gives h hrest
    exact ⟨gap, gives_key.mpr ⟨mid, hpeek, hvalue⟩⟩
  spaced h := h.spaced

/-- Bytes that are passed over as a whole, with white space around them. -/
def PassedOver (text : List UInt8) : Prop :=
  ∃ (passed : List UInt8) (after : Gap), text = passed ++ after.bytes ∧ skim passed = .ok []

theorem takes_pass : Takes pass fun _ text => PassedOver text where
  sound h := by
    obtain ⟨text, rfl, htext⟩ := Skim.run_sound (gives_pass.mp h)
    exact ⟨text, rfl, text, [], (List.append_nil _).symm, htext⟩
  complete := by
    rintro _ text rest ⟨passed, after, rfl, hpassed⟩ hrest
    refine ⟨after, gives_pass.mpr ?_⟩
    rw [List.append_assoc]
    exact Skim.run_append hpassed (stops_gap after hrest)
  spaced := by
    rintro _ text ⟨passed, after, rfl, hpassed⟩ before later
    exact ⟨before.bytes ++ passed, after ++ later, by simp [gap_append],
      (skim_gap before).trans hpassed⟩

-- ---------------------------------------------------------------------------
-- Scans after one another
-- ---------------------------------------------------------------------------

theorem Takes.congr {scan : Scan α} {Form Other : α → List UInt8 → Prop} (h : Takes scan Form)
    (hforms : ∀ a text, Form a text ↔ Other a text) : Takes scan Other := by
  obtain rfl : Form = Other := funext fun a => funext fun text => propext (hforms a text)
  exact h

theorem Takes.bind_pure {scan : Scan α} {Form : α → List UInt8 → Prop} (h : Takes scan Form)
    (make : α → β) :
    Takes (do return make (← scan)) fun c text => ∃ a, Form a text ∧ make a = c where
  sound := by
    intro bytes c rest hgives
    obtain ⟨a, mid, hscan, hpure⟩ := gives_bind.mp hgives
    obtain ⟨rfl, rfl⟩ := gives_pure.mp hpure
    obtain ⟨text, rfl, hform⟩ := h.sound hscan
    exact ⟨text, rfl, a, hform, rfl⟩
  complete := by
    rintro c text rest ⟨a, hform, rfl⟩ hrest
    obtain ⟨gap, hscan⟩ := h.complete hform hrest
    exact ⟨gap, gives_bind.mpr ⟨a, _, hscan, gives_pure.mpr ⟨rfl, rfl⟩⟩⟩
  spaced := by
    rintro c text ⟨a, hform, rfl⟩ before after
    exact ⟨a, h.spaced hform before after, rfl⟩

def AfterColon (Form : α → List UInt8 → Prop) (a : α) (bytes : List UInt8) : Prop :=
  ∃ (gap : Gap) (text : List UInt8), bytes = gap.bytes ++ 0x3a :: text ∧ Form a text

theorem AfterColon.congr {Form Other : α → List UInt8 → Prop}
    (h : ∀ a text, Form a text ↔ Other a text) (a : α) (bytes : List UInt8) :
    AfterColon Form a bytes ↔ AfterColon Other a bytes :=
  exists_congr fun _ => exists_congr fun _ => and_congr_right fun _ => h a _

theorem Takes.after_colon {scan : Scan α} {Form : α → List UInt8 → Prop} (h : Takes scan Form) :
    Takes (do expect 0x3a; scan) (AfterColon Form) where
  sound := by
    intro bytes a rest hgives
    obtain ⟨_, mid, hcolon, hscan⟩ := gives_bind.mp hgives
    obtain ⟨gap, rfl⟩ := (gives_expect _ (by decide)).mp hcolon
    obtain ⟨text, rfl, hform⟩ := h.sound hscan
    exact ⟨gap.bytes ++ 0x3a :: text, by simp, gap, text, rfl, hform⟩
  complete := by
    rintro a text rest ⟨gap, text, rfl, hform⟩ hrest
    obtain ⟨after, hscan⟩ := h.complete hform hrest
    refine ⟨after, gives_bind.mpr ⟨(), _, (gives_expect _ (by decide)).mpr ⟨gap, ?_⟩, hscan⟩⟩
    simp
  spaced := by
    rintro a text ⟨gap, text, rfl, hform⟩ before after
    exact ⟨before ++ gap, text ++ after.bytes, by simp [gap_append],
      by simpa [Gap.bytes] using h.spaced hform [] after⟩

-- ---------------------------------------------------------------------------
-- Objects
-- ---------------------------------------------------------------------------

/-- A member of an object as it stands in a text: the key that is denoted, the
bytes before the colon and those after it. -/
structure TextMember where
  key : String
  keyText : List UInt8
  named : Denotes (.string key) keyText
  text : List UInt8

def memberTexts (separator : List UInt8) : List TextMember → List UInt8
  | [] => []
  | m :: rest => separator ++ (m.keyText ++ 0x3a :: (m.text ++ memberTexts [0x2c] rest))

/-- The white space after the bracket stands alone in an empty object. -/
def objectText (gap : Gap) (members : List TextMember) : List UInt8 :=
  0x7b :: (gap.bytes ++ (memberTexts [] members ++ [0x7d]))

/-- The record that the members make, one after the other. `Makes` says which
texts a key may have, and what they make of the record before. -/
inductive Builds (Makes : ρ → String → List UInt8 → ρ → Prop) : ρ → List TextMember → ρ → Prop
  | nil {record : ρ} : Builds Makes record [] record
  | cons {record next last : ρ} {m : TextMember} {rest : List TextMember}
    (makes : Makes record m.key m.text next) (later : Builds Makes next rest last) :
    Builds Makes record (m :: rest) last

def ObjectForm (Makes : ρ → String → List UInt8 → ρ → Prop) (record last : ρ) (text : List UInt8) :
    Prop :=
  ∃ (before gap : Gap) (members : List TextMember) (after : Gap),
    text = before.bytes ++ (objectText gap members ++ after.bytes) ∧ Builds Makes record members last

def textsOf (key : String) (members : List TextMember) : List (List UInt8) :=
  (members.filter (·.key == key)).map (·.text)

theorem builds_nil {Makes : ρ → String → List UInt8 → ρ → Prop} {record last : ρ} :
    Builds Makes record [] last ↔ record = last := by
  constructor
  · rintro ⟨⟩
    rfl
  · rintro rfl
    exact .nil

theorem builds_cons {Makes : ρ → String → List UInt8 → ρ → Prop} {record last : ρ} {m : TextMember}
    {rest : List TextMember} :
    Builds Makes record (m :: rest) last ↔
      ∃ next, Makes record m.key m.text next ∧ Builds Makes next rest last := by
  constructor
  · rintro (_ | ⟨makes, later⟩)
    exact ⟨_, makes, later⟩
  · rintro ⟨next, makes, later⟩
    exact .cons makes later

def AfterKey (Makes : ρ → String → List UInt8 → ρ → Prop) (record : ρ) (key : String) :
    ρ → List UInt8 → Prop :=
  AfterColon fun next text => Makes record key text next

section
variable {Makes : ρ → String → List UInt8 → ρ → Prop} {member : ρ → String → Scan ρ}
  {record last : ρ} {fuel : Nat} {isFirst : Bool}

theorem stops_memberTexts (members : List TextMember) :
    Stops (memberTexts [0x2c] members ++ 0x7d :: rest) := by
  cases members <;> simp [memberTexts, Stops]

def separator (isFirst : Bool) : List UInt8 :=
  if isFirst then [] else [0x2c]

theorem gives_membersFrom :
    Gives (membersFrom member (fuel + 1) isFirst record) bytes last rest ↔
      ∃ b mid, Gives peek bytes b mid ∧
        (b = 0x7d ∧ record = last ∧ mid = rest ∨
          b ≠ 0x7d ∧ ∃ start, mid = separator isFirst ++ start ∧
            ∃ k after next later, Gives key start k after ∧
              Gives (member record k) after next later ∧
              Gives (membersFrom member fuel false next) later last rest) := by
  simp only [membersFrom, gives_bind]
  refine exists_congr fun b => exists_congr fun mid => and_congr_right fun hpeek => ?_
  obtain ⟨gap, later, -, rfl, -⟩ := gives_peek.mp hpeek
  by_cases hclose : b = 0x7d
  · simp [hclose]
  · cases isFirst with
    | true => simp [hclose, gives_bind, separator]
    | false => by_cases hcomma : b = 0x2c <;> simp [hcomma, gives_bind, hclose, separator]

theorem member_sound (hmember : ∀ record key, Takes (member record key) (AfterKey Makes record key))
    {k : String} {next : ρ} {after : List UInt8} {gap : Gap} (hkey : Gives key bytes k after)
    (h : Gives (member record k) after next (gap.bytes ++ rest)) :
    ∃ m : TextMember, bytes = m.keyText ++ 0x3a :: (m.text ++ rest) ∧
      Makes record m.key m.text next := by
  obtain ⟨keyText, rfl, hdenotes⟩ := takes_key.sound hkey
  obtain ⟨text, rfl, hform⟩ := (hmember record k).sound h
  -- white space after the value is the value's
  obtain ⟨before, value, hvalue, hmakes⟩ := (hmember record k).spaced hform [] gap
  refine ⟨⟨k, keyText ++ before.bytes, by simpa [Gap.bytes] using hdenotes.spaced [] before, value⟩,
    ?_, hmakes⟩
  have hvalue : text ++ gap.bytes = before.bytes ++ 0x3a :: value := hvalue
  rw [← List.append_assoc text, hvalue]
  simp

theorem membersFrom_sound
    (hmember : ∀ record key, Takes (member record key) (AfterKey Makes record key))
    (h : Gives (membersFrom member fuel isFirst record) bytes last rest) :
    ∃ (gap : Gap) (members : List TextMember) (later : List UInt8),
      bytes = gap.bytes ++ (memberTexts (separator isFirst) members ++ rest) ∧
        rest = 0x7d :: later ∧ Builds Makes record members last := by
  induction fuel generalizing isFirst record bytes with
  | zero => simp [membersFrom] at h
  | succ fuel ih =>
    obtain ⟨b, mid, hpeek, hentry⟩ := gives_membersFrom.mp h
    obtain ⟨gap, later, rfl, hmid, -⟩ := gives_peek.mp hpeek
    rcases hentry with
      ⟨rfl, rfl, rfl⟩ | ⟨-, start, rfl, k, after, next, later, hkey, hnext, hrest⟩
    · exact ⟨gap, [], later, rfl, hmid, .nil⟩
    · obtain ⟨gap', members, later, rfl, rfl, hbuilds⟩ := ih hrest
      obtain ⟨m, rfl, hmakes⟩ := member_sound hmember hkey hnext
      refine ⟨gap, m :: members, later, ?_, rfl, .cons hmakes hbuilds⟩
      simp [memberTexts, separator]

theorem member_complete
    (hmember : ∀ record key, Takes (member record key) (AfterKey Makes record key)) {k : String}
    {keyText : List UInt8} {next : ρ} (hkey : Denotes (.string k) keyText)
    (makes : Makes record k text next) (hrest : Stops rest) :
    ∃ (after : List UInt8) (gap : Gap), Gives key (keyText ++ 0x3a :: (text ++ rest)) k after ∧
      Gives (member record k) after next (gap.bytes ++ rest) := by
  have hcolon : Stops (0x3a :: (text ++ rest)) := by simp [Stops]
  obtain ⟨before, hgives⟩ := takes_key.complete hkey hcolon
  have hform : AfterKey Makes record k next (before.bytes ++ 0x3a :: text) :=
    ⟨before, text, rfl, makes⟩
  obtain ⟨gap, hnext⟩ := (hmember record k).complete hform hrest
  rw [List.append_assoc, List.cons_append] at hnext
  exact ⟨_, gap, hgives, hnext⟩

theorem membersFrom_complete
    (hmember : ∀ record key, Takes (member record key) (AfterKey Makes record key))
    {members : List TextMember} (h : Builds Makes record members last)
    (hfuel : members.length < fuel) (gap : Gap) (later : List UInt8) :
    Gives (membersFrom member fuel isFirst record)
      (gap.bytes ++ (memberTexts (separator isFirst) members ++ 0x7d :: later)) last
      (0x7d :: later) := by
  induction h generalizing fuel isFirst gap with
  | nil =>
    obtain ⟨fuel, rfl⟩ := Nat.exists_eq_succ_of_ne_zero (Nat.ne_zero_of_lt hfuel)
    exact gives_membersFrom.mpr
      ⟨0x7d, 0x7d :: later, gives_peek.mpr ⟨gap, later, rfl, rfl, by decide⟩, .inl ⟨rfl, rfl, rfl⟩⟩
  | @cons record next last m rest makes hlater ih =>
    obtain ⟨fuel, rfl⟩ := Nat.exists_eq_succ_of_ne_zero (Nat.ne_zero_of_lt hfuel)
    have hrest : Stops (memberTexts [0x2c] rest ++ 0x7d :: later) := stops_memberTexts rest
    have hfuel : rest.length < fuel := by simpa using hfuel
    refine gives_membersFrom.mpr ?_
    cases isFirst with
    | true =>
      -- the white space before the key goes with that before the member
      obtain ⟨before, b, keyText, hbytes, rfl, hkey⟩ := m.named.first
      obtain ⟨after, gap', hgives, hnext⟩ := member_complete hmember hkey makes hrest
      refine ⟨0x22, _, gives_peek.mpr ⟨gap ++ before, _, ?_, rfl, by decide⟩,
        .inr ⟨by decide, _, rfl, _, _, _, _, hgives, hnext, ih hfuel gap'⟩⟩
      simp [memberTexts, separator, hbytes, gap_append]
    | false =>
      obtain ⟨after, gap', hgives, hnext⟩ := member_complete hmember m.named makes hrest
      refine ⟨0x2c, _, gives_peek.mpr ⟨gap, _, ?_, rfl, by decide⟩,
        .inr ⟨by decide, _, rfl, _, _, _, _, hgives, hnext, ih hfuel gap'⟩⟩
      simp [memberTexts, separator]

theorem length_memberTexts (separator : List UInt8) (members : List TextMember) :
    members.length ≤ (memberTexts separator members).length := by
  induction members generalizing separator with
  | nil => simp
  | cons m rest ih =>
    have := ih [0x2c]
    simp only [memberTexts, List.length_append, List.length_cons]
    omega

theorem gap_before_token {gap : Gap} {later : List UInt8} (hspace : ¬ isSpace b = true)
    (h : b :: later = gap.bytes ++ b :: rest) : later = rest := by
  cases gap with
  | nil => exact (List.cons.inj h).2
  | cons blank gap => exact absurd ((List.cons.inj h).1 ▸ isSpace_byte blank) hspace

theorem takes_members (hmember : ∀ record key, Takes (member record key) (AfterKey Makes record key))
    (record : ρ) : Takes (members member record) (ObjectForm Makes record) where
  sound := by
    intro bytes last rest h
    simp only [members, gives_bind, gives_get, gives_expect 0x7b (by decide),
      gives_expect 0x7d (by decide), gives_pure] at h
    obtain ⟨_, mid, ⟨before, rfl⟩, _, _, ⟨rfl, rfl⟩, made, _, hfrom, _, _, ⟨gap', rfl⟩, hmade, rfl⟩ := h
    obtain ⟨gap, members, later, rfl, hclose, hbuilds⟩ := membersFrom_sound hmember hfrom
    have hlater := gap_before_token (by decide) hclose.symm
    refine ⟨before.bytes ++ objectText gap members, ?_, before, gap, members, [], ?_, hmade ▸ hbuilds⟩
    · rw [hclose, hlater]
      simp [objectText, separator]
    · simp [Gap.bytes]
  complete := by
    rintro last text rest ⟨before, gap, members, after, rfl, hbuilds⟩ hrest
    refine ⟨after, ?_⟩
    simp only [Scan.members, gives_bind, gives_get, gives_expect 0x7b (by decide),
      gives_expect 0x7d (by decide), gives_pure]
    have hlength := length_memberTexts [] members
    refine ⟨(), gap.bytes ++ (memberTexts [] members ++ 0x7d :: (after.bytes ++ rest)), ⟨before, ?_⟩,
      _, _, ⟨rfl, rfl⟩, last, 0x7d :: (after.bytes ++ rest), ?_, (), _, ⟨[], rfl⟩, rfl, rfl⟩
    · simp [objectText]
    · refine membersFrom_complete hmember hbuilds ?_ gap (after.bytes ++ rest)
      simp only [List.length_append]
      omega
  spaced := by
    rintro last text ⟨before, gap, members, after, rfl, hbuilds⟩ before' after'
    exact ⟨before' ++ before, gap, members, after ++ after', by simp [gap_append], hbuilds⟩

end

-- ---------------------------------------------------------------------------
-- Items
-- ---------------------------------------------------------------------------

/-- After the white space before it, what has this form starts with a byte that
closes no array, and has the form still. -/
def Enters (Form : α → List UInt8 → Prop) : Prop :=
  ∀ a text, Form a text → ∃ (gap : Gap) (b : UInt8) (later : List UInt8),
    text = gap.bytes ++ b :: later ∧ ¬ isSpace b = true ∧ b ≠ 0x5d ∧ Form a (b :: later)

theorem Enters.image {Form : α → List UInt8 → Prop} (h : Enters Form) (make : α → β) :
    Enters fun c text => ∃ a, Form a text ∧ make a = c := by
  rintro c text ⟨a, hform, rfl⟩
  obtain ⟨gap, b, later, rfl, hspace, hclose, hlater⟩ := h a text hform
  exact ⟨gap, b, later, rfl, hspace, hclose, a, hlater, rfl⟩

section
variable {read : Scan α} {Form : α → List UInt8 → Prop} {isFirst : Bool}

theorem gives_firstItem :
    Gives (item true read) bytes (some a) rest ↔
      ∃ b mid, Gives peek bytes b mid ∧ b ≠ 0x5d ∧ Gives read mid a rest := by
  simp only [item, gives_bind]
  refine exists_congr fun b => exists_congr fun mid => and_congr_right fun _ => ?_
  by_cases hclose : b = 0x5d <;> simp [hclose]

theorem gives_nextItem :
    Gives (item false read) bytes (some a) rest ↔
      ∃ start b mid, Gives peek bytes 0x2c (0x2c :: start) ∧ Gives peek start b mid ∧ b ≠ 0x5d ∧
        Gives read mid a rest := by
  have hafter (start : List UInt8) :
      (∃ b mid, Gives peek start b mid ∧
        Gives (if b = 0x5d then do throw .malformed; some <$> read else some <$> read) mid (some a)
          rest) ↔ ∃ b mid, Gives peek start b mid ∧ b ≠ 0x5d ∧ Gives read mid a rest := by
    refine exists_congr fun b => exists_congr fun mid => and_congr_right fun _ => ?_
    by_cases hclose : b = 0x5d <;> simp [hclose, gives_bind]
  simp only [item, gives_bind]
  constructor
  · rintro ⟨b, mid, hpeek, h⟩
    obtain ⟨gap, start, -, rfl, -⟩ := gives_peek.mp hpeek
    by_cases hclose : b = 0x5d
    · simp [hclose] at h
    by_cases hcomma : b = 0x2c
    · subst hcomma
      obtain ⟨b, mid, h⟩ := (hafter start).mp (by simpa [gives_bind] using h)
      exact ⟨start, b, mid, hpeek, h⟩
    · simp [hclose, hcomma, gives_bind] at h
  · rintro ⟨start, b, mid, hcomma, h⟩
    refine ⟨0x2c, 0x2c :: start, hcomma, ?_⟩
    simpa [gives_bind] using (hafter start).mpr ⟨b, mid, h⟩

theorem item_sound (h : Takes read Form) (hgives : Gives (item isFirst read) bytes (some a) rest) :
    ∃ (gap : Gap) (text : List UInt8),
      bytes = gap.bytes ++ (separator isFirst ++ (text ++ rest)) ∧ Form a text := by
  cases isFirst with
  | true =>
    obtain ⟨b, mid, hpeek, -, hread⟩ := gives_firstItem.mp hgives
    obtain ⟨gap, later, rfl, -, -⟩ := gives_peek.mp hpeek
    obtain ⟨text, rfl, hform⟩ := h.sound hread
    exact ⟨gap, text, rfl, hform⟩
  | false =>
    obtain ⟨start, b, mid, hcomma, hpeek, -, hread⟩ := gives_nextItem.mp hgives
    obtain ⟨gap, later, rfl, hlater, -⟩ := gives_peek.mp hcomma
    obtain ⟨before, _, rfl, -, -⟩ := gives_peek.mp hpeek
    obtain ⟨text, rfl, hform⟩ := h.sound hread
    refine ⟨gap, before.bytes ++ text, by simp [separator], ?_⟩
    simpa [Gap.bytes] using h.spaced hform before []

theorem item_complete (h : Takes read Form) (enters : Enters Form) (hform : Form a text)
    (hrest : Stops rest) (gap : Gap) :
    ∃ after : Gap, Gives (item isFirst read) (gap.bytes ++ (separator isFirst ++ (text ++ rest)))
      (some a) (after.bytes ++ rest) := by
  obtain ⟨before, b, later, rfl, hspace, hclose, hform⟩ := enters a text hform
  obtain ⟨after, hread⟩ := h.complete hform hrest
  refine ⟨after, ?_⟩
  cases isFirst with
  | true =>
    refine gives_firstItem.mpr ⟨b, _, gives_peek.mpr ⟨gap ++ before, _, ?_, rfl, hspace⟩, hclose, hread⟩
    simp [separator, gap_append]
  | false =>
    refine gives_nextItem.mpr ⟨_, b, _, gives_peek.mpr ⟨gap, _, rfl, rfl, by decide⟩,
      gives_peek.mpr ⟨before, _, ?_, rfl, hspace⟩, hclose, hread⟩
    simp

end

-- ---------------------------------------------------------------------------
-- Choices
-- ---------------------------------------------------------------------------

def Starts (b : UInt8) (text : List UInt8) : Prop :=
  ∃ (gap : Gap) (later : List UInt8), text = gap.bytes ++ b :: later ∧ ¬ isSpace b = true

theorem ObjectForm.starts {Makes : ρ → String → List UInt8 → ρ → Prop} {record last : ρ}
    (h : ObjectForm Makes record last text) : Starts 0x7b text := by
  obtain ⟨before, gap, members, after, rfl, -⟩ := h
  exact ⟨before, _, rfl, by decide⟩

theorem enters_object {Makes : ρ → String → List UInt8 → ρ → Prop} {record : ρ} :
    Enters (ObjectForm Makes record) := by
  rintro last text ⟨before, gap, members, after, rfl, hbuilds⟩
  exact ⟨before, 0x7b, _, rfl, by decide, by decide, [], gap, members, after, rfl, hbuilds⟩

theorem token_unique {gap gap' : Gap} {c : UInt8} {later later' : List UInt8}
    (hb : ¬ isSpace b = true) (hc : ¬ isSpace c = true)
    (h : gap.bytes ++ b :: later = gap'.bytes ++ c :: later') : b = c ∧ later = later' := by
  have hdrop := congrArg (List.dropWhile isSpace) h
  rw [dropWhile_gap gap (by simpa using hb), dropWhile_gap gap' (by simpa using hc)] at hdrop
  exact List.cons.inj hdrop

theorem takes_choice {scan : UInt8 → Scan α} (Form : UInt8 → α → List UInt8 → Prop)
    (h : ∀ b, Takes (scan b) (Form b)) (enters : ∀ b, Enters (Form b)) :
    Takes (do scan (← peek)) fun a text => ∃ b, Starts b text ∧ Form b a text where
  sound := by
    intro bytes a rest hgives
    obtain ⟨b, mid, hpeek, hscan⟩ := gives_bind.mp hgives
    obtain ⟨gap, later, rfl, rfl, hspace⟩ := gives_peek.mp hpeek
    obtain ⟨text, htext, hform⟩ := (h b).sound hscan
    obtain ⟨before, c, start, rfl, hc, -, hform⟩ := enters b a text hform
    have hfirst : Gap.bytes [] ++ b :: later = before.bytes ++ c :: (start ++ rest) := by
      simpa [Gap.bytes] using htext
    obtain ⟨rfl, rfl⟩ := token_unique hspace hc hfirst
    refine ⟨gap.bytes ++ b :: start, by simp, b, ⟨gap, start, rfl, hspace⟩, ?_⟩
    simpa [Gap.bytes] using (h b).spaced hform gap []
  complete := by
    rintro a text rest ⟨b, ⟨gap, later, rfl, hspace⟩, hform⟩ hrest
    obtain ⟨before, c, start, htext, hc, -, hform⟩ := enters b a _ hform
    obtain ⟨rfl, rfl⟩ := token_unique hspace hc htext
    obtain ⟨after, hscan⟩ := (h b).complete hform hrest
    refine ⟨after, gives_bind.mpr ⟨b, _, gives_peek.mpr ⟨gap, later ++ rest, ?_, rfl, hspace⟩, hscan⟩⟩
    simp
  spaced := by
    rintro a text ⟨b, ⟨gap, later, rfl, hspace⟩, hform⟩ before after
    exact ⟨b, ⟨before ++ gap, later ++ after.bytes, by simp [gap_append], hspace⟩,
      (h b).spaced hform before after⟩

end Scan

end Telemetry.Json
