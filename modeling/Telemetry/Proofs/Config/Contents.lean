import Telemetry.Config.File
import Telemetry.Proofs.Json.Forms

/-!
# What a settings file tells

The reader of settings files goes through the bytes once; what a file tells is
said of its text. A file is an object, each member of it a key and the bytes
after the colon (`FileTells`). One member at most is the section of the
settings, which is null, an object with one text at most under each of its
keys, or an array of all three (`SectionTells`). A text under a key sets what
the value that it denotes is accepted as, and nothing if that is null. Members
with other keys are read in full in the file and passed over in the section.
The reader accepts these files and no others, and takes from them what they
tell (`fileSettings?_iff`).
-/

namespace Telemetry.Config

open Json (Denotes Gap Scan Value)
open Json.Scan (AfterColon AfterKey Builds Enters Gives ObjectForm PassedOver Starts Takes
  TextMember objectText textsOf)

variable {α β : Type} {nulls : Nulls} {text bytes rest : List UInt8}

-- ---------------------------------------------------------------------------
-- One setting
-- ---------------------------------------------------------------------------

/-- A text tells something of a setting: null where it may, or a value. -/
def Tells (nulls : Nulls) (accept : Value → Option α) (said : Option α) (text : List UInt8) : Prop :=
  ∃ v, Denotes v text ∧ nulls.accept accept v = some said

theorem takes_tells {accept : Value → Option α} (harray : ∀ items, accept (.array items) = none)
    (hobject : ∀ members, accept (.object members) = none) :
    Takes (Scan.scalar (nulls.accept accept)) (Tells nulls accept) := by
  refine Json.Scan.takes_scalar (fun items => ?_) (fun members => ?_)
  · cases nulls <;> simp [Nulls.accept, harray]
  · cases nulls <;> simp [Nulls.accept, hobject]

theorem takes_genAiValue : Takes (Fields.genAiValue nulls) (Tells nulls bool?) :=
  takes_tells (fun _ => rfl) (fun _ => rfl)

theorem takes_payloadLimitValue : Takes (Fields.payloadLimitValue nulls) (Tells nulls size?) :=
  takes_tells (fun _ => rfl) (fun _ => rfl)

theorem takes_systemValue : Takes Fields.systemValue (Tells .allowed text?) :=
  takes_tells (fun _ => rfl) (fun _ => rfl)

theorem gives_once {earlier : Option α} {u : Unit} :
    Gives (Fields.once earlier) bytes u rest ↔ earlier = none ∧ bytes = rest := by
  cases earlier <;> simp [Fields.once]

-- ---------------------------------------------------------------------------
-- The settings as members
-- ---------------------------------------------------------------------------

def settingKeys : List String := ["gen_ai", "payload_limit_bytes", "gen_ai_system"]

def FieldMakes (nulls : Nulls) (fields : Fields) (key : String) (text : List UInt8)
    (next : Fields) : Prop :=
  match key with
  | "gen_ai" =>
    fields.genAi = none ∧
      ∃ said, Tells nulls bool? said text ∧ { fields with genAi := some said } = next
  | "payload_limit_bytes" =>
    fields.payloadLimit = none ∧
      ∃ said, Tells nulls size? said text ∧ { fields with payloadLimit := some said } = next
  | "gen_ai_system" =>
    fields.system = none ∧
      ∃ said, Tells .allowed text? said text ∧ { fields with system := some said } = next
  | _ => PassedOver text ∧ fields = next

theorem takes_setting {ρ : Type} (earlier : Option β) {read : Scan α} {Form : α → List UInt8 → Prop}
    (h : Takes read Form) (make : α → ρ) :
    Takes (do
        Fields.once earlier
        Scan.expect 0x3a
        return make (← read))
      (AfterColon fun made text => earlier = none ∧ ∃ a, Form a text ∧ make a = made) := by
  have hcolon := (h.bind_pure make).after_colon
  refine ⟨?_, ?_, ?_⟩
  · intro bytes made rest hgives
    obtain ⟨_, mid, honce, hread⟩ := Json.Scan.gives_bind.mp hgives
    obtain ⟨hearlier, rfl⟩ := gives_once.mp honce
    obtain ⟨_, rfl, gap, text, rfl, hform⟩ := hcolon.sound hread
    exact ⟨_, rfl, gap, text, rfl, hearlier, hform⟩
  · rintro made _ rest ⟨gap, text, rfl, hearlier, hform⟩ hrest
    obtain ⟨after, hread⟩ := hcolon.complete ⟨gap, text, rfl, hform⟩ hrest
    exact ⟨after, Json.Scan.gives_bind.mpr ⟨(), _, gives_once.mpr ⟨hearlier, rfl⟩, hread⟩⟩
  · rintro made _ ⟨gap, text, rfl, hearlier, hform⟩ before after
    obtain ⟨gap', text', hbytes, hform'⟩ := hcolon.spaced ⟨gap, text, rfl, hform⟩ before after
    exact ⟨gap', text', hbytes, hearlier, hform'⟩

theorem takes_member (nulls : Nulls) (fields : Fields) (key : String) :
    Takes (Fields.member nulls fields key) (AfterKey (FieldMakes nulls) fields key) := by
  unfold Fields.member AfterKey FieldMakes
  split
  · exact takes_setting _ takes_genAiValue _
  · exact takes_setting _ takes_payloadLimitValue _
  · exact takes_setting _ takes_systemValue _
  · refine (Json.Scan.takes_pass.bind_pure _).after_colon.congr (AfterColon.congr fun made text => ?_)
    simp [*]

def Adds (Form : α → List UInt8 → Prop) (earlier : Option α) (texts : List (List UInt8))
    (last : Option α) : Prop :=
  match texts with
  | [] => earlier = last
  | text :: rest => earlier = none ∧ rest = [] ∧ ∃ a, Form a text ∧ some a = last

theorem adds_cons {Form : α → List UInt8 → Prop} {earlier last : Option α} {text : List UInt8}
    {rest : List (List UInt8)} :
    Adds Form earlier (text :: rest) last ↔
      earlier = none ∧ ∃ a, Form a text ∧ Adds Form (some a) rest last := by
  cases rest <;> simp [Adds]

theorem textsOf_cons (key : String) (m : TextMember) (rest : List TextMember) :
    textsOf key (m :: rest) = if m.key = key then m.text :: textsOf key rest else textsOf key rest := by
  by_cases h : m.key = key <;> simp [textsOf, h]

/-- Each setting has what the texts under its key tell, and there is one such
text at most. The other texts are passed over. -/
theorem builds_fields {fields last : Fields} {members : List TextMember} :
    Builds (FieldMakes nulls) fields members last ↔
      Adds (Tells nulls bool?) fields.genAi (textsOf "gen_ai" members) last.genAi ∧
        Adds (Tells nulls size?) fields.payloadLimit (textsOf "payload_limit_bytes" members)
          last.payloadLimit ∧
        Adds (Tells .allowed text?) fields.system (textsOf "gen_ai_system" members) last.system ∧
        ∀ m ∈ members, m.key ∉ settingKeys → PassedOver m.text := by
  induction members generalizing fields with
  | nil =>
    rw [Json.Scan.builds_nil]
    cases fields
    cases last
    simp [textsOf, Adds]
  | cons m rest ih =>
    simp only [Json.Scan.builds_cons, ih, FieldMakes, textsOf_cons, List.forall_mem_cons]
    split
    · rename_i hkey
      simp only [hkey, adds_cons, String.reduceEq, ↓reduceIte]
      grind [settingKeys]
    · rename_i hkey
      simp only [hkey, adds_cons, String.reduceEq, ↓reduceIte]
      grind [settingKeys]
    · rename_i hkey
      simp only [hkey, adds_cons, String.reduceEq, ↓reduceIte]
      grind [settingKeys]
    · rename_i hgenAi hlimit hsystem
      have hkey : m.key ≠ "gen_ai" ∧ m.key ≠ "payload_limit_bytes" ∧ m.key ≠ "gen_ai_system" :=
        ⟨hgenAi, hlimit, hsystem⟩
      simp only [hkey, ↓reduceIte]
      grind [settingKeys]

-- ---------------------------------------------------------------------------
-- The section of the settings
-- ---------------------------------------------------------------------------

/-- What the texts under a key tell, `empty` if there is none. A key has one
text at most. -/
def Sole (Form : α → List UInt8 → Prop) (empty told : α) (texts : List (List UInt8)) : Prop :=
  match texts with
  | [] => told = empty
  | text :: rest => rest = [] ∧ Form told text

theorem sole_iff {Form : α → List UInt8 → Prop} {empty told : α} {texts : List (List UInt8)} :
    Sole Form empty told texts ↔ ∃ last, Adds Form none texts last ∧ last.getD empty = told := by
  cases texts <;> simp [Sole, Adds, eq_comm]

/-- What the members of an object set. What is null is not set. -/
structure MembersSet (overrides : Overrides) (members : List TextMember) : Prop where
  genAi : Sole (Tells .allowed bool?) none overrides.genAi (textsOf "gen_ai" members)
  payloadLimit :
    Sole (Tells .allowed size?) none overrides.payloadLimit (textsOf "payload_limit_bytes" members)
  system : Sole (Tells .allowed text?) none overrides.system (textsOf "gen_ai_system" members)
  others : ∀ m ∈ members, m.key ∉ settingKeys → PassedOver m.text

theorem overrides_eq_iff {fields : Fields} {overrides : Overrides} :
    fields.overrides = overrides ↔
      fields.genAi.getD none = overrides.genAi ∧
        fields.payloadLimit.getD none = overrides.payloadLimit ∧
        fields.system.getD none = overrides.system := by
  rcases fields with ⟨_ | _, _ | _, _ | _⟩ <;> cases overrides <;> simp [Fields.overrides]

theorem membersSet_iff {overrides : Overrides} {members : List TextMember} :
    MembersSet overrides members ↔
      ∃ fields, Builds (FieldMakes .allowed) {} members fields ∧ fields.overrides = overrides := by
  simp only [builds_fields, overrides_eq_iff]
  constructor
  · rintro ⟨hgenAi, hlimit, hsystem, hothers⟩
    obtain ⟨genAi, hgenAi, hgenAi'⟩ := sole_iff.mp hgenAi
    obtain ⟨payloadLimit, hlimit, hlimit'⟩ := sole_iff.mp hlimit
    obtain ⟨system, hsystem, hsystem'⟩ := sole_iff.mp hsystem
    exact ⟨⟨genAi, payloadLimit, system⟩, ⟨hgenAi, hlimit, hsystem, hothers⟩, hgenAi', hlimit', hsystem'⟩
  · rintro ⟨fields, ⟨hgenAi, hlimit, hsystem, hothers⟩, hgenAi', hlimit', hsystem'⟩
    exact ⟨sole_iff.mpr ⟨_, hgenAi, hgenAi'⟩, sole_iff.mpr ⟨_, hlimit, hlimit'⟩,
      sole_iff.mpr ⟨_, hsystem, hsystem'⟩, hothers⟩

def arrayText (genAi payloadLimit system : List UInt8) : List UInt8 :=
  0x5b :: (genAi ++ 0x2c :: (payloadLimit ++ 0x2c :: (system ++ [0x5d])))

/-- What the three items of an array set. -/
structure ItemsSet (overrides : Overrides) (genAi payloadLimit system : List UInt8) : Prop where
  genAi : Tells .allowed bool? overrides.genAi genAi
  payloadLimit : Tells .allowed size? overrides.payloadLimit payloadLimit
  system : Tells .allowed text? overrides.system system

theorem enters_tells {accept : Value → Option α} : Enters (Tells nulls accept) := by
  rintro said text ⟨v, hv, haccept⟩
  obtain ⟨gap, b, later, rfl, hopens, hlater⟩ := hv.first
  exact ⟨gap, b, later, rfl, hopens.not_space, hopens.not_close, v, hlater, haccept⟩

def Overrides.fields (overrides : Overrides) : Fields :=
  ⟨some overrides.genAi, some overrides.payloadLimit, some overrides.system⟩

theorem gives_items {overrides : Overrides} :
    Gives (Fields.items nulls) bytes overrides.fields rest ↔
      ∃ start next, Gives (Scan.item true (Fields.genAiValue nulls)) bytes (some overrides.genAi) start ∧
        Gives (Scan.item false (Fields.payloadLimitValue nulls)) start (some overrides.payloadLimit)
          next ∧
        Gives (Scan.item false Fields.systemValue) next (some overrides.system) rest := by
  simp only [Fields.items, Overrides.fields, Json.Scan.gives_bind]
  constructor
  · rintro ⟨_ | genAi, start, hgenAi, h⟩
    · simp at h
    obtain ⟨_ | payloadLimit, next, hlimit, h⟩ := Json.Scan.gives_bind.mp h
    · simp at h
    obtain ⟨system, _, hsystem, h⟩ := Json.Scan.gives_bind.mp h
    obtain ⟨⟨rfl, rfl, rfl⟩, rfl⟩ := by simpa using h
    exact ⟨start, next, hgenAi, hlimit, hsystem⟩
  · rintro ⟨start, next, hgenAi, hlimit, hsystem⟩
    refine ⟨_, start, hgenAi, Json.Scan.gives_bind.mpr ⟨_, next, hlimit, ?_⟩⟩
    exact Json.Scan.gives_bind.mpr ⟨_, rest, hsystem, Json.Scan.gives_pure.mpr ⟨rfl, rfl⟩⟩

theorem allGiven_iff {fields : Fields} :
    allGiven fields = true ↔ ∃ overrides : Overrides, fields = overrides.fields := by
  constructor
  · intro h
    rcases fields with ⟨_ | genAi, _ | payloadLimit, _ | system⟩ <;> simp [allGiven] at h
    exact ⟨⟨genAi, payloadLimit, system⟩, rfl⟩
  · rintro ⟨overrides, rfl⟩
    rfl

def allItems : Scan Fields := do
  Scan.expect 0x5b
  let fields ← Fields.items .allowed
  if !allGiven fields then throw .mismatched
  Scan.expect 0x5d
  return fields

theorem gives_allItems {fields : Fields} :
    Gives allItems bytes fields rest ↔
      ∃ (gap : Gap) (start : List UInt8) (overrides : Overrides) (after : Gap),
        bytes = gap.bytes ++ 0x5b :: start ∧ fields = overrides.fields ∧
          Gives (Fields.items .allowed) start fields (after.bytes ++ 0x5d :: rest) := by
  simp only [allItems, Json.Scan.gives_bind, Json.Scan.gives_expect 0x5b (by decide)]
  constructor
  · rintro ⟨_, start, ⟨gap, rfl⟩, fields', mid, hitems, h⟩
    split at h
    · simp [Json.Scan.gives_bind] at h
    · rename_i hall
      obtain ⟨overrides, rfl⟩ := allGiven_iff.mp (by simpa using hall)
      obtain ⟨_, _, hclose, hpure⟩ := Json.Scan.gives_bind.mp h
      obtain ⟨rfl, rfl⟩ := Json.Scan.gives_pure.mp hpure
      obtain ⟨after, rfl⟩ := (Json.Scan.gives_expect _ (by decide)).mp hclose
      exact ⟨gap, start, overrides, after, rfl, rfl, hitems⟩
  · rintro ⟨gap, start, overrides, after, rfl, rfl, hitems⟩
    refine ⟨(), start, ⟨gap, rfl⟩, overrides.fields, _, hitems, ?_⟩
    rw [if_neg (by simp [allGiven_iff.mpr ⟨overrides, rfl⟩])]
    exact Json.Scan.gives_bind.mpr ⟨(), rest, (Json.Scan.gives_expect _ (by decide)).mpr ⟨after, rfl⟩,
      Json.Scan.gives_pure.mpr ⟨rfl, rfl⟩⟩

def ItemsForm (fields : Fields) (text : List UInt8) : Prop :=
  ∃ (before : Gap) (genAi payloadLimit system : List UInt8) (after : Gap) (overrides : Overrides),
    text = before.bytes ++ (arrayText genAi payloadLimit system ++ after.bytes) ∧
      ItemsSet overrides genAi payloadLimit system ∧ fields = overrides.fields

theorem takes_allItems : Takes allItems ItemsForm where
  sound := by
    intro bytes fields rest h
    obtain ⟨before, start, overrides, after, rfl, rfl, hitems⟩ := gives_allItems.mp h
    obtain ⟨mid, next, hfirst, hsecond, hthird⟩ := gives_items.mp hitems
    obtain ⟨gap, genAi, rfl, hgenAi⟩ := Json.Scan.item_sound takes_genAiValue hfirst
    obtain ⟨gap', payloadLimit, rfl, hlimit⟩ := Json.Scan.item_sound takes_payloadLimitValue hsecond
    obtain ⟨gap'', system, rfl, hsystem⟩ := Json.Scan.item_sound takes_systemValue hthird
    -- the white space after an item is the item's
    have hset : ItemsSet overrides (gap.bytes ++ (genAi ++ gap'.bytes)) (payloadLimit ++ gap''.bytes)
        (system ++ after.bytes) :=
      ⟨takes_genAiValue.spaced hgenAi gap gap',
        by simpa [Json.Gap.bytes] using takes_payloadLimitValue.spaced hlimit [] gap'',
        by simpa [Json.Gap.bytes] using takes_systemValue.spaced hsystem [] after⟩
    refine ⟨_, ?_, before, _, _, _, [], overrides, rfl, hset, rfl⟩
    simp [arrayText, Json.Scan.separator, Json.Gap.bytes]
  complete := by
    rintro fields text rest ⟨before, genAi, payloadLimit, system, after, overrides, rfl,
      ⟨hgenAi, hlimit, hsystem⟩, rfl⟩ hrest
    have hcomma (later : List UInt8) : Json.Stops (0x2c :: later) := by simp [Json.Stops]
    have hclose : Json.Stops (0x5d :: (after.bytes ++ rest)) := by simp [Json.Stops]
    obtain ⟨gap, hfirst⟩ :=
      Json.Scan.item_complete takes_genAiValue enters_tells hgenAi (hcomma _) []
    obtain ⟨gap', hsecond⟩ :=
      Json.Scan.item_complete takes_payloadLimitValue enters_tells hlimit (hcomma _) gap
    obtain ⟨gap'', hthird⟩ :=
      Json.Scan.item_complete takes_systemValue enters_tells hsystem hclose gap'
    refine ⟨after, gives_allItems.mpr ⟨before, _, overrides, gap'', ?_, rfl,
      gives_items.mpr ⟨_, _, hfirst, hsecond, hthird⟩⟩⟩
    simp [arrayText, Json.Scan.separator, Json.Gap.bytes]
  spaced := by
    rintro fields text ⟨before, genAi, payloadLimit, system, after, overrides, rfl, hitems⟩ gap gap'
    exact ⟨gap ++ before, genAi, payloadLimit, system, after ++ gap', overrides,
      by simp [Json.gap_append], hitems⟩

theorem ItemsForm.starts {fields : Fields} (h : ItemsForm fields text) : Starts 0x5b text := by
  obtain ⟨before, genAi, payloadLimit, system, after, overrides, rfl, -⟩ := h
  exact ⟨before, _, rfl, by decide⟩

theorem enters_items : Enters ItemsForm := by
  rintro fields text ⟨before, genAi, payloadLimit, system, after, overrides, rfl, hset⟩
  exact ⟨before, 0x5b, _, rfl, by decide, by decide, [], genAi, payloadLimit, system, after,
    overrides, rfl, hset⟩

def FirstForm (b : UInt8) (fields : Fields) (text : List UInt8) : Prop :=
  if b = 0x7b then ObjectForm (FieldMakes .allowed) {} fields text
  else if b = 0x5b then ItemsForm fields text else False

def FieldsForm (fields : Fields) (text : List UInt8) : Prop :=
  ObjectForm (FieldMakes .allowed) {} fields text ∨ ItemsForm fields text

theorem enters_fields : Enters FieldsForm := by
  rintro fields text (h | h)
  · obtain ⟨gap, b, later, rfl, hspace, hclose, hlater⟩ := Json.Scan.enters_object fields text h
    exact ⟨gap, b, later, rfl, hspace, hclose, .inl hlater⟩
  · obtain ⟨gap, b, later, rfl, hspace, hclose, hlater⟩ := enters_items fields text h
    exact ⟨gap, b, later, rfl, hspace, hclose, .inr hlater⟩

theorem takes_fields : Takes (Fields.scan .allowed allGiven) FieldsForm := by
  refine (Json.Scan.takes_choice FirstForm (fun b => ?_) (fun b => ?_)).congr
    fun fields text => ?_
  · unfold FirstForm
    split
    · exact Json.Scan.takes_members (takes_member .allowed) {}
    split
    · exact takes_allItems
    · refine (Json.Scan.takes_scalar (fun _ => rfl) (fun _ => rfl)).congr fun fields text => ?_
      simp
  · unfold FirstForm
    split
    · exact Json.Scan.enters_object
    split
    · exact enters_items
    · exact nofun
  · constructor
    · rintro ⟨b, -, h⟩
      grind [FirstForm, FieldsForm]
    · rintro (h | h)
      · exact ⟨0x7b, h.starts, h⟩
      · exact ⟨0x5b, h.starts, h⟩

/-- What a text tells that is null, an object of settings, or an array of all of them. -/
def SectionTells (overrides : Overrides) (text : List UInt8) : Prop :=
  Denotes .null text ∧ overrides = {} ∨
    (∃ (before gap : Gap) (members : List TextMember) (after : Gap),
      text = before.bytes ++ (objectText gap members ++ after.bytes) ∧ MembersSet overrides members) ∨
    ∃ (before : Gap) (genAi payloadLimit system : List UInt8) (after : Gap),
      text = before.bytes ++ (arrayText genAi payloadLimit system ++ after.bytes) ∧
        ItemsSet overrides genAi payloadLimit system

theorem sectionTells_iff {overrides : Overrides} :
    SectionTells overrides text ↔
      Denotes .null text ∧ overrides = {} ∨
        ∃ fields, FieldsForm fields text ∧ fields.overrides = overrides := by
  refine or_congr_right ⟨?_, ?_⟩
  · rintro (⟨before, gap, members, after, rfl, hset⟩ |
      ⟨before, genAi, payloadLimit, system, after, rfl, hset⟩)
    · obtain ⟨fields, hbuilds, rfl⟩ := membersSet_iff.mp hset
      exact ⟨fields, .inl ⟨before, gap, members, after, rfl, hbuilds⟩, rfl⟩
    · exact ⟨overrides.fields,
        .inr ⟨before, genAi, payloadLimit, system, after, overrides, rfl, hset, rfl⟩, rfl⟩
  · rintro ⟨fields, ⟨before, gap, members, after, rfl, hbuilds⟩ |
      ⟨before, genAi, payloadLimit, system, after, overrides, rfl, hset, rfl⟩, rfl⟩
    · exact .inl ⟨before, gap, members, after, rfl, membersSet_iff.mpr ⟨fields, hbuilds, rfl⟩⟩
    · exact .inr ⟨before, genAi, payloadLimit, system, after, rfl, hset⟩

theorem takes_null :
    Takes (Scan.scalar fun | .null => some ({} : Overrides) | _ => none) fun overrides text =>
      Denotes .null text ∧ overrides = {} := by
  refine (Json.Scan.takes_scalar (fun _ => rfl) (fun _ => rfl)).congr fun overrides text => ?_
  constructor
  · rintro ⟨v, hv, haccept⟩
    cases v <;> cases haccept
    exact ⟨hv, rfl⟩
  · rintro ⟨hv, rfl⟩
    exact ⟨.null, hv, rfl⟩

theorem enters_null : Enters fun (overrides : Overrides) text => Denotes .null text ∧ overrides = {} := by
  rintro overrides text ⟨hv, rfl⟩
  obtain ⟨gap, b, later, rfl, hopens, hlater⟩ := hv.first
  exact ⟨gap, b, later, rfl, hopens.not_space, hopens.not_close, hlater, rfl⟩

def SectionFirst (b : UInt8) (overrides : Overrides) (text : List UInt8) : Prop :=
  if b = 0x6e then Denotes .null text ∧ overrides = {}
  else ∃ fields, FieldsForm fields text ∧ fields.overrides = overrides

theorem takes_extractValue : Takes extractValue SectionTells := by
  refine (Json.Scan.takes_choice SectionFirst (fun b => ?_) (fun b => ?_)).congr
    fun overrides text => ?_
  · unfold SectionFirst
    split
    · exact takes_null
    · exact takes_fields.bind_pure Fields.overrides
  · unfold SectionFirst
    split
    · exact enters_null
    · exact enters_fields.image Fields.overrides
  · rw [sectionTells_iff]
    constructor
    · rintro ⟨b, -, h⟩
      grind [SectionFirst]
    · rintro (⟨hv, rfl⟩ | ⟨fields, h, rfl⟩)
      · obtain ⟨gap, b, later, rfl, rfl, -⟩ := hv.first
        exact ⟨0x6e, ⟨gap, later, rfl, by decide⟩, hv, rfl⟩
      · rcases h with h | h
        · exact ⟨0x7b, h.starts, fields, .inl h, rfl⟩
        · exact ⟨0x5b, h.starts, fields, .inr h, rfl⟩

-- ---------------------------------------------------------------------------
-- Files
-- ---------------------------------------------------------------------------

/-- A value of any kind, so deep at most that it may be in a file. -/
def Unused (text : List UInt8) : Prop :=
  ∃ v, Denotes v text ∧ depth v < Json.maxOpen

def FileMakes (draft : FileDraft) (key : String) (text : List UInt8) (next : FileDraft) : Prop :=
  if key = extractKey then
    draft.extract = none ∧
      ∃ overrides, SectionTells overrides text ∧ { draft with extract := some overrides } = next
  else
    Unused text ∧ { draft with
      unknown := if key ∈ draft.unknown then draft.unknown else draft.unknown ++ [key] } = next

theorem takes_unused {next : β} :
    Takes (do
        if Json.maxOpen ≤ depth (← Scan.value) then throw .malformed
        return next)
      fun made text => Unused text ∧ next = made where
  sound := by
    intro bytes made rest h
    obtain ⟨v, mid, hvalue, h⟩ := Json.Scan.gives_bind.mp h
    split at h
    · simp at h
    · rename_i hdepth
      obtain ⟨rfl, rfl⟩ := Json.Scan.gives_pure.mp h
      obtain ⟨text, rfl, hv⟩ := Json.Scan.takes_value.sound hvalue
      exact ⟨text, rfl, ⟨v, hv, by omega⟩, rfl⟩
  complete := by
    rintro made text rest ⟨⟨v, hv, hdepth⟩, rfl⟩ hrest
    obtain ⟨gap, hvalue⟩ := Json.Scan.takes_value.complete hv hrest
    refine ⟨gap, Json.Scan.gives_bind.mpr ⟨v, _, hvalue, ?_⟩⟩
    rw [if_neg (by omega)]
    exact Json.Scan.gives_pure.mpr ⟨rfl, rfl⟩
  spaced := by
    rintro made text ⟨⟨v, hv, hdepth⟩, rfl⟩ before after
    exact ⟨⟨v, hv.spaced before after, hdepth⟩, rfl⟩

theorem takes_fileMember (draft : FileDraft) (key : String) :
    Takes (fileMember draft key) (AfterKey FileMakes draft key) := by
  unfold fileMember AfterKey FileMakes
  split
  · have hsetting := takes_setting draft.extract takes_extractValue
      fun overrides => { draft with extract := some overrides }
    have honce : (do
        Fields.once draft.extract
        Scan.expect 0x3a
        return { draft with extract := some (← extractValue) }) = (do
        if draft.extract.isSome then throw .mismatched
        Scan.expect 0x3a
        return { draft with extract := some (← extractValue) } : Scan FileDraft) := by
      cases draft.extract <;> rfl
    exact honce ▸ hsetting
  · exact takes_unused.after_colon

theorem builds_file (draft : FileDraft) {extract : Option Overrides} {members : List TextMember} :
    (∃ unknown, Builds FileMakes draft members ⟨extract, unknown⟩) ↔
      Adds SectionTells draft.extract (textsOf extractKey members) extract ∧
        ∀ m ∈ members, m.key ≠ extractKey → Unused m.text := by
  induction members generalizing draft with
  | nil =>
    cases draft
    simp [Json.Scan.builds_nil, textsOf, Adds]
  | cons m rest ih =>
    have hnext : (∃ unknown, Builds FileMakes draft (m :: rest) ⟨extract, unknown⟩) ↔
        ∃ next, FileMakes draft m.key m.text next ∧
          ∃ unknown, Builds FileMakes next rest ⟨extract, unknown⟩ := by
      simp only [Json.Scan.builds_cons]
      grind
    simp only [hnext, ih, FileMakes, textsOf_cons, List.forall_mem_cons]
    split
    · simp only [adds_cons]
      grind
    · grind

def FileDraft.settings (draft : FileDraft) : FileSettings :=
  { extract := draft.extract.getD {}, unknown := draft.unknown }

def FileFirst (b : UInt8) (settings : FileSettings) (text : List UInt8) : Prop :=
  if b ≠ 0x7b then False
  else ∃ draft, ObjectForm FileMakes {} draft text ∧ draft.settings = settings

theorem takes_fileScan :
    Takes fileScan fun settings text =>
      ∃ draft, ObjectForm FileMakes {} draft text ∧ draft.settings = settings := by
  refine (Json.Scan.takes_choice FileFirst (fun b => ?_) (fun b => ?_)).congr
    fun settings text => ?_
  · unfold FileFirst
    split
    · refine ⟨fun h => ?_, nofun, nofun⟩
      simp [Json.Scan.gives_bind] at h
    · exact (Json.Scan.takes_members takes_fileMember {}).bind_pure FileDraft.settings
  · unfold FileFirst
    split
    · exact nofun
    · exact Json.Scan.enters_object.image FileDraft.settings
  · constructor
    · rintro ⟨b, -, h⟩
      grind [FileFirst]
    · rintro ⟨draft, h, rfl⟩
      exact ⟨0x7b, h.starts, draft, h, rfl⟩

/-- What the bytes of a settings file tell: what the section in it does, and
nothing if there is none. -/
def FileTells (overrides : Overrides) (bytes : List UInt8) : Prop :=
  ∃ (before gap : Gap) (members : List TextMember) (after : Gap),
    bytes = before.bytes ++ (objectText gap members ++ after.bytes) ∧
      Sole SectionTells {} overrides (textsOf extractKey members) ∧
      ∀ m ∈ members, m.key ≠ extractKey → Unused m.text

/-- A settings file is read if it is a JSON object, and says what its section tells. -/
theorem fileSettings?_iff {overrides : Overrides} :
    (fileSettings? bytes).map (·.extract) = some overrides ↔ FileTells overrides bytes := by
  have hread : (fileSettings? bytes).map (·.extract) = some overrides ↔
      ∃ draft, ObjectForm FileMakes {} draft bytes ∧ draft.extract.getD {} = overrides := by
    simp only [fileSettings?, Option.map_eq_some_iff, Json.toOption_eq_some_iff,
      takes_fileScan.run_iff]
    grind [FileDraft.settings]
  simp only [hread, FileTells, sole_iff, ObjectForm]
  constructor
  · rintro ⟨⟨extract, unknown⟩, ⟨before, gap, members, after, rfl, hbuilds⟩, rfl⟩
    obtain ⟨hextract, hothers⟩ := (builds_file {}).mp ⟨unknown, hbuilds⟩
    exact ⟨before, gap, members, after, rfl, ⟨extract, hextract, rfl⟩, hothers⟩
  · rintro ⟨before, gap, members, after, rfl, ⟨extract, hextract, rfl⟩, hothers⟩
    obtain ⟨unknown, hbuilds⟩ := (builds_file {}).mpr ⟨hextract, hothers⟩
    exact ⟨⟨extract, unknown⟩, ⟨before, gap, members, after, rfl, hbuilds⟩, rfl⟩

end Telemetry.Config
