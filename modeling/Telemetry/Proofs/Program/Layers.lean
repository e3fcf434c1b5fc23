import Telemetry.Program.Configure
import Telemetry.Proofs.Config.Contents
import Telemetry.Proofs.Program.Session
import Telemetry.Proofs.Text.Utf8

/-!
# The layers that settings come from

Loading the settings succeeds exactly if every file that is looked at may be
read and says something as a settings file, the file that was named is there,
and the limit that results is not zero. Then each setting is the first that the
command line, the file that was named or lies in the working folder, and the
one in the home folder set, in this order, or else its default, whatever
becomes of the other settings (`configure_layers`). So a limit of zero is no
fault of a layer as long as an upper one sets the limit.
-/

namespace Telemetry.Program

open Config (FileSettings FileTells Overrides)
open Extract (Settings)
open Files (Entry Host)

variable {host : Host Id} {path : String} {entry : Entry} {overrides : Overrides} {report : Report}

-- ---------------------------------------------------------------------------
-- One file
-- ---------------------------------------------------------------------------

def Tells (entry : Entry) (overrides : Overrides) : Prop :=
  ∃ text : String, entry = .file (Utf8.ofString text) ∧ FileTells overrides (Utf8.ofString text)

theorem fileSettings_ok {settings : FileSettings} :
    ((fileSettings path entry : Session Id _).ran report).1 = .ok settings ↔
      ∃ bytes, entry = .file bytes ∧ (Utf8.decode? bytes).isSome = true ∧
        Config.fileSettings? bytes = some settings := by
  unfold fileSettings
  cases entry with
  | file bytes =>
    cases hdecoded : Utf8.decode? bytes with
    | none => simp [hdecoded]
    | some text =>
      cases hread : Config.fileSettings? bytes with
      | none => simp [hdecoded, hread]
      | some read => simp [hdecoded, hread, bind_ran_ok, -bind_pure_comp]
  | _ => simp

theorem extract_ok :
    ((do return (← fileSettings path entry).extract : Session Id _).ran report).1 = .ok overrides ↔
      Tells entry overrides := by
  simp only [bind_ran_ok, fileSettings_ok, pure_ran, Except.ok.injEq, Tells,
    ← Config.fileSettings?_iff, Option.map_eq_some_iff]
  constructor
  · rintro ⟨settings, ⟨bytes, rfl, hdecoded, hread⟩, rfl⟩
    obtain ⟨text, rfl⟩ := Utf8.decode?_isSome_iff.mp hdecoded
    exact ⟨text, rfl, settings, hread, rfl⟩
  · rintro ⟨text, rfl, settings, hread, rfl⟩
    exact ⟨settings, ⟨_, rfl, Utf8.decode?_isSome_iff.mpr ⟨text, rfl⟩, hread⟩, rfl⟩

def OptionalTells (host : Host Id) (path : String) (overrides : Overrides) : Prop :=
  host.look path = .missing ∧ overrides = {} ∨ Tells (host.look path) overrides

theorem optionalFile_ok :
    ((optionalFile host path).ran report).1 = .ok overrides ↔ OptionalTells host path overrides := by
  unfold optionalFile OptionalTells
  rw [bind_ran, look_ran]
  cases host.look path with
  | missing => simp [Tells, eq_comm]
  | file bytes => simpa using extract_ok
  | closed size => simpa using extract_ok

theorem namedFile_ok :
    ((namedFile host path).ran report).1 = .ok overrides ↔ Tells (host.look path) overrides := by
  unfold namedFile
  rw [bind_ran, look_ran]
  cases host.look path with
  | missing => simp [Tells]
  | file bytes => exact extract_ok
  | closed size => exact extract_ok

-- ---------------------------------------------------------------------------
-- All layers
-- ---------------------------------------------------------------------------

/-- What the file in the home folder tells, if there are such a folder and file. -/
def ProfileTells (host : Host Id) (overrides : Overrides) : Prop :=
  match host.home with
  | none => overrides = {}
  | some home =>
    OptionalTells host (Files.join (Files.join home profileFolderName) configFileName) overrides

theorem profile_ok :
    ((profile host).ran report).1 = .ok overrides ↔ ProfileTells host overrides := by
  unfold profile ProfileTells
  cases host.home with
  | none => simp [eq_comm]
  | some home => exact optionalFile_ok

def OverlayTells (host : Host Id) (config : Option String) (overrides : Overrides) : Prop :=
  match config with
  | some path => Tells (host.look (expand host path)) overrides
  | none => OptionalTells host configFileName overrides

theorem overlay_ok {config : Option String} :
    ((overlay host config).ran report).1 = .ok overrides ↔ OverlayTells host config overrides := by
  unfold overlay OverlayTells
  split
  · exact namedFile_ok
  · exact optionalFile_ok

def firstSet {α : Type} (default : α) : List (Option α) → α
  | [] => default
  | some a :: _ => a
  | none :: rest => firstSet default rest

/-- Each setting is the first that the layers set, or else its default. A blank
system is none. -/
structure Layered (layers : List Overrides) (settings : Settings) : Prop where
  genAi : settings.genAi = firstSet true (layers.map (·.genAi))
  payloadLimit :
    settings.payloadLimit = firstSet Extract.defaultPayloadLimit (layers.map (·.payloadLimit))
  system : settings.system =
    let name := firstSet Extract.defaultSystem (layers.map (·.system))
    if Text.allBlank name then none else some name

theorem or_getD_eq {α : Type} (default : α) (upper middle lowest : Option α) :
    (upper.or (middle.or lowest)).getD default = firstSet default [upper, middle, lowest] := by
  cases upper <;> cases middle <;> cases lowest <;> rfl

theorem filter_blank (name : String) :
    ((some name).filter fun system => !Text.allBlank system) =
      if Text.allBlank name then none else some name := by
  cases h : Text.allBlank name <;> simp [Option.filter, h]

theorem layered_iff {upper middle lowest : Overrides} {settings : Settings} :
    (upper.onto (middle.onto lowest)).settings = settings ↔
      Layered [upper, middle, lowest] settings := by
  simp only [Overrides.settings, Overrides.onto, or_getD_eq, filter_blank]
  constructor
  · rintro rfl
    exact ⟨rfl, rfl, rfl⟩
  · rintro ⟨hgenAi, hlimit, hsystem⟩
    cases settings
    simp_all

/-- When settings are loaded, and which. -/
theorem configure_layers (host : Host Id) (config : Option String) (given : Overrides)
    (report : Report) (settings : Settings) :
    ((configure host config given).ran report).1 = .ok settings ↔
      ∃ lowest middle, ProfileTells host lowest ∧ OverlayTells host config middle ∧
        Layered [given, middle, lowest] settings ∧ settings.payloadLimit ≠ 0 := by
  have hchecked (result : Settings) (report : Report) :
      ((do
        if result.payloadLimit = 0 then throw .zeroLimit
        return result : Session Id Settings).ran report).1 = .ok settings ↔
      result = settings ∧ settings.payloadLimit ≠ 0 := by
    split
    · grind [bind_ran, throw_ran]
    · grind [pure_ran]
  simp only [configure, bind_ran_ok, profile_ok, overlay_ok, hchecked, layered_iff]
  grind

-- A file's limit of zero is a fault only where nothing above sets the limit.
example :
    let host : Host Id := {
      look := fun path =>
        if path = configFileName then
          .file (Utf8.ofString "\x7b\"extract\":\x7b\"payload_limit_bytes\":0\x7d\x7d")
        else .missing
      environment := fun _ => none
      home := none
      working := "/" }
    let limit (given : Overrides) := ((configure host none given).ran {}).1.toOption.map (·.payloadLimit)
    limit { payloadLimit := some 5 } = some 5 ∧ limit {} = none := by
  decide +kernel

end Telemetry.Program
