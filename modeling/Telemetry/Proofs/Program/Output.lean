import Telemetry.Program.Run
import Telemetry.Proofs.Extract.Replay
import Telemetry.Proofs.Program.Resolving

/-!
# What a run writes

A command does everything that can fail before it prints its first line, so a
command that fails has printed nothing. A model invocation is done exactly if
its settings and both its body files are good. Then it prints a line for each
key that the extraction puts something under, in ascending order of the keys,
each with the value that was put last, the request before the response
(`run_prints_whole_or_nothing`).
-/

namespace Telemetry.Program

open Attribute (KeyValues)
open CommandLine (Invocation)
open Extract (Extractor ModelCall Settings)
open Files (Host)
open Telemetry.Field (World)
open Payload (Ranking)

variable {α β : Type}

-- ---------------------------------------------------------------------------
-- Sessions that print
-- ---------------------------------------------------------------------------

def Report.printed (report : Report) (lines : List String) : Report :=
  { report with lines := report.lines ++ lines }

def Session.Silent (session : Session Id α) : Prop :=
  ∀ report, (session.ran report).2.lines = report.lines

def Session.FailsSilent (session : Session Id α) : Prop :=
  ∀ report problem, (session.ran report).1 = .error problem →
    (session.ran report).2.lines = report.lines

def Session.Prints (session : Session Id Unit) (lines : List String) : Prop :=
  ∀ report, session.ran report = (.ok (), report.printed lines)

section
variable {session : Session Id α} {next : α → Session Id β}

theorem Session.Silent.bind (h : session.Silent) (h' : ∀ a, (next a).Silent) :
    (session >>= next).Silent := by
  intro report
  have hfirst := h report
  rw [bind_ran]
  rcases hran : session.ran report with ⟨problem | a, later⟩
  · rwa [hran] at hfirst
  · rw [hran] at hfirst
    exact (h' a later).trans hfirst

theorem Session.Silent.bind_failsSilent (h : session.Silent) (h' : ∀ a, (next a).FailsSilent) :
    (session >>= next).FailsSilent := by
  intro report problem
  have hfirst := h report
  rw [bind_ran]
  rcases hran : session.ran report with ⟨problem | a, later⟩
  · rw [hran] at hfirst
    exact fun _ => hfirst
  · rw [hran] at hfirst
    exact fun failed => (h' a later problem failed).trans hfirst

theorem Session.Silent.failsSilent (h : session.Silent) : session.FailsSilent :=
  fun report _ _ => h report

end

theorem pure_silent (a : α) : (pure a : Session Id α).Silent :=
  fun _ => rfl

theorem throw_silent (problem : Problem) : (throw problem : Session Id α).Silent :=
  fun _ => rfl

theorem throw_bind_silent (problem : Problem) (next : α → Session Id β) :
    (throw problem >>= next).Silent :=
  fun _ => rfl

theorem look_silent (host : Host Id) (path : String) : (look host path).Silent :=
  fun _ => rfl

theorem warnUnknown_silent (keys : List String) : (warnUnknown keys : Session Id Unit).Silent := by
  intro report
  unfold warnUnknown
  split <;> rfl

theorem Session.Prints.failsSilent {session : Session Id Unit} {lines : List String}
    (h : session.Prints lines) : session.FailsSilent := by
  intro report problem failed
  rw [h report] at failed
  cases failed

theorem print_prints (line : String) : (print line : Session Id Unit).Prints [line] :=
  fun _ => rfl

theorem Session.Prints.then {first second : Session Id Unit} {lines others : List String}
    (h : first.Prints lines) (h' : second.Prints others) :
    (do first; second : Session Id Unit).Prints (lines ++ others) := by
  intro report
  rw [bind_ran, h report]
  refine (h' (report.printed lines)).trans ?_
  simp only [Report.printed, List.append_assoc]

theorem forM_prints {each : α → Session Id Unit} {lines : α → List String}
    (h : ∀ a, (each a).Prints (lines a)) (list : List α) :
    (list.forM each).Prints (list.flatMap lines) := by
  induction list with
  | nil =>
    intro report
    simp [Report.printed]
  | cons a list ih =>
    rw [List.flatMap_cons]
    exact (h a).then ih

-- ---------------------------------------------------------------------------
-- Settings and files
-- ---------------------------------------------------------------------------

variable {host : Host Id} {settings : Settings} {path file : String}

theorem fileSettings_silent (entry : Files.Entry) :
    (fileSettings path entry : Session Id _).Silent := by
  unfold fileSettings
  cases entry with
  | file bytes =>
    dsimp only
    split
    · exact throw_bind_silent _ _
    · split
      · exact throw_silent _
      · exact (warnUnknown_silent _).bind fun _ => pure_silent _
  | _ => exact throw_silent _

theorem optionalFile_silent (host : Host Id) (path : String) : (optionalFile host path).Silent := by
  refine (look_silent host path).bind fun entry => ?_
  split
  · exact pure_silent _
  · exact (fileSettings_silent entry).bind fun _ => pure_silent _

theorem namedFile_silent (host : Host Id) (path : String) : (namedFile host path).Silent := by
  refine (look_silent host path).bind fun entry => ?_
  split
  · exact throw_silent _
  · exact (fileSettings_silent entry).bind fun _ => pure_silent _

theorem configure_silent (host : Host Id) (config : Option String) (given : Config.Overrides) :
    (configure host config given).Silent := by
  have hprofile : (profile host).Silent := by
    unfold profile
    split
    · exact pure_silent _
    · exact optionalFile_silent host _
  have hoverlay : (overlay host config).Silent := by
    unfold overlay
    split
    · exact namedFile_silent host _
    · exact optionalFile_silent host _
  refine hprofile.bind fun lowest => hoverlay.bind fun middle => ?_
  dsimp only
  split
  · exact throw_bind_silent _ _
  · exact pure_silent _

theorem readPayload_silent (host : Host Id) (path : String) (limit : Nat) :
    (readPayload host path limit).Silent := by
  refine (look_silent host path).bind fun entry => ?_
  cases entry with
  | missing => exact throw_silent _
  | file bytes =>
    dsimp only
    split
    · exact throw_silent _
    · exact pure_silent _
  | closed size =>
    dsimp only
    split
    · exact throw_silent _
    · exact throw_silent _

theorem readPayload_ok {limit : Nat} {bytes : List UInt8} {report : Report} :
    ((readPayload host path limit).ran report).1 = .ok bytes ↔
      host.look path = .file bytes ∧ bytes.length ≤ limit := by
  constructor
  · intro h
    unfold readPayload at h
    rw [bind_ran, look_ran] at h
    cases hlook : host.look path with
    | missing => simp [hlook] at h
    | file found =>
      simp only [hlook] at h
      split at h
      · cases h
      · rename_i short
        cases h
        exact ⟨rfl, Nat.not_lt.mp short⟩
    | closed size =>
      simp only [hlook] at h
      split at h <;> cases h
  · rintro ⟨there, short⟩
    rw [readPayload_ran there, if_neg (Nat.not_lt.mpr short)]

-- ---------------------------------------------------------------------------
-- Commands
-- ---------------------------------------------------------------------------

theorem lines_prints (lines : List String) :
    (lines.forM print : Session Id Unit).Prints lines := by
  have h := forM_prints print_prints lines
  rwa [List.flatMap_singleton'] at h

theorem listCategories_prints : (listCategories : Session Id Unit).Prints
    (["FieldScope request categories:"] ++
      Mapping.Registry.builtin.categories.flatMap categoryLines) :=
  (print_prints _).then (forM_prints (fun category => lines_prints (categoryLines category)) _)

theorem resolve_failsSilent (host : Host Id) (settings : Settings) (key file : String)
    (ranking : Ranking) : (resolve host settings key file ranking).FailsSilent := by
  unfold resolve
  split
  · exact (throw_silent _).failsSilent
  · refine (readPayload_silent host _ _).bind_failsSilent fun bytes => ?_
    split
    · exact (throw_silent _).failsSilent
    · split
      · exact (print_prints _).failsSilent
      · exact (print_prints _).failsSilent

theorem modelCall_silent (host : Host Id) (settings : Settings) (modelId : String)
    (file : Option String) : (modelCall host settings modelId file).Silent := by
  unfold modelCall
  split
  · exact pure_silent _
  · exact (readPayload_silent host _ _).bind fun _ => pure_silent _

/-- A file for a body gives a call: no file a call without a body, and a file
that is there and not too long a call with its bytes. -/
def Loads (host : Host Id) (limit : Nat) (modelId : String) (file : Option String)
    (call : ModelCall) : Prop :=
  match file with
  | none => call = { modelId := some modelId, body := none }
  | some file => ∃ bytes, host.look (expand host file) = .file bytes ∧ bytes.length ≤ limit ∧
      call = { modelId := some modelId, body := some ⟨bytes⟩ }

theorem modelCall_ran {modelId : String} {file : Option String} {call : ModelCall}
    (h : Loads host settings.payloadLimit modelId file call) (report : Report) :
    (modelCall host settings modelId file).ran report = (.ok call, report) := by
  unfold modelCall
  cases file with
  | none =>
    cases h
    rfl
  | some file =>
    obtain ⟨bytes, there, short, rfl⟩ := h
    simp only [bind_ran, readPayload_ran there, if_neg (Nat.not_lt.mpr short), pure_ran]

theorem modelCall_ok {modelId : String} {file : Option String} {call : ModelCall}
    {report : Report} :
    ((modelCall host settings modelId file).ran report).1 = .ok call ↔
      Loads host settings.payloadLimit modelId file call := by
  refine ⟨fun h => ?_, fun h => by rw [modelCall_ran h]⟩
  unfold modelCall at h
  cases file with
  | none =>
    cases h
    rfl
  | some file =>
    obtain ⟨bytes, hread, hcall⟩ := bind_ran_ok.mp h
    cases hcall
    obtain ⟨there, short⟩ := readPayload_ok.mp hread
    exact ⟨bytes, there, short, rfl⟩

theorem invocationRecords_prints (settings : Settings) (request response : ModelCall)
    (rankings : Nat → Ranking) :
    ((invocationRecords settings request response rankings).entries.forM fun entry =>
      (print (attributeLine entry) : Session Id Unit)).Prints
      ((invocationRecords settings request response rankings).entries.map attributeLine) := by
  rw [List.map_eq_flatMap]
  exact forM_prints (fun entry => print_prints (attributeLine entry)) _

theorem execute_failsSilent (host : Host Id) (invocation : Invocation)
    (rankings : Nat → Ranking) : (execute host invocation rankings).FailsSilent := by
  refine (configure_silent host _ _).bind_failsSilent fun settings => ?_
  split
  · exact listCategories_prints.failsSilent
  · exact resolve_failsSilent host settings _ _ _
  · refine (modelCall_silent host settings _ _).bind_failsSilent fun request => ?_
    refine (modelCall_silent host settings _ _).bind_failsSilent fun response => ?_
    exact (invocationRecords_prints settings request response rankings).failsSilent

-- ---------------------------------------------------------------------------
-- What an invocation prints
-- ---------------------------------------------------------------------------

/-- What the extraction puts for a request and then for its response, each
extracted by itself. -/
def invocationPuts (settings : Settings) (request response : ModelCall)
    (rankings : Nat → Ranking) : List (String × Attribute.Value) :=
  let e : Extractor := { registry := .builtin, settings }
  let start : World Unit := { state := () }
  (e.onRequest Mapping.invokeModel request.source start ({} : KeyValues)
      fun _ => rankings 0).sink.entries ++
    (e.onResponse Mapping.invokeModel response.source start ({} : KeyValues)
      fun _ => rankings 1).sink.entries

theorem extract_sink {σ κ : Type} [Attribute.Sink κ] (e : Extractor) (operation : Mapping.Operation)
    (phase : Mapping.Phase) (source : Telemetry.Field.Source σ) (world : World σ) (sink : κ)
    (rankings : Extract.Rankings) :
    (e.extract operation phase source world sink rankings).sink =
      Extract.putAll sink
        (e.extract operation phase source world ({} : KeyValues) rankings).sink.entries := by
  simp only [e.extract_told operation phase, Attribute.putAll_keyValues, List.nil_append]

/-- The cache that the request leaves makes no difference to the response. -/
theorem invocationRecords_eq (settings : Settings) (request response : ModelCall)
    (rankings : Nat → Ranking) :
    invocationRecords settings request response rankings =
      Extract.putAll {} (invocationPuts settings request response rankings) := by
  unfold invocationRecords invocationPuts
  rw [Extract.putAll_append]
  dsimp only [Extractor.onRequest, Extractor.onResponse]
  rw [extract_sink, extract_sink _ _ .request, Extract.extract_model settings .response,
    Extract.extract_model settings .response]

theorem invocationRecords_entries (settings : Settings) (request response : ModelCall)
    (rankings : Nat → Ranking) :
    Sorted.Ascending (invocationRecords settings request response rankings).entries ∧
      ∀ key, Entries.get? (invocationRecords settings request response rankings).entries key =
        Entries.last? (invocationPuts settings request response rankings) key := by
  have hempty : ({} : Attribute.Records).Ordered := List.Pairwise.nil
  rw [invocationRecords_eq]
  refine ⟨Attribute.ordered_putAll hempty _, fun key => ?_⟩
  rw [← Attribute.Records.get?_eq, Attribute.get?_putAll]
  exact Option.or_none

structure Invokes (host : Host Id) (invocation : Invocation) (modelId : String)
    (request response : Option String) (settings : Settings) (asked answered : ModelCall) :
    Prop where
  configured : ((configure host invocation.config invocation.overrides).ran {}).1 = .ok settings
  asked : Loads host settings.payloadLimit modelId request asked
  answered : Loads host settings.payloadLimit modelId response answered

theorem execute_invoke_ok {invocation : Invocation} {modelId : String}
    {request response : Option String} {rankings : Nat → Ranking}
    (h : invocation.command = .invoke modelId request response) :
    ((execute host invocation rankings).ran {}).1 = .ok () ↔
      ∃ settings asked answered, Invokes host invocation modelId request response settings asked
        answered := by
  have hprints (settings : Settings) (asked answered : ModelCall) (report : Report) :=
    invocationRecords_prints settings asked answered rankings report
  unfold execute
  simp only [h, invoke, bind_ran_ok, modelCall_ok, hprints, and_true]
  constructor
  · rintro ⟨settings, configured, asked, hasked, answered, hanswered⟩
    exact ⟨settings, asked, answered, configured, hasked, hanswered⟩
  · rintro ⟨settings, asked, answered, configured, hasked, hanswered⟩
    exact ⟨settings, configured, asked, hasked, answered, hanswered⟩

theorem execute_invoke_lines {invocation : Invocation} {modelId : String}
    {request response : Option String} {rankings : Nat → Ranking}
    (h : invocation.command = .invoke modelId request response) {asked answered : ModelCall}
    (good : Invokes host invocation modelId request response settings asked answered) :
    ((execute host invocation rankings).ran {}).2.lines =
      (invocationRecords settings asked answered rankings).entries.map attributeLine := by
  have hsilent := configure_silent host invocation.config invocation.overrides {}
  have hconfigured := good.configured
  rcases hran : (configure host invocation.config invocation.overrides).ran {} with ⟨result, report⟩
  rw [hran] at hsilent hconfigured
  cases hconfigured
  unfold execute
  simp only [h, invoke, bind_ran, hran, modelCall_ran good.asked, modelCall_ran good.answered]
  rw [invocationRecords_prints settings asked answered rankings report]
  exact congrArg (· ++ _) hsilent

-- ---------------------------------------------------------------------------
-- Runs
-- ---------------------------------------------------------------------------

theorem lines_logged (report : Report) (filter : Log.Filter) :
    (report.logged filter).lines = report.lines := by
  unfold Report.logged
  split <;> rfl

section
variable {args : List String} {known : Variables} {filter : Log.Filter} {invocation : Invocation}
  {rankings : Nat → Ranking}

theorem run_brokenOff {obstacle : Obstacle} (h : prepare host = .error obstacle) :
    run host args rankings = { ending := .brokenOff obstacle } := by
  unfold run
  rw [h]
  rfl

theorem run_usage {usage : CommandLine.Usage} (ready : prepare host = .ok (known, filter))
    (refused : CommandLine.parse (Entries.get? known) args = .error usage) :
    run host args rankings = { ending := .usage usage } := by
  unfold run
  rw [ready]
  change (pure (Except.ok (known, filter)) >>= _ : Id Outcome) = _
  rw [pure_bind]
  simp only [refused]
  rfl

theorem run_invocation (ready : prepare host = .ok (known, filter))
    (parsed : CommandLine.parse (Entries.get? known) args = .ok invocation) :
    run host args rankings = match (execute host invocation rankings).ran {} with
      | (.ok _, report) => { ending := .done, report := report.logged filter }
      | (.error problem, report) =>
        { ending := .failed problem, report := report.logged filter } := by
  unfold run
  rw [ready]
  change (pure (Except.ok (known, filter)) >>= _ : Id Outcome) = _
  rw [pure_bind]
  simp only [parsed]
  change (pure ((execute host invocation rankings).ran {}) >>= _ : Id Outcome) = _
  rw [pure_bind]
  rcases (execute host invocation rankings).ran {} with ⟨problem | a, report⟩ <;> rfl

/-- What the command has printed is what the run writes, however it ends. -/
theorem run_output (ready : prepare host = .ok (known, filter))
    (parsed : CommandLine.parse (Entries.get? known) args = .ok invocation) :
    (run host args rankings).output = ((execute host invocation rankings).ran {}).2.lines := by
  rw [run_invocation ready parsed]
  rcases (execute host invocation rankings).ran {} with ⟨problem | a, report⟩
  · exact lines_logged report filter
  · exact lines_logged report filter

theorem run_done_iff (ready : prepare host = .ok (known, filter))
    (parsed : CommandLine.parse (Entries.get? known) args = .ok invocation) :
    (run host args rankings).ending = .done ↔
      ((execute host invocation rankings).ran {}).1 = .ok () := by
  rw [run_invocation ready parsed]
  rcases (execute host invocation rankings).ran {} with ⟨problem | a, report⟩
  · simp
  · simp

/-- A run whose command fails has come as far as the command. -/
theorem run_failed {problem : Problem} (h : (run host args rankings).ending = .failed problem) :
    ∃ known filter invocation, prepare host = .ok (known, filter) ∧
      CommandLine.parse (Entries.get? known) args = .ok invocation ∧
      ((execute host invocation rankings).ran {}).1 = .error problem := by
  cases ready : prepare host with
  | error obstacle =>
    rw [run_brokenOff ready] at h
    cases h
  | ok prepared =>
    obtain ⟨known, filter⟩ := prepared
    cases parsed : CommandLine.parse (Entries.get? known) args with
    | error usage =>
      rw [run_usage ready parsed] at h
      cases h
    | ok invocation =>
      refine ⟨known, filter, invocation, rfl, parsed, ?_⟩
      rw [run_invocation ready parsed] at h
      rcases hran : (execute host invocation rankings).ran {} with ⟨failed | a, report⟩
      · rw [hran] at h
        cases h
        rfl
      · rw [hran] at h
        cases h

end

/-- A run whose command fails writes nothing. A run that invokes a model is done
exactly if the settings and the files of both bodies are good, and then it
writes a line for each key under which something is put, in ascending order of
the keys, with the value that is put there last, the response after the request. -/
theorem run_prints_whole_or_nothing (host : Host Id) (args : List String)
    (rankings : Nat → Ranking) :
    (∀ problem, (run host args rankings).ending = .failed problem →
      (run host args rankings).output = []) ∧
    ∀ known filter invocation modelId request response,
      prepare host = .ok (known, filter) →
      CommandLine.parse (Entries.get? known) args = .ok invocation →
      invocation.command = .invoke modelId request response →
      ((run host args rankings).ending = .done ↔
        ∃ settings asked answered,
          Invokes host invocation modelId request response settings asked answered) ∧
      ∀ settings asked answered,
        Invokes host invocation modelId request response settings asked answered →
        ∃ entries, (run host args rankings).output = entries.map attributeLine ∧
          Sorted.Ascending entries ∧ ∀ key, Entries.get? entries key =
            Entries.last? (invocationPuts settings asked answered rankings) key := by
  refine ⟨?_, ?_⟩
  · intro problem h
    obtain ⟨known, filter, invocation, ready, parsed, failed⟩ := run_failed h
    rw [run_output ready parsed]
    exact execute_failsSilent host invocation rankings {} problem failed
  · intro known filter invocation modelId request response ready parsed invoked
    refine ⟨(run_done_iff ready parsed).trans (execute_invoke_ok invoked), ?_⟩
    intro settings asked answered good
    refine ⟨(invocationRecords settings asked answered rankings).entries, ?_, ?_⟩
    · rw [run_output ready parsed, execute_invoke_lines invoked good]
    · exact invocationRecords_entries settings asked answered rankings

def askedOnly : Host Id where
  look path :=
    if path = "/asked.json" then .file (Utf8.ofString "\x7b\"max_tokens\":5\x7d") else .missing
  environment _ := none
  home := none
  working := "/"

def askedArgs : List String :=
  ["invoke", "--model-id", "m", "--request", "asked.json"]

theorem run_prints_asked :
    (run askedOnly askedArgs).ending = .done ∧
      ∃ entries, (run askedOnly askedArgs).output = entries.map attributeLine ∧
        Sorted.Ascending entries ∧
        Entries.get? entries Attribute.Key.requestMaxTokens = some (.int 5) := by
  obtain ⟨filter, ready⟩ : ∃ filter, prepare askedOnly = .ok ([], filter) := by
    have hknown : (Id.run (prepare askedOnly)).toOption.map (·.1) = some [] := by decide +kernel
    obtain ⟨⟨known, filter⟩, hready, rfl⟩ := Option.map_eq_some_iff.mp hknown
    cases hprepared : prepare askedOnly with
    | error obstacle => simp [hprepared, Id.run, Except.toOption] at hready
    | ok prepared =>
      simp only [hprepared, Id.run, Except.toOption, Option.some.injEq] at hready
      exact ⟨filter, by rw [hready]⟩
  have hrun := (run_prints_whole_or_nothing askedOnly askedArgs fun _ => .level).2 [] filter
    { command := .invoke "m" (some "asked.json") none } "m" (some "asked.json") none ready
    (by decide +kernel) rfl
  have good : Invokes askedOnly { command := .invoke "m" (some "asked.json") none } "m"
      (some "asked.json") none {} _ _ :=
    ⟨by decide +kernel, ⟨_, rfl, by decide, rfl⟩, rfl⟩
  obtain ⟨entries, houtput, ascending, hvalues⟩ := hrun.2 _ _ _ good
  refine ⟨hrun.1.mpr ⟨_, _, _, good⟩, entries, houtput, ascending, ?_⟩
  rw [hvalues]
  decide +kernel

-- The request is good in both runs, and the file of a response is missing in the second.
example :
    let host : Host Id := {
      look := fun path =>
        if path = "/asked.json" then .file (Utf8.ofString "\x7b\"max_tokens\":5\x7d") else .missing
      environment := fun _ => none
      home := none
      working := "/" }
    let asked := ["invoke", "--model-id", "m", "--request", "asked.json"]
    (run host asked).output = ["gen_ai.request.max_tokens = 5", "gen_ai.request.model = m",
        "gen_ai.system = aws.bedrock"] ∧
      (run host (asked ++ ["--response", "answered.json"])).output = [] := by
  decide +kernel

end Telemetry.Program
