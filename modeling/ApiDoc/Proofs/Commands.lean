import ApiDoc.Proofs.FileAccess
import ApiDoc.Proofs.Manifests

/-! # Commands and files

A generation can fail in many places: the configuration, the manifest, the version and the document may each
be at fault, and each of the settings may come from the command line, the configuration or its default. What
it comes to before anything is written depends on what there is to see of the files alone (`ComesTo`), and
all that happens until then is looking (`runGenerate_of_error`, `runGenerate_of_output`). So a generation
that fails leaves the files as they were, and one that goes well changes the file it was to write and no
other. The command that makes a new configuration spares an old one in the same way (`commands_keep_files`).
How texts are read and written does not matter for any of this.
-/

namespace ApiDoc

variable {σ Place : Type}

namespace FileView

variable (codecs : Codecs) (view : FileView Place)

def text? (path : String) : Option String := (view.read? path).bind String.fromUTF8?

/-- The configuration, which is the default one if there is no file for it. -/
def config? : Option Config :=
  if view.present Config.fileName then (view.text? Config.fileName).bind codecs.config? else some {}

def HoldsManifest (path : String) (manifest : Manifest) : Prop :=
  ∃ text, view.text? path = some text ∧ codecs.manifests.fromFile path text = .ok manifest

end FileView

/-- A document with the path that it is written under, and the version that it was asked for. -/
structure Output where
  path : String
  version : String
  text : String

/-- The interface that the routes of a manifest make, its own entities being the catalog. -/
def Manifest.api (manifest : Manifest) (config : Config) : Api :=
  buildApi config { catalog := manifest.entities.map fun entity => (entity.name, entity) } manifest.routes

section
variable (codecs : Codecs) (view : FileView Place) (options : GenerateOptions)

/-- What a generation comes to before it writes. What the command line says goes ahead of what the
configuration says. -/
inductive ComesTo : Except CommandError Output → Prop
  | configuration : view.config? codecs = none → ComesTo (.error .configuration)
  | unreadable {config : Config} : view.config? codecs = some config →
      view.text? (options.input.getD config.input) = none →
      ComesTo (.error (.unreadable (options.input.getD config.input)))
  | manifest {config : Config} {text : String} {error : ManifestError} : view.config? codecs = some config →
      view.text? (options.input.getD config.input) = some text →
      codecs.manifests.fromFile (options.input.getD config.input) text = .error error →
      ComesTo (.error (.manifest (options.input.getD config.input) error))
  | version {config : Config} {manifest : Manifest} {error : ConfigError} : view.config? codecs = some config →
      view.HoldsManifest codecs (options.input.getD config.input) manifest →
      Exporters.builtIn.dialect? (options.version.getD config.target) = .error error →
      ComesTo (.error (.generation (options.version.getD config.target) (.config error)))
  | document {config : Config} {manifest : Manifest} {dialect : Dialect} {error : ExportError} :
      view.config? codecs = some config →
      view.HoldsManifest codecs (options.input.getD config.input) manifest →
      Exporters.builtIn.dialect? (options.version.getD config.target) = .ok dialect →
      Export.document dialect (manifest.api config) = .error error →
      ComesTo (.error (.generation (options.version.getD config.target) (.document error)))
  | output {config : Config} {manifest : Manifest} {dialect : Dialect} {document : Json} :
      view.config? codecs = some config →
      view.HoldsManifest codecs (options.input.getD config.input) manifest →
      Exporters.builtIn.dialect? (options.version.getD config.target) = .ok dialect →
      Export.document dialect (manifest.api config) = .ok document →
      ComesTo (.ok {
        path := options.output.getD config.output
        version := options.version.getD config.target
        text := codecs.render (options.format.getD config.format) document })

end

/-- Every generation comes to something. -/
theorem exists_comesTo (codecs : Codecs) (view : FileView Place) (options : GenerateOptions) :
    ∃ outcome, ComesTo codecs view options outcome := by
  cases found : view.config? codecs with
  | none => exact ⟨_, .configuration found⟩
  | some config =>
    cases readable : view.text? (options.input.getD config.input) with
    | none => exact ⟨_, .unreadable found readable⟩
    | some text =>
      cases loaded : codecs.manifests.fromFile (options.input.getD config.input) text with
      | error => exact ⟨_, .manifest found readable loaded⟩
      | ok manifest =>
        have holds : view.HoldsManifest codecs (options.input.getD config.input) manifest :=
          ⟨text, readable, loaded⟩
        cases known : Exporters.builtIn.dialect? (options.version.getD config.target) with
        | error => exact ⟨_, .version found holds known⟩
        | ok dialect =>
          cases exported : Export.document dialect (manifest.api config) with
          | error => exact ⟨_, .document found holds known exported⟩
          | ok => exact ⟨_, .output found holds known exported⟩

namespace Manifest

variable {readers : Readers} {path text : String} {manifest : Manifest}

theorem nodup_of_fromFile (loaded : readers.fromFile path text = .ok manifest) :
    (manifest.entities.map Entity.name).Nodup := by
  unfold Readers.fromFile at loaded
  split at loaded
  · have read := load_loadedFrom readers.json? .json text
    rw [← Readers.fromJson, loaded] at read
    exact nodup_of_loadedFrom read
  · have read := load_loadedFrom readers.yaml? .yaml text
    rw [← Readers.fromYaml, loaded] at read
    exact nodup_of_loadedFrom read

/-- A new generator makes the interface of a manifest and writes it in the dialect of the version. -/
theorem generate_of_loaded (loaded : readers.fromFile path text = .ok manifest) (config : Config)
    (version : String) :
    (Generator.registerEntities { config } manifest).1.generate manifest.routes version =
      match Exporters.builtIn.dialect? version with
      | .error error => .error (.config error)
      | .ok dialect => (Export.document dialect (manifest.api config)).mapError .document := by
  rw [registerEntities_of_nodup manifest (nodup_of_fromFile loaded) config]
  unfold Generator.generate Generator.exportApi Generator.dialect?
  cases Exporters.builtIn.dialect? version <;> rfl

end Manifest

namespace Settings

variable (settings : Settings) {codecs : Codecs} {content : Option ByteArray} {text : String} {manifest : Manifest}

theorem document_of_unreadable (codecs : Codecs) (unreadable : content.bind String.fromUTF8? = none) :
    settings.document codecs content = .error (.unreadable settings.input) := by
  unfold document
  rw [unreadable]
  rfl

theorem document_of_refused {error : ManifestError} (readable : content.bind String.fromUTF8? = some text)
    (refused : codecs.manifests.fromFile settings.input text = .error error) :
    settings.document codecs content = .error (.manifest settings.input error) := by
  unfold document
  rw [readable]
  simp only [pure_bind]
  rw [refused]
  rfl

section
variable (readable : content.bind String.fromUTF8? = some text)
  (loaded : codecs.manifests.fromFile settings.input text = .ok manifest)
include readable loaded

/-- With its manifest loaded, a document depends on the version and on what the export of the interface
makes. -/
theorem document_of_loaded : settings.document codecs content =
    match Exporters.builtIn.dialect? settings.version with
    | .error error => .error (.generation settings.version (.config error))
    | .ok dialect =>
      match Export.document dialect (manifest.api settings.config) with
      | .error error => .error (.generation settings.version (.document error))
      | .ok document => .ok (codecs.render settings.format document) := by
  have generated := Manifest.generate_of_loaded loaded settings.config settings.version
  have registered := Manifest.registerEntities_of_nodup manifest (Manifest.nodup_of_fromFile loaded) settings.config
  unfold document
  rw [readable]
  simp only [pure_bind]
  rw [loaded]
  simp only [Except.mapError, bind, Except.bind, registered]
  rw [registered] at generated
  rw [generated]
  cases Exporters.builtIn.dialect? settings.version with
  | error => rfl
  | ok dialect =>
    dsimp only
    cases Export.document dialect (manifest.api settings.config) <;> rfl

theorem document_of_version {error : ConfigError}
    (unknown : Exporters.builtIn.dialect? settings.version = .error error) :
    settings.document codecs content = .error (.generation settings.version (.config error)) := by
  rw [settings.document_of_loaded readable loaded, unknown]

theorem document_of_failed {dialect : Dialect} {error : ExportError}
    (known : Exporters.builtIn.dialect? settings.version = .ok dialect)
    (failed : Export.document dialect (manifest.api settings.config) = .error error) :
    settings.document codecs content = .error (.generation settings.version (.document error)) := by
  rw [settings.document_of_loaded readable loaded, known]
  dsimp only
  rw [failed]

theorem document_of_exported {dialect : Dialect} {document : Json}
    (known : Exporters.builtIn.dialect? settings.version = .ok dialect)
    (exported : Export.document dialect (manifest.api settings.config) = .ok document) :
    settings.document codecs content = .ok (codecs.render settings.format document) := by
  rw [settings.document_of_loaded readable loaded, known]
  dsimp only
  rw [exported]

end

end Settings

namespace Command

variable {codecs : Codecs} {access : FileAccess (StateM σ)} {view : σ → FileView Place} {files later : σ}

/-- A command goes on with what a step on the files answers. -/
theorem run_liftM_bind {α β : Type} {step : StateM σ α} {value : α} (ran : step.run files = (value, later))
    (next : α → ExceptT CommandError (StateM σ) β) :
    (liftM step >>= next).run.run files = (next value).run.run later :=
  congrArg (fun outcome : α × σ => (next outcome.1).run.run outcome.2) ran

theorem run_bind_of_ok {α β : Type} {first : ExceptT CommandError (StateM σ) α} {value : α}
    (ran : first.run.run files = (.ok value, later)) (next : α → ExceptT CommandError (StateM σ) β) :
    (first >>= next).run.run files = (next value).run.run later := by
  rw [ExceptT.run_bind, StateT.run_bind, ran]
  rfl

theorem run_bind_of_error {α β : Type} {first : ExceptT CommandError (StateM σ) α} {error : CommandError}
    (ran : first.run.run files = (.error error, later)) (next : α → ExceptT CommandError (StateM σ) β) :
    (first >>= next).run.run files = (.error error, later) := by
  rw [ExceptT.run_bind, StateT.run_bind, ran]
  rfl

theorem loadConfig_run (codecs : Codecs) (lawful : access.Lawful view) (files : σ) :
    (loadConfig codecs access).run.run files =
      (match (view files).config? codecs with
        | some config => .ok config
        | none => .error .configuration, files) := by
  unfold loadConfig FileView.config? FileView.text?
  rw [run_liftM_bind (lawful.present_run _ _)]
  cases (view files).present Config.fileName with
  | false => rfl
  | true =>
    simp only [if_true]
    rw [run_liftM_bind (lawful.read_run _ _)]
    cases (view files).read? Config.fileName with
    | none => rfl
    | some bytes =>
      unfold Config.loadWith
      simp only [Option.map_some, Option.bind_some]
      cases (String.fromUTF8? bytes).bind codecs.config? <;> rfl

theorem textStep_run (codecs : Codecs) (lawful : access.Lawful view) (settings : Settings) (files : σ) :
    (ExceptT.mk (do return settings.document codecs (← access.read? settings.input))).run.run files =
      (settings.document codecs ((view files).read? settings.input), files) :=
  congrArg (fun outcome : Option ByteArray × σ => (settings.document codecs outcome.1, outcome.2))
    (lawful.read_run settings.input files)

theorem runGenerate_of_broken (lawful : access.Lawful view) {options : GenerateOptions}
    (broken : (view files).config? codecs = none) :
    (runGenerate codecs access options).run.run files = (.error .configuration, files) := by
  have loaded := loadConfig_run codecs lawful files
  rw [broken] at loaded
  exact run_bind_of_error loaded _

section
variable (lawful : access.Lawful view) {options : GenerateOptions} {config : Config}
  (found : (view files).config? codecs = some config)
include lawful found

/-- With a configuration, a generation goes on with the text of its document. -/
theorem runGenerate_of_found : (runGenerate codecs access options).run.run files =
    (ExceptT.mk (do
        return (Settings.of options config).document codecs (← access.read? (Settings.of options config).input)) >>=
      writeDocument access (Settings.of options config)).run.run files := by
  have loaded := loadConfig_run codecs lawful files
  rw [found] at loaded
  exact run_bind_of_ok loaded _

theorem runGenerate_of_refused {error : CommandError}
    (refused : (Settings.of options config).document codecs
      ((view files).read? (options.input.getD config.input)) = .error error) :
    (runGenerate codecs access options).run.run files = (.error error, files) := by
  have stepped := textStep_run codecs lawful (Settings.of options config) files
  rw [runGenerate_of_found lawful found]
  exact run_bind_of_error (stepped.trans (congrArg (·, files) refused)) _

theorem runGenerate_of_complete {text : String}
    (complete : (Settings.of options config).document codecs
      ((view files).read? (options.input.getD config.input)) = .ok text) :
    (runGenerate codecs access options).run.run files =
      (writeDocument access (Settings.of options config) text).run.run files := by
  have stepped := textStep_run codecs lawful (Settings.of options config) files
  rw [runGenerate_of_found lawful found]
  exact run_bind_of_ok (stepped.trans (congrArg (·, files) complete)) _

end

/-- All that comes before the writing only looks at the files. -/
theorem runGenerate_of_error (lawful : access.Lawful view) {options : GenerateOptions} {error : CommandError}
    (comes : ComesTo codecs (view files) options (.error error)) :
    (runGenerate codecs access options).run.run files = (.error error, files) := by
  cases comes with
  | configuration broken => exact runGenerate_of_broken lawful broken
  | @unreadable config found unreadable =>
    have refused := (Settings.of options config).document_of_unreadable codecs unreadable
    exact runGenerate_of_refused lawful found refused
  | @manifest config _ _ found readable failed =>
    have refused := (Settings.of options config).document_of_refused readable failed
    exact runGenerate_of_refused lawful found refused
  | @version config _ _ found holds unknown =>
    obtain ⟨text, readable, loaded⟩ := holds
    have refused := (Settings.of options config).document_of_version readable loaded unknown
    exact runGenerate_of_refused lawful found refused
  | @document config _ _ _ found holds known failed =>
    obtain ⟨text, readable, loaded⟩ := holds
    have refused := (Settings.of options config).document_of_failed readable loaded known failed
    exact runGenerate_of_refused lawful found refused

theorem runGenerate_of_output (lawful : access.Lawful view) {options : GenerateOptions} {output : Output}
    (comes : ComesTo codecs (view files) options (.ok output)) :
    ∃ settings : Settings, settings.output = output.path ∧ settings.version = output.version ∧
      (runGenerate codecs access options).run.run files =
        (writeDocument access settings output.text).run.run files := by
  cases comes with
  | @output config _ _ _ found holds known exported =>
    obtain ⟨text, readable, loaded⟩ := holds
    have complete := (Settings.of options config).document_of_exported readable loaded known exported
    exact ⟨Settings.of options config, rfl, rfl, runGenerate_of_complete lawful found complete⟩

theorem writeDocument_of_printed {settings : Settings} (printed : settings.output = "-") (text : String)
    (files : σ) : (writeDocument access settings text).run.run files = (.ok { stdout := text }, files) := by
  unfold writeDocument
  rw [printed]
  rfl

/-- A document that is not printed is saved, and whether that worked decides how the command ends. -/
theorem writeDocument_of_saved (access : FileAccess (StateM σ)) {settings : Settings}
    (saved : settings.output ≠ "-") (text : String) (files : σ) : ∃ error,
      (writeDocument access settings text).run.run files =
        (if ((access.save settings.output text.toUTF8).run files).1 then
            .ok { stderr := "Wrote " ++ settings.output ++ " (OpenAPI " ++ settings.version ++ ")\n" }
          else .error error, ((access.save settings.output text.toUTF8).run files).2) := by
  unfold writeDocument
  rw [if_neg (by simpa using saved)]
  cases way : Path.directory? settings.output with
  | none =>
    refine ⟨.unwritable settings.output, ?_⟩
    rcases wrote : (access.write settings.output text.toUTF8).run files with ⟨done, after⟩
    rw [FileAccess.save_of_none way, wrote]
    dsimp only
    rw [run_liftM_bind wrote]
    cases done <;> rfl
  | some directory =>
    rcases made : (access.makeDirectory directory).run files with ⟨there, between⟩
    rw [FileAccess.save_of_some way made]
    dsimp only
    rw [run_liftM_bind made]
    cases there with
    | false => exact ⟨.directory directory, rfl⟩
    | true =>
      refine ⟨.unwritable settings.output, ?_⟩
      rcases wrote : (access.write settings.output text.toUTF8).run between with ⟨done, after⟩
      rw [if_pos rfl, if_pos rfl, run_liftM_bind wrote]
      cases done <;> rfl

theorem respondWith_of_ok {arguments : List String} {command : Command} {report : Report}
    (parsed : codecs.command? arguments = some command)
    (ran : (run codecs access command).run.run files = (.ok report, later)) :
    (respondWith codecs access arguments).run files =
      ({ code := 0, stdout := report.stdout, stderr := report.stderr }, later) := by
  unfold respondWith
  rw [parsed]
  dsimp only
  rw [StateT.run_bind, ran]
  rfl

theorem respondWith_of_error {arguments : List String} {command : Command} {error : CommandError}
    (parsed : codecs.command? arguments = some command)
    (ran : (run codecs access command).run.run files = (.error error, later)) :
    (respondWith codecs access arguments).run files = ({ code := 1, stderr := error.report }, later) := by
  unfold respondWith
  rw [parsed]
  dsimp only
  rw [StateT.run_bind, ran]
  rfl

theorem respondWith_of_malformed {arguments : List String} (malformed : codecs.command? arguments = none) (files : σ) :
    (respondWith codecs access arguments).run files = ({ code := 2, stderr := usage }, files) := by
  unfold respondWith
  rw [malformed]
  rfl

theorem runInit_of_present (lawful : access.Lawful view)
    (present : (view files).present Config.fileName = true) :
    (runInit access false).run.run files = (.error .configurationPresent, files) := by
  unfold runInit
  rw [run_liftM_bind (lawful.present_run _ _), present]
  rfl

end Command

/-- How a generation ends. -/
structure Generates (codecs : Codecs) (access : FileAccess (StateM σ)) (view : σ → FileView Place) (files : σ)
    (options : GenerateOptions) (answer : Command.Answer) (after : σ) : Prop where
  /-- Before anything is written it is settled what the generation comes to. -/
  settled : ∃ outcome, ComesTo codecs (view files) options outcome
  /-- A failure is told, and leaves all files as they were. -/
  refused : ∀ error, ComesTo codecs (view files) options (.error error) →
    answer = { code := 1, stderr := error.report } ∧ after = files
  /-- A document that goes to no file leaves them as they were, too. -/
  printed : ∀ output, ComesTo codecs (view files) options (.ok output) → output.path = "-" →
    answer = { code := 0, stdout := output.text } ∧ after = files
  /-- Any other document is saved. If that works, no other file has changed. -/
  saved : ∀ output, ComesTo codecs (view files) options (.ok output) → output.path ≠ "-" →
    after = ((access.save output.path output.text.toUTF8).run files).2 ∧
      if ((access.save output.path output.text.toUTF8).run files).1 then
        answer = { code := 0, stderr := "Wrote " ++ output.path ++ " (OpenAPI " ++ output.version ++ ")\n" } ∧
          access.Saved view files output.path output.text.toUTF8 after
      else answer.code = 1

section
variable {access : FileAccess (StateM σ)} {view : σ → FileView Place}

theorem generates (codecs : Codecs) (lawful : access.Lawful view) (files : σ) {arguments : List String}
    {options : GenerateOptions} (parsed : codecs.command? arguments = some (.generate options)) :
    Generates codecs access view files options
      ((Command.respondWith codecs access arguments).run files).1
      ((Command.respondWith codecs access arguments).run files).2 := by
  refine ⟨exists_comesTo codecs (view files) options, ?_, ?_, ?_⟩
  · intro error comes
    rw [Command.respondWith_of_error parsed (Command.runGenerate_of_error lawful comes)]
    exact ⟨rfl, rfl⟩
  · intro output comes printed
    obtain ⟨settings, path, -, ran⟩ := Command.runGenerate_of_output lawful comes
    rw [Command.writeDocument_of_printed (path.trans printed)] at ran
    rw [Command.respondWith_of_ok parsed ran]
    exact ⟨rfl, rfl⟩
  · intro output comes unprinted
    obtain ⟨settings, path, version, ran⟩ := Command.runGenerate_of_output lawful comes
    obtain ⟨error, wrote⟩ := Command.writeDocument_of_saved access (path.trans_ne unprinted) output.text files
    rw [wrote, path, version] at ran
    cases succeeds : ((access.save output.path output.text.toUTF8).run files).1 with
    | false =>
      rw [succeeds] at ran
      rw [Command.respondWith_of_error parsed ran]
      exact ⟨rfl, rfl⟩
    | true =>
      rw [succeeds] at ran
      rw [Command.respondWith_of_ok parsed ran]
      exact ⟨rfl, rfl, lawful.save_saves succeeds⟩

end

theorem fromUTF8?_toUTF8 (text : String) : String.fromUTF8? text.toUTF8 = some text := by
  unfold String.fromUTF8?
  exact dif_pos text.isValidUTF8

namespace Files

def healthText : String := "\x7b\"routes\":[\x7b\"path\":\"/health\",\"method\":\"get\"\x7d]\x7d"

/-- A directory with the manifest and no configuration. -/
def healthFiles : Files := [(["routes.json"], healthText.toUTF8)]

def generatedFiles : Files :=
  ((Command.respond access ["generate", "-i", "routes.json", "-o", "api/openapi.json"]).run healthFiles).2

def configuredFiles : Files := [([Config.fileName], "".toUTF8)]

def healthLines : List String := [
  "\x7b",
  "  \"openapi\": \"3.0.3\",",
  "  \"info\": \x7b",
  "    \"title\": \"API\",",
  "    \"version\": \"0.0.1\"",
  "  \x7d,",
  "  \"tags\": [",
  "    \x7b",
  "      \"name\": \"health\",",
  "      \"description\": \"Operations about health\"",
  "    \x7d",
  "  ],",
  "  \"paths\": \x7b",
  "    \"/health\": \x7b",
  "      \"get\": \x7b",
  "        \"operationId\": \"getHealth\",",
  "        \"tags\": [",
  "          \"health\"",
  "        ],",
  "        \"responses\": \x7b",
  "          \"200\": \x7b",
  "            \"description\": \"OK\"",
  "          \x7d",
  "        \x7d",
  "      \x7d",
  "    \x7d",
  "  \x7d",
  "\x7d"]

def healthDocument : String := String.join (healthLines.map (· ++ "\n"))

theorem healthText_exports : ∃ manifest document,
    Manifest.readers.fromFile "routes.json" healthText = .ok manifest ∧
      Export.document .v30 (manifest.api {}) = .ok document ∧
        Codecs.own.render .json document = healthDocument := by
  have exports : ((Manifest.readers.fromFile "routes.json" healthText).toOption.bind fun manifest =>
      (Export.document .v30 (manifest.api {})).toOption.map (Codecs.own.render .json)) =
        some healthDocument := by decide +kernel
  cases loaded : Manifest.readers.fromFile "routes.json" healthText with
  | error =>
    rw [loaded] at exports
    cases exports
  | ok manifest =>
    cases exported : Export.document .v30 (manifest.api {}) with
    | error =>
      rw [loaded, Except.toOption, Option.bind_some, exported] at exports
      cases exports
    | ok document =>
      rw [loaded, Except.toOption, Option.bind_some, exported] at exports
      exact ⟨manifest, document, rfl, exported, Option.some.inj exports⟩

/-- The default configuration says what the command line leaves open. -/
theorem healthFiles_comesTo {manifest : Manifest} {document : Json}
    (loaded : Manifest.readers.fromFile "routes.json" healthText = .ok manifest)
    (exported : Export.document .v30 (manifest.api {}) = .ok document) :
    ComesTo .own healthFiles.view { input := some "routes.json", output := some "api/openapi.json" }
      (.ok { path := "api/openapi.json", version := "3.0", text := Codecs.own.render .json document }) := by
  have unconfigured : healthFiles.view.config? .own = some {} := rfl
  have known : Exporters.builtIn.dialect? "3.0" = .ok .v30 := rfl
  have holds : healthFiles.view.HoldsManifest .own "routes.json" manifest :=
    ⟨healthText, fromUTF8?_toUTF8 healthText, loaded⟩
  let options : GenerateOptions := { input := some "routes.json", output := some "api/openapi.json" }
  exact @ComesTo.output _ .own _ options {} _ _ _ unconfigured holds known exported

theorem healthFiles_save (content : ByteArray) :
    ((access.save "api/openapi.json" content).run healthFiles).1 = true := rfl

theorem healthFiles_saved {content : ByteArray} {after : Files}
    (saved : access.Saved view healthFiles "api/openapi.json" content after) :
    after.get? ["api", "openapi.json"] = some content ∧ after.get? ["routes.json"] = some healthText.toUTF8 := by
  have way : ((access.makeWay "api/openapi.json").run healthFiles).2 = healthFiles := rfl
  have there : healthFiles.view.place? "api/openapi.json" = some ["api", "openapi.json"] := by decide
  obtain ⟨place, leads, holds, others⟩ := saved
  rw [way, there] at leads
  cases leads
  exact ⟨holds, (others ["routes.json"] (by decide)).trans rfl⟩

end Files

end ApiDoc
