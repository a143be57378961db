import SearchFilter.Command.Run
import SearchFilter.Proofs.Config.Valid
import SearchFilter.Proofs.Conversion.Log
import SearchFilter.Proofs.Log.Observation
/-!
# The order of effects of a command

A command reads its configuration, moves the threshold, reads its query and converts it. What is
wrong with a later step never shows when an earlier one fails.
-/
namespace SearchFilter.Command

open Log (visible)

variable {World : Type} {fetch : Source → StateM World (Except IoFault String)}
  {before threshold : Severity} {command : Command} {source : Option String}
  {world afterConfig afterQuery : World} {config : Config}

/-- What the configuration of a command comes to, and the world behind it: what a file holds is
read, and without a file the defaults hold. -/
def configured (fetch : Source → StateM World (Except IoFault String)) :
    Option String → World → Except Config.Error Config × World
  | none, world => (.ok ⟨"_id", ".", "WARN"⟩, world)
  | some path, world =>
    match (fetch (.file path)).run world with
    | (.error fault, after) => (.error (.unreadable path fault), after)
    | (.ok text, after) => (Config.parse text, after)

/-- What shows of the entry about a configuration from a file. -/
def loadingLines (before : Severity) (source : Option String) (config : Config) :
    List Log.Entry :=
  visible before (source.map config.loaded).toList

theorem loadConfig_run (fetch : Source → StateM World (Except IoFault String))
    (source : Option String) (world : World) :
    (loadConfig fetch source).run world =
      ((configured fetch source world).1.map fun config =>
        (config, (source.map config.loaded).toList), (configured fetch source world).2) := by
  cases source with
  | none => rfl
  | some path =>
    cases hfetch : (fetch (.file path)).run world with
    | mk content after =>
    rw [loadConfig, run_bind_of hfetch, configured, hfetch]
    cases content <;> rfl

theorem exists_severity_of_configured
    (h : configured fetch source world = (.ok config, afterConfig)) :
    ∃ threshold, config.severity = .ok threshold := by
  cases source with
  | none =>
    cases h
    exact ⟨.warn, rfl⟩
  | some path =>
    rw [configured] at h
    cases hfetch : (fetch (.file path)).run world with
    | mk content after =>
    rw [hfetch] at h
    cases content with
    | error fault => cases h
    | ok text => exact Config.exists_severity_of_parse (congrArg Prod.fst h)

/-- What a command comes to on its way to a query: the first fault of its sources, or none. -/
inductive Loading (fetch : Source → StateM World (Except IoFault String))
    (source input : Option String) (world : World) : Prop where
  | badConfig {error : Config.Error} {afterConfig : World}
    (hconfig : configured fetch source world = (.error error, afterConfig))
  | unreadable {config : Config} {threshold : Severity} {fault : IoFault}
    {afterConfig afterQuery : World}
    (hconfig : configured fetch source world = (.ok config, afterConfig))
    (hthreshold : config.severity = .ok threshold)
    (hinput : (fetch (.ofPath? input)).run afterConfig = (.error fault, afterQuery))
  | badQuery {config : Config} {threshold : Severity} {text : String} {error : Query.ParseError}
    {afterConfig afterQuery : World}
    (hconfig : configured fetch source world = (.ok config, afterConfig))
    (hthreshold : config.severity = .ok threshold)
    (hinput : (fetch (.ofPath? input)).run afterConfig = (.ok text, afterQuery))
    (hparse : Query.parse text = .error error)
  | loaded {config : Config} {threshold : Severity} {text : String} {query : Query}
    {afterConfig afterQuery : World}
    (hconfig : configured fetch source world = (.ok config, afterConfig))
    (hthreshold : config.severity = .ok threshold)
    (hinput : (fetch (.ofPath? input)).run afterConfig = (.ok text, afterQuery))
    (hparse : Query.parse text = .ok query)

theorem loading (fetch : Source → StateM World (Except IoFault String))
    (source input : Option String) (world : World) : Loading fetch source input world := by
  cases hconfig : configured fetch source world with
  | mk outcome afterConfig =>
  cases outcome with
  | error error => exact .badConfig hconfig
  | ok config =>
    obtain ⟨threshold, hthreshold⟩ := exists_severity_of_configured hconfig
    cases hinput : (fetch (.ofPath? input)).run afterConfig with
    | mk content afterQuery =>
    cases content with
    | error fault => exact .unreadable hconfig hthreshold hinput
    | ok text =>
      cases hparse : Query.parse text with
      | error error => exact .badQuery hconfig hthreshold hinput hparse
      | ok query => exact .loaded hconfig hthreshold hinput hparse

theorem run_of_config_error {error : Config.Error}
    (h : configured fetch command.config world = (.error error, afterConfig)) :
    (run fetch before command).run world =
      (⟨[], before, .error (.config error)⟩, afterConfig) := by
  have hload := loadConfig_run fetch command.config world
  rw [h] at hload
  rw [run, run_bind_of hload]
  rfl

section

variable (hconfig : configured fetch command.config world = (.ok config, afterConfig))
  (hthreshold : config.severity = .ok threshold)

include hconfig hthreshold

/-- With its configuration read a run sets the threshold, and only then reads the query. -/
theorem run_of_config :
    (run fetch before command).run world =
      match (fetch (.ofPath? command.input)).run afterConfig with
      | (.error fault, after) =>
        (⟨loadingLines before command.config config, threshold, .error (.io fault)⟩, after)
      | (.ok text, after) =>
        match Query.parse text with
        | .error error =>
          (⟨loadingLines before command.config config, threshold, .error (.query error)⟩, after)
        | .ok query =>
          (⟨loadingLines before command.config config ++
              visible threshold (query.toFilter config.settings).log,
            threshold, (command.output config.settings query).2⟩, after) := by
  have hload := loadConfig_run fetch command.config world
  rw [hconfig] at hload
  rw [run, run_bind_of hload]
  dsimp only [Except.map]
  rw [hthreshold]
  cases hfetch : (fetch (.ofPath? command.input)).run afterConfig with
  | mk content after =>
  dsimp only
  rw [run_bind_of hfetch]
  cases content with
  | error fault => rfl
  | ok text =>
    dsimp only
    cases Query.parse text with
    | error error => rfl
    | ok query => rfl

theorem run_of_fault {fault : IoFault}
    (h : (fetch (.ofPath? command.input)).run afterConfig = (.error fault, afterQuery)) :
    (run fetch before command).run world =
      (⟨loadingLines before command.config config, threshold, .error (.io fault)⟩,
        afterQuery) := by
  rw [run_of_config hconfig hthreshold, h]

variable {text : String}
  (htext : (fetch (.ofPath? command.input)).run afterConfig = (.ok text, afterQuery))

include htext

theorem run_of_parse_error {error : Query.ParseError} (h : Query.parse text = .error error) :
    (run fetch before command).run world =
      (⟨loadingLines before command.config config, threshold, .error (.query error)⟩,
        afterQuery) := by
  rw [run_of_config hconfig hthreshold, htext]
  dsimp only
  rw [h]

theorem run_of_query {query : Query} (h : Query.parse text = .ok query) :
    (run fetch before command).run world =
      (⟨loadingLines before command.config config ++
          visible threshold (query.toFilter config.settings).log,
        threshold, (command.output config.settings query).2⟩, afterQuery) := by
  rw [run_of_config hconfig hthreshold, htext]
  dsimp only
  rw [h]

end

theorem output_of_rejected {source input : Option String} {format : Format} {settings : Settings}
    {query : Query} {rejection : Rejection}
    (h : (query.toFilter settings).result = .error rejection) :
    ((translate source input format).output settings query).2 = .error (.rejected rejection) := by
  cases format with
  | document =>
    dsimp only [output]
    rw [h]
    rfl
  | text =>
    dsimp only [output]
    rw [h]
    rfl

end SearchFilter.Command
