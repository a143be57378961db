import SearchFilter.Proofs.Command.Loading
import SearchFilter.Proofs.Query.Normalized
/-!
# Processes that end well

A process has output exactly when its command finds a configuration and a query, has an output for
them, and a device takes it. The output is then one line of its own.
-/
namespace SearchFilter.Command

variable {World : Type} {fetch : Source → StateM World (Except IoFault String)} {device : Device}
  {arguments : List String} {command : Command} {world : World}

/-- The command comes to these settings and this text, and reads the text as this query. -/
structure Finds (fetch : Source → StateM World (Except IoFault String)) (command : Command)
    (world : World) (settings : Settings) (text : String) (query : Query) : Prop where
  sources : ∃ config afterConfig afterQuery,
    configured fetch command.config world = (.ok config, afterConfig) ∧
      config.settings = settings ∧
      (fetch (.ofPath? command.input)).run afterConfig = (.ok text, afterQuery)
  parses : Query.parse text = .ok query

theorem process_of_parse (h : parse arguments = .ok command) :
    (process fetch device arguments).run world =
      (.ofExecution device ((run fetch .default command).run world).1,
        ((run fetch .default command).run world).2) := by
  rw [process, h]
  rfl

theorem exists_deliver_failing (output : Output) (fault : IoFault) :
    ∃ failure, output.deliver (.failing fault) = .error failure := by
  cases output with
  | text line => exact ⟨_, rfl⟩
  | json value =>
    rw [Output.deliver]
    split <;> exact ⟨_, rfl⟩

theorem ofExecution_of_success {execution : Execution}
    (h : (Process.ofExecution device execution).exitCode = 0) :
    device = .working ∧ ∃ output, execution.result = .ok output ∧
      (Process.ofExecution device execution).output = output.line := by
  rw [Process.ofExecution] at h ⊢
  cases hresult : execution.result with
  | error failure =>
    rw [hresult] at h
    cases h
  | ok output =>
    rw [hresult, Except.bind] at h
    cases device with
    | working => exact ⟨rfl, output, rfl, rfl⟩
    | failing fault =>
      obtain ⟨failure, hfailure⟩ := exists_deliver_failing output fault
      rw [hfailure] at h
      cases h

/-- A process that ends well has found a query and written an output for it. -/
theorem finds_of_success (hcommand : parse arguments = .ok command)
    (hsuccess : ((process fetch device arguments).run world).1.exitCode = 0) :
    device = .working ∧ ∃ settings text query output,
      Finds fetch command world settings text query ∧
      (command.output settings query).2 = .ok output ∧
      ((process fetch device arguments).run world).1.output = output.line := by
  rw [process_of_parse hcommand] at hsuccess ⊢
  obtain ⟨hdevice, output, hresult, hline⟩ := ofExecution_of_success hsuccess
  refine ⟨hdevice, ?_⟩
  cases loading fetch command.config command.input world with
  | badConfig hconfig =>
    rw [run_of_config_error hconfig] at hresult
    cases hresult
  | unreadable hconfig hthreshold hinput =>
    rw [run_of_fault hconfig hthreshold hinput] at hresult
    cases hresult
  | badQuery hconfig hthreshold hinput hparse =>
    rw [run_of_parse_error hconfig hthreshold hinput hparse] at hresult
    cases hresult
  | loaded hconfig hthreshold hinput hparse =>
    rw [run_of_query hconfig hthreshold hinput hparse] at hresult
    exact ⟨_, _, _, output, ⟨⟨_, _, _, hconfig, rfl, hinput⟩, hparse⟩, hresult, hline⟩

/-- A command that has an output for the query it finds writes it and ends well. -/
theorem process_of_finds {settings : Settings} {text : String} {query : Query} {output : Output}
    (hcommand : parse arguments = .ok command)
    (hfinds : Finds fetch command world settings text query)
    (houtput : (command.output settings query).2 = .ok output) :
    ((process fetch .working arguments).run world).1.exitCode = 0 ∧
      ((process fetch .working arguments).run world).1.output = output.line := by
  obtain ⟨⟨config, afterConfig, afterQuery, hconfig, rfl, hinput⟩, hparse⟩ := hfinds
  obtain ⟨threshold, hthreshold⟩ := exists_severity_of_configured hconfig
  rw [process_of_parse hcommand, run_of_query hconfig hthreshold hinput hparse, houtput]
  exact ⟨rfl, rfl⟩

def everywhere (text : String) : Source → StateM Unit (Except IoFault String) :=
  fun _ => pure (.ok text)

theorem finds_everywhere (hconfig : command.config = none) {query : Query}
    (hnesting : query.toJson.nesting ≤ Json.nestingLimit) :
    Finds (everywhere query.toJson.compact) command () ({} : Config).settings
      query.toJson.compact query := by
  have hexact := query.toJson_isExact
  have hdecode := decodeField_inverts (Json.nestingLimit + 1) .query query
    (Nat.lt_succ_of_le hnesting)
  refine ⟨⟨{}, (), (), ?_, rfl, rfl⟩, ?_⟩
  · rw [hconfig]
    rfl
  · exact (Query.parse_eq_ok_iff hexact (Json.Value.spelledBy_compact hexact)).mpr
      ⟨hnesting, query.hasNamedTag_toJson, hdecode⟩

end SearchFilter.Command
