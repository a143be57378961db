import SearchFilter.Proofs.Command.Loading
/-!
# What a report says of a conversion

On the same sources the command that reports on a conversion and the one that writes its filter do
the same up to their output. The report holds what the other command writes, or why it fails.
-/
namespace SearchFilter.Command

open Json (Value)

/-- What the entries of a report say of a query and of a run that writes its filter as text. -/
structure Reports (entries : List (String × Value)) (settings : Settings) (query : Query)
    (translated : Execution) : Prop where
  keys : (entries.map Prod.fst).Nodup
  kind : entries.lookup "input_kind" = some (.text query.kindName)
  depth : entries.lookup "input_depth" = some (.integer query.depth)
  accepted : entries.lookup "accepted" = some (.boolean translated.result.isOk)
  /-- Without a failure it has the text that was written, and tells of the same filter. -/
  filter : ∀ output, translated.result = .ok output →
    ∃ filter, (query.toFilter settings).result = .ok filter ∧
      (Process.ofExecution .working translated).output = filter.text.push '\n' ∧
      entries.lookup "filter" = some (.text filter.text) ∧
      entries.lookup "filter_nodes" = some (.integer filter.nodeCount) ∧
      entries.lookup "filter_depth" = some (.integer filter.depth) ∧
      entries.lookup "rejection_code" = none ∧ entries.lookup "rejection_reason" = none
  /-- After a failure it has the parts of its message. -/
  rejection : ∀ failure, translated.result = .error failure →
    ∃ reason, failure.message = "[REJECT] " ++ failure.code ++ ": " ++ reason ∧
      entries.lookup "rejection_code" = some (.text failure.code) ∧
      entries.lookup "rejection_reason" = some (.text reason) ∧
      entries.lookup "filter" = none ∧ entries.lookup "filter_nodes" = none ∧
      entries.lookup "filter_depth" = none

theorem rejected_message (rejection : Rejection) :
    (Failure.rejected rejection).message =
      "[REJECT] " ++ (Failure.rejected rejection).code ++ ": " ++ rejection.reason := by
  have hseverity : "[" ++ Rejection.severity ++ "] " = "[REJECT] " := by
    simp [Rejection.severity]
  dsimp only [Failure.message, Failure.code, Rejection.message]
  rw [hseverity]

theorem exists_report (config input : Option String) (settings : Settings) (query : Query)
    (written : List Log.Entry) (threshold : Severity) :
    ∃ entries,
      ((explain config input).output settings query).2 = .ok (.json (.object entries)) ∧
      Reports entries settings query
        ⟨written, threshold, ((translate config input .text).output settings query).2⟩ := by
  cases hresult : (query.toFilter settings).result with
  | ok filter =>
    have htranslated : ((translate config input .text).output settings query).2 =
        .ok (.text filter.text) := by
      dsimp only [output]
      rw [hresult]
      rfl
    rw [htranslated]
    dsimp only [output]
    rw [hresult]
    have hkeys : ["accepted", "filter", "filter_depth", "filter_nodes", "input_depth",
        "input_kind"].Nodup := by decide
    refine ⟨_, rfl, hkeys, rfl, rfl, rfl, ?_, ?_⟩
    · intro output _
      exact ⟨filter, hresult, rfl, rfl, rfl, rfl, rfl, rfl⟩
    · intro failure h
      cases h
  | error rejection =>
    have htranslated : ((translate config input .text).output settings query).2 =
        .error (.rejected rejection) := output_of_rejected hresult
    rw [htranslated]
    dsimp only [output]
    rw [hresult]
    have hkeys : ["accepted", "input_depth", "input_kind", "rejection_code",
        "rejection_reason"].Nodup := by decide
    refine ⟨_, rfl, hkeys, rfl, rfl, rfl, ?_, ?_⟩
    · intro output h
      cases h
    · intro failure h
      cases h
      exact ⟨rejection.reason, rejected_message rejection, rfl, rfl, rfl, rfl, rfl⟩

variable {World : Type}

/-- On the same sources and from the same threshold a report takes the same lines, ends under the
same threshold and fails alike when there is nothing to convert. Otherwise it is written, and says
what becomes of the query. -/
theorem explain_reports (fetch : Source → StateM World (Except IoFault String))
    (before : Severity) (config input : Option String) (world : World) :
    ∃ translated explained after,
      (run fetch before (translate config input .text)).run world = (translated, after) ∧
      (run fetch before (explain config input)).run world = (explained, after) ∧
      explained.written = translated.written ∧ explained.threshold = translated.threshold ∧
      match configured fetch config world with
      | (.error error, _) =>
        translated.result = .error (.config error) ∧ explained.result = .error (.config error)
      | (.ok loaded, afterConfig) =>
        match (fetch (.ofPath? input)).run afterConfig with
        | (.error fault, _) =>
          translated.result = .error (.io fault) ∧ explained.result = .error (.io fault)
        | (.ok text, _) =>
          match Query.parse text with
          | .error error =>
            translated.result = .error (.query error) ∧ explained.result = .error (.query error)
          | .ok query =>
            ∃ entries, Process.ofExecution .working explained =
                ⟨0, (Value.object entries).compact.push '\n', Log.text explained.written⟩ ∧
              Reports entries loaded.settings query translated := by
  cases loading fetch config input world with
  | badConfig hconfig =>
    refine ⟨_, _, _, run_of_config_error hconfig, run_of_config_error hconfig, rfl, rfl, ?_⟩
    rw [hconfig]
    exact ⟨rfl, rfl⟩
  | unreadable hconfig hthreshold hinput =>
    refine ⟨_, _, _, run_of_fault hconfig hthreshold hinput,
      run_of_fault hconfig hthreshold hinput, rfl, rfl, ?_⟩
    simp only [hconfig, hinput, and_self]
  | badQuery hconfig hthreshold hinput hparse =>
    refine ⟨_, _, _, run_of_parse_error hconfig hthreshold hinput hparse,
      run_of_parse_error hconfig hthreshold hinput hparse, rfl, rfl, ?_⟩
    simp only [hconfig, hinput, hparse, and_self]
  | loaded hconfig hthreshold hinput hparse =>
    refine ⟨_, _, _, run_of_query hconfig hthreshold hinput hparse,
      run_of_query hconfig hthreshold hinput hparse, rfl, rfl, ?_⟩
    simp only [hconfig, hinput, hparse]
    obtain ⟨entries, hexplained, hreports⟩ := exists_report config input _ _ _ _
    refine ⟨entries, ?_, hreports⟩
    rw [Process.ofExecution, hexplained]
    rfl

end SearchFilter.Command
