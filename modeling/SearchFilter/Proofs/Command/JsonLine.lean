import SearchFilter.Proofs.Command.Success
import SearchFilter.Proofs.Filter.Document
import SearchFilter.Proofs.Json.Line
import SearchFilter.Proofs.Query.Depth
import SearchFilter.Proofs.Query.Extent
/-!
# Documents and reports as output

What a process writes as JSON is one line, and what is on the line is read back as the document of
the filter or as the report with its present fields. The numbers of a report are sizes of a query
that was read from a text, so they are no larger than the text is long.
-/
namespace SearchFilter.Command

open Json (Value)

/-- A command whose output is JSON. -/
def WritesJson : Command → Prop
  | translate _ _ .text => False
  | translate _ _ .document | explain _ _ => True

/-- The value that a command makes of a query: a document, or a report without absent fields. -/
inductive Renders (settings : Settings) (query : Query) : Command → Value → Prop
  | document {config input : Option String} {filter : Filter}
      (h : (query.toFilter settings).result = .ok filter) :
      Renders settings query (translate config input .document) filter.document
  | accepted {config input : Option String} {filter : Filter}
      (h : (query.toFilter settings).result = .ok filter) :
      Renders settings query (explain config input) (.object
        [("accepted", .boolean true), ("filter", .text filter.text),
          ("filter_depth", .integer filter.depth), ("filter_nodes", .integer filter.nodeCount),
          ("input_depth", .integer query.depth), ("input_kind", .text query.kindName)])
  | rejected {config input : Option String} {rejection : Rejection}
      (h : (query.toFilter settings).result = .error rejection) :
      Renders settings query (explain config input) (.object
        [("accepted", .boolean false), ("input_depth", .integer query.depth),
          ("input_kind", .text query.kindName), ("rejection_code", .text Rejection.code),
          ("rejection_reason", .text rejection.reason)])

variable {settings : Settings} {query : Query} {command : Command}

theorem output_eq_ok_iff {output : Output} (hjson : command.WritesJson) :
    (command.output settings query).2 = .ok output ↔
      ∃ value, output = .json value ∧ Renders settings query command value := by
  constructor
  · intro h
    match command, hjson with
    | translate config input .document, _ =>
      cases hresult : (query.toFilter settings).result with
      | error rejection =>
        rw [output_of_rejected hresult] at h
        cases h
      | ok filter =>
        dsimp only [Command.output] at h
        rw [hresult] at h
        cases h
        exact ⟨_, rfl, .document hresult⟩
    | explain config input, _ =>
      cases h
      refine ⟨_, rfl, ?_⟩
      cases hresult : (query.toFilter settings).result with
      | ok filter => exact .accepted hresult
      | error rejection => exact .rejected hresult
  · rintro ⟨value, rfl, hvalue⟩
    cases hvalue with
    | document h | accepted h | rejected h =>
      dsimp only [Command.output]
      rw [h]
      rfl

theorem integer_isExact {n : Nat} (h : n < 0x10000000000000000) : (Value.integer n).IsExact :=
  .scalar ⟨by omega, by omega⟩

variable {text : String}

theorem depth_isExact (h : Query.parse text = .ok query) :
    (Value.integer query.depth).IsExact := by
  have hdepth := query.three_mul_depth_le
  obtain ⟨hnesting, hlimit⟩ := Query.nesting_of_parse h
  rw [Json.nestingLimit] at hlimit
  exact integer_isExact (by omega)

theorem sizes_isExact (h : Query.parse text = .ok query) (htext : text.length < 2 ^ 64)
    {filter : Filter} (hfilter : (query.toFilter settings).result = .ok filter) :
    (Value.integer filter.depth).IsExact ∧ (Value.integer filter.nodeCount).IsExact := by
  have hdepth := filter.depth_le_nodeCount
  have hcount := Query.nodeCount_of_toFilter hfilter
  have hlength := Query.filterCount_le_of_parse settings.separator h
  exact ⟨integer_isExact (by omega), integer_isExact (by omega)⟩

theorem Renders.isExact {value : Value} (hvalue : Renders settings query command value)
    (h : Query.parse text = .ok query)
    (htext : ∀ config input, command = explain config input → text.length < 2 ^ 64) :
    value.IsExact := by
  have hdepth := depth_isExact h
  cases hvalue with
  | document hfilter => exact Filter.document_isExact _
  | accepted hfilter =>
    obtain ⟨hfilterDepth, hcount⟩ := sizes_isExact h (htext _ _ rfl) hfilter
    apply Value.IsExact.object
    simp only [List.forall_mem_cons]
    exact ⟨.scalar trivial, .scalar trivial, hfilterDepth, hcount, hdepth, .scalar trivial,
      List.forall_mem_nil _⟩
  | rejected hfilter =>
    apply Value.IsExact.object
    simp only [List.forall_mem_cons]
    exact ⟨.scalar trivial, hdepth, .scalar trivial, .scalar trivial, .scalar trivial,
      List.forall_mem_nil _⟩

variable {World : Type} {fetch : Source → StateM World (Except IoFault String)} {device : Device}
  {arguments : List String} {world : World}

/-- No text of a source has more characters than a machine word can count. Every text in a memory
with 64-bit addresses is like that, and only then is a size in a report such a word. -/
def FitsMemory (fetch : Source → StateM World (Except IoFault String)) : Prop :=
  ∀ source world text after, (fetch source).run world = (.ok text, after) → text.length < 2 ^ 64

/-- A process that ends well and writes JSON leaves one line. It has no control characters but the
newline at its end, and is read as the document or the report. A process ends well wherever there is
a query with such a value and a device for the line. Only a report has sizes in it, so only that
depends on texts that fit the memory. -/
theorem jsonLine_of_success (hcommand : parse arguments = .ok command)
    (hjson : command.WritesJson)
    (hmemory : ∀ config input, command = explain config input → FitsMemory fetch) :
    let ended := ((process fetch device arguments).run world).1
    (ended.exitCode = 0 → ∃ settings text query value,
      Finds fetch command world settings text query ∧ Renders settings query command value ∧
        value.IsOnLine ended.output) ∧
    ∀ settings text query value, Finds fetch command world settings text query →
      Renders settings query command value → device = .working → ended.exitCode = 0 := by
  intro ended
  constructor
  · intro hsuccess
    obtain ⟨-, settings, text, query, output, hfinds, houtput, hline⟩ :=
      finds_of_success hcommand hsuccess
    obtain ⟨value, rfl, hvalue⟩ := (output_eq_ok_iff hjson).mp houtput
    have htext : ∀ config input, command = explain config input → text.length < 2 ^ 64 := by
      intro config input hexplain
      obtain ⟨_, _, _, -, -, hinput⟩ := hfinds.sources
      exact hmemory config input hexplain _ _ _ _ hinput
    have hread := Value.isOnLine_compact (hvalue.isExact hfinds.parses htext)
    exact ⟨settings, text, query, value, hfinds, hvalue, hline ▸ hread⟩
  · rintro settings text query value hfinds hvalue rfl
    have houtput := (output_eq_ok_iff hjson).mpr ⟨value, rfl, hvalue⟩
    exact (process_of_finds hcommand hfinds houtput).1

/-- A report on a term with a control character in its field, and a newline and a quote in its
text. -/
theorem jsonLine_of_success_escapes :
    let query : Query := .leaf (.term "a\x01" "b\n\"")
    let fetch := everywhere query.toJson.compact
    let ended := ((process fetch .working ["explain"]).run ()).1
    parse ["explain"] = .ok (explain none none) ∧ (explain none none).WritesJson ∧
      FitsMemory fetch ∧ ended.exitCode = 0 ∧
      ∃ settings text query value, Finds fetch (explain none none) () settings text query ∧
        Renders settings query (explain none none) value ∧ value.IsOnLine ended.output := by
  intro query fetch ended
  have hcommand : parse ["explain"] = .ok (explain none none) := by decide
  have hfinds : Finds fetch (explain none none) () _ _ query := finds_everywhere rfl (by decide)
  have hmemory : FitsMemory fetch := by
    intro source world text after h
    cases h
    decide
  obtain ⟨hread, hends⟩ := jsonLine_of_success hcommand trivial fun _ _ _ => hmemory
  have hsuccess : ended.exitCode = 0 := hends _ _ _ _ hfinds (.accepted rfl) rfl
  exact ⟨hcommand, trivial, hmemory, hsuccess, hread hsuccess⟩

end SearchFilter.Command
