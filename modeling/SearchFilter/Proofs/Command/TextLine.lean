import SearchFilter.Proofs.Command.Success
import SearchFilter.Proofs.Conversion.Unquoted
/-!
# Filters as output in text

The text of a filter ends with its only newline exactly when no field and no pattern of the query
has one, since those are written as they are. Newlines in quoted text are escaped and do no harm.
-/
namespace SearchFilter.Command

/-- The only newline of the text is at its end. -/
def IsOneLine (text : String) : Prop :=
  ∃ line : String, text = line.push '\n' ∧ '\n' ∉ line.toList

theorem isOneLine_push {line : String} : IsOneLine (line.push '\n') ↔ '\n' ∉ line.toList := by
  constructor
  · rintro ⟨line', heq, hline⟩
    have hchars := congrArg String.toList heq
    rw [String.toList_push, String.toList_push] at hchars
    rwa [List.append_cancel_right hchars]
  · intro hline
    exact ⟨line, rfl, hline⟩

variable {World : Type} {fetch : Source → StateM World (Except IoFault String)}
  {arguments : List String} {config input : Option String} {world : World} {settings : Settings}
  {text : String} {query : Query} {filter : Filter}

/-- A process that writes a filter as text leaves the text of the filter and a newline. It has one
more newline than the fields and patterns of the query, so it is one line exactly when those have
none. -/
theorem textLine_of_accepted (hcommand : parse arguments = .ok (translate config input .text))
    (hfinds : Finds fetch (translate config input .text) world settings text query)
    (haccepted : (query.toFilter settings).result = .ok filter) :
    let ended := ((process fetch .working arguments).run world).1
    ended.exitCode = 0 ∧ ended.output = filter.text.push '\n' ∧
      ended.output.toList.count '\n' = (query.unquoted settings).count '\n' + 1 ∧
      (IsOneLine ended.output ↔ '\n' ∉ query.unquoted settings) := by
  intro ended
  have houtput : ((translate config input .text).output settings query).2 =
      .ok (.text filter.text) := by
    dsimp only [Command.output]
    rw [haccepted]
    rfl
  have hcount := Query.count_text_toFilter (c := '\n') (by decide) haccepted
  obtain ⟨hsuccess, hline⟩ := process_of_finds hcommand hfinds houtput
  have hpush : ended.output = filter.text.push '\n' := hline
  refine ⟨hsuccess, hpush, ?_, ?_⟩
  · rw [hpush, String.toList_push, List.count_append, hcount]
    rfl
  · rw [hpush, isOneLine_push, ← List.count_eq_zero, hcount, List.count_eq_zero]

/-- A newline in the text of a term is escaped. -/
theorem textLine_of_accepted_quoted :
    let query : Query := .leaf (.term "a" "x\ny")
    let fetch := everywhere query.toJson.compact
    let arguments := ["translate", "--format", "text"]
    let ended := ((process fetch .working arguments).run ()).1
    parse arguments = .ok (translate none none .text) ∧
      Finds fetch (translate none none .text) () ⟨"_id", '.'⟩ query.toJson.compact query ∧
      (query.toFilter ⟨"_id", '.'⟩).result = .ok (.eq "a" (.text "x\ny")) ∧
      ended.exitCode = 0 ∧ IsOneLine ended.output := by
  intro query fetch arguments ended
  have hcommand : parse arguments = .ok (translate none none .text) := by decide
  have hfinds : Finds fetch (translate none none .text) () ⟨"_id", '.'⟩ _ query :=
    finds_everywhere rfl (by decide)
  obtain ⟨hsuccess, -, -, hiff⟩ := textLine_of_accepted hcommand hfinds rfl
  exact ⟨hcommand, hfinds, rfl, hsuccess, hiff.mpr (by decide)⟩

/-- A newline in the field of a term stands in the output and makes two lines of it. -/
theorem not_isOneLine_field :
    let query : Query := .leaf (.term "a\nb" "x")
    let fetch := everywhere query.toJson.compact
    let ended := ((process fetch .working ["translate", "--format", "text"]).run ()).1
    ended.exitCode = 0 ∧ ended.output = "eq(a\nb, \"x\")\n" ∧ ¬IsOneLine ended.output := by
  intro query fetch ended
  have hcommand : parse ["translate", "--format", "text"] = .ok (translate none none .text) := by
    decide
  have hfinds : Finds fetch (translate none none .text) () _ _ query :=
    finds_everywhere rfl (by decide)
  obtain ⟨hsuccess, hline⟩ := process_of_finds hcommand hfinds rfl
  have htext : ended.output = ("eq(a\nb, \"x\")" : String).push '\n' := hline.trans (by decide)
  refine ⟨hsuccess, htext, ?_⟩
  rw [htext, isOneLine_push]
  decide

end SearchFilter.Command
