import SearchFilter.Proofs.Json.Reading
import SearchFilter.Proofs.Text.Visible
/-!
# Values on lines of their own

Compact text has no character below U+0020: strings have such characters escaped, and everything
else is written without them. So a newline behind it ends the line, and what is on the line is read
as the value.
-/
namespace SearchFilter.Json

open Text (Visible visible_cons visible_append)

theorem visible_writeChar (c : Char) {rest : List Char} (h : Visible rest) :
    Visible (writeChar c rest) := by
  unfold writeChar
  cases hshort : shortEscape? c with
  | some letter =>
    have hletter : ' ' ≤ letter := by
      unfold shortEscape? at hshort
      split at hshort <;> cases hshort <;> decide
    simp [hletter, h]
  | none =>
    by_cases hc : c < ' '
    · simp [hc, Text.visible_fourHexDigits, h]
    · simp [hc, Char.not_lt.mp hc, h]

theorem visible_writeText (text : String) {rest : List Char} (h : Visible rest) :
    Visible (writeText text rest) := by
  have hchars (cs : List Char) : Visible (cs.foldr writeChar ('"' :: rest)) := by
    induction cs with
    | nil => exact visible_cons.mpr ⟨by decide, h⟩
    | cons c cs ih => exact visible_writeChar c ih
  exact visible_cons.mpr ⟨by decide, hchars text.toList⟩

theorem Scalar.visible_write {s : Scalar} (hs : s.IsExact) {rest : List Char} (h : Visible rest) :
    Visible (s.write rest) := by
  match s, hs with
  | .null, _ | .boolean true, _ | .boolean false, _ => simp [Scalar.write, h]
  | .text value, _ => exact visible_writeText value h
  | .number (.integer value), _ => exact visible_append.mpr ⟨Text.visible_signedDecimal value, h⟩

namespace Value

theorem visible_writeItems {items : List Value}
    (each : ∀ item ∈ items, ∀ rest, Visible rest → Visible (item.write rest))
    {rest : List Char} (h : Visible rest) : Visible (writeItems items rest) := by
  induction items with
  | nil => exact visible_cons.mpr ⟨by decide, h⟩
  | cons item items ih =>
    rw [List.forall_mem_cons] at each
    exact visible_cons.mpr ⟨by decide, each.1 _ (ih each.2)⟩

theorem visible_writeEntries {entries : List (String × Value)}
    (each : ∀ entry ∈ entries, ∀ rest, Visible rest → Visible (entry.2.write rest))
    {rest : List Char} (h : Visible rest) : Visible (writeEntries entries rest) := by
  induction entries with
  | nil => exact visible_cons.mpr ⟨by decide, h⟩
  | cons entry entries ih =>
    rw [List.forall_mem_cons] at each
    have hvalue := each.1 _ (ih each.2)
    exact visible_cons.mpr ⟨by decide,
      visible_writeText entry.1 (visible_cons.mpr ⟨by decide, hvalue⟩)⟩

theorem visible_write {value : Value} (hvalue : value.IsExact) {rest : List Char}
    (h : Visible rest) : Visible (value.write rest) := by
  induction value generalizing rest with
  | scalar s =>
    obtain ⟨hs⟩ := hvalue
    exact Scalar.visible_write hs h
  | array items ih =>
    obtain - | ⟨hitems⟩ := hvalue
    have each : ∀ item ∈ items, ∀ rest, Visible rest → Visible (item.write rest) :=
      fun item hmem rest => ih item hmem (hitems item hmem)
    cases items with
    | nil => simp [write, h]
    | cons item items =>
      rw [List.forall_mem_cons] at each
      exact visible_cons.mpr ⟨by decide, each.1 _ (visible_writeItems each.2 h)⟩
  | object entries ih =>
    obtain - | - | ⟨hentries⟩ := hvalue
    have each : ∀ entry ∈ entries, ∀ rest, Visible rest → Visible (entry.2.write rest) :=
      fun entry hmem rest => ih entry hmem (hentries entry hmem)
    cases entries with
    | nil => simp [write, h]
    | cons entry entries =>
      rw [List.forall_mem_cons] at each
      have hvalue := each.1 _ (visible_writeEntries each.2 h)
      exact visible_cons.mpr ⟨by decide,
        visible_writeText entry.1 (visible_cons.mpr ⟨by decide, hvalue⟩)⟩

/-- The line holds a text without control characters that is read as the value, up to the nesting
that the reader allows. -/
def IsOnLine (value : Value) (line : String) : Prop :=
  ∃ body : String, line = body.push '\n' ∧ Visible body.toList ∧
    ∀ limit, withoutLocation (readValue limit body.toList) =
      if value.nesting ≤ limit then .ok (value, []) else .error (.malformed .tooDeep)

theorem isOnLine_compact {value : Value} (hvalue : value.IsExact) :
    value.IsOnLine (value.compact.push '\n') := by
  refine ⟨value.compact, rfl, ?_, ?_⟩
  · rw [compact, String.toList_ofList]
    exact visible_write hvalue Text.visible_nil
  · intro limit
    rw [compact, String.toList_ofList]
    exact readsUpTo hvalue limit _ [] (spells_write hvalue []) trivial

end Value

end SearchFilter.Json
