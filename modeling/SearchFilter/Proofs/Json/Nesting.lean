import SearchFilter.Proofs.Json.Spelling
/-!
# Nesting of texts

How deep a text nests is a matter of its brackets and braces outside strings. A text that spells a
value nests as deep as the value.
-/
namespace SearchFilter.Json

/-- Where a character of a text stands. -/
inductive Place where
  | outside
  | quoted
  | escaped
  deriving DecidableEq, Repr

/-- The deepest level that a text reaches from the given one on. -/
def deepest : Place → Nat → List Char → Nat
  | _, level, [] => level
  | .outside, level, c :: cs =>
    if c = '"' then deepest .quoted level cs
    else if c = '[' ∨ c = '{' then deepest .outside (level + 1) cs
    else if c = ']' ∨ c = '}' then max level (deepest .outside (level - 1) cs)
    else deepest .outside level cs
  | .quoted, level, c :: cs =>
    if c = '"' then deepest .outside level cs
    else if c = '\\' then deepest .escaped level cs
    else deepest .quoted level cs
  | .escaped, level, _ :: cs => deepest .quoted level cs

/-- How deep the brackets and braces of a text nest. -/
def textNesting (text : String) : Nat :=
  deepest .outside 0 text.toList

theorem le_deepest (place : Place) (level : Nat) (cs : List Char) :
    level ≤ deepest place level cs := by
  induction cs generalizing place level with
  | nil => cases place <;> exact le_rfl
  | cons c cs ih =>
    cases place with
    | outside =>
      rw [deepest]
      split
      · exact ih .quoted level
      split
      · exact Nat.le_of_succ_le (ih .outside (level + 1))
      split
      · exact Nat.le_max_left level _
      · exact ih .outside level
    | quoted =>
      rw [deepest]
      split
      · exact ih .outside level
      split
      · exact ih .escaped level
      · exact ih .quoted level
    | escaped => exact ih .quoted level

def IsLevel (c : Char) : Prop :=
  c ∉ ['"', '[', '{', ']', '}']

theorem deepest_level {c : Char} (h : IsLevel c) (level : Nat) (cs : List Char) :
    deepest .outside level (c :: cs) = deepest .outside level cs := by
  simp only [IsLevel, List.mem_cons, List.not_mem_nil, or_false, not_or] at h
  obtain ⟨hquote, hopen, hopen', hclose, hclose'⟩ := h
  rw [deepest, if_neg hquote, if_neg (by simp [hopen, hopen']), if_neg (by simp [hclose, hclose'])]

theorem deepest_append {word : List Char} (h : ∀ c ∈ word, IsLevel c) (level : Nat)
    (rest : List Char) : deepest .outside level (word ++ rest) = deepest .outside level rest := by
  induction word with
  | nil => rfl
  | cons c word ih =>
    rw [List.cons_append, deepest_level (h c List.mem_cons_self),
      ih fun d hd => h d (List.mem_cons_of_mem c hd)]

theorem isLevel_of_isBlank {c : Char} (h : isBlank c = true) : IsLevel c := by
  simp only [isBlank, Bool.or_eq_true, beq_iff_eq] at h
  rcases h with ((rfl | rfl) | rfl) | rfl <;> simp [IsLevel]

theorem isLevel_of_isDigit {c : Char} (h : Text.isDigit c = true) : IsLevel c := by
  simp only [IsLevel, List.mem_cons, List.not_mem_nil, or_false, not_or]
  exact ⟨ne_of_isDigit h rfl, ne_of_isDigit h rfl, ne_of_isDigit h rfl, ne_of_isDigit h rfl,
    ne_of_isDigit h rfl⟩

theorem deepest_skipBlanks (level : Nat) (cs : List Char) :
    deepest .outside level (skipBlanks cs) = deepest .outside level cs := by
  have hblanks : ∀ c ∈ cs.takeWhile isBlank, IsLevel c := fun c hc =>
    isLevel_of_isBlank (List.mem_takeWhile_imp hc)
  have hsplit : cs.takeWhile isBlank ++ skipBlanks cs = cs := List.takeWhile_append_dropWhile
  rw [← deepest_append hblanks, hsplit]

theorem textNesting_of_deepest {text : String} {rest : List Char} {level : Nat}
    (h : deepest .outside 0 text.toList = max level (deepest .outside 0 rest))
    (hrest : skipBlanks rest = []) : textNesting text = level := by
  have hend : deepest .outside 0 rest = 0 := by rw [← deepest_skipBlanks, hrest]; rfl
  rw [textNesting, h, hend, Nat.max_zero]

theorem deepest_writeChar (c : Char) (level : Nat) (rest : List Char) :
    deepest .quoted level (writeChar c rest) = deepest .quoted level rest := by
  unfold writeChar
  cases hshort : shortEscape? c with
  | some letter => rfl
  | none =>
    obtain ⟨hquote, hbackslash⟩ := ne_of_shortEscape?_eq_none hshort
    by_cases hc : c < ' '
    · have hdigit : ∀ d < 16, Nat.digitChar d ≠ '"' ∧ Nat.digitChar d ≠ '\\' := by decide
      have hmod (n : Nat) := hdigit (n % 16) (Nat.mod_lt n (by decide))
      simp only [if_pos hc, fourHexDigits_eq, List.cons_append, List.nil_append, deepest, hmod,
        if_false]
      rfl
    · simp only [if_neg hc, deepest, hquote, hbackslash, if_false]

theorem deepest_writeText (text : String) (level : Nat) (rest : List Char) :
    deepest .outside level (writeText text rest) = deepest .outside level rest := by
  have hquoted (cs : List Char) :
      deepest .quoted level (cs.foldr writeChar ('"' :: rest)) = deepest .outside level rest := by
    induction cs with
    | nil => rfl
    | cons c cs ih => rw [List.foldr_cons, deepest_writeChar, ih]
  exact hquoted text.toList

theorem deepest_scalar {s : Scalar} (h : s.IsExact) (level : Nat) (rest : List Char) :
    deepest .outside level (s.write rest) = deepest .outside level rest := by
  match s, h with
  | .null, _ => rfl
  | .boolean true, _ => rfl
  | .boolean false, _ => rfl
  | .text value, _ => exact deepest_writeText value level rest
  | .number (.integer value), _ =>
    have hdecimal (n : Nat) : ∀ c ∈ Text.decimal n, IsLevel c := fun c hc =>
      isLevel_of_isDigit (isDigit_of_mem_decimal hc)
    cases value with
    | ofNat n => exact deepest_append (hdecimal n) level rest
    | negSucc n => exact deepest_append (hdecimal (n + 1)) level rest

namespace Value

theorem SpellsKey.deepest {key : String} {cs rest : List Char} (h : SpellsKey key cs rest)
    (level : Nat) : deepest .outside level cs = deepest .outside level rest := by
  obtain ⟨behind, hkey, hcolon⟩ := h
  rw [← deepest_skipBlanks, hkey, deepest_writeText, ← deepest_skipBlanks, hcolon]
  rfl

/-- What a text that spells a value does to the level. -/
def Reaches (value : Value) : Prop :=
  ∀ level cs rest, value.Spells cs rest →
    Json.deepest .outside level cs = max (level + value.nesting) (Json.deepest .outside level rest)

theorem SpellsItems.deepest {items : List Value} (each : ∀ item ∈ items, item.Reaches)
    {cs rest : List Char} (h : SpellsItems items cs rest) (level : Nat) :
    Json.deepest .outside (level + 1) cs =
      max (level + 1 + itemsNesting items) (Json.deepest .outside level rest) := by
  induction items generalizing cs with
  | nil =>
    rw [SpellsItems] at h
    rw [← deepest_skipBlanks, h]
    rfl
  | cons item items ih =>
    obtain ⟨inside, next, hcomma, hitem, hitems⟩ := h
    have hnext := ih (fun item hmem => each item (List.mem_cons_of_mem _ hmem)) hitems
    have hinside := each item List.mem_cons_self (level + 1) inside next hitem
    rw [← deepest_skipBlanks, hcomma, deepest_level (by simp [IsLevel]), hinside, hnext,
      itemsNesting]
    omega

theorem SpellsEntries.deepest {entries : List (String × Value)}
    (each : ∀ entry ∈ entries, entry.2.Reaches) {cs rest : List Char}
    (h : SpellsEntries entries cs rest) (level : Nat) :
    Json.deepest .outside (level + 1) cs =
      max (level + 1 + entriesNesting entries) (Json.deepest .outside level rest) := by
  induction entries generalizing cs with
  | nil =>
    rw [SpellsEntries] at h
    rw [← deepest_skipBlanks, h]
    rfl
  | cons entry entries ih =>
    obtain ⟨inside, before, next, hcomma, hkey, hvalue, hentries⟩ := h
    have hnext := ih (fun entry hmem => each entry (List.mem_cons_of_mem _ hmem)) hentries
    have hbefore := each entry List.mem_cons_self (level + 1) before next hvalue
    rw [← deepest_skipBlanks, hcomma, deepest_level (by simp [IsLevel]), hkey.deepest, hbefore,
      hnext, entriesNesting]
    omega

theorem reaches {value : Value} (hvalue : value.IsExact) : value.Reaches := by
  induction value with
  | scalar s =>
    intro level cs rest h
    obtain ⟨hs⟩ := hvalue
    rw [Spells] at h
    rw [← deepest_skipBlanks, h, deepest_scalar hs, nesting, Nat.add_zero,
      Nat.max_eq_right (le_deepest .outside level rest)]
  | array items ih =>
    intro level cs rest h
    obtain - | ⟨hitems⟩ := hvalue
    have each : ∀ item ∈ items, item.Reaches := fun item hmem => ih item hmem (hitems item hmem)
    cases items with
    | nil =>
      obtain ⟨inside, hopen, hclose⟩ := h
      have hlevel := SpellsItems.deepest each hclose level
      rw [← deepest_skipBlanks, hopen]
      simpa [Json.deepest, nesting, itemsNesting] using hlevel
    | cons item items =>
      obtain ⟨inside, next, hopen, hitem, hrest⟩ := h
      have hnext := hrest.deepest (fun item hmem => each item (List.mem_cons_of_mem _ hmem)) level
      have hinside := each item List.mem_cons_self (level + 1) inside next hitem
      have hlevel : Json.deepest .outside level ('[' :: inside) =
          Json.deepest .outside (level + 1) inside := rfl
      rw [← deepest_skipBlanks, hopen, hlevel, hinside, hnext, nesting, itemsNesting]
      omega
  | object entries ih =>
    intro level cs rest h
    obtain - | - | ⟨hentries⟩ := hvalue
    have each : ∀ entry ∈ entries, entry.2.Reaches :=
      fun entry hmem => ih entry hmem (hentries entry hmem)
    cases entries with
    | nil =>
      obtain ⟨inside, hopen, hclose⟩ := h
      have hlevel := SpellsEntries.deepest each hclose level
      rw [← deepest_skipBlanks, hopen]
      simpa [Json.deepest, nesting, entriesNesting] using hlevel
    | cons entry entries =>
      obtain ⟨inside, before, next, hopen, hkey, hvalue, hrest⟩ := h
      have hnext := hrest.deepest (fun entry hmem => each entry (List.mem_cons_of_mem _ hmem)) level
      have hbefore := each entry List.mem_cons_self (level + 1) before next hvalue
      have hlevel : Json.deepest .outside level ('{' :: inside) =
          Json.deepest .outside (level + 1) inside := rfl
      rw [← deepest_skipBlanks, hopen, hlevel, hkey.deepest, hbefore, hnext, nesting,
        entriesNesting]
      omega

theorem textNesting_compact {value : Value} (hvalue : value.IsExact) :
    textNesting value.compact = value.nesting := by
  have hreach := reaches hvalue 0 (value.write []) [] (spells_write hvalue [])
  rw [textNesting, compact, String.toList_ofList, hreach]
  simp [deepest]

/-- A text nests as deep as the value that it spells. -/
theorem SpelledBy.textNesting {value : Value} (hvalue : value.IsExact) {text : String}
    (h : value.SpelledBy text) : Json.textNesting text = value.nesting := by
  obtain ⟨rest, hspells, hrest⟩ := h
  rw [textNesting_of_deepest (reaches hvalue 0 _ rest hspells) hrest, Nat.zero_add]

end Value

end SearchFilter.Json
