import Mathlib.Data.List.DropRight
import SearchFilter.Json.Reader
import SearchFilter.Proofs.Json.Number
import SearchFilter.Proofs.Json.Text
/-!
# Texts that spell a value

A text spells a value when its tokens are those of the value, with any blanks in front of each of
them. The compact text of a value is the one without blanks.
-/
namespace SearchFilter.Json

theorem skipBlanks_cons {c : Char} (h : isBlank c = false) (cs : List Char) :
    skipBlanks (c :: cs) = c :: cs :=
  List.dropWhile_cons_of_neg (by simp [h])

theorem skipBlanks_skipBlanks (cs : List Char) : skipBlanks (skipBlanks cs) = skipBlanks cs :=
  List.dropWhile_idempotent isBlank cs

theorem length_skipBlanks_le (cs : List Char) : (skipBlanks cs).length ≤ cs.length :=
  (List.dropWhile_sublist isBlank).length_le

theorem length_lt_of_skipBlanks {cs rest : List Char} {c : Char} (h : skipBlanks cs = c :: rest) :
    rest.length < cs.length := by
  have hle := length_skipBlanks_le cs
  rw [h, List.length_cons] at hle
  exact hle

theorem endsNumber_of_isBlank {c : Char} (h : isBlank c = true) (cs : List Char) :
    EndsNumber (c :: cs) := by
  simp only [isBlank, Bool.or_eq_true, beq_iff_eq] at h
  rcases h with ((rfl | rfl) | rfl) | rfl <;> simp [EndsNumber, Text.isDigit]

theorem endsNumber_of_skipBlanks {cs rest : List Char} {c : Char} (h : skipBlanks cs = c :: rest)
    (hc : c ∈ [',', ']', '}']) : EndsNumber cs := by
  cases cs with
  | nil => trivial
  | cons d cs =>
    by_cases hblank : isBlank d = true
    · exact endsNumber_of_isBlank hblank cs
    · rw [skipBlanks_cons (by simpa using hblank), List.cons.injEq] at h
      obtain ⟨rfl, -⟩ := h
      simp only [List.mem_cons, List.not_mem_nil, or_false] at hc
      rcases hc with rfl | rfl | rfl <;> simp [EndsNumber, Text.isDigit]

theorem endsNumber_of_skipBlanks_eq_nil {rest : List Char} (h : skipBlanks rest = []) :
    EndsNumber rest := by
  cases rest with
  | nil => trivial
  | cons c rest =>
    have hblank : isBlank c = true := by
      by_contra hc
      rw [skipBlanks_cons (by simpa using hc)] at h
      cases h
    exact endsNumber_of_isBlank hblank rest

namespace Value

@[induction_eliminator]
theorem inductionOn {motive : Value → Prop} (scalar : ∀ s, motive (.scalar s))
    (array : ∀ items, (∀ item ∈ items, motive item) → motive (.array items))
    (object : ∀ entries, (∀ entry ∈ entries, motive entry.2) → motive (.object entries))
    (value : Value) : motive value :=
  match value with
  | .scalar s => scalar s
  | .array items => array items fun item _ => inductionOn scalar array object item
  | .object entries => object entries fun entry _ => inductionOn scalar array object entry.2
termination_by sizeOf value
decreasing_by
  · rename_i hitem
    have hmem := List.sizeOf_lt_of_mem hitem
    simp only [Value.array.sizeOf_spec]
    omega
  · rename_i hentry
    have hmem := List.sizeOf_lt_of_mem hentry
    cases entry
    simp only [Prod.mk.sizeOf_spec, Value.object.sizeOf_spec] at hmem ⊢
    omega

end Value

/-- Every scalar but a real; integers have a 64-bit form. -/
def Scalar.IsExact : Scalar → Prop
  | .number (.integer value) => -0x8000000000000000 ≤ value ∧ value < 0x10000000000000000
  | .number (.real _ _) => False
  | .null | .boolean _ | .text _ => True

namespace Value

inductive IsExact : Value → Prop
  | scalar {s : Scalar} (h : s.IsExact) : IsExact (.scalar s)
  | array {items : List Value} (each : ∀ item ∈ items, IsExact item) : IsExact (.array items)
  | object {entries : List (String × Value)} (each : ∀ entry ∈ entries, IsExact entry.2) :
      IsExact (.object entries)

def SpellsKey (key : String) (cs rest : List Char) : Prop :=
  ∃ behind, skipBlanks cs = writeText key behind ∧ skipBlanks behind = ':' :: rest

mutual

/-- The text `cs` spells the value and goes on with `rest`. -/
def Spells : Value → List Char → List Char → Prop
  | .scalar s, cs, rest => skipBlanks cs = s.write rest
  | .array [], cs, rest =>
    ∃ inside, skipBlanks cs = '[' :: inside ∧ skipBlanks inside = ']' :: rest
  | .array (item :: items), cs, rest =>
    ∃ inside next, skipBlanks cs = '[' :: inside ∧ Spells item inside next ∧
      SpellsItems items next rest
  | .object [], cs, rest =>
    ∃ inside, skipBlanks cs = '{' :: inside ∧ skipBlanks inside = '}' :: rest
  | .object ((key, value) :: entries), cs, rest =>
    ∃ inside before next, skipBlanks cs = '{' :: inside ∧ SpellsKey key inside before ∧
      Spells value before next ∧ SpellsEntries entries next rest

/-- The items after the first and the closing bracket. -/
def SpellsItems : List Value → List Char → List Char → Prop
  | [], cs, rest => skipBlanks cs = ']' :: rest
  | item :: items, cs, rest =>
    ∃ inside next, skipBlanks cs = ',' :: inside ∧ Spells item inside next ∧
      SpellsItems items next rest

/-- The entries after the first and the closing brace. -/
def SpellsEntries : List (String × Value) → List Char → List Char → Prop
  | [], cs, rest => skipBlanks cs = '}' :: rest
  | (key, value) :: entries, cs, rest =>
    ∃ inside before next, skipBlanks cs = ',' :: inside ∧ SpellsKey key inside before ∧
      Spells value before next ∧ SpellsEntries entries next rest

end

/-- The text spells the value, with any blanks between and around the tokens. -/
def SpelledBy (value : Value) (text : String) : Prop :=
  ∃ rest, value.Spells text.toList rest ∧ Json.skipBlanks rest = []

theorem SpellsItems.endsNumber {items : List Value} {cs rest : List Char}
    (h : SpellsItems items cs rest) : EndsNumber cs := by
  cases items with
  | nil => exact endsNumber_of_skipBlanks h (by simp)
  | cons item items =>
    obtain ⟨inside, next, hcomma, -⟩ := h
    exact endsNumber_of_skipBlanks hcomma (by simp)

theorem SpellsEntries.endsNumber {entries : List (String × Value)} {cs rest : List Char}
    (h : SpellsEntries entries cs rest) : EndsNumber cs := by
  cases entries with
  | nil => exact endsNumber_of_skipBlanks h (by simp)
  | cons entry entries =>
    obtain ⟨inside, before, next, hcomma, -⟩ := h
    exact endsNumber_of_skipBlanks hcomma (by simp)

theorem Spells.opens_array {items : List Value} {cs rest : List Char}
    (h : (array items).Spells cs rest) : ∃ inside, Json.skipBlanks cs = '[' :: inside := by
  match items, h with
  | [], ⟨inside, hopen, _⟩ => exact ⟨inside, hopen⟩
  | _ :: _, ⟨inside, _, hopen, _⟩ => exact ⟨inside, hopen⟩

theorem Spells.opens_object {entries : List (String × Value)} {cs rest : List Char}
    (h : (object entries).Spells cs rest) : ∃ inside, Json.skipBlanks cs = '{' :: inside := by
  match entries, h with
  | [], ⟨inside, hopen, _⟩ => exact ⟨inside, hopen⟩
  | _ :: _, ⟨inside, _, _, hopen, _⟩ => exact ⟨inside, hopen⟩

theorem Spells.skipBlanks {value : Value} {cs rest : List Char} (h : value.Spells cs rest) :
    value.Spells (Json.skipBlanks cs) rest := by
  match value with
  | .scalar s | .array [] | .array (_ :: _) | .object [] | .object (_ :: _) =>
    simpa only [Spells, skipBlanks_skipBlanks] using h

end Value

def BeginsScalar (c : Char) : Prop :=
  isBlank c = false ∧ c ≠ '[' ∧ c ≠ '{' ∧ c ≠ ']'

theorem beginsScalar_of_isDigit {c : Char} (h : Text.isDigit c = true) : BeginsScalar c := by
  have hblank : isBlank c = false := by
    simp only [isBlank, Bool.or_eq_false_iff, beq_eq_false_iff_ne]
    exact ⟨⟨⟨ne_of_isDigit h rfl, ne_of_isDigit h rfl⟩, ne_of_isDigit h rfl⟩, ne_of_isDigit h rfl⟩
  exact ⟨hblank, ne_of_isDigit h rfl, ne_of_isDigit h rfl, ne_of_isDigit h rfl⟩

theorem signedDecimal_eq_cons (value : Int) :
    ∃ c cs, Text.signedDecimal value = c :: cs ∧ (c = '-' ∨ Text.isDigit c = true) := by
  cases value with
  | ofNat n =>
    obtain ⟨c, cs, hdigits⟩ := List.exists_cons_of_ne_nil (decimal_ne_nil n)
    exact ⟨c, cs, hdigits, .inr (isDigit_of_mem_decimal (n := n) (by simp [hdigits]))⟩
  | negSucc n => exact ⟨'-', _, rfl, .inl rfl⟩

theorem Scalar.write_eq_cons {s : Scalar} (h : s.IsExact) (rest : List Char) :
    ∃ c cs, s.write rest = c :: cs ∧ BeginsScalar c := by
  match s, h with
  | .null, _ => exact ⟨'n', _, rfl, by simp [BeginsScalar, isBlank]⟩
  | .boolean true, _ => exact ⟨'t', _, rfl, by simp [BeginsScalar, isBlank]⟩
  | .boolean false, _ => exact ⟨'f', _, rfl, by simp [BeginsScalar, isBlank]⟩
  | .text value, _ => exact ⟨'"', _, rfl, by simp [BeginsScalar, isBlank]⟩
  | .number (.integer value), _ =>
    obtain ⟨c, cs, heq, hc⟩ := signedDecimal_eq_cons value
    refine ⟨c, cs ++ rest, by rw [Scalar.write, Number.write, heq, List.cons_append], ?_⟩
    rcases hc with rfl | hc
    · simp [BeginsScalar, isBlank]
    · exact beginsScalar_of_isDigit hc

theorem Scalar.length_lt_write {s : Scalar} (h : s.IsExact) (rest : List Char) :
    rest.length < (s.write rest).length := by
  match s, h with
  | .null, _ | .boolean true, _ | .boolean false, _ =>
    simp only [Scalar.write, List.length_cons]
    omega
  | .text value, _ =>
    have hlt := length_lt_foldr_writeChar value.toList rest
    rw [Scalar.write, writeText, List.length_cons]
    omega
  | .number (.integer value), _ =>
    obtain ⟨c, cs, heq, -⟩ := signedDecimal_eq_cons value
    rw [Scalar.write, Number.write, heq, List.cons_append, List.length_cons, List.length_append]
    omega

namespace Value

theorem Spells.head_ne {value : Value} {cs rest behind : List Char} (hvalue : value.IsExact)
    (h : value.Spells cs rest) : Json.skipBlanks cs ≠ ']' :: behind := by
  match value, hvalue, h with
  | .scalar s, .scalar hs, h =>
    obtain ⟨c, text, heq, -, -, -, hne⟩ := s.write_eq_cons hs rest
    rw [Spells, heq] at h
    rw [h]
    exact fun hcons => hne (List.cons.inj hcons).1
  | .array _, _, h =>
    obtain ⟨inside, hopen⟩ := h.opens_array
    rw [hopen]
    simp
  | .object _, _, h =>
    obtain ⟨inside, hopen⟩ := h.opens_object
    rw [hopen]
    simp

theorem SpellsKey.length_lt {key : String} {cs rest : List Char} (h : SpellsKey key cs rest) :
    rest.length < cs.length := by
  obtain ⟨behind, hkey, hcolon⟩ := h
  have hquoted := length_lt_of_skipBlanks hkey
  have htext := length_lt_foldr_writeChar key.toList behind
  have hrest := length_lt_of_skipBlanks hcolon
  omega

theorem SpellsItems.nesting_lt {items : List Value}
    (each : ∀ item ∈ items, ∀ cs rest, item.Spells cs rest → item.nesting + rest.length < cs.length)
    {cs rest : List Char} (h : SpellsItems items cs rest) :
    itemsNesting items + rest.length < cs.length := by
  induction items generalizing cs with
  | nil =>
    have hcs := length_lt_of_skipBlanks h
    rw [itemsNesting]
    omega
  | cons item items ih =>
    obtain ⟨inside, next, hcomma, hitem, hitems⟩ := h
    have hcs := length_lt_of_skipBlanks hcomma
    have hinside := each item List.mem_cons_self _ _ hitem
    have hnext := ih (fun item hmem => each item (List.mem_cons_of_mem _ hmem)) hitems
    rw [itemsNesting]
    omega

theorem SpellsEntries.nesting_lt {entries : List (String × Value)}
    (each : ∀ entry ∈ entries, ∀ cs rest, entry.2.Spells cs rest →
      entry.2.nesting + rest.length < cs.length)
    {cs rest : List Char} (h : SpellsEntries entries cs rest) :
    entriesNesting entries + rest.length < cs.length := by
  induction entries generalizing cs with
  | nil =>
    have hcs := length_lt_of_skipBlanks h
    rw [entriesNesting]
    omega
  | cons entry entries ih =>
    obtain ⟨inside, before, next, hcomma, hkey, hvalue, hentries⟩ := h
    have hcs := length_lt_of_skipBlanks hcomma
    have hinside := hkey.length_lt
    have hbefore := each entry List.mem_cons_self _ _ hvalue
    have hnext := ih (fun entry hmem => each entry (List.mem_cons_of_mem _ hmem)) hentries
    rw [entriesNesting]
    omega

theorem Spells.nesting_lt {value : Value} (hvalue : value.IsExact) {cs rest : List Char}
    (h : value.Spells cs rest) : value.nesting + rest.length < cs.length := by
  induction value generalizing cs rest with
  | scalar s =>
    obtain ⟨hs⟩ := hvalue
    have hlt := s.length_lt_write hs rest
    have hle := length_skipBlanks_le cs
    rw [Spells] at h
    rw [h] at hle
    rw [nesting]
    omega
  | array items ih =>
    obtain - | ⟨hitems⟩ := hvalue
    have each : ∀ item ∈ items, ∀ cs rest, item.Spells cs rest →
        item.nesting + rest.length < cs.length :=
      fun item hmem _ _ => ih item hmem (hitems item hmem)
    cases items with
    | nil =>
      obtain ⟨inside, hopen, hclose⟩ := h
      have hcs := length_lt_of_skipBlanks hopen
      have hinside := length_lt_of_skipBlanks hclose
      rw [nesting, itemsNesting]
      omega
    | cons item items =>
      obtain ⟨inside, next, hopen, hitem, hrest⟩ := h
      -- the bracket pays for the level, and every item for its own levels
      have hcs := length_lt_of_skipBlanks hopen
      have hinside := each item List.mem_cons_self _ _ hitem
      have hnext := hrest.nesting_lt fun item hmem => each item (List.mem_cons_of_mem _ hmem)
      rw [nesting, itemsNesting]
      omega
  | object entries ih =>
    obtain - | - | ⟨hentries⟩ := hvalue
    have each : ∀ entry ∈ entries, ∀ cs rest, entry.2.Spells cs rest →
        entry.2.nesting + rest.length < cs.length :=
      fun entry hmem _ _ => ih entry hmem (hentries entry hmem)
    cases entries with
    | nil =>
      obtain ⟨inside, hopen, hclose⟩ := h
      have hcs := length_lt_of_skipBlanks hopen
      have hinside := length_lt_of_skipBlanks hclose
      rw [nesting, entriesNesting]
      omega
    | cons entry entries =>
      obtain ⟨inside, before, next, hopen, hkey, hvalue, hrest⟩ := h
      have hcs := length_lt_of_skipBlanks hopen
      have hinside := hkey.length_lt
      have hbefore := each entry List.mem_cons_self _ _ hvalue
      have hnext := hrest.nesting_lt fun entry hmem => each entry (List.mem_cons_of_mem _ hmem)
      rw [nesting, entriesNesting]
      omega

theorem Spells.length_lt {value : Value} (hvalue : value.IsExact) {cs rest : List Char}
    (h : value.Spells cs rest) : rest.length < cs.length :=
  Nat.lt_of_le_of_lt (Nat.le_add_left _ _) (h.nesting_lt hvalue)

theorem spellsKey_writeText (key : String) (rest : List Char) :
    SpellsKey key (writeText key (':' :: rest)) rest :=
  ⟨':' :: rest, skipBlanks_cons rfl _, skipBlanks_cons rfl _⟩

theorem spellsItems_writeItems {items : List Value}
    (each : ∀ item ∈ items, ∀ rest, item.Spells (item.write rest) rest) (rest : List Char) :
    SpellsItems items (writeItems items rest) rest := by
  induction items with
  | nil => exact skipBlanks_cons rfl rest
  | cons item items ih =>
    exact ⟨_, _, skipBlanks_cons rfl _, each item List.mem_cons_self _,
      ih fun item hmem => each item (List.mem_cons_of_mem _ hmem)⟩

theorem spellsEntries_writeEntries {entries : List (String × Value)}
    (each : ∀ entry ∈ entries, ∀ rest, entry.2.Spells (entry.2.write rest) rest)
    (rest : List Char) : SpellsEntries entries (writeEntries entries rest) rest := by
  induction entries with
  | nil => exact skipBlanks_cons rfl rest
  | cons entry entries ih =>
    exact ⟨_, _, _, skipBlanks_cons rfl _, spellsKey_writeText entry.1 _,
      each entry List.mem_cons_self _,
      ih fun entry hmem => each entry (List.mem_cons_of_mem _ hmem)⟩

/-- The compact text of a value spells it. -/
theorem spells_write {value : Value} (hvalue : value.IsExact) (rest : List Char) :
    value.Spells (value.write rest) rest := by
  induction value generalizing rest with
  | scalar s =>
    obtain ⟨hs⟩ := hvalue
    obtain ⟨c, cs, heq, hblank, -⟩ := s.write_eq_cons hs rest
    rw [Spells, write, heq, skipBlanks_cons hblank]
  | array items ih =>
    obtain - | ⟨hitems⟩ := hvalue
    cases items with
    | nil => exact ⟨_, skipBlanks_cons rfl _, skipBlanks_cons rfl _⟩
    | cons item items =>
      have each : ∀ item' ∈ item :: items, ∀ rest, item'.Spells (item'.write rest) rest :=
        fun item' hmem => ih item' hmem (hitems item' hmem)
      exact ⟨_, _, skipBlanks_cons rfl _, each item List.mem_cons_self _,
        spellsItems_writeItems (fun item hmem => each item (List.mem_cons_of_mem _ hmem)) rest⟩
  | object entries ih =>
    obtain - | - | ⟨hentries⟩ := hvalue
    cases entries with
    | nil => exact ⟨_, skipBlanks_cons rfl _, skipBlanks_cons rfl _⟩
    | cons entry entries =>
      have each : ∀ entry' ∈ entry :: entries,
          ∀ rest, entry'.2.Spells (entry'.2.write rest) rest :=
        fun entry' hmem => ih entry' hmem (hentries entry' hmem)
      exact ⟨_, _, _, skipBlanks_cons rfl _, spellsKey_writeText entry.1 _,
        each entry List.mem_cons_self _,
        spellsEntries_writeEntries
          (fun entry hmem => each entry (List.mem_cons_of_mem _ hmem)) rest⟩

theorem spelledBy_compact {value : Value} (h : value.IsExact) : value.SpelledBy value.compact := by
  refine ⟨[], ?_, rfl⟩
  rw [compact, String.toList_ofList]
  exact spells_write h []

end Value

end SearchFilter.Json
