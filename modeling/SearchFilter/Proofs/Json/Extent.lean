import Mathlib.Algebra.GroupWithZero.Nat
import SearchFilter.Proofs.Json.Depth
/-!
# How much text a value takes

A text is at least as long as the strings and brackets of the value that is read from it, whatever
spelling it uses.
-/
namespace SearchFilter.Json

variable {α σ : Type}

/-- The characters that a scalar takes at least: a string has quotes, and its escapes only make it
longer. -/
def Scalar.extent : Scalar → Nat
  | .text value => value.length + 2
  | .null | .boolean _ | .number _ => 0

namespace Value

mutual

def extent : Value → Nat
  | .scalar s => s.extent
  | .array items => itemsExtent items + 2
  | .object entries => entriesExtent entries + 2

def itemsExtent : List Value → Nat
  | [] => 0
  | item :: items => extent item + itemsExtent items

def entriesExtent : List (String × Value) → Nat
  | [] => 0
  | (_, value) :: entries => extent value + entriesExtent entries

end

theorem itemsExtent_eq_sum (items : List Value) :
    itemsExtent items = (items.map extent).sum := by
  induction items with
  | nil => rfl
  | cons item items ih => rw [itemsExtent, ih, List.map_cons, List.sum_cons]

theorem entriesExtent_eq_sum (entries : List (String × Value)) :
    entriesExtent entries = (entries.map fun entry => entry.2.extent).sum := by
  induction entries with
  | nil => rfl
  | cons entry entries ih => rw [entriesExtent, ih, List.map_cons, List.sum_cons]

theorem itemsExtent_reverse (items : List Value) :
    itemsExtent items.reverse = itemsExtent items := by
  simp only [itemsExtent_eq_sum, List.map_reverse, List.sum_reverse]

theorem entriesExtent_reverse (entries : List (String × Value)) :
    entriesExtent entries.reverse = entriesExtent entries := by
  simp only [entriesExtent_eq_sum, List.map_reverse, List.sum_reverse]

theorem entriesExtent_filter_add (p : String × Value → Bool) (entries : List (String × Value)) :
    entriesExtent (entries.filter p) + entriesExtent (entries.filter fun entry => !p entry) =
      entriesExtent entries := by
  induction entries with
  | nil => rfl
  | cons entry entries ih =>
    cases hp : p entry <;> simp only [List.filter_cons, hp, Bool.not_true, Bool.not_false, if_true,
      Bool.false_eq_true, if_false, entriesExtent] <;> omega

end Value

theorem readChars_length {cs text rest : List Char} (h : readChars cs = .ok (text, rest)) :
    text.length + 1 + rest.length ≤ cs.length := by
  fun_induction readChars cs generalizing text with
  | case2 =>
    cases h
    simp [Nat.add_comm]
  | case6 | case13 | case16 | case19 =>
    rename_i ih
    obtain ⟨text', rfl, hread⟩ := prepend_eq_ok h
    have hle := ih hread
    simp only [List.length_cons]
    omega
  | _ => cases h

theorem readText_length {cs rest : List Char} {text : String} (h : readText cs = .ok (text, rest)) :
    text.length + 1 + rest.length ≤ cs.length := by
  obtain ⟨⟨chars, behind⟩, hchars, h⟩ := bind_eq_ok.mp h
  cases h
  rw [String.length_ofList]
  exact readChars_length hchars

theorem readColon_length {cs rest : List Char} (h : readColon cs = .ok rest) :
    rest.length ≤ cs.length := by
  unfold readColon at h
  split at h
  · next behind hcolon =>
    cases h
    exact (length_lt_of_skipBlanks hcolon).le
  · cases h
  · cases h

theorem readScalar_length {cs rest : List Char} {s : Scalar}
    (h : readScalar (skipBlanks cs) = .ok (s, rest)) : s.extent + rest.length ≤ cs.length := by
  have hblanks := length_skipBlanks_le cs
  obtain ⟨behind, text, hopen, htext, rfl⟩ | ⟨hpasses, hno⟩ := readScalar_eq_ok h
  · have hlt := length_lt_of_skipBlanks hopen
    have hle := readText_length htext
    rw [Scalar.extent]
    omega
  · have hle := hpasses.length_le
    cases s with
    | text value => exact absurd rfl (hno value)
    | _ => rw [Scalar.extent]; omega

/-- A reader takes as many characters as it adds to the extent of the state, and some more. -/
def Consumes (extent : σ → Nat) (more : Nat)
    (read : σ → List Char → Except TextFault (σ × List Char)) : Prop :=
  ∀ state cs state' rest, read state cs = .ok (state', rest) →
    extent state' + more + rest.length ≤ extent state + cs.length

variable {extent : σ → Nat} {strict : Bool}

section Items

variable {item : σ → List Char → Except TextFault (σ × List Char)}

theorem readItems_consumes (hitem : Consumes extent 0 item) (fuel : Nat) :
    Consumes extent 1 (readItems strict item fuel) := by
  induction fuel with
  | zero =>
    intro state cs state' rest h
    cases h
  | succ fuel ih =>
    intro state cs state' rest h
    obtain ⟨⟨state₁, rest₁⟩, hfirst, h⟩ := bind_eq_ok.mp h
    have hle := hitem _ _ _ _ hfirst
    simp only at h
    split at h
    · next behind hclose =>
      cases h
      have hlt := length_lt_of_skipBlanks hclose
      omega
    · next behind hcomma =>
      have hloop : readItems strict item fuel state₁ (skipBlanks behind) = .ok (state', rest) := by
        split at h
        · cases h
        · exact h
      have hlt := length_lt_of_skipBlanks hcomma
      have hblanks := length_skipBlanks_le behind
      have hrest := ih _ _ _ _ hloop
      omega
    · cases h
    · cases h

theorem readArray_consumes (hitem : Consumes extent 0 item) :
    Consumes extent 1 (readArray strict item) := by
  intro state cs state' rest h
  unfold readArray at h
  split at h
  · next behind hclose =>
    cases h
    have hlt := length_lt_of_skipBlanks hclose
    omega
  · cases h
  · have hblanks := length_skipBlanks_le cs
    have hle := readItems_consumes hitem _ _ _ _ _ h
    omega

end Items

section Members

variable {member : σ → List Char → Except TextFault (σ × List Char)}

theorem readMembers_consumes (hmember : Consumes extent 0 member) (fuel : Nat) :
    Consumes extent 1 (readMembers strict member fuel) := by
  induction fuel with
  | zero =>
    intro state cs state' rest h
    cases h
  | succ fuel ih =>
    intro state cs state' rest h
    obtain ⟨⟨state₁, rest₁⟩, hfirst, h⟩ := bind_eq_ok.mp h
    have hle := hmember _ _ _ _ hfirst
    simp only at h
    split at h
    · next behind hclose =>
      cases h
      have hlt := length_lt_of_skipBlanks hclose
      omega
    · next behind hcomma =>
      split at h
      · next key hquote _ =>
        have hlt := length_lt_of_skipBlanks hcomma
        have hkey := length_lt_of_skipBlanks hquote
        have hrest := ih _ _ _ _ h
        omega
      all_goals cases h
    · cases h
    · cases h

theorem readObject_consumes (hmember : Consumes extent 0 member) :
    Consumes extent 1 (readObject strict member) := by
  intro state cs state' rest h
  unfold readObject at h
  split at h
  · next behind hclose =>
    cases h
    have hlt := length_lt_of_skipBlanks hclose
    omega
  · next key hquote =>
    have hlt := length_lt_of_skipBlanks hquote
    have hle := readMembers_consumes hmember _ _ _ _ _ h
    omega
  · cases h
  · cases h

end Members

/-- What is read by `read` takes at least as many characters as `extent` says. -/
def ReadsExtent (extent : α → Nat) (read : List Char → Except TextFault (α × List Char)) : Prop :=
  ∀ cs a rest, read cs = .ok (a, rest) → extent a + rest.length ≤ cs.length

theorem consumes_items {item : List Char → Except TextFault (Value × List Char)}
    (hitem : ReadsExtent Value.extent item) :
    Consumes Value.itemsExtent 0 (fun items cs => do
      let (value, rest) ← item cs
      .ok (value :: items, rest)) := by
  intro items cs items' rest h
  obtain ⟨⟨value, behind⟩, hvalue, h⟩ := bind_eq_ok.mp h
  cases h
  have hle := hitem _ _ _ hvalue
  rw [Value.itemsExtent]
  omega

theorem consumes_entries {item : List Char → Except TextFault (Value × List Char)}
    (hitem : ReadsExtent Value.extent item) :
    Consumes Value.entriesExtent 0 (fun entries cs => do
      let (key, rest) ← readText cs
      let (value, rest) ← item (← readColon rest)
      .ok ((key, value) :: entries, rest)) := by
  intro entries cs entries' rest h
  obtain ⟨⟨key, rest₁⟩, hkey, h⟩ := bind_eq_ok.mp h
  obtain ⟨rest₂, hcolon, h⟩ := bind_eq_ok.mp h
  obtain ⟨⟨value, rest₃⟩, hvalue, h⟩ := bind_eq_ok.mp h
  cases h
  have hkey := readText_length hkey
  have hcolon := readColon_length hcolon
  have hle := hitem _ _ _ hvalue
  rw [Value.entriesExtent]
  omega

/-- A value takes at least as many characters as its extent says. -/
theorem readValue_extent (limit : Nat) : ReadsExtent Value.extent (readValue limit) := by
  induction limit with
  | zero =>
    intro cs value rest h
    obtain ⟨inside, -, h⟩ | ⟨inside, -, h⟩ | ⟨s, behind, hscalar, h⟩ := readBy_eq_ok h
    · cases h
    · cases h
    · cases h
      exact readScalar_length hscalar
  | succ limit ih =>
    intro cs value rest h
    obtain ⟨inside, hopen, h⟩ | ⟨inside, hopen, h⟩ | ⟨s, behind, hscalar, h⟩ := readBy_eq_ok h
    · obtain ⟨⟨items, behind⟩, hitems, h⟩ := bind_eq_ok.mp h
      cases h
      obtain ⟨⟨found, rest'⟩, hfound, h⟩ := bind_eq_ok.mp hitems
      cases h
      have hlt := length_lt_of_skipBlanks hopen
      have hle := readArray_consumes (consumes_items ih) _ _ _ _ hfound
      rw [Value.itemsExtent] at hle
      rw [Value.extent, Value.itemsExtent_reverse]
      omega
    · obtain ⟨⟨entries, behind⟩, hentries, h⟩ := bind_eq_ok.mp h
      cases h
      obtain ⟨⟨found, rest'⟩, hfound, h⟩ := bind_eq_ok.mp hentries
      cases h
      have hlt := length_lt_of_skipBlanks hopen
      have hle := readObject_consumes (consumes_entries ih) _ _ _ _ hfound
      rw [Value.entriesExtent] at hle
      rw [Value.extent, Value.entriesExtent_reverse]
      omega
    · cases h
      exact readScalar_length hscalar

end SearchFilter.Json
