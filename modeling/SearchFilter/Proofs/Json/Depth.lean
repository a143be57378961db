import SearchFilter.Json.Reader
import SearchFilter.Proofs.Json.Nesting
import SearchFilter.Proofs.Json.Reading
/-!
# How deep a text goes that has been read

Whatever spelling a text uses, it nests exactly as deep as the value that is read from it, and what
is collected from the items or members of a text nests no deeper than the reader allows.
-/
namespace SearchFilter.Json

variable {α σ : Type}

def Flat (cs rest : List Char) : Prop :=
  ∀ level, deepest .outside level cs = deepest .outside level rest

theorem Flat.trans {cs rest behind : List Char} (h : Flat cs rest) (h' : Flat rest behind) :
    Flat cs behind :=
  fun level => (h level).trans (h' level)

theorem flat_append {word : List Char} (h : ∀ c ∈ word, IsLevel c) (rest : List Char) :
    Flat (word ++ rest) rest :=
  fun level => deepest_append h level rest

theorem flat_cons {c : Char} (h : IsLevel c) (cs : List Char) : Flat (c :: cs) cs :=
  fun level => deepest_level h level cs

theorem flat_skipBlanks (cs : List Char) : Flat cs (skipBlanks cs) :=
  fun level => (deepest_skipBlanks level cs).symm

/-- Only characters that leave the level alone lie between the beginnings of the two texts. -/
def Passes (cs rest : List Char) : Prop :=
  ∃ word : List Char, (∀ c ∈ word, IsLevel c) ∧ cs = word ++ rest

namespace Passes

variable {cs rest behind : List Char}

theorem refl (cs : List Char) : Passes cs cs :=
  ⟨[], List.forall_mem_nil _, rfl⟩

theorem cons {c : Char} (hc : IsLevel c) (h : Passes cs rest) : Passes (c :: cs) rest := by
  obtain ⟨word, hword, rfl⟩ := h
  exact ⟨c :: word, List.forall_mem_cons.mpr ⟨hc, hword⟩, rfl⟩

theorem trans (h : Passes cs rest) (h' : Passes rest behind) : Passes cs behind := by
  obtain ⟨word, hword, rfl⟩ := h
  obtain ⟨word', hword', rfl⟩ := h'
  refine ⟨word ++ word', ?_, (List.append_assoc word word' behind).symm⟩
  intro c hc
  exact (List.mem_append.mp hc).elim (hword c) (hword' c)

theorem flat (h : Passes cs rest) : Flat cs rest := by
  obtain ⟨word, hword, rfl⟩ := h
  exact flat_append hword rest

theorem length_le (h : Passes cs rest) : rest.length ≤ cs.length := by
  obtain ⟨word, -, rfl⟩ := h
  rw [List.length_append]
  exact Nat.le_add_left _ _

end Passes

theorem readWord_passes {word cs rest : List Char} (hword : ∀ c ∈ word, IsLevel c)
    (h : readWord word cs = .ok rest) : Passes cs rest := by
  induction word generalizing cs with
  | nil =>
    cases h
    exact .refl _
  | cons w word ih =>
    rw [List.forall_mem_cons] at hword
    cases cs with
    | nil => cases h
    | cons c cs =>
      rw [readWord] at h
      split at h
      · next hc => exact .cons (hc ▸ hword.1) (ih hword.2 h)
      · cases h

theorem readDigits_passes {strict : Bool} {cs digits rest : List Char}
    (h : readDigits strict cs = .ok (digits, rest)) : Passes cs rest := by
  have hspan : spanDigits cs = (digits, rest) := by
    rw [readDigits] at h
    split at h
    · cases h
    · exact Except.ok.inj h
  obtain ⟨rfl, rfl⟩ := Prod.mk.inj hspan
  exact ⟨cs.takeWhile Text.isDigit, fun c hc => isLevel_of_isDigit (List.mem_takeWhile_imp hc),
    List.takeWhile_append_dropWhile.symm⟩

theorem readWhole_passes {strict : Bool} {cs digits rest : List Char}
    (h : readWhole strict cs = .ok (digits, rest)) : Passes cs rest := by
  obtain ⟨⟨found, behind⟩, hdigits, h⟩ := bind_eq_ok.mp h
  have hrest : behind = rest := by
    simp only at h
    split at h
    · cases h
    · exact (Prod.mk.inj (Except.ok.inj h)).2
  rw [← hrest]
  exact readDigits_passes hdigits

theorem readFraction_passes {strict : Bool} {cs digits rest : List Char}
    (h : readFraction strict cs = .ok (digits, rest)) : Passes cs rest := by
  unfold readFraction at h
  split at h
  · exact .cons (by simp [IsLevel]) (readDigits_passes h)
  · cases h
    exact .refl _

theorem readSign_passes (cs : List Char) : Passes cs (readSign cs).2 := by
  unfold readSign
  split
  · exact .cons (by simp [IsLevel]) (.refl _)
  · exact .cons (by simp [IsLevel]) (.refl _)
  · exact .refl _

theorem readExponent_passes {strict : Bool} {cs rest : List Char} {exponent : Option Int}
    (h : readExponent strict cs = .ok (exponent, rest)) : Passes cs rest := by
  unfold readExponent at h
  split at h
  · next c behind =>
    split at h
    · next hc =>
      obtain ⟨⟨digits, rest'⟩, hdigits, h⟩ := bind_eq_ok.mp h
      obtain rfl : rest' = rest := (Prod.mk.inj (Except.ok.inj h)).2
      have hletter : IsLevel c := by rcases hc with rfl | rfl <;> simp [IsLevel]
      exact .cons hletter ((readSign_passes behind).trans (readDigits_passes hdigits))
    · cases h
      exact .refl _
  · cases h
    exact .refl _

theorem readUnsigned_passes {strict negative : Bool} {cs rest : List Char} {numeral : Numeral}
    (h : readUnsigned strict negative cs = .ok (numeral, rest)) : Passes cs rest := by
  obtain ⟨⟨whole, rest₁⟩, hwhole, h⟩ := bind_eq_ok.mp h
  obtain ⟨⟨fraction, rest₂⟩, hfraction, h⟩ := bind_eq_ok.mp h
  obtain ⟨⟨exponent, rest₃⟩, hexponent, h⟩ := bind_eq_ok.mp h
  obtain rfl : rest₃ = rest := (Prod.mk.inj (Except.ok.inj h)).2
  exact (readWhole_passes hwhole).trans ((readFraction_passes hfraction).trans
    (readExponent_passes hexponent))

theorem readNumber_passes {cs rest : List Char} {number : Number}
    (h : readNumber cs = .ok (number, rest)) : Passes cs rest := by
  obtain ⟨⟨numeral, behind⟩, hnumeral, h⟩ := bind_eq_ok.mp h
  have hrest : behind = rest := by
    simp only at h
    split at h
    · exact (Prod.mk.inj (Except.ok.inj h)).2
    · cases h
  rw [hrest] at hnumeral
  unfold readNumeral at hnumeral
  split at hnumeral
  · exact .cons (by simp [IsLevel]) (readUnsigned_passes hnumeral)
  · exact readUnsigned_passes hnumeral

theorem deepest_quoted {c : Char} (hquote : c ≠ '"') (hbackslash : c ≠ '\\') (level : Nat)
    (cs : List Char) : deepest .quoted level (c :: cs) = deepest .quoted level cs := by
  rw [deepest, if_neg hquote, if_neg hbackslash]

theorem ne_of_hexValue? {c : Char} {n : Nat} (h : Text.hexValue? c = some n) :
    c ≠ '"' ∧ c ≠ '\\' := by
  have hquote : Text.hexValue? '"' = none := by decide
  have hbackslash : Text.hexValue? '\\' = none := by decide
  constructor
  · rintro rfl
    simp [hquote] at h
  · rintro rfl
    simp [hbackslash] at h

theorem deepest_codeUnit {a b c d : Char} {unit : Nat} (h : codeUnit? a b c d = some unit)
    (level : Nat) (cs : List Char) :
    deepest .quoted level ('\\' :: 'u' :: a :: b :: c :: d :: cs) = deepest .quoted level cs := by
  simp only [codeUnit?, Option.bind_eq_bind, Option.bind_eq_some_iff] at h
  obtain ⟨na, ha, nb, hb, nc, hc, nd, hd, -⟩ := h
  obtain ⟨haq, hab⟩ := ne_of_hexValue? ha
  obtain ⟨hbq, hbb⟩ := ne_of_hexValue? hb
  obtain ⟨hcq, hcb⟩ := ne_of_hexValue? hc
  obtain ⟨hdq, hdb⟩ := ne_of_hexValue? hd
  have hescape : deepest .quoted level ('\\' :: 'u' :: a :: b :: c :: d :: cs) =
      deepest .quoted level (a :: b :: c :: d :: cs) := rfl
  rw [hescape, deepest_quoted haq hab, deepest_quoted hbq hbb, deepest_quoted hcq hcb,
    deepest_quoted hdq hdb]

theorem readChars_deepest {cs text rest : List Char} (h : readChars cs = .ok (text, rest))
    (level : Nat) : deepest .quoted level cs = deepest .outside level rest := by
  fun_induction readChars cs generalizing text with
  | case2 =>
    cases h
    rfl
  | case6 a b c d unit hunit hlow hhigh e f g h' behind low hlower hislow ih =>
    obtain ⟨text', -, hread⟩ := prepend_eq_ok h
    rw [deepest_codeUnit hunit, deepest_codeUnit hlower, ih hread]
  | case13 a b c d behind unit hunit hlow hhigh ih =>
    obtain ⟨text', -, hread⟩ := prepend_eq_ok h
    rw [deepest_codeUnit hunit, ih hread]
  | case16 letter behind hunit hletter c hescaped ih =>
    obtain ⟨text', -, hread⟩ := prepend_eq_ok h
    exact ih hread
  | case19 c behind hquote hunit hshort hcut hescape hc ih =>
    obtain ⟨text', -, hread⟩ := prepend_eq_ok h
    have hbackslash : c ≠ '\\' := by
      intro hb
      cases behind with
      | nil => exact hcut hb rfl
      | cons letter behind => exact hescape letter behind hb rfl
    rw [deepest_quoted hquote hbackslash, ih hread]
  | _ => cases h

theorem readText_deepest {cs rest : List Char} {text : String}
    (h : readText cs = .ok (text, rest)) (level : Nat) :
    deepest .quoted level cs = deepest .outside level rest := by
  obtain ⟨⟨chars, behind⟩, hchars, h⟩ := bind_eq_ok.mp h
  obtain rfl : behind = rest := (Prod.mk.inj (Except.ok.inj h)).2
  exact readChars_deepest hchars level

theorem readWord_bind_passes {s value : Scalar} (c : Char) {word cs rest : List Char}
    (hword : ∀ d ∈ c :: word, IsLevel d)
    (h : (do .ok (s, ← readWord word cs) : Except TextFault (Scalar × List Char)) =
      .ok (value, rest)) :
    value = s ∧ Passes (c :: cs) rest := by
  obtain ⟨behind, hread, h⟩ := bind_eq_ok.mp h
  cases h
  rw [List.forall_mem_cons] at hword
  exact ⟨rfl, .cons hword.1 (readWord_passes hword.2 hread)⟩

theorem readScalar_eq_ok {cs rest : List Char} {s : Scalar} (h : readScalar cs = .ok (s, rest)) :
    (∃ behind text, cs = '"' :: behind ∧ readText behind = .ok (text, rest) ∧ s = .text text) ∨
      Passes cs rest ∧ ∀ text, s ≠ .text text := by
  unfold readScalar at h
  split at h
  · cases h
  · obtain ⟨rfl, hpasses⟩ := readWord_bind_passes 'n' (by simp [IsLevel]) h
    exact .inr ⟨hpasses, by simp⟩
  · obtain ⟨rfl, hpasses⟩ := readWord_bind_passes 't' (by simp [IsLevel]) h
    exact .inr ⟨hpasses, by simp⟩
  · obtain ⟨rfl, hpasses⟩ := readWord_bind_passes 'f' (by simp [IsLevel]) h
    exact .inr ⟨hpasses, by simp⟩
  · obtain ⟨⟨text, behind⟩, htext, h⟩ := bind_eq_ok.mp h
    cases h
    exact .inl ⟨_, text, rfl, htext, rfl⟩
  · split at h
    · obtain ⟨⟨number, behind⟩, hnumber, h⟩ := bind_eq_ok.mp h
      cases h
      exact .inr ⟨readNumber_passes hnumber, by simp⟩
    · cases h

theorem readScalar_flat {cs rest : List Char} {s : Scalar} (h : readScalar cs = .ok (s, rest)) :
    Flat cs rest := by
  obtain ⟨behind, text, rfl, htext, -⟩ | ⟨hpasses, -⟩ := readScalar_eq_ok h
  · exact fun level => readText_deepest htext level
  · exact hpasses.flat

theorem flat_of_readScalar {cs rest : List Char} {s : Scalar}
    (h : readScalar (skipBlanks cs) = .ok (s, rest)) : Flat cs rest :=
  (flat_skipBlanks cs).trans (readScalar_flat h)

theorem readColon_flat {cs rest : List Char} (h : readColon cs = .ok rest) : Flat cs rest := by
  unfold readColon at h
  split at h
  · next behind hcolon =>
    cases h
    have hflat := flat_skipBlanks cs
    rw [hcolon] at hflat
    exact hflat.trans (flat_cons (by simp [IsLevel]) _)
  · cases h
  · cases h

/-- What a reader adds to the state counts as deep as the text goes that it has read, at most as
deep as the limit. The text starts at the given place. -/
def Tracks (depth : σ → Nat) (limit : Nat) (place : Place)
    (read : σ → List Char → Except TextFault (σ × List Char)) : Prop :=
  ∀ state cs state' rest, read state cs = .ok (state', rest) →
    ∃ n ≤ limit, depth state' = max (depth state) n ∧
      ∀ level, deepest place level cs = max (level + n) (deepest .outside level rest)

/-- What a loop adds to the state counts as deep as the text goes inside the brackets. -/
def TracksInside (depth : σ → Nat) (limit : Nat) (place : Place)
    (read : σ → List Char → Except TextFault (σ × List Char)) : Prop :=
  ∀ state cs state' rest, read state cs = .ok (state', rest) →
    ∃ n ≤ limit, depth state' = max (depth state) n ∧
      ∀ level, deepest place (level + 1) cs = max (level + 1 + n) (deepest .outside level rest)

variable {depth : σ → Nat} {limit : Nat} {strict : Bool}

/-- What a loop has collected from nothing counts as deep as the text goes inside the brackets. -/
theorem TracksInside.deepest {read : σ → List Char → Except TextFault (σ × List Char)}
    (hread : TracksInside depth limit .outside read) {state state' : σ} (hempty : depth state = 0)
    {cs rest : List Char} (h : read state cs = .ok (state', rest)) :
    depth state' ≤ limit ∧ ∀ level, deepest .outside (level + 1) cs =
      max (level + 1 + depth state') (deepest .outside level rest) := by
  obtain ⟨n, hn, hdepth, hdeepest⟩ := hread _ _ _ _ h
  rw [hempty, Nat.zero_max] at hdepth
  rw [hdepth]
  exact ⟨hn, hdeepest⟩

theorem deepest_close {c : Char} (hc : c = ']' ∨ c = '}') {cs rest : List Char}
    (h : skipBlanks cs = c :: rest) (level : Nat) :
    deepest .outside (level + 1) cs = max (level + 1) (deepest .outside level rest) := by
  rw [← deepest_skipBlanks, h]
  rcases hc with rfl | rfl <;> rfl

theorem deepest_comma {cs rest : List Char} (h : skipBlanks cs = ',' :: rest) (level : Nat) :
    deepest .outside level cs = deepest .outside level (skipBlanks rest) := by
  rw [← deepest_skipBlanks, h, deepest_level (by simp [IsLevel]), deepest_skipBlanks]

section Items

variable {item : σ → List Char → Except TextFault (σ × List Char)}

theorem readItems_tracks (hitem : Tracks depth limit .outside item) (fuel : Nat) :
    TracksInside depth limit .outside (readItems strict item fuel) := by
  induction fuel with
  | zero =>
    intro state cs state' rest h
    cases h
  | succ fuel ih =>
    intro state cs state' rest h
    obtain ⟨⟨state₁, rest₁⟩, hfirst, h⟩ := bind_eq_ok.mp h
    obtain ⟨n, hn, hdepth, hdeepest⟩ := hitem _ _ _ _ hfirst
    simp only at h
    split at h
    · next behind hclose =>
      cases h
      refine ⟨n, hn, hdepth, fun level => ?_⟩
      rw [hdeepest, deepest_close (.inl rfl) hclose]
      omega
    · next behind hcomma =>
      have hloop : readItems strict item fuel state₁ (skipBlanks behind) = .ok (state', rest) := by
        split at h
        · cases h
        · exact h
      -- the comma is at the level of the items, so the deeper of both parts counts
      obtain ⟨m, hm, hdepth', hdeepest'⟩ := ih _ _ _ _ hloop
      refine ⟨max n m, Nat.max_le.mpr ⟨hn, hm⟩, ?_, fun level => ?_⟩
      · rw [hdepth', hdepth, Nat.max_assoc]
      · rw [hdeepest, deepest_comma hcomma, hdeepest']
        omega
    · cases h
    · cases h

theorem readArray_tracks (hitem : Tracks depth limit .outside item) :
    TracksInside depth limit .outside (readArray strict item) := by
  intro state cs state' rest h
  unfold readArray at h
  split at h
  · next behind hclose =>
    cases h
    refine ⟨0, Nat.zero_le limit, (Nat.max_eq_left (Nat.zero_le _)).symm, fun level => ?_⟩
    rw [deepest_close (.inl rfl) hclose, Nat.add_zero]
  · cases h
  · obtain ⟨n, hn, hdepth, hdeepest⟩ := readItems_tracks hitem _ _ _ _ _ h
    refine ⟨n, hn, hdepth, fun level => ?_⟩
    rw [← deepest_skipBlanks, hdeepest]

end Items

section Members

variable {member : σ → List Char → Except TextFault (σ × List Char)}

theorem readMembers_tracks (hmember : Tracks depth limit .quoted member) (fuel : Nat) :
    TracksInside depth limit .quoted (readMembers strict member fuel) := by
  induction fuel with
  | zero =>
    intro state cs state' rest h
    cases h
  | succ fuel ih =>
    intro state cs state' rest h
    obtain ⟨⟨state₁, rest₁⟩, hfirst, h⟩ := bind_eq_ok.mp h
    obtain ⟨n, hn, hdepth, hdeepest⟩ := hmember _ _ _ _ hfirst
    simp only at h
    split at h
    · next behind hclose =>
      cases h
      refine ⟨n, hn, hdepth, fun level => ?_⟩
      rw [hdeepest, deepest_close (.inr rfl) hclose]
      omega
    · next behind hcomma =>
      split at h
      · next key hquote _ =>
        obtain ⟨m, hm, hdepth', hdeepest'⟩ := ih _ _ _ _ h
        refine ⟨max n m, Nat.max_le.mpr ⟨hn, hm⟩, ?_, fun level => ?_⟩
        · rw [hdepth', hdepth, Nat.max_assoc]
        · have hkey : deepest .outside (level + 1) ('"' :: key) =
              deepest .quoted (level + 1) key := rfl
          rw [hdeepest, deepest_comma hcomma, hquote, hkey, hdeepest']
          omega
      all_goals cases h
    · cases h
    · cases h

theorem readObject_tracks (hmember : Tracks depth limit .quoted member) :
    TracksInside depth limit .outside (readObject strict member) := by
  intro state cs state' rest h
  unfold readObject at h
  split at h
  · next behind hclose =>
    cases h
    refine ⟨0, Nat.zero_le limit, (Nat.max_eq_left (Nat.zero_le _)).symm, fun level => ?_⟩
    rw [deepest_close (.inr rfl) hclose, Nat.add_zero]
  · next key hquote =>
    obtain ⟨n, hn, hdepth, hdeepest⟩ := readMembers_tracks hmember _ _ _ _ _ h
    refine ⟨n, hn, hdepth, fun level => ?_⟩
    have hkey : deepest .outside (level + 1) ('"' :: key) = deepest .quoted (level + 1) key := rfl
    rw [← deepest_skipBlanks, hquote, hkey, hdeepest]
  · cases h
  · cases h

end Members

/-- What is read by `read` goes as deep as `depth` says, and at most as deep as the limit. -/
def ReadsDepth (depth : α → Nat) (limit : Nat)
    (read : List Char → Except TextFault (α × List Char)) : Prop :=
  ∀ cs a rest, read cs = .ok (a, rest) → depth a ≤ limit ∧
    ∀ level, deepest .outside level cs = max (level + depth a) (deepest .outside level rest)

theorem readBy_eq_ok {array object : List Char → Except TextFault (α × List Char)}
    {scalar : Scalar → List Char → Except TextFault (α × List Char)} {cs : List Char}
    {result : α × List Char} (h : readBy array object scalar cs = .ok result) :
    (∃ inside, skipBlanks cs = '[' :: inside ∧ array inside = .ok result) ∨
    (∃ inside, skipBlanks cs = '{' :: inside ∧ object inside = .ok result) ∨
      ∃ s rest, readScalar (skipBlanks cs) = .ok (s, rest) ∧ scalar s rest = .ok result := by
  unfold readBy at h
  split at h
  · next inside hopen => exact .inl ⟨inside, hopen, h⟩
  · next inside hopen => exact .inr (.inl ⟨inside, hopen, h⟩)
  · obtain ⟨⟨s, rest⟩, hscalar, h⟩ := bind_eq_ok.mp h
    exact .inr (.inr ⟨s, rest, hscalar, h⟩)

theorem deepest_open {c : Char} (hc : c = '[' ∨ c = '{') {cs inside : List Char}
    (h : skipBlanks cs = c :: inside) (level : Nat) :
    deepest .outside level cs = deepest .outside (level + 1) inside := by
  rw [← deepest_skipBlanks, h]
  rcases hc with rfl | rfl <;> rfl

theorem Flat.deepest_eq_max {cs rest : List Char} (h : Flat cs rest) (level : Nat) :
    deepest .outside level cs = max (level + 0) (deepest .outside level rest) := by
  rw [h level, Nat.add_zero, Nat.max_eq_right (le_deepest .outside level rest)]

theorem Value.itemsNesting_reverse (items : List Value) :
    itemsNesting items.reverse = itemsNesting items :=
  eq_of_forall_ge_iff fun n => by simp only [itemsNesting_le, List.mem_reverse]

theorem Value.entriesNesting_reverse (entries : List (String × Value)) :
    entriesNesting entries.reverse = entriesNesting entries :=
  eq_of_forall_ge_iff fun n => by simp only [entriesNesting_le, List.mem_reverse]

theorem tracks_items {item : List Char → Except TextFault (Value × List Char)}
    (hitem : ReadsDepth Value.nesting limit item) :
    Tracks Value.itemsNesting limit .outside (fun items cs => do
      let (value, rest) ← item cs
      .ok (value :: items, rest)) := by
  intro items cs items' rest h
  obtain ⟨⟨value, behind⟩, hvalue, h⟩ := bind_eq_ok.mp h
  obtain ⟨rfl, rfl⟩ := Prod.mk.inj (Except.ok.inj h)
  obtain ⟨hle, hdeepest⟩ := hitem _ _ _ hvalue
  exact ⟨value.nesting, hle, Nat.max_comm _ _, hdeepest⟩

theorem tracks_entries {item : List Char → Except TextFault (Value × List Char)}
    (hitem : ReadsDepth Value.nesting limit item) :
    Tracks Value.entriesNesting limit .quoted (fun entries cs => do
      let (key, rest) ← readText cs
      let (value, rest) ← item (← readColon rest)
      .ok ((key, value) :: entries, rest)) := by
  intro entries cs entries' rest h
  obtain ⟨⟨key, rest₁⟩, hkey, h⟩ := bind_eq_ok.mp h
  obtain ⟨rest₂, hcolon, h⟩ := bind_eq_ok.mp h
  obtain ⟨⟨value, rest₃⟩, hvalue, h⟩ := bind_eq_ok.mp h
  obtain ⟨rfl, rfl⟩ := Prod.mk.inj (Except.ok.inj h)
  obtain ⟨hle, hdeepest⟩ := hitem _ _ _ hvalue
  refine ⟨value.nesting, hle, Nat.max_comm _ _, fun level => ?_⟩
  rw [readText_deepest hkey, readColon_flat hcolon, hdeepest]

theorem readItemList_deepest {item : List Char → Except TextFault (Value × List Char)}
    (hitem : ReadsDepth Value.nesting limit item) {cs rest : List Char} {items : List Value}
    (h : readItemList item cs = .ok (items, rest)) :
    Value.itemsNesting items ≤ limit ∧ ∀ level, deepest .outside (level + 1) cs =
      max (level + 1 + Value.itemsNesting items) (deepest .outside level rest) := by
  obtain ⟨⟨found, behind⟩, hfound, h⟩ := bind_eq_ok.mp h
  obtain ⟨rfl, rfl⟩ := Prod.mk.inj (Except.ok.inj h)
  rw [Value.itemsNesting_reverse]
  exact (readArray_tracks (tracks_items hitem)).deepest rfl hfound

theorem readEntryList_deepest {item : List Char → Except TextFault (Value × List Char)}
    (hitem : ReadsDepth Value.nesting limit item) {cs rest : List Char}
    {entries : List (String × Value)} (h : readEntryList item cs = .ok (entries, rest)) :
    Value.entriesNesting entries ≤ limit ∧ ∀ level, deepest .outside (level + 1) cs =
      max (level + 1 + Value.entriesNesting entries) (deepest .outside level rest) := by
  obtain ⟨⟨found, behind⟩, hfound, h⟩ := bind_eq_ok.mp h
  obtain ⟨rfl, rfl⟩ := Prod.mk.inj (Except.ok.inj h)
  rw [Value.entriesNesting_reverse]
  exact (readObject_tracks (tracks_entries hitem)).deepest rfl hfound

/-- A text goes as deep as the value read from it, and that is no deeper than the limit. -/
theorem readValue_depth (limit : Nat) : ReadsDepth Value.nesting limit (readValue limit) := by
  induction limit with
  | zero =>
    intro cs value rest h
    obtain ⟨inside, -, h⟩ | ⟨inside, -, h⟩ | ⟨s, behind, hscalar, h⟩ := readBy_eq_ok h
    · cases h
    · cases h
    · cases h
      exact ⟨le_rfl, (flat_of_readScalar hscalar).deepest_eq_max⟩
  | succ limit ih =>
    intro cs value rest h
    obtain ⟨inside, hopen, h⟩ | ⟨inside, hopen, h⟩ | ⟨s, behind, hscalar, h⟩ := readBy_eq_ok h
    · obtain ⟨⟨items, behind⟩, hitems, h⟩ := bind_eq_ok.mp h
      cases h
      obtain ⟨hle, hdeepest⟩ := readItemList_deepest ih hitems
      refine ⟨Nat.succ_le_succ hle, fun level => ?_⟩
      rw [deepest_open (.inl rfl) hopen, hdeepest, Value.nesting]
      omega
    · obtain ⟨⟨entries, behind⟩, hentries, h⟩ := bind_eq_ok.mp h
      cases h
      obtain ⟨hle, hdeepest⟩ := readEntryList_deepest ih hentries
      refine ⟨Nat.succ_le_succ hle, fun level => ?_⟩
      rw [deepest_open (.inr rfl) hopen, hdeepest, Value.nesting]
      omega
    · cases h
      exact ⟨Nat.zero_le _, (flat_of_readScalar hscalar).deepest_eq_max⟩

end SearchFilter.Json
