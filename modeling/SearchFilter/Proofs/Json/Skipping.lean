import SearchFilter.Json.Reader
import SearchFilter.Proofs.Json.Reading
/-!
# Passing over spelled values

A value is passed over in every text that spells it, however deep it nests.
-/
namespace SearchFilter.Json

theorem skipScalar_of_start {c : Char} (h : (c = '-' || Text.isDigit c) = true) (cs : List Char) :
    skipScalar (c :: cs) = Prod.snd <$> readNumeral false (c :: cs) := by
  rw [skipScalar, if_pos h]
  · cases readNumeral false (c :: cs) <;> rfl
  all_goals
    intro hc
    rw [hc] at h
    exact absurd h (by decide)

theorem skipScalar_write {s : Scalar} (h : s.IsExact) {rest : List Char} (hend : EndsNumber rest) :
    skipScalar (s.write rest) = .ok rest := by
  match s, h with
  | .null, _ | .boolean true, _ | .boolean false, _ => rfl
  | .text value, _ => exact skipChars_foldr_writeChar value.toList rest
  | .number (.integer value), _ =>
    obtain ⟨numeral, hnumeral⟩ := exists_readNumeral_signedDecimal false value hend
    obtain ⟨c, cs, heq, hc⟩ := signedDecimal_eq_cons value
    rw [heq, List.cons_append] at hnumeral
    rw [Scalar.write, Number.write, heq, List.cons_append, skipScalar_of_start (by simpa using hc),
      hnumeral]
    rfl

def Value.SkippedBy (fuel : Nat) (value : Value) : Prop :=
  ∀ cs rest, value.Spells cs rest → EndsNumber rest → skipLevels fuel cs = .ok rest

theorem Value.SkippedBy.readsItem {fuel : Nat} {item : Value} (h : item.SkippedBy fuel) :
    ReadsItem (fun (_ : Unit) cs => do .ok ((), ← skipLevels fuel cs)) (fun _ _ => .ok ())
      item := by
  intro _ cs rest hspells hend
  simp only [h cs rest hspells hend]
  rfl

theorem Value.SkippedBy.readsMember {fuel : Nat} {entry : String × Value}
    (h : entry.2.SkippedBy fuel) :
    ReadsMember
      (fun (_ : Unit) cs => do .ok ((), ← skipLevels fuel (← readColon (← skipChars cs))))
      (fun _ _ => .ok ()) entry := by
  intro _ behind before rest hcolon hspells hend
  simp only [skipChars_foldr_writeChar, bind, Except.bind, readColon, hcolon,
    h before rest hspells hend]
  rfl

theorem foldlM_unit {α : Type} (as : List α) :
    as.foldlM (fun (_ : Unit) (_ : α) => .ok ()) () = (.ok () : Except Fault Unit) := by
  induction as with
  | nil => rfl
  | cons a as ih =>
    rw [List.foldlM_cons]
    exact ih

theorem skippedBy {value : Value} (hvalue : value.IsExact) {fuel : Nat}
    (hfuel : value.nesting < fuel) : value.SkippedBy fuel := by
  induction value generalizing fuel with
  | scalar s =>
    intro cs rest h hend
    obtain ⟨hs⟩ := hvalue
    obtain ⟨c, text, heq, -, harray, hobject, -⟩ := s.write_eq_cons hs rest
    have hskip := skipScalar_write hs hend
    cases fuel with
    | zero => exact absurd hfuel (Nat.not_lt_zero _)
    | succ fuel =>
      rw [Value.Spells, heq] at h
      rw [heq] at hskip
      rw [skipLevels, h]
      split
      · next hcons => exact absurd (List.cons.inj hcons).1 harray
      · next hcons => exact absurd (List.cons.inj hcons).1 hobject
      · exact hskip
  | array items ih =>
    intro cs rest h hend
    obtain - | ⟨hitems⟩ := hvalue
    obtain ⟨inside, hopen⟩ := h.opens_array
    cases fuel with
    | zero => exact absurd hfuel (Nat.not_lt_zero _)
    | succ fuel =>
      have hskipped : ∀ item ∈ items, item.SkippedBy fuel := by
        intro item hmem
        have hless := Value.itemsNesting_le.mp le_rfl item hmem
        exact ih item hmem (hitems item hmem) (hless.trans_lt (Nat.succ_lt_succ_iff.mp hfuel))
      have hloop := readArray_of_spells false (fun _ _ => .ok ()) hitems
        (fun item hmem => (hskipped item hmem).readsItem) () h hopen
      rw [foldlM_unit] at hloop
      simp only [skipLevels, hopen, withoutLocation_eq_ok.mp hloop]
      rfl
  | object entries ih =>
    intro cs rest h hend
    obtain - | - | ⟨hentries⟩ := hvalue
    obtain ⟨inside, hopen⟩ := h.opens_object
    cases fuel with
    | zero => exact absurd hfuel (Nat.not_lt_zero _)
    | succ fuel =>
      have hskipped : ∀ entry ∈ entries, entry.2.SkippedBy fuel := by
        intro entry hmem
        have hless := Value.entriesNesting_le.mp le_rfl entry hmem
        exact ih entry hmem (hentries entry hmem) (hless.trans_lt (Nat.succ_lt_succ_iff.mp hfuel))
      have hloop := readObject_of_spells false (fun _ _ => .ok ()) hentries
        (fun entry hmem => (hskipped entry hmem).readsMember) () h hopen
      rw [foldlM_unit] at hloop
      simp only [skipLevels, hopen, withoutLocation_eq_ok.mp hloop]
      rfl

/-- A text has more characters than any value that it spells has levels. -/
theorem skipValue_of_spells {value : Value} (hvalue : value.IsExact) {cs rest : List Char}
    (h : value.Spells cs rest) (hend : EndsNumber rest) : skipValue cs = .ok rest := by
  have hlength := h.nesting_lt hvalue
  exact skippedBy hvalue (Nat.lt_of_le_of_lt (Nat.le_add_right _ _) hlength) cs rest h hend

end SearchFilter.Json
