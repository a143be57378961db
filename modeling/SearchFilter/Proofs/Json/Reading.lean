import SearchFilter.Json.Reader
import SearchFilter.Proofs.Json.Spelling
/-!
# Reading spelled values

The loops over items and members are folds of what the reader of one of them adds to the state, in
every text that spells the items or members. By this every value is read from the texts that spell
it, up to the nesting that the reader allows.
-/
namespace SearchFilter.Json

variable {α σ : Type}

def ReadsItem (item : σ → List Char → Except TextFault (σ × List Char))
    (add : σ → Value → Except Fault σ) (value : Value) : Prop :=
  ∀ state cs rest, value.Spells cs rest → EndsNumber rest →
    withoutLocation (item state cs) = (·, rest) <$> add state value

/-- The reader of a member, from behind the opening quote of its key, adds it to the state. -/
def ReadsMember (member : σ → List Char → Except TextFault (σ × List Char))
    (add : σ → String × Value → Except Fault σ) (entry : String × Value) : Prop :=
  ∀ state behind before rest, skipBlanks behind = ':' :: before → entry.2.Spells before rest →
    EndsNumber rest →
    withoutLocation (member state (entry.1.toList.foldr writeChar ('"' :: behind))) =
      (·, rest) <$> add state entry

section Items

variable (strict : Bool) {item : σ → List Char → Except TextFault (σ × List Char)}
  (add : σ → Value → Except Fault σ)

theorem readItems_of_spells {fuel : Nat} {value : Value} {values : List Value}
    (hexact : ∀ v ∈ value :: values, v.IsExact)
    (hreads : ∀ v ∈ value :: values, ReadsItem item add v) {state : σ} {cs next rest : List Char}
    (hvalue : value.Spells cs next) (hvalues : Value.SpellsItems values next rest)
    (hfuel : cs.length ≤ fuel) :
    withoutLocation (readItems strict item fuel state cs) =
      (·, rest) <$> (value :: values).foldlM add state := by
  have hlt := hvalue.length_lt (hexact value List.mem_cons_self)
  -- every item and every comma takes a character, so the fuel lasts as long as the text
  induction fuel generalizing value values state cs next with
  | zero => omega
  | succ fuel ih =>
    have hread := hreads value List.mem_cons_self state cs next hvalue hvalues.endsNumber
    rw [readItems, withoutLocation_bind, hread, List.foldlM_cons]
    cases add state value with
    | error fault => rfl
    | ok state' =>
      cases values with
      | nil =>
        rw [Value.SpellsItems] at hvalues
        simp only [bind, Except.bind, Functor.map, Except.map, hvalues]
        rfl
      | cons value' values =>
        obtain ⟨inside, next', hcomma, hvalue', hvalues'⟩ := hvalues
        have htail (v) (hmem : v ∈ value' :: values) := List.mem_cons_of_mem value hmem
        have hexact' := hexact value' (htail value' List.mem_cons_self)
        have hinside := length_lt_of_skipBlanks hcomma
        have hshort := length_skipBlanks_le inside
        have hloop : withoutLocation (readItems strict item fuel state' (skipBlanks inside)) =
            (·, rest) <$> (value' :: values).foldlM add state' :=
          ih (fun v hmem => hexact v (htail v hmem)) (fun v hmem => hreads v (htail v hmem))
            hvalue'.skipBlanks hvalues' (by omega) (hvalue'.skipBlanks.length_lt hexact')
        simp only [bind, Except.bind, Functor.map, Except.map, hcomma] at hloop ⊢
        -- a strict loop looks for a bracket behind the comma, and finds the next item
        split
        · next hclose => exact absurd hclose (hvalue'.head_ne hexact')
        · exact hloop

theorem readArray_of_spells {values : List Value} (hexact : ∀ v ∈ values, v.IsExact)
    (hreads : ∀ v ∈ values, ReadsItem item add v) (state : σ) {cs inside rest : List Char}
    (h : (Value.array values).Spells cs rest) (hopen : skipBlanks cs = '[' :: inside) :
    withoutLocation (readArray strict item state inside) =
      (·, rest) <$> values.foldlM add state := by
  cases values with
  | nil =>
    obtain ⟨inside', hopen', hclose⟩ := h
    obtain rfl : inside' = inside := (List.cons.inj (hopen'.symm.trans hopen)).2
    rw [readArray, hclose]
    rfl
  | cons value values =>
    obtain ⟨inside', next, hopen', hvalue, hvalues⟩ := h
    obtain rfl : inside' = inside := (List.cons.inj (hopen'.symm.trans hopen)).2
    have hexact' := hexact value List.mem_cons_self
    rw [readArray]
    split
    · next hclose => exact absurd hclose (hvalue.head_ne hexact')
    · next hnil =>
      have hlt := hvalue.skipBlanks.length_lt hexact'
      rw [hnil, List.length_nil] at hlt
      omega
    · exact readItems_of_spells strict add hexact hreads hvalue.skipBlanks hvalues le_rfl

end Items

section Members

variable (strict : Bool) {member : σ → List Char → Except TextFault (σ × List Char)}
  (add : σ → String × Value → Except Fault σ)

theorem readMembers_of_spells {fuel : Nat} {entry : String × Value}
    {entries : List (String × Value)} (hexact : ∀ e ∈ entry :: entries, e.2.IsExact)
    (hreads : ∀ e ∈ entry :: entries, ReadsMember member add e) {state : σ}
    {behind before next rest : List Char} (hcolon : skipBlanks behind = ':' :: before)
    (hvalue : entry.2.Spells before next) (hentries : Value.SpellsEntries entries next rest)
    (hfuel : behind.length ≤ fuel) :
    withoutLocation
        (readMembers strict member fuel state (entry.1.toList.foldr writeChar ('"' :: behind))) =
      (·, rest) <$> (entry :: entries).foldlM add state := by
  have hbehind := length_lt_of_skipBlanks hcolon
  induction fuel generalizing entry entries state behind before next with
  | zero => omega
  | succ fuel ih =>
    have hread := hreads entry List.mem_cons_self state behind before next hcolon hvalue
      hentries.endsNumber
    rw [readMembers, withoutLocation_bind, hread, List.foldlM_cons]
    cases add state entry with
    | error fault => rfl
    | ok state' =>
      cases entries with
      | nil =>
        rw [Value.SpellsEntries] at hentries
        simp only [bind, Except.bind, Functor.map, Except.map, hentries]
        rfl
      | cons entry' entries =>
        obtain ⟨inside, before', next', hcomma, ⟨behind', hkey, hcolon'⟩, hvalue', hentries'⟩ :=
          hentries
        have htail (e) (hmem : e ∈ entry' :: entries) := List.mem_cons_of_mem entry hmem
        have hlt := hvalue.length_lt (hexact entry List.mem_cons_self)
        have hinside := length_lt_of_skipBlanks hcomma
        have hquoted := length_lt_of_skipBlanks hkey
        have htext := length_lt_foldr_writeChar entry'.1.toList behind'
        have hbehind' := length_lt_of_skipBlanks hcolon'
        have hloop : withoutLocation (readMembers strict member fuel state'
            (entry'.1.toList.foldr writeChar ('"' :: behind'))) =
              (·, rest) <$> (entry' :: entries).foldlM add state' :=
          ih (fun e hmem => hexact e (htail e hmem)) (fun e hmem => hreads e (htail e hmem))
            hcolon' hvalue' hentries' (by omega) hbehind'
        rw [writeText] at hkey
        simp only [bind, Except.bind, Functor.map, Except.map, hcomma, hkey] at hloop ⊢
        exact hloop

theorem readObject_of_spells {entries : List (String × Value)}
    (hexact : ∀ e ∈ entries, e.2.IsExact) (hreads : ∀ e ∈ entries, ReadsMember member add e)
    (state : σ) {cs inside rest : List Char} (h : (Value.object entries).Spells cs rest)
    (hopen : skipBlanks cs = '{' :: inside) :
    withoutLocation (readObject strict member state inside) =
      (·, rest) <$> entries.foldlM add state := by
  cases entries with
  | nil =>
    obtain ⟨inside', hopen', hclose⟩ := h
    obtain rfl : inside' = inside := (List.cons.inj (hopen'.symm.trans hopen)).2
    rw [readObject, hclose]
    rfl
  | cons entry entries =>
    obtain ⟨inside', before, next, hopen', ⟨behind, hkey, hcolon⟩, hvalue, hentries⟩ := h
    obtain rfl : inside' = inside := (List.cons.inj (hopen'.symm.trans hopen)).2
    have htext := length_lt_foldr_writeChar entry.1.toList behind
    rw [writeText] at hkey
    simp only [readObject, hkey]
    exact readMembers_of_spells strict add hexact hreads hcolon hvalue hentries (by omega)

end Members

theorem readScalar_write {s : Scalar} (h : s.IsExact) {rest : List Char} (hend : EndsNumber rest) :
    readScalar (s.write rest) = .ok (s, rest) := by
  match s, h with
  | .null, _ | .boolean true, _ | .boolean false, _ => rfl
  | .text value, _ =>
    rw [Scalar.write, writeText, readScalar, readText_foldr_writeChar]
    rfl
  | .number (.integer value), ⟨hlow, hhigh⟩ =>
    have hread := readNumber_signedDecimal hlow hhigh hend
    obtain ⟨c, cs, heq, hc⟩ := signedDecimal_eq_cons value
    have hstart : (c = '-' || Text.isDigit c) = true := by
      rcases hc with rfl | hc
      · rfl
      · rw [hc, Bool.or_true]
    rw [heq, List.cons_append] at hread
    rw [Scalar.write, Number.write, heq, List.cons_append, readScalar, if_pos hstart, hread]
    · rfl
    all_goals
      intro hc
      rw [hc] at hstart
      exact absurd hstart (by decide)

theorem readBy_array {array object : List Char → Except TextFault (α × List Char)}
    {scalar : Scalar → List Char → Except TextFault (α × List Char)} {cs inside : List Char}
    (h : skipBlanks cs = '[' :: inside) : readBy array object scalar cs = array inside := by
  simp only [readBy, h]

theorem readBy_object {array object : List Char → Except TextFault (α × List Char)}
    {scalar : Scalar → List Char → Except TextFault (α × List Char)} {cs inside : List Char}
    (h : skipBlanks cs = '{' :: inside) : readBy array object scalar cs = object inside := by
  simp only [readBy, h]

theorem readBy_of_spells_scalar {array object : List Char → Except TextFault (α × List Char)}
    {scalar : Scalar → List Char → Except TextFault (α × List Char)} {s : Scalar} (hs : s.IsExact)
    {cs rest : List Char} (h : (Value.scalar s).Spells cs rest) (hend : EndsNumber rest) :
    readBy array object scalar cs = scalar s rest := by
  obtain ⟨c, text, heq, -, harray, hobject, -⟩ := s.write_eq_cons hs rest
  have hread := readScalar_write hs hend
  rw [Value.Spells, heq] at h
  rw [heq] at hread
  rw [readBy, h]
  split
  · next hcons => exact absurd (List.cons.inj hcons).1 harray
  · next hcons => exact absurd (List.cons.inj hcons).1 hobject
  · rw [hread]
    rfl

def Value.asText (wanted : String) : Value → Except Fault String
  | .text content => .ok content
  | value => .error (.wrongType value.shape wanted)

theorem Value.asText_eq_ok {value : Value} {wanted content : String} :
    value.asText wanted = .ok content ↔ value = .text content := by
  cases value with
  | scalar s => cases s <;> simp [asText]
  | array items => simp [asText]
  | object entries => simp [asText]

theorem readTextValue_of_spells {value : Value} (hvalue : value.IsExact) (wanted : String)
    {cs rest : List Char} (h : value.Spells cs rest) (hend : EndsNumber rest) :
    withoutLocation (readTextValue wanted cs) = (·, rest) <$> value.asText wanted := by
  cases value with
  | scalar s =>
    obtain ⟨hs⟩ := hvalue
    rw [readTextValue, readBy_of_spells_scalar hs h hend]
    cases s <;> rfl
  | array items =>
    obtain ⟨inside, hopen⟩ := h.opens_array
    rw [readTextValue, readBy_array hopen]
    rfl
  | object entries =>
    obtain ⟨inside, hopen⟩ := h.opens_object
    rw [readTextValue, readBy_object hopen]
    rfl

theorem readEnd_eq_ok {rest : List Char} : readEnd rest = .ok () ↔ skipBlanks rest = [] := by
  rw [readEnd]
  cases skipBlanks rest <;> simp

theorem Value.itemsNesting_le {items : List Value} {n : Nat} :
    itemsNesting items ≤ n ↔ ∀ item ∈ items, item.nesting ≤ n := by
  induction items with
  | nil => simp [itemsNesting]
  | cons item items ih => rw [itemsNesting, Nat.max_le, ih, List.forall_mem_cons]

theorem Value.entriesNesting_le {entries : List (String × Value)} {n : Nat} :
    entriesNesting entries ≤ n ↔ ∀ entry ∈ entries, entry.2.nesting ≤ n := by
  induction entries with
  | nil => simp [entriesNesting]
  | cons entry entries ih => rw [entriesNesting, Nat.max_le, ih, List.forall_mem_cons]

def collect (p : α → Prop) [DecidablePred p] (fault : Malformed) (seen : List α) (a : α) :
    Except Fault (List α) :=
  if p a then .ok (a :: seen) else .error (.malformed fault)

theorem foldlM_collect (p : α → Prop) [DecidablePred p] (fault : Malformed) (as seen : List α) :
    as.foldlM (collect p fault) seen =
      if ∀ a ∈ as, p a then .ok (as.reverse ++ seen) else .error (.malformed fault) := by
  induction as generalizing seen with
  | nil => rfl
  | cons a as ih =>
    rw [List.foldlM_cons, collect]
    by_cases ha : p a
    · rw [if_pos ha]
      simp only [bind, Except.bind, ih, List.forall_mem_cons, ha, true_and, List.reverse_cons,
        List.append_assoc, List.cons_append, List.nil_append]
    · rw [if_neg ha, if_neg fun hall => ha (hall a List.mem_cons_self)]
      rfl

def ReadsUpTo (limit : Nat) (value : Value) : Prop :=
  ∀ cs rest, value.Spells cs rest → EndsNumber rest →
    withoutLocation (readValue limit cs) =
      if value.nesting ≤ limit then .ok (value, rest) else .error (.malformed .tooDeep)

theorem readItemList_of_spells {limit : Nat} {items : List Value}
    (hexact : ∀ item ∈ items, item.IsExact) (hreads : ∀ item ∈ items, ReadsUpTo limit item)
    {cs inside rest : List Char} (h : (Value.array items).Spells cs rest)
    (hopen : skipBlanks cs = '[' :: inside) :
    withoutLocation (readItemList (readValue limit) inside) =
      if Value.itemsNesting items ≤ limit then .ok (items, rest)
      else .error (.malformed .tooDeep) := by
  rw [readItemList, withoutLocation_bind, readArray_of_spells true
    (collect (fun item => item.nesting ≤ limit) .tooDeep) hexact ?_ [] h hopen, foldlM_collect]
  · simp only [Value.itemsNesting_le]
    split
    · rw [List.append_nil]
      simp only [Functor.map, Except.map, bind, Except.bind, List.reverse_reverse,
        withoutLocation_ok]
    · rfl
  · intro item hmem seen cs rest hspells hend
    simp only [withoutLocation_bind, hreads item hmem cs rest hspells hend, collect]
    split <;> rfl

theorem readEntryList_of_spells {limit : Nat} {entries : List (String × Value)}
    (hexact : ∀ entry ∈ entries, entry.2.IsExact)
    (hreads : ∀ entry ∈ entries, ReadsUpTo limit entry.2) {cs inside rest : List Char}
    (h : (Value.object entries).Spells cs rest) (hopen : skipBlanks cs = '{' :: inside) :
    withoutLocation (readEntryList (readValue limit) inside) =
      if Value.entriesNesting entries ≤ limit then .ok (entries, rest)
      else .error (.malformed .tooDeep) := by
  rw [readEntryList, withoutLocation_bind, readObject_of_spells true
    (collect (fun entry => entry.2.nesting ≤ limit) .tooDeep) hexact ?_ [] h hopen, foldlM_collect]
  · simp only [Value.entriesNesting_le]
    split
    · rw [List.append_nil]
      simp only [Functor.map, Except.map, bind, Except.bind, List.reverse_reverse,
        withoutLocation_ok]
    · rfl
  · intro entry hmem seen behind before rest hcolon hspells hend
    have hread := hreads entry hmem before rest hspells hend
    simp only [withoutLocation_bind, readText_foldr_writeChar, withoutLocation_ok]
    simp only [bind, Except.bind, readColon, hcolon, withoutLocation_ok, hread, collect]
    by_cases hnesting : entry.2.nesting ≤ limit
    · rw [if_pos hnesting, if_pos hnesting]
      rfl
    · rw [if_neg hnesting, if_neg hnesting]
      rfl

/-- Values are read from the texts that spell them, if they do not nest too deep. -/
theorem readsUpTo {value : Value} (hvalue : value.IsExact) (limit : Nat) :
    ReadsUpTo limit value := by
  induction value generalizing limit with
  | scalar s =>
    intro cs rest h hend
    obtain ⟨hs⟩ := hvalue
    rw [if_pos (by simp [Value.nesting])]
    rw [withoutLocation_eq_ok]
    cases limit <;> exact readBy_of_spells_scalar hs h hend
  | array items ih =>
    intro cs rest h hend
    obtain - | ⟨hitems⟩ := hvalue
    obtain ⟨inside, hopen⟩ := h.opens_array
    cases limit with
    -- only a scalar is read where no level is left
    | zero =>
      rw [readValue, readBy_array hopen, withoutLocation_refuseAfter,
        if_neg (by simp [Value.nesting])]
    | succ limit =>
      have hread := readItemList_of_spells hitems
        (fun item hmem => ih item hmem (hitems item hmem) limit) h hopen
      rw [readValue, readBy_array hopen, withoutLocation_bind, hread]
      simp only [Value.nesting, Nat.add_le_add_iff_right]
      split <;> rfl
  | object entries ih =>
    intro cs rest h hend
    obtain - | - | ⟨hentries⟩ := hvalue
    obtain ⟨inside, hopen⟩ := h.opens_object
    cases limit with
    | zero =>
      rw [readValue, readBy_object hopen, withoutLocation_refuseAfter,
        if_neg (by simp [Value.nesting])]
    | succ limit =>
      have hread := readEntryList_of_spells hentries
        (fun entry hmem => ih entry hmem (hentries entry hmem) limit) h hopen
      rw [readValue, readBy_object hopen, withoutLocation_bind, hread]
      simp only [Value.nesting, Nat.add_le_add_iff_right]
      split <;> rfl

theorem readValue_of_spells {value : Value} (hvalue : value.IsExact) {limit : Nat}
    (hnesting : value.nesting ≤ limit) {cs rest : List Char} (h : value.Spells cs rest)
    (hend : EndsNumber rest) : readValue limit cs = .ok (value, rest) := by
  rw [← withoutLocation_eq_ok, readsUpTo hvalue limit cs rest h hend, if_pos hnesting]

theorem Value.eq_of_compact_eq {value other : Value} (hvalue : value.IsExact)
    (hother : other.IsExact) (h : value.compact = other.compact) : value = other := by
  have hread {v : Value} (hv : v.IsExact) {limit : Nat} (hlimit : v.nesting ≤ limit) :
      readValue limit v.compact.toList = .ok (v, []) := by
    rw [compact, String.toList_ofList]
    exact readValue_of_spells hv hlimit (spells_write hv []) trivial
  have hfirst := hread hvalue (Nat.le_max_left value.nesting other.nesting)
  have hsecond := hread hother (Nat.le_max_right value.nesting other.nesting)
  rw [h, hsecond, Except.ok.injEq, Prod.mk.injEq] at hfirst
  exact hfirst.1.symm

end SearchFilter.Json
