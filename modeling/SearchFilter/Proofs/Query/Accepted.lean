import SearchFilter.Proofs.Query.Respelling
import SearchFilter.Proofs.Query.RoundTrip
/-!
# Which spelled values are queries

A text that spells a value is read as a query exactly when the value does not nest too deep, names
its kind and decodes. How the text is spelled does not matter.
-/
namespace SearchFilter

open Json (Value Fault TextFault bind_eq_ok map_eq_ok)

namespace OuterNode

theorem foldlM_add_some {kind : Kind} {entries parts : List (String × Value)}
    {node : OuterNode (String × Value)} :
    entries.foldlM add ⟨some kind, parts⟩ = .ok node ↔
      entries.filter (·.1 == tagKey) = [] ∧
        (∀ entry ∈ entries.filter (·.1 != tagKey), entry.2.nesting ≤ Json.nestingLimit - 1) ∧
        node = ⟨some kind, (entries.filter (·.1 != tagKey)).reverse ++ parts⟩ := by
  induction entries generalizing parts with
  | nil => simp [pure, Except.pure, eq_comm]
  | cons entry entries ih =>
    rw [List.foldlM_cons, add]
    by_cases hkey : entry.1 = tagKey
    · simp [hkey, bind, Except.bind]
    · by_cases hnesting : entry.2.nesting ≤ Json.nestingLimit - 1
      · simp [hkey, hnesting, bind, Except.bind, ih]
      · simp [hkey, hnesting, bind, Except.bind]

theorem add_tag (parts : List (String × Value)) (value : Value) :
    add ⟨none, parts⟩ (tagKey, value) = (fun kind => ⟨some kind, parts⟩) <$> value.namedKind := by
  rw [add, if_pos rfl, if_neg (by simp)]

theorem foldlM_add_none {kind : Kind} {entries parts parts' : List (String × Value)} :
    entries.foldlM add ⟨none, parts⟩ = .ok ⟨some kind, parts'⟩ ↔
      entries.filter (·.1 == tagKey) = [(tagKey, .text kind.name)] ∧
        (∀ entry ∈ entries.filter (·.1 != tagKey), entry.2.nesting ≤ Json.nestingLimit - 1) ∧
        parts' = (entries.filter (·.1 != tagKey)).reverse ++ parts := by
  induction entries generalizing parts with
  | nil => simp [pure, Except.pure]
  | cons entry entries ih =>
    obtain ⟨key, value⟩ := entry
    rw [List.foldlM_cons]
    by_cases hkey : key = tagKey
    · -- the first tag decides about the kind, and no other may follow
      subst hkey
      simp only [add_tag, bind_eq_ok, map_eq_ok, Json.Value.namedKind_eq_ok]
      constructor
      · rintro ⟨-, ⟨kind', rfl, rfl⟩, hrest⟩
        obtain ⟨htags, hnesting, hnode⟩ := foldlM_add_some.mp hrest
        obtain ⟨hkind, rfl⟩ := OuterNode.mk.inj hnode
        obtain rfl := Option.some.inj hkind
        simpa [htags] using hnesting
      · intro h
        simp only [List.filter_cons, beq_self_eq_true, if_true, bne_self_eq_false,
          Bool.false_eq_true, if_false, List.cons.injEq, Prod.mk.injEq, true_and] at h
        obtain ⟨⟨hvalue, htags⟩, hnesting, hparts⟩ := h
        exact ⟨_, ⟨kind, hvalue, rfl⟩, foldlM_add_some.mpr ⟨htags, hnesting, by rw [hparts]⟩⟩
    · rw [add, if_neg hkey]
      by_cases hnesting : value.nesting ≤ Json.nestingLimit - 1
      · simp [hkey, hnesting, bind, Except.bind, ih]
      · simp [hkey, hnesting, bind, Except.bind]

def addItem (node : OuterNode Value) (value : Value) : Except Fault (OuterNode Value) :=
  if node.kind?.isNone then (fun kind => { node with kind? := some kind }) <$> value.namedKind
  else if value.nesting ≤ Json.nestingLimit - 1 then .ok { node with parts := value :: node.parts }
  else .error (.malformed .tooDeep)

theorem readsItem {value : Value} (hexact : value.IsExact) :
    Json.ReadsItem readItem addItem value := by
  intro node cs rest hvalue hend
  rw [readItem, addItem]
  by_cases hkind : node.kind?.isNone
  · rw [if_pos hkind, if_pos hkind, node.readKind_of_spells hexact hvalue hend]
  · rw [if_neg hkind, if_neg hkind, Json.withoutLocation_bind,
      Json.readsUpTo hexact _ cs rest hvalue hend]
    by_cases hnesting : value.nesting ≤ Json.nestingLimit - 1
    · rw [if_pos hnesting, if_pos hnesting]
      rfl
    · rw [if_neg hnesting, if_neg hnesting]
      rfl

theorem foldlM_addItem_some {kind : Kind} {items parts : List Value} {node : OuterNode Value} :
    items.foldlM addItem ⟨some kind, parts⟩ = .ok node ↔
      (∀ item ∈ items, item.nesting ≤ Json.nestingLimit - 1) ∧
        node = ⟨some kind, items.reverse ++ parts⟩ := by
  induction items generalizing parts with
  | nil => simp [pure, Except.pure, eq_comm]
  | cons item items ih =>
    rw [List.foldlM_cons, addItem]
    by_cases hnesting : item.nesting ≤ Json.nestingLimit - 1
    · simp [hnesting, bind, Except.bind, ih]
    · simp [hnesting, bind, Except.bind]

variable {α : Type}

theorem finish_eq_ok {node : OuterNode α} {tagged : Kind → List α → TaggedNode}
    {result : TaggedNode} :
    node.finish tagged = .ok result ↔
      ∃ kind, node.kind? = some kind ∧ result = tagged kind node.parts.reverse := by
  unfold finish
  cases node.kind? <;> simp [eq_comm]

theorem keyed_eq_ok {entries : List (String × Value)} {result : TaggedNode} :
    (∃ node, entries.foldlM add empty = .ok node ∧ node.finish .keyed = .ok result) ↔
      ∃ kind, entries.filter (·.1 == tagKey) = [(tagKey, .text kind.name)] ∧
        (∀ entry ∈ entries.filter (·.1 != tagKey), entry.2.nesting ≤ Json.nestingLimit - 1) ∧
        result = .keyed kind (entries.filter (·.1 != tagKey)) := by
  constructor
  · rintro ⟨⟨kind?, parts⟩, hfold, hfinish⟩
    obtain ⟨kind, hkind, rfl⟩ := finish_eq_ok.mp hfinish
    obtain rfl : kind? = some kind := hkind
    obtain ⟨htags, hnesting, rfl⟩ := foldlM_add_none.mp hfold
    exact ⟨kind, htags, hnesting, by simp⟩
  · rintro ⟨kind, htags, hnesting, rfl⟩
    exact ⟨_, foldlM_add_none.mpr ⟨htags, hnesting, rfl⟩, finish_eq_ok.mpr ⟨kind, rfl, by simp⟩⟩

theorem positional_eq_ok {items : List Value} {result : TaggedNode} :
    (∃ node, items.foldlM addItem empty = .ok node ∧ node.finish .positional = .ok result) ↔
      ∃ kind rest, items = .text kind.name :: rest ∧
        (∀ item ∈ rest, item.nesting ≤ Json.nestingLimit - 1) ∧
        result = .positional kind rest := by
  cases items with
  | nil => simp [pure, Except.pure, empty, finish]
  | cons tag rest =>
    have hfirst : addItem empty tag = tag.namedKind >>= fun kind => .ok ⟨some kind, []⟩ := rfl
    simp only [List.foldlM_cons, hfirst, bind_eq_ok, Json.Value.namedKind_eq_ok, Except.ok.injEq,
      finish_eq_ok]
    constructor
    · rintro ⟨node, ⟨-, ⟨kind, rfl, rfl⟩, hfold⟩, kind', hkind, rfl⟩
      obtain ⟨hnesting, rfl⟩ := foldlM_addItem_some.mp hfold
      obtain rfl := Option.some.inj hkind
      exact ⟨kind, rest, rfl, hnesting, by simp⟩
    · rintro ⟨kind, rest', hitems, hnesting, rfl⟩
      obtain ⟨rfl, rfl⟩ := List.cons.inj hitems
      exact ⟨_, ⟨_, ⟨kind, rfl, rfl⟩, foldlM_addItem_some.mpr ⟨hnesting, rfl⟩⟩, kind, rfl, by simp⟩

end OuterNode

/-- The tag of a node is the name of a kind, not its index. -/
def Json.Value.HasNamedTag : Value → Prop
  | .object entries => ∃ name, (tagKey, .text name) ∈ entries
  | .array items => ∃ name, items.head? = some (.text name)
  | .scalar _ => False

namespace TaggedNode

theorem nesting_le_iff {entries : List (String × Value)} {name : String}
    (h : entries.filter (·.1 == tagKey) = [(tagKey, .text name)]) :
    (Value.object entries).nesting ≤ Json.nestingLimit ↔
      ∀ entry ∈ entries.filter (·.1 != tagKey), entry.2.nesting ≤ Json.nestingLimit - 1 := by
  have hlimit (n : Nat) : n + 1 ≤ Json.nestingLimit ↔ n ≤ Json.nestingLimit - 1 := by
    rw [Json.nestingLimit]
    omega
  rw [Value.nesting, hlimit, Json.Value.entriesNesting_le]
  constructor
  · intro hall entry hmem
    exact hall entry (List.mem_filter.mp hmem).1
  · intro hothers entry hmem
    by_cases hkey : entry.1 = tagKey
    · have htag : entry ∈ entries.filter (·.1 == tagKey) :=
        List.mem_filter.mpr ⟨hmem, beq_iff_eq.mpr hkey⟩
      rw [h, List.mem_singleton] at htag
      rw [htag]
      exact Nat.zero_le _
    · exact hothers entry (List.mem_filter.mpr ⟨hmem, by simpa using hkey⟩)

theorem keyed_iff {entries : List (String × Value)} {node : TaggedNode} :
    (∃ kind, entries.filter (·.1 == tagKey) = [(tagKey, .text kind.name)] ∧
      (∀ entry ∈ entries.filter (·.1 != tagKey), entry.2.nesting ≤ Json.nestingLimit - 1) ∧
      node = .keyed kind (entries.filter (·.1 != tagKey))) ↔
    (Value.object entries).nesting ≤ Json.nestingLimit ∧ (Value.object entries).HasNamedTag ∧
      ofValue (.object entries) = .ok node := by
  rw [ofValue_object_eq_ok]
  constructor
  · rintro ⟨kind, htags, hnesting, rfl⟩
    have htag : (tagKey, Value.text kind.name) ∈ entries.filter (·.1 == tagKey) := by
      rw [htags]
      exact List.mem_cons_self
    exact ⟨(nesting_le_iff htags).mpr hnesting, ⟨kind.name, (List.mem_filter.mp htag).1⟩, kind,
      findTag_eq_ok.mpr ⟨_, htags, decodeTag_text.mpr rfl⟩, rfl⟩
  · rintro ⟨hnesting, ⟨name, hname⟩, kind, htag, rfl⟩
    obtain ⟨tag, htags, hdecode⟩ := findTag_eq_ok.mp htag
    have hmem : (tagKey, Value.text name) ∈ entries.filter (·.1 == tagKey) :=
      List.mem_filter.mpr ⟨hname, beq_iff_eq.mpr rfl⟩
    rw [htags, List.mem_singleton] at hmem
    subst hmem
    obtain rfl := decodeTag_text.mp hdecode
    exact ⟨kind, htags, (nesting_le_iff htags).mp hnesting, rfl⟩

theorem positional_iff {items : List Value} {node : TaggedNode} :
    (∃ kind rest, items = .text kind.name :: rest ∧
      (∀ item ∈ rest, item.nesting ≤ Json.nestingLimit - 1) ∧ node = .positional kind rest) ↔
    (Value.array items).nesting ≤ Json.nestingLimit ∧ (Value.array items).HasNamedTag ∧
      ofValue (.array items) = .ok node := by
  rw [ofValue_array_eq_ok]
  have hnesting (kind : Kind) (rest : List Value) :
      (Value.array (.text kind.name :: rest)).nesting ≤ Json.nestingLimit ↔
        ∀ item ∈ rest, item.nesting ≤ Json.nestingLimit - 1 := by
    rw [← Json.Value.itemsNesting_le, Value.nesting, Value.itemsNesting, Value.nesting,
      Nat.zero_max, Json.nestingLimit]
    omega
  constructor
  · rintro ⟨kind, rest, rfl, hrest, rfl⟩
    exact ⟨(hnesting kind rest).mpr hrest, ⟨kind.name, rfl⟩, _, rest, kind, rfl,
      decodeTag_text.mpr rfl, rfl⟩
  · rintro ⟨hlimit, ⟨name, hname⟩, tag, rest, kind, rfl, hdecode, rfl⟩
    obtain rfl : tag = .text name := Option.some.inj hname
    obtain rfl := decodeTag_text.mp hdecode
    exact ⟨kind, rest, rfl, (hnesting kind rest).mp hlimit, rfl⟩

theorem finish_bind_eq_ok {α : Type} {loop : Except TextFault (OuterNode α × List Char)}
    {fold : Except Fault (OuterNode α)} {rest : List Char}
    (hloop : Json.withoutLocation loop = (·, rest) <$> fold)
    {tagged : Kind → List α → TaggedNode} {rest' : List Char} {node : TaggedNode} :
    (do
      let (outer, rest) ← loop
      .ok (← Json.located rest (outer.finish tagged), rest)) = Except.ok (node, rest') ↔
    rest' = rest ∧ ∃ outer, fold = .ok outer ∧ outer.finish tagged = .ok node := by
  have hread (outer : OuterNode α) (rest' : List Char) :
      loop = .ok (outer, rest') ↔ rest' = rest ∧ fold = .ok outer := by
    rw [← Json.withoutLocation_eq_ok, hloop, map_eq_ok]
    simp [and_comm, eq_comm]
  simp only [bind_eq_ok, Prod.exists, hread, Json.located_eq_ok, Except.ok.injEq, Prod.mk.injEq]
  constructor
  · rintro ⟨outer, _, ⟨rfl, hfold⟩, node', hfinish, rfl, rfl⟩
    exact ⟨rfl, outer, hfold, hfinish⟩
  · rintro ⟨rfl, outer, hfold, hfinish⟩
    exact ⟨outer, _, ⟨rfl, hfold⟩, node, hfinish, rfl, rfl⟩

theorem read_eq_ok_iff {value : Value} (hexact : value.IsExact) {cs rest rest' : List Char}
    (h : value.Spells cs rest) (hend : Json.EndsNumber rest) {node : TaggedNode} :
    read cs = .ok (node, rest') ↔ rest' = rest ∧
      value.nesting ≤ Json.nestingLimit ∧ value.HasNamedTag ∧ ofValue value = .ok node := by
  cases value with
  | scalar s =>
    obtain ⟨hs⟩ := hexact
    rw [read, Json.readBy_of_spells_scalar hs h hend]
    simp [Json.Value.HasNamedTag]
  | array items =>
    obtain - | ⟨hitems⟩ := hexact
    obtain ⟨inside, hopen⟩ := h.opens_array
    have hread := Json.readArray_of_spells true OuterNode.addItem hitems
      (fun item hmem => OuterNode.readsItem (hitems item hmem)) .empty h hopen
    rw [read, Json.readBy_array hopen, finish_bind_eq_ok hread, OuterNode.positional_eq_ok,
      positional_iff]
  | object entries =>
    obtain - | - | ⟨hentries⟩ := hexact
    obtain ⟨inside, hopen⟩ := h.opens_object
    have hread := Json.readObject_of_spells true OuterNode.add hentries
      (fun entry hmem => OuterNode.readsMember (hentries entry hmem)) .empty h hopen
    rw [read, Json.readBy_object hopen, finish_bind_eq_ok hread, OuterNode.keyed_eq_ok, keyed_iff]

end TaggedNode

namespace Query

theorem isBlank_eq_false {cs inside : List Char} {c : Char}
    (h : Json.skipBlanks cs = c :: inside) (hc : c = '[' ∨ c = '{') : Text.isBlank cs = false := by
  have hmem : c ∈ cs := by
    apply (List.dropWhile_sublist Json.isBlank).subset
    rw [← Json.skipBlanks, h]
    exact List.mem_cons_self
  have hspace : Text.isWhiteSpace c = false := by rcases hc with rfl | rfl <;> rfl
  rw [Text.isBlank, List.all_eq_false]
  exact ⟨c, hmem, by simp [hspace]⟩

theorem isBlank_of_hasNamedTag {value : Value} (hnamed : value.HasNamedTag) {cs rest : List Char}
    (h : value.Spells cs rest) : Text.isBlank cs = false := by
  cases value with
  | scalar s => exact hnamed.elim
  | array items =>
    obtain ⟨inside, hopen⟩ := h.opens_array
    exact isBlank_eq_false hopen (.inl rfl)
  | object entries =>
    obtain ⟨inside, hopen⟩ := h.opens_object
    exact isBlank_eq_false hopen (.inr rfl)

theorem ofJson_eq_ok {cs : List Char} {query : Query} :
    ofJson cs = .ok query ↔ ∃ node rest, TaggedNode.read cs = .ok (node, rest) ∧
      node.decode (decodeField Json.nestingLimit) = .ok query ∧ Json.skipBlanks rest = [] := by
  simp only [ofJson, bind_eq_ok, Prod.exists, Json.unlocated_eq_ok, Except.ok.injEq]
  constructor
  · rintro ⟨node, rest, hread, query', hdecode, ⟨⟩, hblank, rfl⟩
    exact ⟨node, rest, hread, hdecode, Json.readEnd_eq_ok.mp hblank⟩
  · rintro ⟨node, rest, hread, hdecode, hblank⟩
    exact ⟨node, rest, hread, query, hdecode, (), Json.readEnd_eq_ok.mpr hblank, rfl⟩

theorem parse_eq_ok {text : String} {query : Query} :
    parse text = .ok query ↔
      Text.isBlank text.toList = false ∧ ofJson text.toList = .ok query := by
  rw [parse]
  cases Text.isBlank text.toList <;> cases ofJson text.toList <;> simp [Except.mapError]

/-- Which texts of a value are queries: those of values that do not nest too deep, name their kind
and decode. -/
theorem parse_eq_ok_iff {value : Value} (hexact : value.IsExact) {text : String}
    (h : value.SpelledBy text) {query : Query} :
    parse text = .ok query ↔ value.nesting ≤ Json.nestingLimit ∧ value.HasNamedTag ∧
      decodeField (Json.nestingLimit + 1) .query value = .ok query := by
  obtain ⟨rest, hspells, hrest⟩ := h
  have hend := Json.endsNumber_of_skipBlanks_eq_nil hrest
  rw [parse_eq_ok, ofJson_eq_ok, decodeField, bind_eq_ok]
  constructor
  · rintro ⟨-, node, rest', hread, hdecode, -⟩
    obtain ⟨-, hnesting, hnamed, hvalue⟩ := (TaggedNode.read_eq_ok_iff hexact hspells hend).mp hread
    exact ⟨hnesting, hnamed, node, hvalue, hdecode⟩
  · rintro ⟨hnesting, hnamed, node, hvalue, hdecode⟩
    have hread := (TaggedNode.read_eq_ok_iff hexact hspells hend).mpr
      ⟨rfl, hnesting, hnamed, hvalue⟩
    exact ⟨isBlank_of_hasNamedTag hnamed hspells, node, rest, hread, hdecode, hrest⟩

/-- A text that spells an object is no query only for a fault in it. -/
theorem parse_invalid {entries : List (String × Value)} {text : String}
    (h : (Value.object entries).SpelledBy text) (hnot : ∀ query, parse text ≠ .ok query) :
    ∃ fault location?, parse text = .error (.invalid fault location?) := by
  obtain ⟨rest, hspells, -⟩ := h
  obtain ⟨inside, hopen⟩ := hspells.opens_object
  have hblank := isBlank_eq_false hopen (.inr rfl)
  cases hresult : ofJson text.toList with
  | error found =>
    refine ⟨found.fault, found.location? text, ?_⟩
    rw [parse, hblank, hresult]
    rfl
  | ok query => exact absurd (parse_eq_ok.mpr ⟨hblank, hresult⟩) (hnot query)

end Query

end SearchFilter
