import SearchFilter.Proofs.Query.Accepted
/-!
# Queries with rearranged entries

Neither the order of the entries of an object nor entries under unknown keys change a query, and a
null bound may be left out.
-/
namespace SearchFilter

open Json (Value)

/-- In every object of the value the entries are put in another order, entries under other keys
come in between, and null bounds may be left out. Of queries, only text ranges have null bounds. -/
inductive Json.Value.Rearranges : Value → Value → Prop
  | scalar (s : Json.Scalar) : Rearranges (.scalar s) (.scalar s)
  | array {items items' : List Value} (each : List.Forall₂ Rearranges items items') :
      Rearranges (.array items) (.array items')
  | object {entries kept extra entries' : List (String × Value)}
      (each : KeepsEntries Rearranges entries kept)
      (unknown : ∀ entry ∈ extra, entry.1 ∉ entries.map Prod.fst ∧ entry.2.IsExact)
      (order : entries'.Perm (kept ++ extra)) :
      Rearranges (.object entries) (.object entries')

namespace Json.Value.Rearranges

theorem isExact {value other : Value} (h : value.Rearranges other) (hvalue : value.IsExact) :
    other.IsExact := by
  induction value generalizing other with
  | scalar s =>
    cases h
    exact hvalue
  | array items ih =>
    obtain - | ⟨hitems⟩ := hvalue
    cases h with
    | array each =>
      apply IsExact.array
      intro item' hmem'
      obtain ⟨item, hmem, h⟩ := exists_of_mem_forall₂ each item' hmem'
      exact ih item hmem h (hitems item hmem)
  | object entries ih =>
    obtain - | - | ⟨hentries⟩ := hvalue
    cases h with
    | object each unknown order =>
      apply IsExact.object
      intro entry hmem'
      obtain hkept | hextra := List.mem_append.mp (order.mem_iff.mp hmem')
      · obtain ⟨value, hmem, h⟩ := each.exists_of_mem entry hkept
        exact ih _ hmem h (hentries _ hmem)
      · exact (unknown entry hextra).2

theorem decode_record {decode : FieldDecoder} {fuel : Nat}
    (hdecode : decode.InvertsSpellings Rearranges fuel) {record : Record}
    (hnames : (record.schema.map (·.name)).Nodup) {row : Row record.schema} {value : Value}
    (h : (Value.object (Row.entries record.schema row)).Rearranges value)
    (hfuel : value.nesting ≤ fuel) : record.decode decode value = .ok row := by
  cases h with
  | object each unknown order =>
    rw [Row.entries_keys] at unknown
    apply (Record.ofEntries_eq_ok hnames).mpr
    exact Row.fits_of_keeps_of_perm hdecode hnames each (fun entry hmem => (unknown entry hmem).1)
      order (nesting_lt_of_mem_entries hfuel)

theorem exists_kept {query : Query} {value : Value} (h : query.toJson.Rearranges value) :
    ∃ kept extra entries, value = .object entries ∧
      KeepsEntries Rearranges (Row.entries query.kind.schema query.row) kept ∧
      (∀ entry ∈ extra, entry.1 ≠ tagKey ∧ entry.1 ∉ query.kind.schema.map (·.name)) ∧
      entries.Perm ((tagKey, .text query.kind.name) :: (kept ++ extra)) := by
  rw [Query.toJson_eq] at h
  cases h with
  | @object _ kept extra entries each unknown order =>
    obtain ⟨tag, kept, rfl, htag, hkept⟩ | ⟨-, hnull, -⟩ := KeepsEntries.cons_iff.mp each
    · cases htag
      refine ⟨kept, extra, entries, rfl, hkept, fun entry hmem => ?_, order⟩
      have hunknown := (unknown entry hmem).1
      rw [List.map_cons, Row.entries_keys, List.mem_cons, not_or] at hunknown
      exact hunknown
    · cases hnull

theorem decode_node {decode : FieldDecoder} {fuel : Nat}
    (hdecode : decode.InvertsSpellings Rearranges fuel) {query : Query} {value : Value}
    (h : query.toJson.Rearranges value) (hfuel : value.nesting ≤ fuel) :
    (TaggedNode.ofValue value >>= fun node => node.decode decode) = .ok query := by
  obtain ⟨kept, extra, entries, rfl, hkept, unknown, order⟩ := exists_kept h
  exact TaggedNode.decode_of_keeps hdecode (TaggedNode.decodeTag_text.mpr rfl) hkept unknown order
    hfuel

theorem respelling : Respelling Rearranges where
  scalar h := by
    cases h
    rfl
  array h := by
    cases h with
    | array each => exact ⟨_, rfl, each⟩
  record hdecode _ hnames _ _ _ h hfuel := decode_record hdecode hnames h hfuel
  node hdecode _ _ h hfuel := decode_node hdecode h hfuel

theorem hasNamedTag {query : Query} {value : Value} (h : query.toJson.Rearranges value) :
    value.HasNamedTag := by
  obtain ⟨kept, extra, entries, rfl, -, -, order⟩ := exists_kept h
  exact ⟨query.kind.name, order.mem_iff.mpr List.mem_cons_self⟩

end Json.Value.Rearranges

namespace Query

/-- Neither the order of entries, nor unknown entries, nor blanks, nor leaving out null bounds
changes the query that a text is read as, unless the text nests too deep. -/
theorem parse_of_rearranges {query : Query} {value : Value} {text : String}
    (h : query.toJson.Rearranges value) (hspelled : value.SpelledBy text)
    (hnesting : Json.textNesting text ≤ Json.nestingLimit) : parse text = .ok query := by
  have hexact := h.isExact query.toJson_isExact
  rw [hspelled.textNesting hexact] at hnesting
  have hdecode := Json.Value.Rearranges.respelling.decodeField (Json.nestingLimit + 1) .query query
    value h (Nat.lt_succ_of_le hnesting)
  exact (parse_eq_ok_iff hexact hspelled).mpr ⟨hnesting, h.hasNamedTag, hdecode⟩

/-- A range without its open bound, in a clause with a note, every object from back to front. -/
theorem parse_of_rearranges_reversed :
    let leaf : Leaf := .textRange "name" none (some "m")
    let range : Value := .object
      [("type", .text "range_lexicographic"), ("field", .text "name"), ("upper", .text "m")].reverse
    let clause : Value := .object
      [("query", range), ("occurrence", .text "excluded"), ("note", .array [.integer (-1)])].reverse
    let value : Value := .object [("type", .text "boolean"), ("clauses", .array [clause])].reverse
    let text := String.ofList ('\n' :: value.write [' '])
    (boolean [⟨.leaf leaf, .excluded⟩]).toJson.Rearranges value ∧ value.SpelledBy text ∧
      Json.textNesting text ≤ Json.nestingLimit ∧
      parse text = .ok (boolean [⟨.leaf leaf, .excluded⟩]) := by
  intro leaf range clause value text
  have hrange : leaf.toJson.Rearranges range :=
    .object (.keep (.scalar _) (.keep (.scalar _) (.drop (.inl rfl) (.keep (.scalar _) .nil))))
      (List.forall_mem_nil _) (List.reverse_perm _)
  have hnote : (Value.array [.integer (-1)]).IsExact :=
    .array (List.forall_mem_singleton.mpr (.scalar ⟨by decide, by decide⟩))
  have hclause : (FieldType.toJson .clause ⟨.leaf leaf, .excluded⟩).Rearranges clause :=
    .object (.keep hrange (.keep (.scalar _) .nil))
      (List.forall_mem_singleton.mpr ⟨by decide, hnote⟩) (List.reverse_perm _)
  have hvalue : (boolean [⟨.leaf leaf, .excluded⟩]).toJson.Rearranges value :=
    .object (.keep (.scalar _) (.keep (.array (.cons hclause .nil)) .nil))
      (List.forall_mem_nil _) (List.reverse_perm _)
  have hexact := hvalue.isExact (toJson_isExact _)
  have hspelled : value.SpelledBy text := by
    refine ⟨[' '], ?_, rfl⟩
    rw [String.toList_ofList]
    exact Value.spells_write hexact [' ']
  have hnesting : Json.textNesting text ≤ Json.nestingLimit := by
    rw [hspelled.textNesting hexact]
    decide
  exact ⟨hvalue, hspelled, hnesting, parse_of_rearranges hvalue hspelled hnesting⟩

end Query

end SearchFilter
