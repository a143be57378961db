import SearchFilter.Proofs.Query.Accepted
/-!
# Queries in positional form

Every node, clause and phrase word may be written as the array of its values instead of as an
object, and every tag but the outermost one as the index of its kind.
-/
namespace SearchFilter

open Json (Value)

/-- The entries of an object respelled one by one. A tag may become the index of its kind. -/
inductive RespellsEntries (R : Value → Value → Prop) :
    List (String × Value) → List (String × Value) → Prop
  | nil : RespellsEntries R [] []
  | field {key : String} {value value' : Value} {entries entries' : List (String × Value)}
      (h : R value value') (rest : RespellsEntries R entries entries') :
      RespellsEntries R ((key, value) :: entries) ((key, value') :: entries')
  | index {kind : Kind} {index : Nat} {entries entries' : List (String × Value)}
      (h : Kind.all[index]? = some kind) (rest : RespellsEntries R entries entries') :
      RespellsEntries R ((tagKey, .text kind.name) :: entries)
        ((tagKey, .integer index) :: entries')

/-- Any objects of the value are written as arrays of their values, and any tags as indices. -/
inductive Json.Value.Flattens : Value → Value → Prop
  | scalar (s : Json.Scalar) : Flattens (.scalar s) (.scalar s)
  | array {items items' : List Value} (each : List.Forall₂ Flattens items items') :
      Flattens (.array items) (.array items')
  | keyed {entries entries' : List (String × Value)}
      (each : RespellsEntries Flattens entries entries') :
      Flattens (.object entries) (.object entries')
  | positional {entries entries' : List (String × Value)}
      (each : RespellsEntries Flattens entries entries') :
      Flattens (.object entries) (.array (entries'.map Prod.snd))

theorem Kind.lt_of_getElem?_all {kind : Kind} {index : Nat} (h : Kind.all[index]? = some kind) :
    index < 11 :=
  (List.getElem?_eq_some_iff.mp h).1

theorem TaggedNode.decodeTag_index {kind : Kind} {index : Nat} (h : Kind.all[index]? = some kind) :
    decodeTag (.integer index) = .ok kind := by
  have hnonneg : ¬(index : Int) < 0 := by omega
  rw [decodeTag, if_neg hnonneg, Int.toNat_natCast, Kind.ofIndex?, h]

namespace RespellsEntries

variable {R : Value → Value → Prop} {entries entries' : List (String × Value)}

theorem exists_of_mem (h : RespellsEntries R entries entries') :
    ∀ entry ∈ entries', (∃ value, (entry.1, value) ∈ entries ∧ R value entry.2) ∨
      ∃ (kind : Kind) (index : Nat), Kind.all[index]? = some kind ∧ entry.2 = .integer index := by
  induction h with
  | nil => exact List.forall_mem_nil _
  | field h _ ih =>
    refine List.forall_mem_cons.mpr ⟨.inl ⟨_, List.mem_cons_self, h⟩, fun entry hmem => ?_⟩
    obtain ⟨value, hvalue, h⟩ | hindex := ih entry hmem
    · exact .inl ⟨value, List.mem_cons_of_mem _ hvalue, h⟩
    · exact .inr hindex
  | index h _ ih =>
    refine List.forall_mem_cons.mpr ⟨.inr ⟨_, _, h, rfl⟩, fun entry hmem => ?_⟩
    obtain ⟨value, hvalue, h⟩ | hindex := ih entry hmem
    · exact .inl ⟨value, List.mem_cons_of_mem _ hvalue, h⟩
    · exact .inr hindex

theorem keeps (h : RespellsEntries R entries entries') (htag : tagKey ∉ entries.map Prod.fst) :
    KeepsEntries R entries entries' ∧
      List.Forall₂ R (entries.map Prod.snd) (entries'.map Prod.snd) := by
  induction h with
  | nil => exact ⟨.nil, .nil⟩
  | field h _ ih =>
    rw [List.map_cons, List.mem_cons, not_or] at htag
    obtain ⟨hkeeps, hvalues⟩ := ih htag.2
    exact ⟨.keep h hkeeps, .cons h hvalues⟩
  | index h _ ih => exact absurd List.mem_cons_self htag

/-- A tag stays the name of its kind or becomes the index. -/
theorem exists_tag {kind : Kind}
    (h : RespellsEntries R ((tagKey, .text kind.name) :: entries) entries') :
    ∃ tag rest, entries' = (tagKey, tag) :: rest ∧ RespellsEntries R entries rest ∧
      (R (.text kind.name) tag ∨
        ∃ index : Nat, Kind.all[index]? = some kind ∧ tag = .integer index) := by
  generalize hentry : (tagKey, Value.text kind.name) = entry at h
  cases h with
  | field h rest =>
    cases hentry
    exact ⟨_, _, rfl, rest, .inl h⟩
  | @index kind' index _ _ h rest =>
    have hname : kind.name = kind'.name := by simpa using hentry
    have hkind := congrArg Kind.ofName? hname
    rw [Kind.ofName?_name, Kind.ofName?_name, Option.some.injEq] at hkind
    exact ⟨_, _, rfl, rest, .inr ⟨index, hkind ▸ h, rfl⟩⟩

end RespellsEntries

namespace Json.Value.Flattens

variable {decode : FieldDecoder} {fuel : Nat}

theorem isExact {value other : Value} (h : value.Flattens other) (hvalue : value.IsExact) :
    other.IsExact := by
  induction value generalizing other with
  | scalar s =>
    cases h
    exact hvalue
  | array items ih =>
    obtain - | ⟨hitems⟩ := hvalue
    cases h with
    | array each =>
      apply IsExact.array
      intro item' hmem'
      obtain ⟨item, hmem, h⟩ := exists_of_mem_forall₂ each item' hmem'
      exact ih item hmem h (hitems item hmem)
  | object entries ih =>
    obtain - | - | ⟨hentries⟩ := hvalue
    have hexact {entries' : List (String × Value)}
        (each : RespellsEntries Flattens entries entries') :
        ∀ entry ∈ entries', entry.2.IsExact := by
      intro entry hmem'
      obtain ⟨value, hmem, h⟩ | ⟨kind, index, hkind, hindex⟩ := each.exists_of_mem entry hmem'
      · exact ih _ hmem h (hentries _ hmem)
      · have hlt := Kind.lt_of_getElem?_all hkind
        rw [hindex]
        exact .scalar ⟨by omega, by omega⟩
    cases h with
    | keyed each => exact .object (hexact each)
    | positional each =>
      apply IsExact.array
      intro item hmem
      obtain ⟨entry, hentry, rfl⟩ := List.mem_map.mp hmem
      exact hexact each entry hentry

theorem decode_record (hdecode : decode.InvertsSpellings Flattens fuel) {record : Record}
    (hnames : (record.schema.map (·.name)).Nodup) (htag : tagKey ∉ record.schema.map (·.name))
    {row : Row record.schema} {value : Value}
    (h : (Value.object (Row.entries record.schema row)).Flattens value)
    (hfuel : value.nesting ≤ fuel) : record.decode decode value = .ok row := by
  rw [← Row.entries_keys row] at htag
  cases h with
  | keyed each =>
    have hrow := Row.fits_of_keeps hdecode hnames (each.keeps htag).1
      (nesting_lt_of_mem_entries hfuel)
    exact (Record.ofEntries_eq_ok hnames).mpr hrow
  | positional each =>
    exact Record.ofItems_of_forall₂ hdecode (each.keeps htag).2
      (nesting_lt_of_mem (Nat.lt_succ_of_le hfuel))

theorem exists_fields {query : Query} {value : Value} (h : query.toJson.Flattens value) :
    ∃ tag fields, decodeTag tag = .ok query.kind ∧
      RespellsEntries Flattens (Row.entries query.kind.schema query.row) fields ∧
      (value = .object ((tagKey, tag) :: fields) ∨
        value = .array (tag :: fields.map Prod.snd)) := by
  rw [Query.toJson_eq] at h
  have hdecode {tag : Value} (htag : (Value.text query.kind.name).Flattens tag ∨
      ∃ index : Nat, Kind.all[index]? = some query.kind ∧ tag = .integer index) :
      decodeTag tag = .ok query.kind := by
    obtain hname | ⟨index, hindex, rfl⟩ := htag
    · cases hname
      exact TaggedNode.decodeTag_text.mpr rfl
    · exact TaggedNode.decodeTag_index hindex
  cases h with
  | keyed each =>
    obtain ⟨tag, fields, rfl, hfields, htag⟩ := each.exists_tag
    exact ⟨tag, fields, hdecode htag, hfields, .inl rfl⟩
  | positional each =>
    obtain ⟨tag, fields, rfl, hfields, htag⟩ := each.exists_tag
    exact ⟨tag, fields, hdecode htag, hfields, .inr rfl⟩

theorem decode_node (hdecode : decode.InvertsSpellings Flattens fuel) {query : Query}
    {value : Value} (h : query.toJson.Flattens value) (hfuel : value.nesting ≤ fuel) :
    (TaggedNode.ofValue value >>= fun node => node.decode decode) = .ok query := by
  have hkeys : tagKey ∉ (Row.entries query.kind.schema query.row).map Prod.fst := by
    rw [Row.entries_keys]
    exact query.kind.tagKey_notMem
  obtain ⟨tag, fields, htag, each, rfl | rfl⟩ := exists_fields h
  · exact TaggedNode.decode_of_keeps hdecode htag (each.keeps hkeys).1 (List.forall_mem_nil _)
      (by rw [List.append_nil]) hfuel
  · have hnode : TaggedNode.ofValue (.array (tag :: fields.map Prod.snd)) =
        .ok (.positional query.kind (fields.map Prod.snd)) :=
      TaggedNode.ofValue_array_eq_ok.mpr ⟨tag, _, query.kind, rfl, htag, rfl⟩
    have hnesting := nesting_lt_of_mem (Nat.lt_succ_of_le hfuel)
    have hrow : query.kind.record.ofItems decode (fields.map Prod.snd) = .ok query.row :=
      Record.ofItems_of_forall₂ hdecode (each.keeps hkeys).2 fun item hmem =>
        hnesting item (List.mem_cons_of_mem tag hmem)
    rw [hnode]
    exact TaggedNode.decode_positional hrow

theorem respelling : Respelling Flattens where
  scalar h := by
    cases h
    rfl
  array h := by
    cases h with
    | array each => exact ⟨_, rfl, each⟩
  record hdecode _ hnames htag _ _ h hfuel := decode_record hdecode hnames htag h hfuel
  node hdecode _ _ h hfuel := decode_node hdecode h hfuel

end Json.Value.Flattens

namespace Query

end Query

end SearchFilter
