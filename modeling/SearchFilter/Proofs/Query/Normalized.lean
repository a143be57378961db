import SearchFilter.Proofs.Json.Depth
import SearchFilter.Proofs.Query.Accepted
/-!
# Queries written anew

A query goes no deeper than the value that it was decoded from, and that value as deep as its text.
So whatever text a query was read from, its compact text is read back as well.
-/
namespace SearchFilter

open Json (Value Fault Tracks ReadsDepth bind_eq_ok)

theorem Json.readTextValue_eq_ok {wanted content : String} {cs rest : List Char}
    (h : readTextValue wanted cs = .ok (content, rest)) :
    readScalar (skipBlanks cs) = .ok (.text content, rest) := by
  obtain ⟨inside, -, h⟩ | ⟨inside, -, h⟩ | ⟨s, behind, hscalar, h⟩ := readBy_eq_ok h
  · cases h
  · cases h
  · split at h
    · cases h
      exact hscalar
    · cases h

namespace OuterNode

variable {α : Type}

/-- A tag is read as a string and adds nothing else. -/
def ReadsTag (node node' : OuterNode α) (cs rest : List Char) : Prop :=
  node'.parts = node.parts ∧
    ∃ name, Json.readScalar (Json.skipBlanks cs) = .ok (.text name, rest)

theorem readKind_eq_ok {node node' : OuterNode α} {cs rest : List Char}
    (h : node.readKind cs = .ok (node', rest)) : node.ReadsTag node' cs rest := by
  obtain ⟨⟨name, behind⟩, hname, h⟩ := bind_eq_ok.mp h
  obtain ⟨kind, -, h⟩ := bind_eq_ok.mp h
  cases h
  exact ⟨rfl, name, Json.readTextValue_eq_ok hname⟩

theorem readItem_eq_ok {node node' : OuterNode Value} {cs rest : List Char}
    (h : node.readItem cs = .ok (node', rest)) :
    node.ReadsTag node' cs rest ∨
      ∃ value, Json.readValue (Json.nestingLimit - 1) cs = .ok (value, rest) ∧
        node'.parts = value :: node.parts := by
  rw [readItem] at h
  split at h
  · exact .inl (readKind_eq_ok h)
  · obtain ⟨⟨value, behind⟩, hvalue, h⟩ := bind_eq_ok.mp h
    cases h
    exact .inr ⟨value, hvalue, rfl⟩

theorem readMember_eq_ok {node node' : OuterNode (String × Value)} {cs rest : List Char}
    (h : node.readMember cs = .ok (node', rest)) :
    ∃ key behind before, Json.readText cs = .ok (key, behind) ∧
      Json.readColon behind = .ok before ∧
      (node.ReadsTag node' before rest ∨
        ∃ value, Json.readValue (Json.nestingLimit - 1) before = .ok (value, rest) ∧
          node'.parts = (key, value) :: node.parts) := by
  obtain ⟨⟨key, behind⟩, hkey, h⟩ := bind_eq_ok.mp h
  simp only at h
  split at h
  · split at h
    · cases h
    · obtain ⟨before, hcolon, h⟩ := bind_eq_ok.mp h
      exact ⟨key, behind, before, hkey, hcolon, .inl (readKind_eq_ok h)⟩
  · obtain ⟨before, hcolon, h⟩ := bind_eq_ok.mp h
    obtain ⟨⟨value, rest'⟩, hvalue, h⟩ := bind_eq_ok.mp h
    cases h
    exact ⟨key, behind, before, hkey, hcolon, .inr ⟨value, hvalue, rfl⟩⟩

theorem ReadsTag.deepest {node node' : OuterNode α} {cs rest : List Char}
    (h : node.ReadsTag node' cs rest) (level : Nat) :
    Json.deepest .outside level cs = max (level + 0) (Json.deepest .outside level rest) := by
  obtain ⟨name, hscalar⟩ := h.2
  exact (Json.flat_of_readScalar hscalar).deepest_eq_max level

theorem readItem_tracks : Tracks (fun node => Value.itemsNesting node.parts)
    (Json.nestingLimit - 1) .outside readItem := by
  intro node cs node' rest h
  obtain htag | ⟨value, hvalue, hparts⟩ := readItem_eq_ok h
  · exact ⟨0, Nat.zero_le _, by simp [htag.1], htag.deepest⟩
  · obtain ⟨hle, hdeepest⟩ := Json.readValue_depth _ _ _ _ hvalue
    refine ⟨value.nesting, hle, ?_, hdeepest⟩
    simp only [hparts, Value.itemsNesting]
    exact Nat.max_comm _ _

theorem readMember_tracks : Tracks (fun node => Value.entriesNesting node.parts)
    (Json.nestingLimit - 1) .quoted readMember := by
  intro node cs node' rest h
  obtain ⟨key, behind, before, hkey, hcolon, hread⟩ := readMember_eq_ok h
  have hquoted (level : Nat) :
      Json.deepest .quoted level cs = Json.deepest .outside level before := by
    rw [Json.readText_deepest hkey, Json.readColon_flat hcolon]
  obtain htag | ⟨value, hvalue, hparts⟩ := hread
  · refine ⟨0, Nat.zero_le _, by simp [htag.1], fun level => ?_⟩
    exact (hquoted level).trans (htag.deepest level)
  · obtain ⟨hle, hdeepest⟩ := Json.readValue_depth _ _ _ _ hvalue
    refine ⟨value.nesting, hle, ?_, fun level => (hquoted level).trans (hdeepest level)⟩
    simp only [hparts, Value.entriesNesting]
    exact Nat.max_comm _ _

end OuterNode

namespace TaggedNode

theorem read_cases {cs rest : List Char} {node : TaggedNode} (h : read cs = .ok (node, rest)) :
    (∃ inside outer kind, Json.skipBlanks cs = '[' :: inside ∧
      Json.readArray true OuterNode.readItem .empty inside = .ok (outer, rest) ∧
      node = .positional kind outer.parts.reverse) ∨
    ∃ inside outer kind, Json.skipBlanks cs = '{' :: inside ∧
      Json.readObject true OuterNode.readMember .empty inside = .ok (outer, rest) ∧
      node = .keyed kind outer.parts.reverse := by
  obtain ⟨inside, hopen, h⟩ | ⟨inside, hopen, h⟩ | ⟨s, behind, -, h⟩ := Json.readBy_eq_ok h
  · obtain ⟨⟨outer, behind⟩, houter, h⟩ := bind_eq_ok.mp h
    obtain ⟨node', hfinish, h⟩ := bind_eq_ok.mp h
    cases h
    obtain ⟨kind, -, rfl⟩ := OuterNode.finish_eq_ok.mp (Json.located_eq_ok.mp hfinish)
    exact .inl ⟨inside, outer, kind, hopen, houter, rfl⟩
  · obtain ⟨⟨outer, behind⟩, houter, h⟩ := bind_eq_ok.mp h
    obtain ⟨node', hfinish, h⟩ := bind_eq_ok.mp h
    cases h
    obtain ⟨kind, -, rfl⟩ := OuterNode.finish_eq_ok.mp (Json.located_eq_ok.mp hfinish)
    exact .inr ⟨inside, outer, kind, hopen, houter, rfl⟩
  · cases h

def nesting : TaggedNode → Nat
  | keyed _ entries => Value.entriesNesting entries + 1
  | positional _ items => Value.itemsNesting items + 1

theorem read_depth : ReadsDepth nesting Json.nestingLimit read := by
  intro cs node rest h
  obtain ⟨inside, outer, kind, hopen, houter, rfl⟩ | ⟨inside, outer, kind, hopen, houter, rfl⟩ :=
    read_cases h
  · obtain ⟨hle, hdeepest⟩ := (Json.readArray_tracks OuterNode.readItem_tracks).deepest rfl houter
    rw [nesting, Value.itemsNesting_reverse]
    refine ⟨Nat.succ_le_succ hle, fun level => ?_⟩
    rw [Json.deepest_open (.inl rfl) hopen, hdeepest]
    omega
  · obtain ⟨hle, hdeepest⟩ :=
      (Json.readObject_tracks OuterNode.readMember_tracks).deepest rfl houter
    rw [nesting, Value.entriesNesting_reverse]
    refine ⟨Nat.succ_le_succ hle, fun level => ?_⟩
    rw [Json.deepest_open (.inr rfl) hopen, hdeepest]
    omega

end TaggedNode

/-- A decoder whose results are written no deeper than the values that they were decoded from. -/
def FieldDecoder.NeverDeepens (decode : FieldDecoder) : Prop :=
  ∀ (type : FieldType) (value : Value) (x : type.Carrier), decode type value = .ok x →
    (type.toJson x).nesting ≤ value.nesting

variable {decode : FieldDecoder}

theorem FieldType.nesting_default {type : FieldType} {x : type.Carrier}
    (h : type.default? = some x) : (type.toJson x).nesting = 0 := by
  cases type with
  | bound =>
    cases h
    rfl
  | _ => cases h

theorem Field.Fits.nesting_le (hdecode : decode.NeverDeepens) {entries : List (String × Value)}
    {field : Field} {x : field.type.Carrier} (h : field.Fits decode entries x) :
    (field.type.toJson x).nesting ≤ Value.entriesNesting entries := by
  unfold Fits at h
  split at h
  · rw [FieldType.nesting_default h]
    exact Nat.zero_le _
  · next entry hone =>
    have hmem : entry ∈ entries.filter (·.1 = field.name) := by
      rw [hone]
      exact List.mem_cons_self
    have hentry := Value.entriesNesting_le.mp le_rfl entry (List.mem_filter.mp hmem).1
    exact (hdecode _ _ _ h).trans hentry
  · exact h.elim

theorem Row.Fits.nesting_le (hdecode : decode.NeverDeepens) {entries : List (String × Value)}
    {schema : Schema} {row : Row schema} (h : Row.Fits decode entries schema row) :
    Value.entriesNesting (Row.entries schema row) ≤ Value.entriesNesting entries := by
  induction schema with
  | nil => exact Nat.zero_le _
  | cons field fields ih =>
    obtain ⟨x, row⟩ := row
    exact Nat.max_le.mpr ⟨h.1.nesting_le hdecode, ih h.2⟩

namespace Record

theorem nesting_le_of_takeRow (hdecode : decode.NeverDeepens) {tooShort : Fault} {schema : Schema}
    {items rest : List Value} {row : Row schema}
    (h : takeRow decode tooShort schema items = .ok (row, rest)) :
    Value.entriesNesting (Row.entries schema row) ≤ Value.itemsNesting items := by
  induction schema generalizing items with
  | nil => exact Nat.zero_le _
  | cons field fields ih =>
    cases items with
    | nil =>
      rw [takeRow] at h
      split at h
      · next x hx =>
        obtain ⟨⟨row', rest'⟩, hrow, h⟩ := bind_eq_ok.mp h
        cases h
        exact Nat.max_le.mpr ⟨(FieldType.nesting_default hx).le, ih hrow⟩
      · cases h
    | cons item items =>
      rw [takeRow] at h
      obtain ⟨x, hx, h⟩ := bind_eq_ok.mp h
      obtain ⟨⟨row', rest'⟩, hrow, h⟩ := bind_eq_ok.mp h
      cases h
      have hfirst := hdecode _ _ _ hx
      have hothers := ih hrow
      rw [Row.entries, Value.entriesNesting, Value.itemsNesting]
      omega

variable {record : Record} {row : Row record.schema}

theorem nesting_le_of_ofItems (hdecode : decode.NeverDeepens) {items : List Value}
    (h : record.ofItems decode items = .ok row) :
    Value.entriesNesting (Row.entries record.schema row) ≤ Value.itemsNesting items := by
  obtain ⟨⟨row', rest⟩, hrow, h⟩ := bind_eq_ok.mp h
  simp only at h
  split at h
  · cases h
    exact nesting_le_of_takeRow hdecode hrow
  · cases h

theorem nesting_le_of_ofEntries (hdecode : decode.NeverDeepens)
    (hnames : (record.schema.map (·.name)).Nodup) {entries : List (String × Value)}
    (h : record.ofEntries decode entries = .ok row) :
    Value.entriesNesting (Row.entries record.schema row) ≤ Value.entriesNesting entries :=
  ((ofEntries_eq_ok hnames).mp h).nesting_le hdecode

theorem nesting_le_of_decode (hdecode : decode.NeverDeepens)
    (hnames : (record.schema.map (·.name)).Nodup) {value : Value}
    (h : record.decode decode value = .ok row) :
    (Value.object (Row.entries record.schema row)).nesting ≤ value.nesting := by
  cases value with
  | scalar s => cases h
  | array items => exact Nat.succ_le_succ (nesting_le_of_ofItems hdecode h)
  | object entries => exact Nat.succ_le_succ (nesting_le_of_ofEntries hdecode hnames h)

end Record

theorem nesting_le_of_decodeList {α : Type} {write : α → Value} {read : Value → Except Fault α}
    (hread : ∀ item a, read item = .ok a → (write a).nesting ≤ item.nesting) {value : Value}
    {as : List α} (h : decodeList read value = .ok as) :
    (Value.array (as.map write)).nesting ≤ value.nesting := by
  cases value with
  | scalar s => cases h
  | object entries => cases h
  | array items =>
    have hall := mapM_eq_ok_iff.mp h
    apply Nat.succ_le_succ
    rw [Value.itemsNesting_le]
    intro item hmem
    obtain ⟨a, ha, rfl⟩ := List.mem_map.mp hmem
    obtain ⟨item, hitem, hok⟩ := exists_of_mem_forall₂ hall a ha
    exact (hread item a hok).trans (Value.itemsNesting_le.mp le_rfl item hitem)

namespace TaggedNode

theorem nesting_le_of_ofValue {value : Value} {node : TaggedNode} (h : ofValue value = .ok node) :
    node.nesting ≤ value.nesting := by
  cases value with
  | scalar s => cases h
  | array items =>
    obtain ⟨tag, rest, kind, rfl, -, rfl⟩ := ofValue_array_eq_ok.mp h
    exact Nat.succ_le_succ (Nat.le_max_right _ _)
  | object entries =>
    obtain ⟨kind, -, rfl⟩ := ofValue_object_eq_ok.mp h
    apply Nat.succ_le_succ
    rw [Value.entriesNesting_le]
    intro entry hmem
    exact Value.entriesNesting_le.mp le_rfl entry (List.mem_filter.mp hmem).1

theorem nesting_le_of_decode (hdecode : decode.NeverDeepens) {node : TaggedNode} {query : Query}
    (h : node.decode decode = .ok query) : query.toJson.nesting ≤ node.nesting := by
  cases node with
  | keyed kind entries =>
    obtain ⟨row, hrow, h⟩ := bind_eq_ok.mp h
    cases h
    rw [kind.toJson_build, Value.nesting, Value.entriesNesting, Value.nesting, Nat.zero_max]
    exact Nat.succ_le_succ (Record.nesting_le_of_ofEntries hdecode kind.names_nodup hrow)
  | positional kind items =>
    obtain ⟨row, hrow, h⟩ := bind_eq_ok.mp h
    cases h
    rw [kind.toJson_build, Value.nesting, Value.entriesNesting, Value.nesting, Nat.zero_max]
    exact Nat.succ_le_succ (Record.nesting_le_of_ofItems hdecode hrow)

end TaggedNode

/-- Whatever has been decoded is written no deeper than it was. -/
theorem decodeField_neverDeepens (fuel : Nat) : (decodeField fuel).NeverDeepens := by
  induction fuel with
  | zero =>
    intro type value x h
    cases h
  | succ fuel ih =>
    intro type value x h
    cases type with
    | text | edits | occurrence => exact Nat.zero_le _
    | bound => cases x <;> exact Nat.zero_le _
    | bytes => exact nesting_le_of_decodeList (fun item b _ => Nat.zero_le _) h
    | word =>
      obtain ⟨⟨field, text, ⟨⟩⟩, hrow, h⟩ := bind_eq_ok.mp h
      cases h
      exact Record.nesting_le_of_decode ih (by decide) hrow
    | words => exact nesting_le_of_decodeList (ih .word) h
    | clause =>
      obtain ⟨⟨query, occurrence, ⟨⟩⟩, hrow, h⟩ := bind_eq_ok.mp h
      cases h
      exact Record.nesting_le_of_decode ih (by decide) hrow
    | clauses =>
      rw [FieldType.toJson, Query.clausesToJson_eq_map]
      exact nesting_le_of_decodeList (ih .clause) h
    | query =>
      obtain ⟨node, hnode, h⟩ := bind_eq_ok.mp h
      exact (TaggedNode.nesting_le_of_decode ih h).trans (TaggedNode.nesting_le_of_ofValue hnode)

namespace Query

theorem hasNamedTag_toJson (query : Query) : query.toJson.HasNamedTag := by
  rw [toJson_eq]
  exact ⟨query.kind.name, List.mem_cons_self⟩

/-- Whatever text a query was read from, its compact text is read back and goes no deeper. -/
theorem parse_compact_of_parse {text : String} {query : Query} (h : parse text = .ok query) :
    parse query.toJson.compact = .ok query ∧
      Json.textNesting query.toJson.compact ≤ Json.textNesting text ∧
      Json.textNesting text ≤ Json.nestingLimit := by
  obtain ⟨-, hjson⟩ := parse_eq_ok.mp h
  obtain ⟨node, rest, hread, hdecode, hrest⟩ := ofJson_eq_ok.mp hjson
  obtain ⟨hlimit, hdeepest⟩ := TaggedNode.read_depth _ _ _ hread
  have htext : Json.textNesting text = node.nesting := by
    have hend : Json.deepest .outside 0 rest = 0 := by rw [← Json.deepest_skipBlanks, hrest]; rfl
    rw [Json.textNesting, hdeepest, hend]
    simp
  have hnesting : query.toJson.nesting ≤ node.nesting :=
    TaggedNode.nesting_le_of_decode (decodeField_neverDeepens _) hdecode
  have hexact := query.toJson_isExact
  have hinverse := decodeField_inverts (Json.nestingLimit + 1) .query query
    (Nat.lt_succ_of_le (hnesting.trans hlimit))
  rw [Value.textNesting_compact hexact, htext]
  refine ⟨?_, hnesting, hlimit⟩
  exact (parse_eq_ok_iff hexact (Value.spelledBy_compact hexact)).mpr
    ⟨hnesting.trans hlimit, query.hasNamedTag_toJson, hinverse⟩

/-- A clause in an array, around a node whose tag is an index, with a note that nests deeper. -/
theorem parse_compact_of_parse_index :
    let clause : Value := .array [.object [("type", .integer 8)], .text "optional"]
    let note : Value := .array [.array [.array []]]
    let value : Value := .object
      [("note", note), ("clauses", .array [clause]), ("type", .text "boolean")]
    let text := String.ofList ('\n' :: value.write [' '])
    let query := boolean [⟨.leaf .matchAll, .optional⟩]
    parse text = .ok query ∧ parse query.toJson.compact = .ok query ∧
      Json.textNesting query.toJson.compact ≤ Json.textNesting text ∧
      Json.textNesting text ≤ Json.nestingLimit := by
  intro clause note value text query
  have hclause : clause.IsExact := .array (List.forall_mem_cons.mpr
    ⟨.object (List.forall_mem_singleton.mpr (.scalar ⟨by decide, by decide⟩)),
      List.forall_mem_singleton.mpr (.scalar trivial)⟩)
  have hnote : note.IsExact := .array (List.forall_mem_singleton.mpr
    (.array (List.forall_mem_singleton.mpr (.array (List.forall_mem_nil _)))))
  have hclauses : (Value.array [clause]).IsExact := .array (List.forall_mem_singleton.mpr hclause)
  have hexact : value.IsExact := .object (List.forall_mem_cons.mpr
    ⟨hnote, List.forall_mem_cons.mpr ⟨hclauses, List.forall_mem_singleton.mpr (.scalar trivial)⟩⟩)
  have hspelled : value.SpelledBy text := by
    refine ⟨[' '], ?_, rfl⟩
    rw [String.toList_ofList]
    exact Value.spells_write hexact [' ']
  have hdecode : decodeField (Json.nestingLimit + 1) .query value = .ok query := by rfl
  have hparse : parse text = .ok query :=
    (parse_eq_ok_iff hexact hspelled).mpr ⟨by decide, ⟨"boolean", by simp [tagKey]⟩, hdecode⟩
  exact ⟨hparse, parse_compact_of_parse hparse⟩

end Query

end SearchFilter
