import Mathlib.Algebra.BigOperators.Group.List.Basic
import SearchFilter.Proofs.Conversion.Size
import SearchFilter.Proofs.Json.Extent
import SearchFilter.Proofs.Query.Normalized
/-!
# How much a query can hold that was read from a text

Each of the filters that a query becomes stands for some characters of the text that the query was
read from: for brackets, for quotes, or for a separator in a field. So the filter of a parsed query
has no more filters in it than the text has characters.
-/
namespace SearchFilter

open Json (Value Fault Consumes ReadsExtent bind_eq_ok)

variable {separator : Char}

namespace Path

theorem one_le_segmentCount (separator : Char) (field : String) :
    1 ≤ segmentCount separator field :=
  Nat.le_max_left _ _

theorem length_segments_le (separator : Char) (cs : List Char) :
    (segments separator cs).2.length ≤ cs.length := by
  induction cs with
  | nil => exact le_rfl
  | cons c cs ih =>
    simp only [segments, List.length_cons]
    split
    · exact Nat.succ_le_succ ih
    · exact Nat.le_succ_of_le ih

theorem segmentCount_le (separator : Char) (field : String) :
    segmentCount separator field ≤ field.length + 1 := by
  have hkept := (List.rdropWhile_prefix List.isEmpty
    (l := field.toList.splitOn separator)).length_le
  have hsplit := length_segments_le separator field.toList
  rw [splitOn_eq_segments, List.length_cons] at hkept
  rw [String.length_toList] at hsplit
  rw [segmentCount, splitOn_eq_segments]
  omega

end Path

namespace Query

theorem clausesCount_eq_sum (clauses : List (Clause Query)) :
    clausesCount clauses = (clauses.map fun c => c.query.clauseCount).sum := by
  induction clauses with
  | nil => rfl
  | cons c clauses ih => rw [clausesCount, ih, List.map_cons, List.sum_cons]

theorem clauseCount_le_filterCount (separator : Char) (query : Query) :
    query.clauseCount ≤ query.filterCount separator := by
  cases query with
  | boolean clauses => exact le_rfl
  | leaf l =>
    cases l with
    | phrase words =>
      have hwords := List.length_le_sum_of_one_le
        (words.map fun w => Path.segmentCount separator w.field)
        (by simp [Path.one_le_segmentCount])
      rw [List.length_map] at hwords
      exact Nat.add_le_add_left hwords 1
    | _ => exact le_rfl

end Query

/-- How many filters the value of a field stands for at most. -/
def FieldType.count (separator : Char) : (type : FieldType) → type.Carrier → Nat
  | text, s => Path.segmentCount separator s
  | word, w => Path.segmentCount separator w.field
  | words, ws => (ws.map fun w => Path.segmentCount separator w.field).sum
  | clause, c => c.query.clauseCount
  | clauses, cs => Query.clausesCount cs
  | query, q => q.filterCount separator
  | bound, _ | bytes, _ | edits, _ | occurrence, _ => 0

theorem FieldType.count_default {type : FieldType} {x : type.Carrier}
    (h : type.default? = some x) : type.count separator x = 0 := by
  cases type with
  | bound => rfl
  | _ => cases h

def Row.count (separator : Char) : (schema : Schema) → Row schema → Nat
  | [], () => 0
  | field :: fields, (x, row) => field.type.count separator x + count separator fields row

theorem Kind.filterCount_build (kind : Kind) (row : Row kind.schema) :
    (kind.build row).filterCount separator ≤ Row.count separator kind.schema row + 2 := by
  cases kind with
  | phrase =>
    obtain ⟨words, ⟨⟩⟩ := row
    simp only [build, Query.filterCount, Leaf.rootCount, Row.count, FieldType.count]
    omega
  | boolean =>
    obtain ⟨clauses, ⟨⟩⟩ := row
    simp only [build, Query.filterCount, Row.count, FieldType.count]
    omega
  | numericRange | textRange =>
    obtain ⟨field, lower, upper, ⟨⟩⟩ := row
    have hfield := Path.one_le_segmentCount separator field
    simp only [build, Query.filterCount, Leaf.rootCount, Leaf.clauseCount, Row.count,
      FieldType.count]
    omega
  | _ =>
    simp only [build, Query.filterCount, Leaf.rootCount, Leaf.clauseCount]
    omega

/-- A decoder whose results stand for no more filters than the values take characters. -/
def FieldDecoder.IsBounded (separator : Char) (decode : FieldDecoder) : Prop :=
  ∀ (type : FieldType) (value : Value) (x : type.Carrier), decode type value = .ok x →
    type.count separator x ≤ value.extent

variable {decode : FieldDecoder}

theorem Field.Fits.count_le (hdecode : decode.IsBounded separator)
    {entries : List (String × Value)} {field : Field} {x : field.type.Carrier}
    (h : field.Fits decode entries x) :
    field.type.count separator x ≤
      Value.entriesExtent (entries.filter (·.1 = field.name)) := by
  unfold Fits at h
  split at h
  · rw [FieldType.count_default h]
    exact Nat.zero_le _
  · next entry hone =>
    rw [hone, Value.entriesExtent_eq_sum, List.map_singleton, List.sum_singleton]
    exact hdecode _ _ _ h
  · exact h.elim

theorem Row.Fits.filter_ne {name : String} {entries : List (String × Value)} {schema : Schema}
    (hname : name ∉ schema.map (·.name)) {row : Row schema}
    (h : Row.Fits decode entries schema row) :
    Row.Fits decode (entries.filter fun entry => !decide (entry.1 = name)) schema row := by
  induction schema with
  | nil => trivial
  | cons field fields ih =>
    rw [List.map_cons, List.mem_cons, not_or] at hname
    obtain ⟨x, row⟩ := row
    refine ⟨?_, ih hname.2 h.2⟩
    have hsame : (entries.filter fun entry => !decide (entry.1 = name)).filter
        (·.1 = field.name) = entries.filter (·.1 = field.name) := by
      rw [List.filter_filter]
      refine List.filter_congr fun entry _ => ?_
      by_cases hkey : entry.1 = field.name <;> simp [hkey, Ne.symm hname.1]
    unfold Field.Fits
    rw [hsame]
    exact h.1

/-- Fields of different names take different entries. -/
theorem Row.Fits.count_le (hdecode : decode.IsBounded separator) {entries : List (String × Value)}
    {schema : Schema} (hnames : (schema.map (·.name)).Nodup) {row : Row schema}
    (h : Row.Fits decode entries schema row) :
    Row.count separator schema row ≤ Value.entriesExtent entries := by
  induction schema generalizing entries with
  | nil => exact Nat.zero_le _
  | cons field fields ih =>
    rw [List.map_cons, List.nodup_cons] at hnames
    obtain ⟨x, row⟩ := row
    have hfirst := h.1.count_le hdecode
    have hothers := ih hnames.2 (h.2.filter_ne hnames.1)
    have hall := Value.entriesExtent_filter_add (fun entry => decide (entry.1 = field.name)) entries
    rw [Row.count]
    omega

namespace Record

theorem count_le_of_takeRow (hdecode : decode.IsBounded separator) {tooShort : Fault}
    {schema : Schema} {items rest : List Value} {row : Row schema}
    (h : takeRow decode tooShort schema items = .ok (row, rest)) :
    Row.count separator schema row ≤ Value.itemsExtent items := by
  induction schema generalizing items with
  | nil => exact Nat.zero_le _
  | cons field fields ih =>
    cases items with
    | nil =>
      rw [takeRow] at h
      split at h
      · next x hx =>
        obtain ⟨⟨row', rest'⟩, hrow, h⟩ := bind_eq_ok.mp h
        cases h
        rw [Row.count, FieldType.count_default hx, Nat.zero_add]
        exact ih hrow
      · cases h
    | cons item items =>
      rw [takeRow] at h
      obtain ⟨x, hx, h⟩ := bind_eq_ok.mp h
      obtain ⟨⟨row', rest'⟩, hrow, h⟩ := bind_eq_ok.mp h
      cases h
      exact Nat.add_le_add (hdecode _ _ _ hx) (ih hrow)

variable {record : Record} {row : Row record.schema}

theorem count_le_of_ofItems (hdecode : decode.IsBounded separator) {items : List Value}
    (h : record.ofItems decode items = .ok row) :
    Row.count separator record.schema row ≤ Value.itemsExtent items := by
  obtain ⟨⟨row', rest⟩, hrow, h⟩ := bind_eq_ok.mp h
  simp only at h
  split at h
  · cases h
    exact count_le_of_takeRow hdecode hrow
  · cases h

theorem count_le_of_ofEntries (hdecode : decode.IsBounded separator)
    (hnames : (record.schema.map (·.name)).Nodup) {entries : List (String × Value)}
    (h : record.ofEntries decode entries = .ok row) :
    Row.count separator record.schema row ≤ Value.entriesExtent entries :=
  ((ofEntries_eq_ok hnames).mp h).count_le hdecode hnames

theorem count_le_of_decode (hdecode : decode.IsBounded separator)
    (hnames : (record.schema.map (·.name)).Nodup) {value : Value}
    (h : record.decode decode value = .ok row) :
    Row.count separator record.schema row ≤ value.extent := by
  cases value with
  | scalar s => cases h
  | array items => exact (count_le_of_ofItems hdecode h).trans (Nat.le_add_right _ 2)
  | object entries => exact (count_le_of_ofEntries hdecode hnames h).trans (Nat.le_add_right _ 2)

end Record

theorem sum_le_of_decodeList {α : Type} {count : α → Nat} {read : Value → Except Fault α}
    (hread : ∀ item a, read item = .ok a → count a ≤ item.extent) {value : Value} {as : List α}
    (h : decodeList read value = .ok as) : (as.map count).sum ≤ value.extent := by
  cases value with
  | scalar s => cases h
  | object entries => cases h
  | array items =>
    rw [decodeList, mapM_eq_ok_iff] at h
    refine Nat.le_add_right_of_le ?_
    induction h with
    | nil => exact le_rfl
    | cons hfirst _ ih =>
      rw [List.map_cons, List.sum_cons, Value.itemsExtent]
      exact Nat.add_le_add (hread _ _ hfirst) ih

namespace TaggedNode

def extent : TaggedNode → Nat
  | keyed _ entries => Value.entriesExtent entries + 2
  | positional _ items => Value.itemsExtent items + 2

theorem extent_le_of_ofValue {value : Value} {node : TaggedNode} (h : ofValue value = .ok node) :
    node.extent ≤ value.extent := by
  cases value with
  | scalar s => cases h
  | array items =>
    obtain ⟨tag, rest, kind, rfl, -, rfl⟩ := ofValue_array_eq_ok.mp h
    exact Nat.add_le_add_right (Nat.le_add_left _ _) 2
  | object entries =>
    obtain ⟨kind, -, rfl⟩ := ofValue_object_eq_ok.mp h
    have hall := Value.entriesExtent_filter_add (fun entry => entry.1 != tagKey) entries
    rw [extent, Value.extent]
    omega

theorem filterCount_le_of_decode (hdecode : decode.IsBounded separator) {node : TaggedNode}
    {query : Query} (h : node.decode decode = .ok query) :
    query.filterCount separator ≤ node.extent := by
  cases node with
  | keyed kind entries =>
    obtain ⟨row, hrow, h⟩ := bind_eq_ok.mp h
    cases h
    have hfields := Record.count_le_of_ofEntries hdecode kind.names_nodup hrow
    exact (kind.filterCount_build row).trans (Nat.add_le_add_right hfields 2)
  | positional kind items =>
    obtain ⟨row, hrow, h⟩ := bind_eq_ok.mp h
    cases h
    have hfields := Record.count_le_of_ofItems hdecode hrow
    exact (kind.filterCount_build row).trans (Nat.add_le_add_right hfields 2)

end TaggedNode

theorem decodeField_isBounded (fuel : Nat) : (decodeField fuel).IsBounded separator := by
  induction fuel with
  | zero =>
    intro type value x h
    cases h
  | succ fuel ih =>
    intro type value x h
    cases type with
    | bound | bytes | edits | occurrence => exact Nat.zero_le _
    | text =>
      change decodeText value = .ok x at h
      unfold decodeText at h
      split at h
      · cases h
        exact (Path.segmentCount_le separator x).trans (Nat.le_succ _)
      · cases h
    | word =>
      obtain ⟨⟨field, text, ⟨⟩⟩, hrow, h⟩ := bind_eq_ok.mp h
      cases h
      exact (Nat.le_add_right _ _).trans (Record.count_le_of_decode ih (by decide) hrow)
    | words => exact sum_le_of_decodeList (ih .word) h
    | clause =>
      obtain ⟨⟨query, occurrence, ⟨⟩⟩, hrow, h⟩ := bind_eq_ok.mp h
      cases h
      -- the count of a field is that of a whole query, also where the query is in a clause
      exact (query.clauseCount_le_filterCount separator).trans
        (Record.count_le_of_decode ih (by decide) hrow)
    | clauses =>
      rw [FieldType.count, Query.clausesCount_eq_sum]
      exact sum_le_of_decodeList (ih .clause) h
    | query =>
      obtain ⟨node, hnode, h⟩ := bind_eq_ok.mp h
      exact (TaggedNode.filterCount_le_of_decode ih h).trans
        (TaggedNode.extent_le_of_ofValue hnode)

namespace OuterNode

variable {α : Type}

theorem ReadsTag.length_le {node node' : OuterNode α} {cs rest : List Char}
    (h : node.ReadsTag node' cs rest) : rest.length ≤ cs.length := by
  obtain ⟨name, hscalar⟩ := h.2
  exact (Nat.le_add_left _ _).trans (Json.readScalar_length hscalar)

theorem readItem_consumes : Consumes (fun node => Value.itemsExtent node.parts) 0 readItem := by
  intro node cs node' rest h
  obtain htag | ⟨value, hvalue, hparts⟩ := readItem_eq_ok h
  · have hle := htag.length_le
    simp only [htag.1]
    omega
  · have hle := Json.readValue_extent _ _ _ _ hvalue
    simp only [hparts, Value.itemsExtent]
    omega

theorem readMember_consumes :
    Consumes (fun node => Value.entriesExtent node.parts) 0 readMember := by
  intro node cs node' rest h
  obtain ⟨key, behind, before, hkey, hcolon, hread⟩ := readMember_eq_ok h
  have hkey := Json.readText_length hkey
  have hcolon := Json.readColon_length hcolon
  obtain htag | ⟨value, hvalue, hparts⟩ := hread
  · have hle := htag.length_le
    simp only [htag.1]
    omega
  · have hle := Json.readValue_extent _ _ _ _ hvalue
    simp only [hparts, Value.entriesExtent]
    omega

end OuterNode

theorem TaggedNode.read_extent : ReadsExtent extent read := by
  intro cs node rest h
  obtain ⟨inside, outer, kind, hopen, houter, rfl⟩ | ⟨inside, outer, kind, hopen, houter, rfl⟩ :=
    read_cases h
  · have hlt := Json.length_lt_of_skipBlanks hopen
    have hle := Json.readArray_consumes OuterNode.readItem_consumes _ _ _ _ houter
    simp only [OuterNode.empty, Value.itemsExtent] at hle
    rw [extent, Value.itemsExtent_reverse]
    omega
  · have hlt := Json.length_lt_of_skipBlanks hopen
    have hle := Json.readObject_consumes OuterNode.readMember_consumes _ _ _ _ houter
    simp only [OuterNode.empty, Value.entriesExtent] at hle
    rw [extent, Value.entriesExtent_reverse]
    omega

/-- A query that was read from a text becomes no more filters than the text has characters. -/
theorem Query.filterCount_le_of_parse (separator : Char) {text : String} {query : Query}
    (h : parse text = .ok query) : query.filterCount separator ≤ text.length := by
  obtain ⟨-, hjson⟩ := parse_eq_ok.mp h
  obtain ⟨node, rest, hread, hdecode, -⟩ := ofJson_eq_ok.mp hjson
  have hdecoded : query.filterCount separator ≤ node.extent :=
    TaggedNode.filterCount_le_of_decode (decodeField_isBounded _) hdecode
  have htext := TaggedNode.read_extent _ _ _ hread
  rw [String.length_toList] at htext
  exact hdecoded.trans (Nat.le_of_add_right_le htext)

end SearchFilter
