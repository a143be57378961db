import SearchFilter.Proofs.Json.Reading
import SearchFilter.Proofs.Query.Record
import SearchFilter.Proofs.Query.Tree
import SearchFilter.Query
/-!
# Encoded queries

Every node is a row behind a tag, under distinct keys. Encoded values hold no reals, so their texts
spell them exactly.
-/
namespace SearchFilter

open Json (Value Fault)

def FieldType.toJson : (type : FieldType) → type.Carrier → Value
  | text, t => .text t
  | bound, b => boundToJson b
  | bytes, bs => bytesToJson bs
  | edits, n => .integer n.toNat
  | occurrence, o => o.toJson
  | word, w => w.toJson
  | words, ws => .array (ws.map PhraseWord.toJson)
  | clause, c => .object [("query", c.query.toJson), ("occurrence", c.occurrence.toJson)]
  | clauses, cs => .array (Query.clausesToJson cs)
  | query, q => q.toJson

/-- The entries of a row in the order of its fields. -/
def Row.entries : (schema : Schema) → Row schema → List (String × Value)
  | [], () => []
  | field :: fields, (value, row) => (field.name, field.type.toJson value) :: entries fields row

theorem Kind.toJson_build (kind : Kind) (row : Row kind.schema) :
    (kind.build row).toJson =
      .object ((tagKey, .text kind.name) :: Row.entries kind.schema row) := by
  cases kind <;> rfl

namespace Leaf

def row : (l : Leaf) → Row l.kind.schema
  | term field text => (field, text, ())
  | phrase words => (words, ())
  | wildcard field pattern => (field, pattern, ())
  | startsWith field start => (field, start, ())
  | regexp field pattern => (field, pattern, ())
  | fuzzy field text maxEdits => (field, text, maxEdits, ())
  | numericRange field lower upper => (field, lower, upper, ())
  | textRange field lower upper => (field, lower, upper, ())
  | matchAll => ()
  | foreign kind => (kind, ())

theorem build_row (l : Leaf) : l.kind.build l.row = .leaf l := by cases l <;> rfl

end Leaf

namespace Query

def kind : Query → Kind
  | leaf l => l.kind
  | boolean _ => .boolean

def row : (query : Query) → Row query.kind.schema
  | leaf l => l.row
  | boolean clauses => (clauses, ())

theorem build_row (query : Query) : query.kind.build query.row = query := by
  cases query with
  | leaf l => exact l.build_row
  | boolean clauses => rfl

theorem toJson_eq (query : Query) :
    query.toJson =
      .object ((tagKey, .text query.kind.name) :: Row.entries query.kind.schema query.row) := by
  rw [← query.kind.toJson_build, query.build_row]

theorem clausesToJson_eq_map (clauses : List (Clause Query)) :
    clausesToJson clauses = clauses.map (FieldType.toJson .clause) := by
  induction clauses with
  | nil => rfl
  | cons c clauses ih => rw [clausesToJson, ih]; rfl

end Query

abbrev FieldType.IsPlain (type : FieldType) : Prop :=
  type ∉ [clause, clauses, query]

theorem Kind.isPlain_of_mem_schema {kind : Kind} (h : kind ≠ .boolean) :
    ∀ field ∈ kind.schema, field.type.IsPlain := by
  revert h
  cases kind <;> decide

theorem Leaf.kind_ne_boolean (l : Leaf) : l.kind ≠ .boolean := by
  cases l <;> exact Kind.noConfusion

theorem bytesToJson_isExact (bytes : List UInt8) : (bytesToJson bytes).IsExact := by
  apply Value.IsExact.array
  intro item hmem
  obtain ⟨b, -, rfl⟩ := List.mem_map.mp hmem
  have hlt := b.toNat_lt
  exact .scalar ⟨by omega, by omega⟩

theorem PhraseWord.toJson_isExact (word : PhraseWord) : word.toJson.IsExact := by
  apply Value.IsExact.object
  intro entry hmem
  simp only [List.mem_cons, List.not_mem_nil, or_false] at hmem
  rcases hmem with rfl | rfl <;> exact .scalar trivial

theorem FieldType.toJson_isExact_of_isPlain {type : FieldType} (h : type.IsPlain)
    (x : type.Carrier) : (type.toJson x).IsExact := by
  cases type with
  | text => exact .scalar trivial
  | bound => cases x <;> exact .scalar trivial
  | bytes => exact bytesToJson_isExact x
  | edits =>
    have hlt := UInt32.toNat_lt x
    exact .scalar ⟨by omega, by omega⟩
  | occurrence => exact .scalar trivial
  | word => exact x.toJson_isExact
  | words =>
    apply Value.IsExact.array
    intro item hmem
    obtain ⟨word, -, rfl⟩ := List.mem_map.mp hmem
    exact word.toJson_isExact
  | clause | clauses | query => exact absurd h (by decide)

theorem Row.entries_isExact {schema : Schema} (each : ∀ field ∈ schema, field.type.IsPlain)
    (row : Row schema) : ∀ entry ∈ Row.entries schema row, entry.2.IsExact := by
  induction schema with
  | nil => exact List.forall_mem_nil _
  | cons field fields ih =>
    rw [List.forall_mem_cons] at each
    exact List.forall_mem_cons.mpr
      ⟨FieldType.toJson_isExact_of_isPlain each.1 row.1, ih each.2 row.2⟩

namespace Query

theorem toJson_isExact (query : Query) : query.toJson.IsExact := by
  induction query with
  | leaf l =>
    rw [toJson_eq]
    exact .object (List.forall_mem_cons.mpr
      ⟨.scalar trivial, Row.entries_isExact (Kind.isPlain_of_mem_schema l.kind_ne_boolean) l.row⟩)
  | boolean clauses ih =>
    rw [toJson, clausesToJson_eq_map]
    have hclauses : ∀ item ∈ clauses.map (FieldType.toJson .clause), item.IsExact := by
      intro item hmem
      obtain ⟨c, hc, rfl⟩ := List.mem_map.mp hmem
      exact .object (List.forall_mem_cons.mpr
        ⟨ih c hc, List.forall_mem_singleton.mpr (.scalar trivial)⟩)
    exact .object (List.forall_mem_cons.mpr
      ⟨.scalar trivial, List.forall_mem_singleton.mpr (.array hclauses)⟩)

end Query

theorem Row.fits_cons {decode : FieldDecoder} {schema : Schema} {entry : String × Value}
    (h : entry.1 ∉ schema.map (·.name)) (entries : List (String × Value)) (row : Row schema) :
    Row.Fits decode (entry :: entries) schema row ↔ Row.Fits decode entries schema row := by
  induction schema with
  | nil => rfl
  | cons field fields ih =>
    rw [List.map_cons, List.mem_cons, not_or] at h
    have hfilter : (entry :: entries).filter (·.1 = field.name) =
        entries.filter (·.1 = field.name) := List.filter_cons_of_neg (by simpa using h.1)
    rw [Row.Fits, Row.Fits, ih h.2, Field.Fits, Field.Fits, hfilter]

theorem Row.entries_keys {schema : Schema} (row : Row schema) :
    (Row.entries schema row).map (·.1) = schema.map (·.name) := by
  induction schema with
  | nil => rfl
  | cons field fields ih => rw [Row.entries, List.map_cons, List.map_cons, ih]

theorem decodeNat_integer {limit n : Nat} (h : n < limit) (wanted : String) :
    decodeNat limit wanted (.integer n) = .ok n := by
  rw [decodeNat, if_pos ⟨Int.natCast_nonneg n, Int.ofNat_lt.mpr h⟩, Int.toNat_natCast]

theorem decodeByte_integer (b : UInt8) : decodeByte (.integer b.toNat) = .ok b := by
  rw [decodeByte, decodeNat_integer b.toNat_lt]
  simp [Functor.map, Except.map]

theorem decodeEdits_integer (n : UInt32) : decodeEdits (.integer n.toNat) = .ok n := by
  rw [decodeEdits, decodeNat_integer n.toNat_lt]
  simp [Functor.map, Except.map]

theorem Kind.names_nodup (kind : Kind) : (kind.schema.map (·.name)).Nodup := by
  cases kind <;> decide

theorem Kind.tagKey_notMem (kind : Kind) : tagKey ∉ kind.schema.map (·.name) := by
  cases kind <;> decide

namespace Query

theorem row_key_ne_tagKey (query : Query) :
    ∀ entry ∈ Row.entries query.kind.schema query.row, entry.1 ≠ tagKey := by
  intro entry hmem hkey
  apply query.kind.tagKey_notMem
  rw [← Row.entries_keys query.row, ← hkey]
  exact List.mem_map_of_mem hmem

end Query

theorem nesting_lt_of_mem {items : List Value} {fuel : Nat}
    (h : (Value.array items).nesting < fuel + 1) : ∀ item ∈ items, item.nesting < fuel := by
  intro item hmem
  rw [Value.nesting] at h
  have hle := Value.itemsNesting_le.mp le_rfl item hmem
  omega

end SearchFilter
