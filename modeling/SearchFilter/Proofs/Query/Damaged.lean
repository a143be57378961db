import SearchFilter.Proofs.Query.Accepted
/-!
# Damaged queries

An object of an encoded query that lacks an entry, or holds a second copy of one, is refused, and
with it everything around it.
-/
namespace SearchFilter

open Json (Value Fault bind_eq_ok)

/-- One object of the value, at any depth, loses an entry or gains a second copy of one. Bounds of
text ranges are not lost, for they may be left out. -/
inductive Json.Value.Damages : Value → Value → Prop
  | delete {before after : List (String × Value)} {entry : String × Value}
      (hrequired : ¬((tagKey, .text Kind.textRange.name) ∈ before ++ entry :: after ∧
        (entry.1 = "lower" ∨ entry.1 = "upper"))) :
      Damages (.object (before ++ entry :: after)) (.object (before ++ after))
  | copy {before after : List (String × Value)} {entry : String × Value}
      (h : entry ∈ before ++ after) :
      Damages (.object (before ++ after)) (.object (before ++ entry :: after))
  | item {before after : List Value} {item item' : Value} (h : Damages item item') :
      Damages (.array (before ++ item :: after)) (.array (before ++ item' :: after))
  | entry {before after : List (String × Value)} {key : String} {value value' : Value}
      (h : Damages value value') :
      Damages (.object (before ++ (key, value) :: after))
        (.object (before ++ (key, value') :: after))

/-- What damage to an object does to its entries: one of them is lost, doubled or damaged itself,
and those under other keys stay. -/
structure EntryDamage (entries entries' : List (String × Value)) (entry : String × Value) :
    Prop where
  mem : entry ∈ entries
  others : ∀ key, key ≠ entry.1 → entries'.filter (·.1 = key) = entries.filter (·.1 = key)
  found : (entries'.filter (·.1 = entry.1) = [] ∧
      ¬((tagKey, .text Kind.textRange.name) ∈ entries ∧ (entry.1 = "lower" ∨ entry.1 = "upper"))) ∨
    2 ≤ (entries'.filter (·.1 = entry.1)).length ∨
    ∃ value, entries'.filter (·.1 = entry.1) = [(entry.1, value)] ∧ entry.2.Damages value

namespace Json.Value.Damages

theorem isExact {value other : Value} (h : value.Damages other) (hvalue : value.IsExact) :
    other.IsExact := by
  induction h with
  | delete _ =>
    obtain - | - | ⟨hentries⟩ := hvalue
    refine .object fun entry hmem => hentries entry ?_
    simp only [List.mem_append, List.mem_cons] at hmem ⊢
    tauto
  | copy h =>
    obtain - | - | ⟨hentries⟩ := hvalue
    refine .object fun entry hmem => ?_
    rw [List.mem_append, List.mem_cons] at hmem
    obtain hmem | rfl | hmem := hmem
    · exact hentries entry (List.mem_append_left _ hmem)
    · exact hentries entry h
    · exact hentries entry (List.mem_append_right _ hmem)
  | item _ ih =>
    obtain - | ⟨hitems⟩ := hvalue
    refine .array fun item hmem => ?_
    rw [List.mem_append, List.mem_cons] at hmem
    obtain hmem | rfl | hmem := hmem
    · exact hitems item (List.mem_append_left _ hmem)
    · exact ih (hitems _ (List.mem_append_right _ List.mem_cons_self))
    · exact hitems item (List.mem_append_right _ (List.mem_cons_of_mem _ hmem))
  | entry _ ih =>
    obtain - | - | ⟨hentries⟩ := hvalue
    refine .object fun entry hmem => ?_
    rw [List.mem_append, List.mem_cons] at hmem
    obtain hmem | rfl | hmem := hmem
    · exact hentries entry (List.mem_append_left _ hmem)
    · exact ih (hentries _ (List.mem_append_right _ List.mem_cons_self))
    · exact hentries entry (List.mem_append_right _ (List.mem_cons_of_mem _ hmem))

theorem filter_key_eq_nil {before after : List (String × Value)} {entry : String × Value}
    (hkeys : ((before ++ entry :: after).map Prod.fst).Nodup) :
    before.filter (·.1 = entry.1) = [] ∧ after.filter (·.1 = entry.1) = [] := by
  rw [List.map_append, List.map_cons, List.nodup_append, List.nodup_cons] at hkeys
  obtain ⟨-, ⟨hafter, -⟩, hbefore⟩ := hkeys
  constructor
  · apply List.filter_eq_nil_iff.mpr
    intro other hmem hkey
    exact hbefore _ (List.mem_map_of_mem hmem) _ List.mem_cons_self (of_decide_eq_true hkey)
  · apply List.filter_eq_nil_iff.mpr
    intro other hmem hkey
    exact hafter (of_decide_eq_true hkey ▸ List.mem_map_of_mem hmem)

theorem exists_entryDamage {entries : List (String × Value)}
    (hkeys : (entries.map Prod.fst).Nodup) {value : Value}
    (h : (Value.object entries).Damages value) :
    ∃ entries' entry, value = .object entries' ∧ EntryDamage entries entries' entry := by
  cases h with
  | @delete before after entry hrequired =>
    obtain ⟨hbefore, hafter⟩ := filter_key_eq_nil hkeys
    refine ⟨_, entry, rfl, by simp, fun key hkey => ?_, .inl ⟨?_, hrequired⟩⟩
    · simp [hkey.symm]
    · rw [List.filter_append, hbefore, hafter, List.append_nil]
  | @copy before after entry hmem =>
    refine ⟨_, entry, rfl, hmem, fun key hkey => ?_, .inr (.inl ?_)⟩
    · simp [hkey.symm]
    · have hfound : entry ∈ (before ++ after).filter (·.1 = entry.1) := by simpa using hmem
      have hpos := List.length_pos_of_mem hfound
      simp only [List.filter_append, List.length_append, List.filter_cons, decide_true, if_true,
        List.length_cons] at hpos ⊢
      omega
  | @entry before after key value value' h =>
    obtain ⟨hbefore, hafter⟩ := filter_key_eq_nil hkeys
    refine ⟨_, (key, value), rfl, by simp, fun key' hkey => ?_, .inr (.inr ⟨value', ?_, h⟩)⟩
    · simp [Ne.symm hkey]
    · rw [List.filter_append, List.filter_cons_of_pos (by simp), hbefore, hafter, List.nil_append]

theorem exists_object {entries : List (String × Value)} {value : Value}
    (h : (Value.object entries).Damages value) : ∃ entries', value = .object entries' := by
  cases h <;> exact ⟨_, rfl⟩

theorem exists_item {items : List Value} {value : Value} (h : (Value.array items).Damages value) :
    ∃ items', value = .array items' ∧ ∃ item ∈ items, ∃ item' ∈ items', item.Damages item' := by
  cases h with
  | item h => exact ⟨_, rfl, _, by simp, _, by simp, h⟩

end Json.Value.Damages

def FieldDecoder.RefusesDamage (decode : FieldDecoder) : Prop :=
  ∀ (type : FieldType) (x : type.Carrier) (value : Value), (type.toJson x).Damages value →
    ∀ y, decode type value ≠ .ok y

variable {decode : FieldDecoder}

theorem decodeList_refusesDamage {α : Type} {write : α → Value} {read : Value → Except Fault α}
    {as : List α} {value : Value} (h : (Value.array (as.map write)).Damages value)
    (hread : ∀ a item, (write a).Damages item → ∀ b, read item ≠ .ok b) (bs : List α) :
    decodeList read value ≠ .ok bs := by
  intro hok
  obtain ⟨items, rfl, item, hitem, item', hitem', hdamage⟩ := h.exists_item
  obtain ⟨a, -, rfl⟩ := List.mem_map.mp hitem
  have hall := (mapM_eq_ok_iff.mp hok).flip
  obtain ⟨b, -, hb⟩ := exists_of_mem_forall₂ hall item' hitem'
  exact hread a item' hdamage b hb

theorem Row.exists_field {schema : Schema} (row : Row schema) :
    ∀ entry ∈ Row.entries schema row, ∃ field ∈ schema, ∃ x, entry =
      (field.name, field.type.toJson x) := by
  induction schema with
  | nil => exact List.forall_mem_nil _
  | cons field fields ih =>
    obtain ⟨x, row⟩ := row
    refine List.forall_mem_cons.mpr ⟨⟨field, List.mem_cons_self, x, rfl⟩, fun entry hmem => ?_⟩
    obtain ⟨other, hother, h⟩ := ih row entry hmem
    exact ⟨other, List.mem_cons_of_mem _ hother, h⟩

theorem Row.Fits.field {entries : List (String × Value)} {schema : Schema} {row : Row schema}
    (h : Row.Fits decode entries schema row) :
    ∀ field ∈ schema, ∃ value, field.Fits decode entries value := by
  induction schema with
  | nil => exact List.forall_mem_nil _
  | cons field fields ih =>
    obtain ⟨value, row⟩ := row
    exact List.forall_mem_cons.mpr ⟨⟨value, h.1⟩, ih h.2⟩

/-- What is found under the key of a field is nothing though it must be given, too much, or
damaged. -/
inductive Field.Damaged (field : Field) : List (String × Value) → Prop
  | lost (h : field.type.default? = none) : Damaged field []
  | doubled {found : List (String × Value)} (h : 2 ≤ found.length) : Damaged field found
  | inside {x : field.type.Carrier} {value : Value} (h : (field.type.toJson x).Damages value) :
      Damaged field [(field.name, value)]

theorem EntryDamage.field {field : Field} {x : field.type.Carrier}
    {entries entries' : List (String × Value)}
    (h : EntryDamage entries entries' (field.name, field.type.toJson x))
    (hrequired : ¬((tagKey, .text Kind.textRange.name) ∈ entries ∧
      (field.name = "lower" ∨ field.name = "upper")) → field.type.default? = none) :
    field.Damaged (entries'.filter (·.1 = field.name)) := by
  obtain ⟨hnone, hlost⟩ | htwo | ⟨value, hone, hdamage⟩ := h.found
  · rw [hnone]
    exact .lost (hrequired hlost)
  · exact .doubled htwo
  · rw [hone]
    exact .inside hdamage

theorem Field.Damaged.not_fits (hdecode : decode.RefusesDamage) {field : Field}
    {entries : List (String × Value)} (h : field.Damaged (entries.filter (·.1 = field.name)))
    (value : field.type.Carrier) : ¬field.Fits decode entries value := by
  rw [Field.Fits]
  generalize entries.filter (·.1 = field.name) = found at h ⊢
  cases h with
  | lost hdefault => simp [hdefault]
  | doubled htwo =>
    intro hfits
    split at hfits
    · simp at htwo
    · simp at htwo
    · exact hfits
  | inside hdamage => exact hdecode field.type _ _ hdamage value

/-- No row is read from entries that damage a field. -/
theorem Record.ofEntries_ne_ok (hdecode : decode.RefusesDamage) {record : Record}
    (hnames : (record.schema.map (·.name)).Nodup) {field : Field} (hfield : field ∈ record.schema)
    {entries : List (String × Value)} (h : field.Damaged (entries.filter (·.1 = field.name)))
    (row : Row record.schema) : record.ofEntries decode entries ≠ .ok row := by
  intro hok
  obtain ⟨value, hfits⟩ := ((Record.ofEntries_eq_ok hnames).mp hok).field field hfield
  exact h.not_fits hdecode value hfits

theorem FieldType.default?_eq_none {type : FieldType} (h : type ≠ .bound) :
    type.default? = none := by
  cases type <;> first | rfl | exact absurd rfl h

theorem Kind.eq_textRange_of_bound {kind : Kind} : ∀ field ∈ kind.schema, field.type = .bound →
    kind = .textRange ∧ (field.name = "lower" ∨ field.name = "upper") := by
  cases kind <;> decide

theorem Record.decode_refusesDamage (hdecode : decode.RefusesDamage) {record : Record}
    (hnames : (record.schema.map (·.name)).Nodup)
    (hbound : ∀ field ∈ record.schema, field.type ≠ .bound) {row : Row record.schema}
    {value : Value} (h : (Value.object (Row.entries record.schema row)).Damages value)
    (row' : Row record.schema) : record.decode decode value ≠ .ok row' := by
  obtain ⟨entries, entry, rfl, hdamage⟩ := h.exists_entryDamage (by rwa [Row.entries_keys])
  obtain ⟨field, hfield, x, rfl⟩ := row.exists_field entry hdamage.mem
  have hrequired := FieldType.default?_eq_none (hbound field hfield)
  exact Record.ofEntries_ne_ok hdecode hnames hfield (hdamage.field fun _ => hrequired) row'

namespace TaggedNode

theorem findTag_ne_ok {entries : List (String × Value)}
    (h : entries.filter (·.1 = tagKey) = [] ∨ 2 ≤ (entries.filter (·.1 = tagKey)).length)
    (kind : Kind) : findTag entries ≠ .ok kind := by
  intro hok
  obtain ⟨tag, htag, -⟩ := findTag_eq_ok.mp hok
  change entries.filter (·.1 = tagKey) = [tag] at htag
  simp [htag] at h

theorem filter_ne_tagKey_filter {key : String} (h : key ≠ tagKey)
    (entries : List (String × Value)) :
    (entries.filter (·.1 != tagKey)).filter (·.1 = key) = entries.filter (·.1 = key) := by
  rw [List.filter_filter]
  apply List.filter_congr
  rintro ⟨key', value⟩ -
  by_cases hkey : key' = key <;> simp [hkey, h]

theorem refusesDamage (hdecode : decode.RefusesDamage) {query : Query} {value : Value}
    (h : query.toJson.Damages value) (query' : Query) :
    (ofValue value >>= fun node => node.decode decode) ≠ .ok query' := by
  rw [Query.toJson_eq] at h
  have hkeys : (((tagKey, Value.text query.kind.name) ::
      Row.entries query.kind.schema query.row).map Prod.fst).Nodup := by
    rw [List.map_cons, Row.entries_keys, List.nodup_cons]
    exact ⟨query.kind.tagKey_notMem, query.kind.names_nodup⟩
  obtain ⟨entries, entry, rfl, hdamage⟩ := h.exists_entryDamage hkeys
  intro hok
  obtain ⟨node, hnode, hquery⟩ := bind_eq_ok.mp hok
  obtain ⟨kind, htag, rfl⟩ := ofValue_object_eq_ok.mp hnode
  obtain rfl | hentry := List.mem_cons.mp hdamage.mem
  · -- the tag is lost or doubled, for a name has nothing inside to damage
    refine findTag_ne_ok ?_ kind htag
    obtain ⟨hnone, -⟩ | htwo | ⟨value, -, hvalue⟩ := hdamage.found
    · exact .inl hnone
    · exact .inr htwo
    · cases hvalue
  · obtain ⟨field, hfield, x, rfl⟩ := query.row.exists_field entry hentry
    have hname : field.name ≠ tagKey := by
      intro hkey
      exact query.kind.tagKey_notMem (hkey ▸ List.mem_map_of_mem hfield)
    -- the tag is as it was, and so is the kind
    obtain rfl : kind = query.kind := by
      have hothers : (Row.entries query.kind.schema query.row).filter (·.1 = tagKey) = [] :=
        List.filter_eq_nil_iff.mpr fun entry hmem => by
          simpa using query.row_key_ne_tagKey entry hmem
      have htags := hdamage.others tagKey hname.symm
      rw [List.filter_cons_of_pos (by simp), hothers] at htags
      have hkind := findTag_eq_ok.mpr ⟨_, htags, decodeTag_text.mpr rfl⟩
      exact Except.ok.inj (htag.symm.trans hkind)
    have hlost : field.Damaged (entries.filter (·.1 = field.name)) := by
      refine hdamage.field fun hrequired => FieldType.default?_eq_none fun hbound => hrequired ?_
      obtain ⟨hkind, hkey⟩ := Kind.eq_textRange_of_bound field hfield hbound
      exact ⟨by simp [hkind], hkey⟩
    rw [← filter_ne_tagKey_filter hname] at hlost
    obtain ⟨row, hrow, -⟩ := bind_eq_ok.mp hquery
    exact Record.ofEntries_ne_ok hdecode query.kind.names_nodup hfield hlost row hrow

end TaggedNode

/-- However deep the damage is, it is not overlooked. -/
theorem decodeField_refusesDamage (fuel : Nat) : (decodeField fuel).RefusesDamage := by
  induction fuel with
  | zero =>
    intro type x value h y hok
    cases hok
  | succ fuel ih =>
    intro type x value h y hok
    cases type with
    -- what is written as a scalar has no object inside to damage
    | text | edits | occurrence => cases h
    | bound => cases x <;> cases h
    | bytes =>
      refine decodeList_refusesDamage h (fun b item hitem => ?_) y hok
      cases hitem
    | word =>
      have h : (Value.object (Row.entries wordRecord.schema (x.field, x.text, ()))).Damages value :=
        h
      simp only [decodeField, bind_eq_ok] at hok
      obtain ⟨row, hrow, -⟩ := hok
      exact Record.decode_refusesDamage ih (by decide) (by decide) h row hrow
    | words => exact decodeList_refusesDamage h (ih .word) y hok
    | clause =>
      have h : (Value.object
        (Row.entries clauseRecord.schema (x.query, x.occurrence, ()))).Damages value := h
      simp only [decodeField, bind_eq_ok] at hok
      obtain ⟨row, hrow, -⟩ := hok
      exact Record.decode_refusesDamage ih (by decide) (by decide) h row hrow
    | clauses =>
      rw [FieldType.toJson, Query.clausesToJson_eq_map] at h
      exact decodeList_refusesDamage h (ih .clause) y hok
    | query => exact TaggedNode.refusesDamage ih h y hok

namespace Query

/-- A query that lost an entry or got one twice, at any depth, is refused as invalid. -/
theorem parse_of_damages {query : Query} {value : Value} {text : String}
    (h : query.toJson.Damages value) (hspelled : value.SpelledBy text) :
    ∃ fault location?, parse text = .error (.invalid fault location?) := by
  have hexact := h.isExact query.toJson_isExact
  have hnot (other : Query) : parse text ≠ .ok other := by
    intro hok
    obtain ⟨-, -, hdecode⟩ := (parse_eq_ok_iff hexact hspelled).mp hok
    exact decodeField_refusesDamage (Json.nestingLimit + 1) .query query value h other hdecode
  obtain ⟨entries, rfl⟩ : ∃ entries, value = .object entries := by
    rw [toJson_eq] at h
    exact h.exists_object
  exact parse_invalid hspelled hnot

/-- A word of a phrase without its text, inside a clause. -/
theorem parse_of_damages_phrase :
    let words : List PhraseWord := [⟨"body", "quick"⟩, ⟨"body", "fox"⟩]
    let query := boolean [⟨.leaf (.phrase words), .required⟩]
    let word : Value := .object [("field", .text "body")]
    let phrase : Value := .object
      [("type", .text "phrase"), ("terms", .array [(PhraseWord.mk "body" "quick").toJson, word])]
    let clause : Value := .object [("query", phrase), ("occurrence", .text "required")]
    let value : Value := .object [("type", .text "boolean"), ("clauses", .array [clause])]
    query.toJson.Damages value ∧ value.SpelledBy value.compact ∧
      ∃ fault location?, parse value.compact = .error (.invalid fault location?) := by
  intro words query word phrase clause value
  have hword : (PhraseWord.mk "body" "fox").toJson.Damages word :=
    @Value.Damages.delete [("field", .text "body")] [] ("text", .text "fox")
      fun h => absurd h.2 (by decide)
  have hphrase : (Leaf.phrase words).toJson.Damages phrase :=
    @Value.Damages.entry [("type", .text "phrase")] [] "terms" _ _
      (@Value.Damages.item [(PhraseWord.mk "body" "quick").toJson] [] _ _ hword)
  have hclause : (FieldType.toJson .clause ⟨.leaf (.phrase words), .required⟩).Damages clause :=
    @Value.Damages.entry [] [("occurrence", .text "required")] "query" _ _ hphrase
  have hvalue : query.toJson.Damages value :=
    @Value.Damages.entry [("type", .text "boolean")] [] "clauses" _ _
      (@Value.Damages.item [] [] _ _ hclause)
  have hspelled := Json.Value.spelledBy_compact (hvalue.isExact (toJson_isExact _))
  exact ⟨hvalue, hspelled, parse_of_damages hvalue hspelled⟩

end Query

end SearchFilter
