import Mathlib.Data.List.Forall2
import Mathlib.Data.List.Perm.Basic
import SearchFilter.Proofs.Query.Canonical
/-!
# Decoding other spellings of what was encoded

A relation between encoded values and other spellings of them is a respelling if it keeps scalars
and lists and if rows and nodes are decoded from their spellings whenever their fields are. Then
every spelling of an encoded value is decoded to what was encoded.
-/
namespace SearchFilter

open Json (Value Fault bind_eq_ok)

variable {R : Value → Value → Prop} {decode : FieldDecoder} {fuel : Nat}

/-- A decoder that undoes the encoding in every spelling, up to some nesting. -/
def FieldDecoder.InvertsSpellings (decode : FieldDecoder) (R : Value → Value → Prop) (fuel : Nat) :
    Prop :=
  ∀ (type : FieldType) (x : type.Carrier) (value : Value), R (type.toJson x) value →
    value.nesting < fuel → decode type value = .ok x

structure Respelling (R : Value → Value → Prop) : Prop where
  scalar {s : Json.Scalar} {value : Value} (h : R (.scalar s) value) : value = .scalar s
  array {items : List Value} {value : Value} (h : R (.array items) value) :
    ∃ items', value = .array items' ∧ List.Forall₂ R items items'
  record {decode : FieldDecoder} {fuel : Nat} (hdecode : decode.InvertsSpellings R fuel)
    {record : Record} (hnames : (record.schema.map (·.name)).Nodup)
    (htag : tagKey ∉ record.schema.map (·.name)) {row : Row record.schema} {value : Value}
    (h : R (.object (Row.entries record.schema row)) value) (hfuel : value.nesting ≤ fuel) :
    record.decode decode value = .ok row
  node {decode : FieldDecoder} {fuel : Nat} (hdecode : decode.InvertsSpellings R fuel)
    {query : Query} {value : Value} (h : R query.toJson value) (hfuel : value.nesting ≤ fuel) :
    (TaggedNode.ofValue value >>= fun node => node.decode decode) = .ok query

theorem mapM_eq_ok_iff {α β : Type} {read : β → Except Fault α} {as : List α} {bs : List β} :
    bs.mapM read = .ok as ↔ List.Forall₂ (fun b a => read b = .ok a) bs as := by
  induction bs generalizing as with
  | nil => simp [pure, Except.pure, eq_comm]
  | cons b bs ih =>
    simp only [List.mapM_cons, bind_eq_ok, ih, List.forall₂_cons_left_iff]
    constructor
    · rintro ⟨a, hread, as', hreads, heq⟩
      cases heq
      exact ⟨a, as', hread, hreads, rfl⟩
    · rintro ⟨a, as', hread, hreads, rfl⟩
      exact ⟨a, hread, as', hreads, rfl⟩

theorem exists_of_mem_forall₂ {α β : Type} {S : α → β → Prop} {as : List α} {bs : List β}
    (h : List.Forall₂ S as bs) : ∀ b ∈ bs, ∃ a ∈ as, S a b := by
  induction h with
  | nil => exact List.forall_mem_nil _
  | cons h _ ih =>
    refine List.forall_mem_cons.mpr ⟨⟨_, List.mem_cons_self, h⟩, fun b hb => ?_⟩
    obtain ⟨a, ha, h⟩ := ih b hb
    exact ⟨a, List.mem_cons_of_mem _ ha, h⟩

theorem Respelling.decodeList (hR : Respelling R) {α : Type} {write : α → Value}
    {read : Value → Except Fault α} {as : List α} {value : Value}
    (h : R (.array (as.map write)) value) (hfuel : value.nesting < fuel + 1)
    (hread : ∀ a item, R (write a) item → item.nesting < fuel → read item = .ok a) :
    SearchFilter.decodeList read value = .ok as := by
  obtain ⟨items, rfl, hitems⟩ := hR.array h
  have hnesting := nesting_lt_of_mem hfuel
  apply mapM_eq_ok_iff.mpr
  rw [List.forall₂_map_left_iff] at hitems
  clear h hfuel
  induction hitems with
  | nil => exact .nil
  | cons hitem _ ih =>
    rw [List.forall_mem_cons] at hnesting
    exact .cons (hread _ _ hitem hnesting.1) (ih hnesting.2)

theorem Respelling.decodeField (hR : Respelling R) (fuel : Nat) :
    (decodeField fuel).InvertsSpellings R fuel := by
  induction fuel with
  | zero => exact fun type x value h hfuel => absurd hfuel (Nat.not_lt_zero _)
  | succ fuel ih =>
    intro type x value h hfuel
    have hle : value.nesting ≤ fuel := Nat.le_of_lt_succ hfuel
    cases type with
    | text =>
      obtain rfl := hR.scalar h
      rfl
    | bound =>
      cases x with
      | none =>
        obtain rfl := hR.scalar h
        rfl
      | some content =>
        obtain rfl := hR.scalar h
        rfl
    | bytes =>
      have h : R (.array (List.map (fun b : UInt8 => Value.integer b.toNat) x)) value := h
      refine hR.decodeList h hfuel ?_
      intro b item hitem _
      obtain rfl := hR.scalar hitem
      exact decodeByte_integer b
    | edits =>
      obtain rfl := hR.scalar h
      exact decodeEdits_integer x
    | occurrence =>
      obtain rfl := hR.scalar h
      cases x <;> rfl
    | word =>
      let row : Row wordRecord.schema := (x.field, x.text, ())
      have hrow : wordRecord.decode (SearchFilter.decodeField fuel) value = .ok row :=
        hR.record ih (by decide) (by decide) h hle
      simp only [SearchFilter.decodeField, hrow]
      rfl
    | words => exact hR.decodeList h hfuel (ih .word)
    | clause =>
      let row : Row clauseRecord.schema := (x.query, x.occurrence, ())
      have hrow : clauseRecord.decode (SearchFilter.decodeField fuel) value = .ok row :=
        hR.record ih (by decide) (by decide) h hle
      simp only [SearchFilter.decodeField, hrow]
      rfl
    | clauses =>
      rw [FieldType.toJson, Query.clausesToJson_eq_map] at h
      exact hR.decodeList h hfuel (ih .clause)
    | query => exact hR.node ih h hle

namespace Field

theorem fits_of_perm {entries entries' : List (String × Value)} (h : entries.Perm entries')
    {field : Field} {value : field.type.Carrier} (hfits : field.Fits decode entries value) :
    field.Fits decode entries' value := by
  have hfilter := h.filter (·.1 = field.name)
  unfold Fits at hfits ⊢
  split at hfits
  · next hnone =>
    rw [hnone] at hfilter
    rw [← hfilter.nil_eq]
    exact hfits
  · next entry hone =>
    rw [hone] at hfilter
    rw [← hfilter.singleton_eq]
    exact hfits
  · exact hfits.elim

end Field

namespace Row

theorem fits_of_perm {entries entries' : List (String × Value)} (h : entries.Perm entries')
    {schema : Schema} {row : Row schema} (hfits : Fits decode entries schema row) :
    Fits decode entries' schema row := by
  induction schema with
  | nil => trivial
  | cons field fields ih =>
    obtain ⟨value, row⟩ := row
    exact ⟨Field.fits_of_perm h hfits.1, ih hfits.2⟩

theorem fits_append {entries extra : List (String × Value)} {schema : Schema}
    (hextra : ∀ entry ∈ extra, entry.1 ∉ schema.map (·.name)) {row : Row schema}
    (h : Fits decode entries schema row) : Fits decode (entries ++ extra) schema row := by
  apply fits_of_perm List.perm_append_comm
  induction extra with
  | nil => exact h
  | cons entry extra ih =>
    rw [List.forall_mem_cons] at hextra
    exact (fits_cons hextra.1 _ row).mpr (ih hextra.2)

end Row

/-- The entries of an object respelled one by one, except that null bounds may be missing. -/
inductive KeepsEntries (R : Value → Value → Prop) :
    List (String × Value) → List (String × Value) → Prop
  | nil : KeepsEntries R [] []
  | keep {key : String} {value value' : Value} {entries kept : List (String × Value)}
      (h : R value value') (rest : KeepsEntries R entries kept) :
      KeepsEntries R ((key, value) :: entries) ((key, value') :: kept)
  | drop {key : String} {entries kept : List (String × Value)}
      (bound : key = "lower" ∨ key = "upper") (rest : KeepsEntries R entries kept) :
      KeepsEntries R ((key, .null) :: entries) kept

namespace KeepsEntries

theorem cons_iff {entry : String × Value} {entries kept : List (String × Value)} :
    KeepsEntries R (entry :: entries) kept ↔
      (∃ value' kept', kept = (entry.1, value') :: kept' ∧ R entry.2 value' ∧
        KeepsEntries R entries kept') ∨
      (entry.1 = "lower" ∨ entry.1 = "upper") ∧ entry.2 = .null ∧ KeepsEntries R entries kept := by
  constructor
  · intro h
    cases h with
    | keep h rest => exact .inl ⟨_, _, rfl, h, rest⟩
    | drop bound rest => exact .inr ⟨bound, rfl, rest⟩
  · obtain ⟨key, value⟩ := entry
    rintro (⟨value', kept', rfl, h, rest⟩ | ⟨bound, rfl, rest⟩)
    · exact .keep h rest
    · exact .drop bound rest

theorem exists_of_mem {entries kept : List (String × Value)} (h : KeepsEntries R entries kept) :
    ∀ entry ∈ kept, ∃ value, (entry.1, value) ∈ entries ∧ R value entry.2 := by
  induction h with
  | nil => exact List.forall_mem_nil _
  | keep h _ ih =>
    refine List.forall_mem_cons.mpr ⟨⟨_, List.mem_cons_self, h⟩, fun entry hmem => ?_⟩
    obtain ⟨value, hvalue, h⟩ := ih entry hmem
    exact ⟨value, List.mem_cons_of_mem _ hvalue, h⟩
  | drop _ _ ih =>
    intro entry hmem
    obtain ⟨value, hvalue, h⟩ := ih entry hmem
    exact ⟨value, List.mem_cons_of_mem _ hvalue, h⟩

theorem key_mem {entries kept : List (String × Value)} (h : KeepsEntries R entries kept) :
    ∀ entry ∈ kept, entry.1 ∈ entries.map Prod.fst := by
  intro entry hmem
  obtain ⟨value, hvalue, -⟩ := h.exists_of_mem entry hmem
  exact List.mem_map.mpr ⟨_, hvalue, rfl⟩

end KeepsEntries

theorem FieldType.default?_of_toJson_eq_null {type : FieldType} {x : type.Carrier}
    (h : type.toJson x = .null) : type.default? = some x := by
  cases type with
  | bound =>
    cases x with
    | none => rfl
    | some content => simp [toJson, boundToJson] at h
  | query =>
    rw [toJson, Query.toJson_eq] at h
    simp at h
  | _ => simp [toJson, bytesToJson, Occurrence.toJson, PhraseWord.toJson] at h

theorem Row.fits_of_keeps (hdecode : decode.InvertsSpellings R fuel) {schema : Schema}
    (hnames : (schema.map (·.name)).Nodup) {row : Row schema} {kept : List (String × Value)}
    (h : KeepsEntries R (Row.entries schema row) kept)
    (hfuel : ∀ entry ∈ kept, entry.2.nesting < fuel) : Row.Fits decode kept schema row := by
  induction schema generalizing kept with
  | nil => trivial
  | cons field fields ih =>
    obtain ⟨value, row⟩ := row
    rw [List.map_cons, List.nodup_cons] at hnames
    have hothers {kept : List (String × Value)}
        (hkept : KeepsEntries R (Row.entries fields row) kept) :
        kept.filter (·.1 = field.name) = [] := by
      apply List.filter_eq_nil_iff.mpr
      intro entry hmem hkey
      apply hnames.1
      rw [← Row.entries_keys row, ← of_decide_eq_true hkey]
      exact hkept.key_mem entry hmem
    obtain ⟨value', kept, rfl, hvalue, hkept⟩ | ⟨-, hnull, hkept⟩ := KeepsEntries.cons_iff.mp h
    · rw [List.forall_mem_cons] at hfuel
      have hfilter : ((field.name, value') :: kept).filter (·.1 = field.name) =
          [(field.name, value')] := by
        rw [List.filter_cons_of_pos (by simp), hothers hkept]
      refine ⟨?_, (Row.fits_cons hnames.1 _ row).mpr (ih hnames.2 hkept hfuel.2)⟩
      rw [Field.Fits, hfilter]
      exact hdecode field.type value value' hvalue hfuel.1
    · refine ⟨?_, ih hnames.2 hkept hfuel⟩
      rw [Field.Fits, hothers hkept]
      exact FieldType.default?_of_toJson_eq_null hnull

/-- A row is decoded from the spellings of its entries in any order, with any others among them. -/
theorem Row.fits_of_keeps_of_perm (hdecode : decode.InvertsSpellings R fuel) {schema : Schema}
    (hnames : (schema.map (·.name)).Nodup) {row : Row schema}
    {kept extra entries : List (String × Value)}
    (h : KeepsEntries R (Row.entries schema row) kept)
    (unknown : ∀ entry ∈ extra, entry.1 ∉ schema.map (·.name))
    (order : entries.Perm (kept ++ extra)) (hfuel : ∀ entry ∈ entries, entry.2.nesting < fuel) :
    Row.Fits decode entries schema row := by
  have hkept : ∀ entry ∈ kept, entry.2.nesting < fuel := fun entry hmem =>
    hfuel entry (order.mem_iff.mpr (List.mem_append_left extra hmem))
  exact fits_of_perm order.symm (fits_append unknown (fits_of_keeps hdecode hnames h hkept))

theorem Record.takeRow_of_forall₂ (hdecode : decode.InvertsSpellings R fuel) (tooShort : Fault)
    {schema : Schema} {row : Row schema} {items : List Value}
    (h : List.Forall₂ R ((Row.entries schema row).map Prod.snd) items)
    (hfuel : ∀ item ∈ items, item.nesting < fuel) :
    takeRow decode tooShort schema items = .ok (row, []) := by
  induction schema generalizing items with
  | nil =>
    obtain rfl := List.forall₂_nil_left_iff.mp h
    rfl
  | cons field fields ih =>
    obtain ⟨value, row⟩ := row
    obtain ⟨item, items, hitem, hitems, rfl⟩ := List.forall₂_cons_left_iff.mp h
    rw [List.forall_mem_cons] at hfuel
    rw [takeRow, hdecode field.type value item hitem hfuel.1, ih hitems hfuel.2]
    rfl

theorem Record.ofItems_of_forall₂ (hdecode : decode.InvertsSpellings R fuel) {record : Record}
    {row : Row record.schema} {items : List Value}
    (h : List.Forall₂ R ((Row.entries record.schema row).map Prod.snd) items)
    (hfuel : ∀ item ∈ items, item.nesting < fuel) : record.ofItems decode items = .ok row := by
  rw [ofItems, takeRow_of_forall₂ hdecode _ h hfuel]
  rfl

theorem kindOfName_eq_ok {name : String} {kind : Kind} :
    kindOfName name = .ok kind ↔ name = kind.name := by
  constructor
  · intro h
    unfold kindOfName at h
    split at h
    · next found hfound =>
      cases h
      have hname := List.find?_some hfound
      exact (beq_iff_eq.mp hname).symm
    · cases h
  · rintro rfl
    rw [kindOfName, Kind.ofName?_name]

namespace TaggedNode

theorem decodeTag_text {name : String} {kind : Kind} :
    decodeTag (.text name) = .ok kind ↔ name = kind.name :=
  kindOfName_eq_ok

theorem findTag_eq_ok {entries : List (String × Value)} {kind : Kind} :
    findTag entries = .ok kind ↔
      ∃ tag, entries.filter (·.1 == tagKey) = [tag] ∧ decodeTag tag.2 = .ok kind := by
  unfold findTag
  cases entries.filter (·.1 == tagKey) with
  | nil => simp
  | cons tag tags =>
    cases tags with
    | nil => simp
    | cons tag' tags => cases hdecode : decodeTag tag.2 <;> simp [hdecode, bind, Except.bind]

theorem ofValue_object_eq_ok {entries : List (String × Value)} {node : TaggedNode} :
    ofValue (.object entries) = .ok node ↔
      ∃ kind, findTag entries = .ok kind ∧ node = .keyed kind (entries.filter (·.1 != tagKey)) := by
  simp only [ofValue, bind_eq_ok, Except.ok.injEq, @eq_comm _ _ node]

theorem ofValue_array_eq_ok {items : List Value} {node : TaggedNode} :
    ofValue (.array items) = .ok node ↔
      ∃ tag rest kind, items = tag :: rest ∧ decodeTag tag = .ok kind ∧
        node = .positional kind rest := by
  cases items with
  | nil => simp [ofValue]
  | cons tag rest =>
    simp only [ofValue, bind_eq_ok, Except.ok.injEq, List.cons.injEq]
    constructor
    · rintro ⟨kind, hkind, rfl⟩
      exact ⟨tag, rest, kind, ⟨rfl, rfl⟩, hkind, rfl⟩
    · rintro ⟨_, _, kind, ⟨rfl, rfl⟩, hkind, rfl⟩
      exact ⟨kind, hkind, rfl⟩

theorem ofValue_of_perm {kind : Kind} {tag : Value} {entries fields : List (String × Value)}
    (htag : decodeTag tag = .ok kind) (hfields : ∀ entry ∈ fields, entry.1 ≠ tagKey)
    (order : entries.Perm ((tagKey, tag) :: fields)) :
    ∃ others, others.Perm fields ∧ ofValue (.object entries) = .ok (.keyed kind others) := by
  have hnone : fields.filter (·.1 == tagKey) = [] :=
    List.filter_eq_nil_iff.mpr fun entry hmem => by simpa using hfields entry hmem
  have hall : fields.filter (·.1 != tagKey) = fields :=
    List.filter_eq_self.mpr fun entry hmem => by simpa using hfields entry hmem
  have htags := order.filter (·.1 == tagKey)
  have hothers := order.filter (·.1 != tagKey)
  rw [List.filter_cons_of_pos (by simp), hnone] at htags
  rw [List.filter_cons_of_neg (by simp), hall] at hothers
  exact ⟨_, hothers, ofValue_object_eq_ok.mpr
    ⟨kind, findTag_eq_ok.mpr ⟨_, List.perm_singleton.mp htags, htag⟩, rfl⟩⟩

theorem decode_keyed {query : Query} {entries : List (String × Value)}
    (h : Row.Fits decode entries query.kind.schema query.row) :
    (keyed query.kind entries).decode decode = .ok query := by
  have hrow : query.kind.record.ofEntries decode entries = .ok query.row :=
    (Record.ofEntries_eq_ok query.kind.names_nodup).mpr h
  rw [TaggedNode.decode, hrow]
  exact congrArg Except.ok query.build_row

theorem decode_positional {query : Query} {items : List Value}
    (h : query.kind.record.ofItems decode items = .ok query.row) :
    (positional query.kind items).decode decode = .ok query := by
  rw [TaggedNode.decode, h]
  exact congrArg Except.ok query.build_row

end TaggedNode

theorem nesting_lt_of_mem_entries {entries : List (String × Value)}
    (h : (Value.object entries).nesting ≤ fuel) : ∀ entry ∈ entries, entry.2.nesting < fuel := by
  intro entry hmem
  rw [Value.nesting] at h
  have hle := Value.entriesNesting_le.mp le_rfl entry hmem
  omega

/-- A node is decoded from its tag and the spellings of its fields, in any order and with any others
among them. -/
theorem TaggedNode.decode_of_keeps (hdecode : decode.InvertsSpellings R fuel) {query : Query}
    {tag : Value} (htag : decodeTag tag = .ok query.kind)
    {kept extra entries : List (String × Value)}
    (h : KeepsEntries R (Row.entries query.kind.schema query.row) kept)
    (unknown : ∀ entry ∈ extra, entry.1 ≠ tagKey ∧ entry.1 ∉ query.kind.schema.map (·.name))
    (order : entries.Perm ((tagKey, tag) :: (kept ++ extra)))
    (hfuel : (Value.object entries).nesting ≤ fuel) :
    (ofValue (.object entries) >>= fun node => node.decode decode) = .ok query := by
  have hfields : ∀ entry ∈ kept ++ extra, entry.1 ≠ tagKey := by
    intro entry hmem hkey
    obtain hmem | hmem := List.mem_append.mp hmem
    · apply query.kind.tagKey_notMem
      rw [← Row.entries_keys query.row, ← hkey]
      exact h.key_mem entry hmem
    · exact (unknown entry hmem).1 hkey
  obtain ⟨others, hothers, hnode⟩ := ofValue_of_perm htag hfields order
  have hnesting : ∀ entry ∈ others, entry.2.nesting < fuel := fun entry hmem =>
    nesting_lt_of_mem_entries hfuel entry
      (order.mem_iff.mpr (List.mem_cons_of_mem _ (hothers.mem_iff.mp hmem)))
  have hrow := Row.fits_of_keeps_of_perm hdecode query.kind.names_nodup h
    (fun entry hmem => (unknown entry hmem).2) hothers hnesting
  rw [hnode]
  exact decode_keyed hrow

def FieldDecoder.Inverts (decode : FieldDecoder) (fuel : Nat) : Prop :=
  ∀ (type : FieldType) (x : type.Carrier), (type.toJson x).nesting < fuel →
    decode type (type.toJson x) = .ok x

theorem FieldDecoder.inverts_iff : decode.Inverts fuel ↔ decode.InvertsSpellings Eq fuel := by
  constructor
  · rintro h type x value rfl hfuel
    exact h type x hfuel
  · intro h type x hfuel
    exact h type x _ rfl hfuel

theorem KeepsEntries.refl (entries : List (String × Value)) : KeepsEntries Eq entries entries := by
  induction entries with
  | nil => exact .nil
  | cons entry entries ih => exact .keep rfl ih

theorem Query.decode_row (hdecode : decode.Inverts fuel) {query : Query}
    (h : query.toJson.nesting ≤ fuel) :
    (TaggedNode.keyed query.kind (Row.entries query.kind.schema query.row)).decode decode =
      .ok query := by
  rw [toJson_eq] at h
  have hnesting := (List.forall_mem_cons.mp (nesting_lt_of_mem_entries h)).2
  exact TaggedNode.decode_keyed (Row.fits_of_keeps (FieldDecoder.inverts_iff.mp hdecode)
    query.kind.names_nodup (.refl _) hnesting)

theorem respelling_eq : Respelling Eq where
  scalar h := h.symm
  array h := ⟨_, h.symm, List.forall₂_refl _⟩
  record hdecode _ hnames _ _ _ h hfuel := by
    subst h
    exact (Record.ofEntries_eq_ok hnames).mpr
      (Row.fits_of_keeps hdecode hnames (.refl _) (nesting_lt_of_mem_entries hfuel))
  node hdecode query _ h hfuel := by
    subst h
    rw [Query.toJson_eq] at hfuel ⊢
    exact TaggedNode.decode_of_keeps hdecode (TaggedNode.decodeTag_text.mpr rfl) (.refl _)
      (List.forall_mem_nil _) (by rw [List.append_nil]) hfuel

/-- What was encoded is decoded again, given fuel for its nesting. -/
theorem decodeField_inverts (fuel : Nat) : (decodeField fuel).Inverts fuel :=
  FieldDecoder.inverts_iff.mpr (respelling_eq.decodeField fuel)

end SearchFilter
