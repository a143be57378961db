import SearchFilter.Query.Decoder
/-!
# Rows from keyed entries

A row is read from a list of entries exactly when every field of it fits the entries: its key comes
once and decodes to the value, or it does not come and the value is the default. Other keys and the
order of the entries do not matter.
-/
namespace SearchFilter

open Json (Value Fault bind_eq_ok)

variable {decode : FieldDecoder}

namespace Field

/-- The value that the entries give to a field. -/
def Fits (decode : FieldDecoder) (entries : List (String × Value)) (field : Field)
    (value : field.type.Carrier) : Prop :=
  match entries.filter (·.1 = field.name) with
  | [] => field.type.default? = some value
  | [entry] => decode field.type entry.2 = .ok value
  | _ => False

def put (decode : FieldDecoder) (field : Field) (slot : Option field.type.Carrier)
    (entry : String × Value) : Except Fault (Option field.type.Carrier) :=
  if field.name = entry.1 then
    if slot.isSome then .error (.duplicateField entry.1)
    else do .ok (some (← decode field.type entry.2))
  else .ok slot

theorem foldlM_put_some {field : Field} {value : field.type.Carrier}
    {slot : Option field.type.Carrier} {entries : List (String × Value)} :
    entries.foldlM (field.put decode) (some value) = .ok slot ↔
      entries.filter (·.1 = field.name) = [] ∧ slot = some value := by
  induction entries with
  | nil => simp [pure, Except.pure, eq_comm]
  | cons entry entries ih =>
    rw [List.foldlM_cons, put]
    by_cases hkey : field.name = entry.1
    · simp [hkey, bind, Except.bind]
    · have hkey' : ¬entry.1 = field.name := fun h => hkey h.symm
      simp only [if_neg hkey, bind, Except.bind, ih]
      simp [hkey']

theorem foldlM_put_none {field : Field} {slot : Option field.type.Carrier}
    {entries : List (String × Value)} :
    entries.foldlM (field.put decode) none = .ok slot ↔
      match entries.filter (·.1 = field.name) with
      | [] => slot = none
      | [entry] => ∃ value, decode field.type entry.2 = .ok value ∧ slot = some value
      | _ => False := by
  induction entries with
  | nil => simp [pure, Except.pure, eq_comm]
  | cons entry entries ih =>
    rw [List.foldlM_cons, put]
    by_cases hkey : field.name = entry.1
    · have hfilter : (entry :: entries).filter (·.1 = field.name) =
          entry :: entries.filter (·.1 = field.name) := by simp [hkey]
      rw [hfilter, if_pos hkey, if_neg (by simp)]
      cases hdecode : decode field.type entry.2 with
      | error fault =>
        cases entries.filter (·.1 = field.name) <;> simp [hdecode, bind, Except.bind]
      | ok value =>
        simp only [bind, Except.bind, foldlM_put_some]
        cases entries.filter (·.1 = field.name) <;> simp [hdecode]
    · have hkey' : ¬entry.1 = field.name := fun h => hkey h.symm
      have hfilter : (entry :: entries).filter (·.1 = field.name) =
          entries.filter (·.1 = field.name) := by simp [hkey']
      rw [hfilter, ← ih, if_neg hkey]
      rfl

end Field

def Row.Fits (decode : FieldDecoder) (entries : List (String × Value)) :
    (schema : Schema) → Row schema → Prop
  | [], () => True
  | field :: fields, (value, row) =>
    field.Fits decode entries value ∧ Fits decode entries fields row

namespace Slots

theorem put_of_notMem {schema : Schema} {key : String} (h : key ∉ schema.map (·.name))
    (value : Value) (slots : Slots schema) : put decode key value schema slots = .ok slots := by
  induction schema with
  | nil => rfl
  | cons field fields ih =>
    rw [List.map_cons, List.mem_cons, not_or] at h
    rw [put, if_neg (Ne.symm h.1), ih h.2]
    rfl

theorem put_eq_ok {field : Field} {fields : Schema} (hname : field.name ∉ fields.map (·.name))
    {entry : String × Value} {slot slot' : Option field.type.Carrier}
    {slots slots' : Slots fields} :
    put decode entry.1 entry.2 (field :: fields) (slot, slots) = .ok (slot', slots') ↔
      field.put decode slot entry = .ok slot' ∧
        put decode entry.1 entry.2 fields slots = .ok slots' := by
  rw [put, Field.put]
  by_cases hkey : field.name = entry.1
  · rw [if_pos hkey, if_pos hkey, put_of_notMem (hkey ▸ hname)]
    split
    · simp
    · cases decode field.type entry.2 <;> simp [bind, Except.bind]
  · rw [if_neg hkey, if_neg hkey]
    cases put decode entry.1 entry.2 fields slots <;> simp [bind, Except.bind]

theorem foldlM_put_eq_ok {field : Field} {fields : Schema}
    (hname : field.name ∉ fields.map (·.name)) {entries : List (String × Value)}
    {slot slot' : Option field.type.Carrier} {slots slots' : Slots fields} :
    entries.foldlM (fun slots entry => put decode entry.1 entry.2 (field :: fields) slots)
        (slot, slots) = .ok (slot', slots') ↔
      entries.foldlM (field.put decode) slot = .ok slot' ∧
        entries.foldlM (fun slots entry => put decode entry.1 entry.2 fields slots) slots =
          .ok slots' := by
  induction entries generalizing slot slots with
  | nil => simp [pure, Except.pure]
  | cons entry entries ih =>
    simp only [List.foldlM_cons, bind_eq_ok]
    constructor
    · intro h
      rcases h with ⟨⟨slot₁, slots₁⟩, hput, hfold⟩
      obtain ⟨hslot, hslots⟩ := (put_eq_ok hname).mp hput
      obtain ⟨hfold, hfolds⟩ := ih.mp hfold
      exact ⟨⟨slot₁, hslot, hfold⟩, ⟨slots₁, hslots, hfolds⟩⟩
    · intro h
      rcases h with ⟨⟨slot₁, hslot, hfold⟩, ⟨slots₁, hslots, hfolds⟩⟩
      exact ⟨(slot₁, slots₁), (put_eq_ok hname).mpr ⟨hslot, hslots⟩, ih.mpr ⟨hfold, hfolds⟩⟩

theorem complete_foldlM_put {field : Field} {entries : List (String × Value)}
    {value : field.type.Carrier} :
    (∃ slot, entries.foldlM (field.put decode) none = .ok slot ∧
      (slot <|> field.type.default?) = some value) ↔ field.Fits decode entries value := by
  simp only [Field.foldlM_put_none, Field.Fits]
  generalize entries.filter (·.1 = field.name) = found
  match found with
  | [] => simp
  | [entry] =>
    constructor
    · intro h
      rcases h with ⟨slot, ⟨value', hdecode, rfl⟩, hvalue⟩
      obtain rfl : value' = value := Option.some.inj hvalue
      exact hdecode
    · intro hdecode
      exact ⟨some value, ⟨value, hdecode, rfl⟩, rfl⟩
  | _ :: _ :: _ => simp

theorem complete_eq_ok {field : Field} {fields : Schema} {slot : Option field.type.Carrier}
    {slots : Slots fields} {value : field.type.Carrier} {row : Row fields} :
    complete (field :: fields) (slot, slots) = .ok (value, row) ↔
      (slot <|> field.type.default?) = some value ∧ complete fields slots = .ok row := by
  rw [complete]
  cases slot <|> field.type.default? with
  | none => simp
  | some value' =>
    cases complete fields slots <;> simp [bind, Except.bind]

theorem foldlM_complete_eq_ok {schema : Schema} (hnames : (schema.map (·.name)).Nodup)
    {entries : List (String × Value)} {row : Row schema} :
    (do
      let slots ← entries.foldlM
        (fun slots (entry : String × Value) => put decode entry.1 entry.2 schema slots)
        (empty schema)
      slots.complete schema) = .ok row ↔ Row.Fits decode entries schema row := by
  rw [bind_eq_ok]
  induction schema with
  | nil =>
    have hfold : entries.foldlM (fun slots entry => put decode entry.1 entry.2 [] slots) () =
        .ok () := by
      induction entries with
      | nil => rfl
      | cons entry entries ih => exact ih
    exact iff_of_true ⟨(), hfold, rfl⟩ trivial
  | cons field fields ih =>
    rw [List.map_cons, List.nodup_cons] at hnames
    obtain ⟨value, row⟩ := row
    rw [Row.Fits, ← complete_foldlM_put, ← ih hnames.2]
    -- an entry fills the first slot or goes to the others, never both
    constructor
    · intro h
      rcases h with ⟨⟨slot, slots⟩, hfold, hcomplete⟩
      obtain ⟨hslot, hslots⟩ := (foldlM_put_eq_ok hnames.1).mp hfold
      obtain ⟨hvalue, hrow⟩ := complete_eq_ok.mp hcomplete
      exact ⟨⟨slot, hslot, hvalue⟩, ⟨slots, hslots, hrow⟩⟩
    · intro h
      rcases h with ⟨⟨slot, hslot, hvalue⟩, ⟨slots, hslots, hrow⟩⟩
      exact ⟨(slot, slots), (foldlM_put_eq_ok hnames.1).mpr ⟨hslot, hslots⟩,
        complete_eq_ok.mpr ⟨hvalue, hrow⟩⟩

end Slots

/-- Which rows are read by keys. -/
theorem Record.ofEntries_eq_ok {record : Record} (hnames : (record.schema.map (·.name)).Nodup)
    {entries : List (String × Value)} {row : Row record.schema} :
    record.ofEntries decode entries = .ok row ↔ Row.Fits decode entries record.schema row :=
  Slots.foldlM_complete_eq_ok hnames

end SearchFilter
