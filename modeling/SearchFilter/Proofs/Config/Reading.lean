import SearchFilter.Proofs.Config.Valid
import SearchFilter.Proofs.Json.Skipping
/-!
# Configurations read from what they are written as

An object holds a configuration if its entries are those of the fields, in any order and among
others; fields with their defaults may be missing. Every text of such an object is read as the
configuration, so what comes of it is for the checks to say. What has passed them is read again
from its own text.
-/
namespace SearchFilter.Config

open Json (Value Fault)

theorem Key.ofName?_eq_some {name : String} {key : Key} :
    ofName? name = some key ↔ name = key.name := by
  constructor
  · intro h
    rw [ofName?, List.find?_eq_some_iff_append] at h
    exact (beq_iff_eq.mp h.1).symm
  · rintro rfl
    exact ofName?_name key

theorem Key.ofName?_eq_none {name : String} (h : ∀ key : Key, name ≠ key.name) :
    ofName? name = none := by
  cases hkey : ofName? name with
  | none => rfl
  | some key => exact absurd (ofName?_eq_some.mp hkey) (h key)

def entry (config : Config) (key : Key) : String × Value :=
  (key.name, .text (config.get key))

theorem toJson_eq (config : Config) : config.toJson = .object (Key.all.map config.entry) := rfl

/-- The value is an object with the entries of the fields among entries under other keys, in any
order. A field that has its default may be missing. -/
inductive HeldBy (config : Config) : Value → Prop
  | object {keys : List Key} {others entries : List (String × Value)} (once : keys.Nodup)
      (missing : ∀ key, key ∉ keys → config.get key = ({} : Config).get key)
      (unknown : ∀ other ∈ others, (∀ key : Key, other.1 ≠ key.name) ∧ other.2.IsExact)
      (order : entries.Perm (keys.map config.entry ++ others)) : HeldBy config (.object entries)

theorem heldBy_toJson (config : Config) : config.HeldBy config.toJson := by
  have hall (key : Key) : key ∈ Key.all := by cases key <;> decide
  rw [toJson_eq]
  exact .object (by decide) (fun key hmissing => absurd (hall key) hmissing)
    (List.forall_mem_nil _) (by rw [List.append_nil])

theorem HeldBy.isExact {config : Config} {value : Value} (h : config.HeldBy value) :
    value.IsExact := by
  cases h with
  | object once missing unknown order =>
    apply Value.IsExact.object
    intro entry hmem
    rcases List.mem_append.mp (order.mem_iff.mp hmem) with hfield | hother
    · obtain ⟨key, -, rfl⟩ := List.mem_map.mp hfield
      exact .scalar trivial
    · exact (unknown entry hother).2

def Draft.add (draft : Draft) (entry : String × Value) : Except Fault Draft :=
  match Key.ofName? entry.1 with
  | none => .ok draft
  | some key =>
    if (draft key).isSome then .error (.duplicateField entry.1)
    else draft.set key <$> entry.2.asText "a string"

theorem readsMember {entry : String × Value} (hexact : entry.2.IsExact) :
    Json.ReadsMember readMember Draft.add entry := by
  intro draft behind before rest hcolon hvalue hend
  rw [readMember, Json.readText_foldr_writeChar, Draft.add]
  simp only [bind, Except.bind, Json.readColon, hcolon]
  cases Key.ofName? entry.1 with
  | none =>
    simp only [Json.skipValue_of_spells hexact hvalue hend]
    rfl
  | some key =>
    by_cases hset : (draft key).isSome
    · simp only [hset, if_true]
      rfl
    · simp only [hset, Bool.false_eq_true, if_false]
      change Json.withoutLocation (readField before >>= fun found =>
        .ok (draft.set key found.1, found.2)) = _
      rw [Json.withoutLocation_bind, readField,
        Json.readTextValue_of_spells hexact "a string" hvalue hend]
      cases entry.2.asText "a string" <;> rfl

def keysOf (entries : List (String × Value)) : List Key :=
  entries.filterMap fun entry => Key.ofName? entry.1

theorem foldlM_add {config : Config} {entries : List (String × Value)} (draft : Draft)
    (each : ∀ entry ∈ entries, ∀ key : Key, entry.1 = key.name → entry = config.entry key)
    (once : (keysOf entries).Nodup) (free : ∀ key ∈ keysOf entries, draft key = none) :
    entries.foldlM Draft.add draft =
      .ok fun key => if key ∈ keysOf entries then some (config.get key) else draft key := by
  -- the fields read so far stay general, but for those that are still to come
  induction entries generalizing draft with
  | nil => simp [keysOf, pure, Except.pure]
  | cons first entries ih =>
    have each' := fun entry hmem => each entry (List.mem_cons_of_mem first hmem)
    rw [List.foldlM_cons, Draft.add]
    cases hkey : Key.ofName? first.1 with
    | none =>
      have hkeys : keysOf (first :: entries) = keysOf entries := List.filterMap_cons_none hkey
      rw [hkeys] at once free ⊢
      exact ih draft each' once free
    | some key =>
      have hkeys : keysOf (first :: entries) = key :: keysOf entries :=
        List.filterMap_cons_some hkey
      rw [hkeys] at once free ⊢
      obtain ⟨hnew, once'⟩ := List.nodup_cons.mp once
      obtain rfl := each first List.mem_cons_self key (Key.ofName?_eq_some.mp hkey)
      have hfree := free key List.mem_cons_self
      have hset : (config.entry key).2.asText "a string" = .ok (config.get key) := rfl
      simp only [hfree, Option.isSome_none, Bool.false_eq_true, if_false, hset]
      have free' : ∀ other ∈ keysOf entries, draft.set key (config.get key) other = none := by
        intro other hother
        have hne : other ≠ key := fun heq => hnew (heq ▸ hother)
        rw [Draft.set, if_neg hne]
        exact free other (List.mem_cons_of_mem key hother)
      refine (ih _ each' once' free').trans (congrArg Except.ok (funext fun other => ?_))
      by_cases hother : other = key
      · subst hother
        simp [hnew, Draft.set]
      · simp [hother, Draft.set]

theorem finish_eq {config : Config} {keys : List Key}
    (missing : ∀ key, key ∉ keys → config.get key = ({} : Config).get key) :
    Draft.finish (fun key => if key ∈ keys then some (config.get key) else none) = config := by
  have hfield (key : Key) :
      (if key ∈ keys then some (config.get key) else none).getD (({} : Config).get key) =
        config.get key := by
    by_cases hmem : key ∈ keys
    · rw [if_pos hmem, Option.getD_some]
    · rw [if_neg hmem, Option.getD_none, missing key hmem]
  have hmatchAll := hfield .matchAllField
  have hseparator := hfield .pathSeparator
  have hlevel := hfield .logLevel
  simp only [get] at hmatchAll hseparator hlevel
  simp only [Draft.finish, get, hmatchAll, hseparator, hlevel]

theorem keysOf_perm {config : Config} {keys : List Key} {others entries : List (String × Value)}
    (unknown : ∀ other ∈ others, ∀ key : Key, other.1 ≠ key.name)
    (order : entries.Perm (keys.map config.entry ++ others)) : (keysOf entries).Perm keys := by
  have hfields : (keys.map config.entry).filterMap (fun entry => Key.ofName? entry.1) = keys := by
    simp [List.filterMap_map, Function.comp_def, entry]
  have hothers : others.filterMap (fun entry => Key.ofName? entry.1) = [] := by
    rw [List.filterMap_eq_nil_iff]
    exact fun other hmem => Key.ofName?_eq_none (unknown other hmem)
  have hperm := order.filterMap fun entry => Key.ofName? entry.1
  rwa [List.filterMap_append, hfields, hothers, List.append_nil] at hperm

theorem eq_entry_of_mem {config : Config} {keys : List Key}
    {others entries : List (String × Value)}
    (unknown : ∀ other ∈ others, ∀ key : Key, other.1 ≠ key.name)
    (order : entries.Perm (keys.map config.entry ++ others)) :
    ∀ entry ∈ entries, ∀ key : Key, entry.1 = key.name → entry = config.entry key := by
  intro entry hmem key hkey
  rcases List.mem_append.mp (order.mem_iff.mp hmem) with hfield | hother
  · obtain ⟨key', -, rfl⟩ := List.mem_map.mp hfield
    have hsame := (Key.ofName?_name key').symm.trans (Key.ofName?_eq_some.mpr hkey)
    rw [Option.some.inj hsame]
  · exact absurd hkey (unknown entry hother key)

/-- A configuration is read from every text of an object that holds it. -/
theorem ofJson_of_heldBy {config : Config} {value : Value} {text : String}
    (h : config.HeldBy value) (hspelled : value.SpelledBy text) :
    ofJson text.toList = .ok config := by
  have hexact := h.isExact
  obtain ⟨rest, hspells, hrest⟩ := hspelled
  cases h with
  | @object keys others entries once missing unknown order =>
    obtain - | - | ⟨hentries⟩ := hexact
    have hunknown := fun other hmem => (unknown other hmem).1
    have hkeys := keysOf_perm hunknown order
    have hfold := foldlM_add .empty (eq_entry_of_mem hunknown order) (hkeys.nodup_iff.mpr once)
      fun _ _ => rfl
    obtain ⟨inside, hopen⟩ := hspells.opens_object
    have hread := Json.readObject_of_spells true Draft.add hentries
      (fun entry hmem => readsMember (hentries entry hmem)) .empty hspells hopen
    have hfinish := finish_eq fun key hnot => missing key (mt hkeys.mem_iff.mpr hnot)
    rw [hfold] at hread
    rw [ofJson, Json.readBy_object hopen, Json.withoutLocation_eq_ok.mp hread]
    simp only [bind, Except.bind, Json.readEnd_eq_ok.mpr hrest]
    exact congrArg Except.ok hfinish

/-- The configuration if it is valid, and else the reason why it is not. -/
def checked (config : Config) : Except Error Config :=
  match config.validate with
  | .ok () => .ok config
  | .error cause => .error (.invalid cause)

theorem parse_of_heldBy {config : Config} {value : Value} {text : String}
    (h : config.HeldBy value) (hspelled : value.SpelledBy text) : parse text = config.checked := by
  rw [parse_of_ofJson (ofJson_of_heldBy h hspelled), checked]
  cases config.validate <;> rfl

theorem parse_own_text (config : Config) : parse config.toJson.compact = config.checked :=
  parse_of_heldBy config.heldBy_toJson (Value.spelledBy_compact config.heldBy_toJson.isExact)

theorem pathSeparator_eq {config : Config} (h : config.pathSeparator.toList.length = 1) :
    config.pathSeparator = String.singleton config.separator := by
  obtain ⟨c, hc⟩ := List.length_eq_one_iff.mp h
  rw [← String.toList_inj, String.toList_singleton, separator, hc]
  rfl

/-- Reading the text of a configuration gives the configuration if it is valid, and else the same
reason as its validation. The order of the entries, entries under unknown keys, blanks and missing
defaults change nothing. What is read from any text names a field for everything, has its separator
character as its separator and names a level, and it is read from its own text. -/
theorem parse_agrees_with_validate (config : Config) :
    parse config.toJson.compact = config.checked ∧
    (∀ value text, config.HeldBy value → value.SpelledBy text → parse text = config.checked) ∧
    ∀ text, parse text = .ok config →
      config.matchAllField ≠ "" ∧ config.pathSeparator = String.singleton config.separator ∧
      (∃ threshold, config.severity = .ok threshold) ∧
      parse config.toJson.compact = .ok config := by
  refine ⟨parse_own_text config, fun value text => parse_of_heldBy, fun text h => ?_⟩
  obtain ⟨-, hvalid⟩ := parse_eq_ok.mp h
  obtain ⟨hfield, hseparator, hlevel⟩ := validate_eq_ok.mp hvalid
  have hnonempty : config.matchAllField ≠ "" := fun hempty => hfield (by rw [hempty]; rfl)
  have hchecked : config.checked = .ok config := by rw [checked, hvalid]
  exact ⟨hnonempty, pathSeparator_eq hseparator, hlevel,
    (parse_own_text config).trans hchecked⟩

/-- An unknown level behind a note in an object from back to front, and valid fields by position. -/
theorem parse_agrees_with_validate_reversed :
    let config : Config := { matchAllField := "doc", logLevel := "chatty" }
    let note : Value := .array [.null, .object [("match_all_field", .integer (-1))]]
    let value : Value := .object
      [(config.entry .matchAllField), ("note", note), (config.entry .logLevel)].reverse
    let other : Config := { matchAllField := "doc", pathSeparator := "/" }
    (config.HeldBy value ∧ value.SpelledBy value.compact ∧
      parse value.compact = .error (.invalid (.unknownLevel ⟨"CHATTY"⟩))) ∧
    parse "[\"doc\", \"/\"]" = .ok other ∧ parse other.toJson.compact = .ok other := by
  intro config note value other
  have hnote : note.IsExact := by
    refine .array (List.forall_mem_cons.mpr ⟨.scalar trivial, List.forall_mem_singleton.mpr ?_⟩)
    exact .object (List.forall_mem_singleton.mpr (.scalar ⟨by decide, by decide⟩))
  have hheld : config.HeldBy value := by
    have hunknown (key : Key) : "note" ≠ key.name := by cases key <;> decide
    refine @HeldBy.object config [.matchAllField, .logLevel] [("note", note)] _ (by decide) ?_
      (List.forall_mem_singleton.mpr ⟨hunknown, hnote⟩)
      ((List.reverse_perm _).trans (List.Perm.cons _ (List.Perm.swap _ _ _)))
    intro key hmissing
    cases key with
    | pathSeparator => rfl
    | matchAllField | logLevel => exact absurd hmissing (by decide)
  have hspelled := Value.spelledBy_compact hheld.isExact
  have hread : parse "[\"doc\", \"/\"]" = .ok other := by decide
  have hchecked : config.checked = .error (.invalid (.unknownLevel ⟨"CHATTY"⟩)) := by decide
  have hrefused := (parse_agrees_with_validate config).2.1 value _ hheld hspelled
  exact ⟨⟨hheld, hspelled, hrefused.trans hchecked⟩, hread,
    ((parse_agrees_with_validate other).2.2 _ hread).2.2.2⟩

end SearchFilter.Config
