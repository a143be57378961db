import SearchFilter.Proofs.Json.Nesting
import SearchFilter.Proofs.Query.Respelling
import SearchFilter.Query.Parser
/-!
# Queries read back from their text

The outermost node is read as the fold over its entries. An encoded query is read back from its
compact text unless that nests too deep, and then nothing else is found wrong with it.
-/
namespace SearchFilter

open Json (Value Fault bind_eq_ok)

/-- The kind that the tag of the outermost node names. -/
def Json.Value.namedKind (tag : Value) : Except Fault Kind := do
  kindOfName (← tag.asText tagTitle)

theorem Json.Value.namedKind_eq_ok {tag : Value} {kind : Kind} :
    tag.namedKind = .ok kind ↔ tag = .text kind.name := by
  simp only [Json.Value.namedKind, bind_eq_ok, Json.Value.asText_eq_ok, kindOfName_eq_ok]
  constructor
  · rintro ⟨name, rfl, rfl⟩
    rfl
  · rintro rfl
    exact ⟨_, rfl, rfl⟩

namespace OuterNode

theorem readKind_of_spells {α : Type} (node : OuterNode α) {tag : Value} (hexact : tag.IsExact)
    {cs rest : List Char} (h : tag.Spells cs rest) (hend : Json.EndsNumber rest) :
    Json.withoutLocation (node.readKind cs) =
      (·, rest) <$> (fun kind => { node with kind? := some kind }) <$> tag.namedKind := by
  rw [readKind, Json.withoutLocation_bind, Json.readTextValue_of_spells hexact tagTitle h hend,
    Json.Value.namedKind]
  cases tag.asText tagTitle with
  | error fault => rfl
  | ok name =>
    change Json.withoutLocation (Json.located rest (kindOfName name) >>= fun _ => .ok _) = _
    rw [Json.withoutLocation_bind, Json.withoutLocation_located]
    change _ = (·, rest) <$> _ <$> kindOfName name
    cases kindOfName name <;> rfl

def add (node : OuterNode (String × Value)) (entry : String × Value) :
    Except Fault (OuterNode (String × Value)) :=
  if entry.1 = tagKey then
    if node.kind?.isSome then .error (.duplicateField tagKey)
    else (fun kind => { node with kind? := some kind }) <$> entry.2.namedKind
  else if entry.2.nesting ≤ Json.nestingLimit - 1 then
    .ok { node with parts := entry :: node.parts }
  else .error (.malformed .tooDeep)

theorem readsMember {entry : String × Value} (hexact : entry.2.IsExact) :
    Json.ReadsMember readMember add entry := by
  intro node behind before rest hcolon hvalue hend
  rw [readMember, Json.readText_foldr_writeChar, add]
  simp only [bind, Except.bind, Json.readColon, hcolon]
  by_cases hkey : entry.1 = tagKey
  · rw [if_pos hkey, if_pos hkey]
    by_cases hkind : node.kind?.isSome
    · rw [if_pos hkind, if_pos hkind]
      rfl
    · rw [if_neg hkind, if_neg hkind, node.readKind_of_spells hexact hvalue hend]
  · rw [if_neg hkey, if_neg hkey]
    change Json.withoutLocation (Json.readValue _ before >>= fun found => .ok _) = _
    rw [Json.withoutLocation_bind, Json.readsUpTo hexact _ before rest hvalue hend]
    by_cases hnesting : entry.2.nesting ≤ Json.nestingLimit - 1
    · rw [if_pos hnesting, if_pos hnesting]
      rfl
    · rw [if_neg hnesting, if_neg hnesting]
      rfl

theorem foldlM_add_untagged {entries : List (String × Value)}
    (h : ∀ entry ∈ entries, entry.1 ≠ tagKey) (node : OuterNode (String × Value)) :
    entries.foldlM add node =
      if ∀ entry ∈ entries, entry.2.nesting ≤ Json.nestingLimit - 1 then
        .ok { node with parts := entries.reverse ++ node.parts }
      else .error (.malformed .tooDeep) := by
  induction entries generalizing node with
  | nil => rfl
  | cons entry entries ih =>
    rw [List.forall_mem_cons] at h
    rw [List.foldlM_cons, add, if_neg h.1]
    by_cases hnesting : entry.2.nesting ≤ Json.nestingLimit - 1
    · rw [if_pos hnesting]
      simp only [bind, Except.bind, ih h.2, List.forall_mem_cons, hnesting, true_and,
        List.reverse_cons, List.append_assoc, List.cons_append, List.nil_append]
    · rw [if_neg hnesting, if_neg fun hall => hnesting (hall entry List.mem_cons_self)]
      rfl

theorem foldlM_add {kind : Kind} {before after : List (String × Value)}
    (h : ∀ entry ∈ before ++ after, entry.1 ≠ tagKey) :
    (before ++ (tagKey, .text kind.name) :: after).foldlM add empty =
      if ∀ entry ∈ before ++ after, entry.2.nesting ≤ Json.nestingLimit - 1 then
        .ok ⟨some kind, (before ++ after).reverse⟩
      else .error (.malformed .tooDeep) := by
  rw [List.forall_mem_append] at h
  have htag (parts : List (String × Value)) :
      add ⟨none, parts⟩ (tagKey, .text kind.name) = .ok ⟨some kind, parts⟩ := by
    rw [add, if_pos rfl, if_neg (by simp), Json.Value.namedKind_eq_ok.mpr rfl]
    rfl
  rw [List.foldlM_append, foldlM_add_untagged h.1]
  by_cases hbefore : ∀ entry ∈ before, entry.2.nesting ≤ Json.nestingLimit - 1
  · rw [if_pos hbefore]
    simp only [bind, Except.bind, empty, List.foldlM_cons, htag, foldlM_add_untagged h.2,
      List.forall_mem_append, List.reverse_append, List.append_nil]
    by_cases hafter : ∀ entry ∈ after, entry.2.nesting ≤ Json.nestingLimit - 1
    · rw [if_pos hafter, if_pos ⟨hbefore, hafter⟩]
    · rw [if_neg hafter, if_neg fun hall => hafter hall.2]
  · rw [if_neg hbefore, if_neg fun hall => hbefore (List.forall_mem_append.mp hall).1]
    rfl

end OuterNode

/-- Reading the outermost node is the fold over its entries. -/
theorem TaggedNode.read_of_spells {kind : Kind} (before after : List (String × Value))
    (hexact : ∀ entry ∈ before ++ (tagKey, .text kind.name) :: after, entry.2.IsExact)
    (hkeys : ∀ entry ∈ before ++ after, entry.1 ≠ tagKey) {cs rest : List Char}
    (h : (Value.object (before ++ (tagKey, .text kind.name) :: after)).Spells cs rest) :
    Json.withoutLocation (TaggedNode.read cs) =
      if Value.entriesNesting (before ++ after) ≤ Json.nestingLimit - 1 then
        .ok (.keyed kind (before ++ after), rest)
      else .error (.malformed .tooDeep) := by
  obtain ⟨inside, hopen⟩ := h.opens_object
  have hread := Json.readObject_of_spells true OuterNode.add hexact
    (fun entry hmem => OuterNode.readsMember (hexact entry hmem)) .empty h hopen
  rw [TaggedNode.read, Json.readBy_object hopen, Json.withoutLocation_bind, hread,
    OuterNode.foldlM_add hkeys]
  simp only [Value.entriesNesting_le]
  split
  · simp [Functor.map, Except.map, bind, Except.bind, OuterNode.finish]
  · rfl

namespace Query

theorem isBlank_compact (query : Query) : Text.isBlank query.toJson.compact.toList = false := by
  rw [toJson_eq, Value.compact, String.toList_ofList, Value.write]
  rfl

theorem read_toJson (query : Query) :
    Json.withoutLocation (TaggedNode.read (query.toJson.write [])) =
      if query.toJson.nesting ≤ Json.nestingLimit then
        .ok (.keyed query.kind (Row.entries query.kind.schema query.row), [])
      else .error (.malformed .tooDeep) := by
  have hexact := query.toJson_isExact
  have hspells := Value.spells_write hexact []
  rw [toJson_eq] at hexact hspells ⊢
  obtain - | - | ⟨hentries⟩ := hexact
  have hread := TaggedNode.read_of_spells [] _ hentries query.row_key_ne_tagKey hspells
  have hnesting (n : Nat) : max 0 n + 1 ≤ Json.nestingLimit ↔ n ≤ Json.nestingLimit - 1 := by
    rw [Json.nestingLimit]
    omega
  simp only [hread, List.nil_append, Value.nesting, Value.entriesNesting, hnesting]

/-- An encoded query is read back from its compact text, unless the text nests too deep. -/
theorem parse_compact_toJson (query : Query) :
    if Json.textNesting query.toJson.compact ≤ Json.nestingLimit then
      parse query.toJson.compact = .ok query
    else
      ∃ location?,
        parse query.toJson.compact = .error (.invalid (.malformed .tooDeep) location?) := by
  have hread := query.read_toJson
  rw [Value.textNesting_compact query.toJson_isExact, parse, isBlank_compact, ofJson, Value.compact,
    String.toList_ofList]
  by_cases hnesting : query.toJson.nesting ≤ Json.nestingLimit
  · have hdecode := decode_row (decodeField_inverts Json.nestingLimit) hnesting
    rw [if_pos hnesting, Json.withoutLocation_eq_ok] at hread
    rw [if_pos hnesting, hread]
    simp [bind, Except.bind, hdecode, Json.readEnd, Json.skipBlanks, Except.mapError]
  · rw [if_neg hnesting, Json.withoutLocation_eq_error] at hread
    obtain ⟨behind?, hread⟩ := hread
    rw [if_neg hnesting, hread]
    exact ⟨_, rfl⟩

end Query

end SearchFilter
