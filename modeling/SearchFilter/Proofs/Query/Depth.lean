import SearchFilter.Proofs.Conversion.Result
import SearchFilter.Proofs.Query.Normalized
/-!
# How deep parsed queries go

Every boolean query inside another one takes three levels of nesting in a text, and texts nest only
so deep. So a conversion has bounded recursion on every query that was read from a text, whatever
spelling the text uses.
-/
namespace SearchFilter

namespace Query

theorem depth_le_clausesDepth {clauses : List (Clause Query)} {c : Clause Query}
    (h : c ∈ clauses) : c.query.depth ≤ clausesDepth clauses := by
  induction clauses with
  | nil => cases h
  | cons d clauses ih =>
    rw [clausesDepth]
    rcases List.mem_cons.mp h with rfl | h
    · exact Nat.le_max_left _ _
    · exact (ih h).trans (Nat.le_max_right _ _)

theorem depth_le_of_boolean {clauses : List (Clause Query)} {room : Nat}
    (h : (boolean clauses).depth ≤ room + 1) : ∀ c ∈ clauses, c.query.depth ≤ room := by
  intro c hc
  rw [depth, Nat.add_comm] at h
  exact (depth_le_clausesDepth hc).trans (Nat.le_of_succ_le_succ h)

theorem three_mul_clausesDepth_le {clauses : List (Clause Query)}
    (each : ∀ c ∈ clauses, 3 * c.query.depth ≤ c.query.toJson.nesting + 1) :
    3 * clausesDepth clauses ≤ Json.Value.itemsNesting (clausesToJson clauses) := by
  induction clauses with
  | nil => exact le_rfl
  | cons c clauses ih =>
    rw [List.forall_mem_cons] at each
    have hfirst := each.1
    have hothers := ih each.2
    rw [clausesDepth, clausesToJson, Json.Value.itemsNesting, Json.Value.nesting,
      Json.Value.entriesNesting]
    omega

theorem three_mul_depth_le (query : Query) : 3 * query.depth ≤ query.toJson.nesting + 1 := by
  induction query with
  | leaf l => exact Nat.zero_le _
  | boolean clauses ih =>
    -- the three levels are the boolean query, the list of its clauses and the clause
    have hclauses := three_mul_clausesDepth_le ih
    simp only [depth, toJson, Json.Value.nesting, Json.Value.entriesNesting]
    omega

theorem nesting_of_parse {text : String} {query : Query} (h : parse text = .ok query) :
    query.toJson.nesting ≤ Json.textNesting text ∧ Json.textNesting text ≤ Json.nestingLimit := by
  obtain ⟨-, hjson⟩ := parse_eq_ok.mp h
  obtain ⟨node, rest, hread, hdecode, hrest⟩ := ofJson_eq_ok.mp hjson
  obtain ⟨hlimit, hdeepest⟩ := TaggedNode.read_depth _ _ _ hread
  rw [Json.textNesting_of_deepest (hdeepest 0) hrest, Nat.zero_add]
  exact ⟨TaggedNode.nesting_le_of_decode (decodeField_neverDeepens _) hdecode, hlimit⟩

end Query

namespace Conversion

mutual

/-- The filter of a clause, found with room for only so many boolean queries inside each other. -/
def clauseWithin (room : Nat) (settings : Settings) (scope : Scope) (own : Occurrence) :
    Query → OptionT Traced Filter
  | .leaf l => OptionT.lift (clauseLeaf settings (scope.governing own) l)
  | .boolean inner =>
    match room with
    | 0 => failure
    | room + 1 => do return .or (← clausesWithin room settings (.clause own) inner)

def clausesWithin (room : Nat) (settings : Settings) (scope : Scope) :
    List (Clause Query) → OptionT Traced (List Filter)
  | [] => return []
  | ⟨query, own⟩ :: rest => do
    let filter ← clauseWithin room settings scope own query
    let filters ← clausesWithin room settings scope rest
    return filter :: filters

end

def rootWithin (room : Nat) (settings : Settings) : Query → OptionT Traced Filter
  | .leaf l => OptionT.lift (rootLeaf settings l)
  | .boolean inner =>
    match room with
    | 0 => failure
    | room + 1 => do return .and (← clausesWithin room settings .root inner)

variable {settings : Settings}

theorem clausesWithin_eq {room : Nat} {scope : Scope} {inner : List (Clause Query)}
    (each : ∀ c ∈ inner, clauseWithin room settings scope c.occurrence c.query =
      OptionT.lift (clause settings scope c.occurrence c.query)) :
    clausesWithin room settings scope inner = OptionT.lift (clauses settings scope inner) := by
  induction inner with
  | nil => exact (OptionT.lift_pure _).symm
  | cons c rest ih =>
    rw [List.forall_mem_cons] at each
    rw [clausesWithin, clauses_cons, each.1, ih each.2]
    simp only [OptionT.lift_bind, OptionT.lift_pure]

/-- A conversion has the same log and the same result in as much room as the query is deep. -/
theorem clauseWithin_eq {query : Query} {room : Nat} (h : query.depth ≤ room) (scope : Scope)
    (own : Occurrence) :
    clauseWithin room settings scope own query =
      OptionT.lift (clause settings scope own query) := by
  induction query generalizing room scope own with
  | leaf l => rw [clauseWithin, clause]
  | boolean inner ih =>
    cases room with
    | zero => simp [Query.depth] at h
    | succ room =>
      have hclauses := clausesWithin_eq fun c hc =>
        ih c hc (Query.depth_le_of_boolean h c hc) (.clause own) c.occurrence
      rw [clauseWithin, clause, hclauses]
      simp only [OptionT.lift_bind, OptionT.lift_pure]

theorem rootWithin_eq {query : Query} {room : Nat} (h : query.depth ≤ room) (settings : Settings) :
    rootWithin room settings query = OptionT.lift (root settings query) := by
  cases query with
  | leaf l => rfl
  | boolean inner =>
    cases room with
    | zero => simp [Query.depth] at h
    | succ room =>
      have hclauses : clausesWithin room settings .root inner =
          OptionT.lift (clauses settings .root inner) :=
        clausesWithin_eq fun c hc =>
          clauseWithin_eq (Query.depth_le_of_boolean h c hc) .root c.occurrence
      rw [rootWithin, root, hclauses]
      simp only [OptionT.lift_bind, OptionT.lift_pure]

example : (rootWithin 1 ⟨"_id", '.'⟩ (.boolean [⟨.boolean [], .required⟩])).run.result = .ok none :=
  rfl

end Conversion

/-- A query read from a text is at most a third as deep as the text nests, which is 42 levels at
most, and no conversion of it needs more room than that. -/
theorem Query.depth_of_parse {text : String} {query : Query} (h : parse text = .ok query) :
    3 * query.depth ≤ Json.textNesting text + 1 ∧ query.depth ≤ 42 ∧
      ∀ settings, Conversion.rootWithin 42 settings query =
        OptionT.lift (Conversion.root settings query) := by
  obtain ⟨hnesting, hlimit⟩ := nesting_of_parse h
  have hdepth := three_mul_depth_le query
  have hbound : query.depth ≤ 42 := by
    rw [Json.nestingLimit] at hlimit
    omega
  exact ⟨by omega, hbound, Conversion.rootWithin_eq hbound⟩

/-- In arrays, two boolean queries fit into five levels and no more. -/
theorem Query.depth_of_parse_positional :
    let clause : Json.Value := .array [.array [.text "boolean", .array []], .text "optional"]
    let value : Json.Value := .array [.text "boolean", .array [clause]]
    let query := boolean [⟨boolean [], .optional⟩]
    parse value.compact = .ok query ∧ Json.textNesting value.compact = 5 ∧
      3 * query.depth ≤ 5 + 1 ∧ query.depth ≤ 42 ∧
      Conversion.rootWithin 42 ⟨"_id", '.'⟩ query =
        OptionT.lift (Conversion.root ⟨"_id", '.'⟩ query) := by
  intro clause value query
  have hclause : clause.IsExact := .array (List.forall_mem_cons.mpr
    ⟨.array (List.forall_mem_cons.mpr ⟨.scalar trivial,
      List.forall_mem_singleton.mpr (.array (List.forall_mem_nil _))⟩),
      List.forall_mem_singleton.mpr (.scalar trivial)⟩)
  have hexact : value.IsExact := .array (List.forall_mem_cons.mpr ⟨.scalar trivial,
    List.forall_mem_singleton.mpr (.array (List.forall_mem_singleton.mpr hclause))⟩)
  have hdecode : decodeField (Json.nestingLimit + 1) .query value = .ok query := by rfl
  have hparse : parse value.compact = .ok query :=
    (parse_eq_ok_iff hexact (Json.Value.spelledBy_compact hexact)).mpr
      ⟨by decide, ⟨"boolean", rfl⟩, hdecode⟩
  have hnesting : Json.textNesting value.compact = 5 := Json.Value.textNesting_compact hexact
  obtain ⟨hdepth, hbound, hroom⟩ := depth_of_parse hparse
  exact ⟨hparse, hnesting, hnesting ▸ hdepth, hbound, hroom _⟩

end SearchFilter
