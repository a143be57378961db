import SearchFilter.Proofs.Conversion.Size
import SearchFilter.Proofs.Filter.Unquoted
/-!
# Control characters of a query in its filter

Conversion changes neither the fields of a query nor, as far as control characters go, its patterns.
Only the separators of a path are lost.
-/
namespace SearchFilter

open Conversion

variable {c : Char}

namespace Pattern

theorem count_flatMap {f : Char → List Char} (h : ∀ d, (f d).count c = [d].count c)
    (cs : List Char) : (cs.flatMap f).count c = cs.count c := by
  induction cs with
  | nil => rfl
  | cons d cs ih =>
    rw [List.flatMap_cons, List.count_append, ih, h, ← List.count_append]
    rfl

theorem count_wildcard (hc : c < ' ') (pattern : String) :
    (wildcard pattern).toList.count c = pattern.toList.count c := by
  rw [wildcard, String.toList_ofList]
  apply count_flatMap
  intro d
  unfold wildcardChar
  split
  all_goals simp (disch := decide) only [Text.count_cons_of_le hc]

theorem count_startsWith (hc : c < ' ') (start : String) :
    (startsWith start).toList.count c = start.toList.count c := by
  rw [startsWith, count_wildcard hc, String.toList_push, List.count_append,
    Text.count_cons_of_le hc (by decide), List.count_nil, Nat.add_zero]

theorem count_fuzzy (hc : c < ' ') (text : String) (maxEdits : UInt32) :
    (fuzzy text maxEdits).toList.count c = text.toList.count c := by
  have hclass (cs : List Char) : (cs.flatMap charClass).count c = cs.count c := by
    apply count_flatMap
    intro d
    have hclose : Text.Visible [']'] := by decide
    change ('[' :: ([d] ++ [']'])).count c = [d].count c
    rw [Text.count_cons_of_le hc (by decide), List.count_append, hclose.count_eq_zero hc,
      Nat.add_zero]
  have hedits := Text.visible_decimal maxEdits.toNat
  rw [fuzzy, String.toList_ofList, fuzzyChars]
  simp (disch := decide) only [List.cons_append, List.append_assoc, Text.count_cons_of_le hc,
    List.count_append, hclass, hedits.count_eq_zero hc, List.count_nil, List.nil_append,
    Nat.add_zero]
  rw [← List.count_append, List.take_append_drop]

end Pattern

namespace Path

theorem flatten_dropTrailingEmpty (names : List (List Char)) :
    (dropTrailingEmpty names).flatten = names.flatten := by
  have hdropped : (names.reverse.takeWhile List.isEmpty).reverse.flatten = [] := by
    rw [List.flatten_eq_nil_iff]
    intro name hname
    exact List.isEmpty_iff.mp (List.mem_takeWhile_imp (List.mem_reverse.mp hname))
  have hsplit : dropTrailingEmpty names ++ (names.reverse.takeWhile List.isEmpty).reverse =
      names := by
    rw [dropTrailingEmpty, ← List.reverse_append, List.takeWhile_append_dropWhile,
      List.reverse_reverse]
  conv_rhs => rw [← hsplit]
  rw [List.flatten_append, hdropped, List.append_nil]

theorem flatten_segments (separator : Char) (cs : List Char) :
    (segments separator cs).1 ++ (segments separator cs).2.flatten =
      cs.filter (· != separator) := by
  induction cs with
  | nil => rfl
  | cons c cs ih =>
    simp only [segments, List.filter_cons, ← ih]
    by_cases hc : c = separator <;> simp [hc]

theorem unquoted_nest (text : String) (segment : List Char) (others : List (List Char)) :
    (nest text segment others).unquoted = segment ++ others.flatten := by
  induction others generalizing segment with
  | nil => simp [nest, Filter.unquoted, Filter.operandUnquoted]
  | cons other others ih =>
    simp [nest, Filter.unquoted, Filter.operandUnquoted, ih]

theorem unquoted_filter (separator : Char) (field text : String) :
    (filter separator field text).unquoted = field.toList.filter (· != separator) := by
  rw [filter_eq_nest, unquoted_nest, flatten_dropTrailingEmpty, flatten_segments]

end Path

/-- The fields and patterns of a leaf that is in a clause. A range has a filter for each of its
bounds. -/
def Leaf.unquoted : Leaf → List Char
  | term field _ => field.toList
  | phrase words => words.flatMap fun w => w.field.toList
  | wildcard field pattern | startsWith field pattern | regexp field pattern
  | fuzzy field pattern _ => field.toList ++ pattern.toList
  | numericRange field _ _ | textRange field _ _ => field.toList ++ field.toList
  | matchAll | foreign _ => []

def Leaf.rootUnquoted (settings : Settings) : Leaf → List Char
  | phrase words => words.flatMap fun w => w.field.toList.filter (· != settings.separator)
  | matchAll => settings.matchAllField.toList
  | l => l.unquoted

namespace Query

mutual

def clauseUnquoted : Query → List Char
  | leaf l => l.unquoted
  | boolean clauses => clausesUnquoted clauses

def clausesUnquoted : List (Clause Query) → List Char
  | [] => []
  | ⟨query, _⟩ :: clauses => clauseUnquoted query ++ clausesUnquoted clauses

end

/-- The fields and patterns of a query that its filter is written with. -/
def unquoted (settings : Settings) : Query → List Char
  | leaf l => l.rootUnquoted settings
  | boolean clauses => clausesUnquoted clauses

end Query

namespace Conversion

variable {settings : Settings}

theorem unquoted_words (op : Comparison) (words : List PhraseWord) :
    Filter.childrenUnquoted (words.map fun w => .compare op w.field (.text w.text)) =
      words.flatMap fun w => w.field.toList := by
  rw [Filter.childrenUnquoted_eq_flatMap, List.flatMap_map]
  simp only [Filter.unquoted, Filter.operandUnquoted, List.append_nil]

theorem unquoted_interval (field : String) (lower upper : Option String) :
    (interval field (.ofBound lower) (.ofBound upper)).unquoted =
      field.toList ++ field.toList := by
  have hbound (bound : Option String) : Filter.operandUnquoted (.ofBound bound) = [] := by
    cases bound <;> rfl
  simp only [interval, Filter.unquoted, Filter.childrenUnquoted, hbound, List.append_nil]

theorem rendering?_unquoted {l : Leaf} {occurrence : Occurrence} {filter : Filter}
    (h : l.rendering? occurrence = some filter) : filter.unquoted = l.unquoted := by
  cases l with
  | term field text =>
    cases occurrence <;>
    · obtain rfl := Option.some.inj h
      exact List.append_nil _
  | phrase words =>
    cases occurrence <;>
    · obtain rfl := Option.some.inj h
      exact unquoted_words _ words
  | numericRange field lower upper =>
    obtain rfl := Option.some.inj h
    simp only [Filter.unquoted, Filter.childrenUnquoted, Filter.operandUnquoted, List.append_nil,
      Leaf.unquoted]
  | textRange field lower upper =>
    rw [rendering?_textRange, Option.some.injEq] at h
    subst h
    exact unquoted_interval field lower upper
  | _ => simp [Leaf.rendering?] at h

theorem clauses_unquoted {inner : List (Clause Query)} {children : List Filter}
    (h : List.Forall₂ (fun c f => f.unquoted = c.query.clauseUnquoted) inner children) :
    Filter.childrenUnquoted children = Query.clausesUnquoted inner := by
  induction h with
  | nil => rfl
  | cons hfirst _ ih => rw [Filter.childrenUnquoted, Query.clausesUnquoted, hfirst, ih]

theorem clause_unquoted {query : Query} {scope : Scope} {own : Occurrence} {filter : Filter}
    (h : (clause settings scope own query).result = .ok filter) :
    filter.unquoted = query.clauseUnquoted := by
  refine clause_induction (R := fun q f => f.unquoted = q.clauseUnquoted) ?_ ?_ h
  · intro l occurrence filter hl
    exact rendering?_unquoted hl
  · intro inner children hall
    exact clauses_unquoted hall

theorem rootLeaf_count_unquoted (hc : c < ' ') {settings : Settings} {l : Leaf} {filter : Filter}
    (h : (rootLeaf settings l).result = .ok filter) :
    filter.unquoted.count c = (l.rootUnquoted settings).count c := by
  cases l with
  | term field text =>
    obtain rfl := Except.ok.inj h
    exact congrArg (List.count c) (List.append_nil _)
  | phrase words =>
    obtain rfl := Except.ok.inj h
    rw [Filter.unquoted, Filter.childrenUnquoted_eq_flatMap, List.flatMap_map]
    simp only [Path.unquoted_filter, Leaf.rootUnquoted]
  | wildcard field pattern =>
    obtain rfl := Except.ok.inj h
    simp only [Filter.unquoted, Leaf.rootUnquoted, Leaf.unquoted, List.count_append,
      Pattern.count_wildcard hc]
  | startsWith field start =>
    obtain rfl := Except.ok.inj h
    simp only [Filter.unquoted, Leaf.rootUnquoted, Leaf.unquoted, List.count_append,
      Pattern.count_startsWith hc]
  | fuzzy field text maxEdits =>
    obtain rfl := Except.ok.inj h
    simp only [Filter.unquoted, Leaf.rootUnquoted, Leaf.unquoted, List.count_append,
      Pattern.count_fuzzy hc]
  | numericRange field lower upper =>
    obtain rfl := Except.ok.inj h
    simp only [interval, Filter.unquoted, Filter.childrenUnquoted, Filter.operandUnquoted,
      List.append_nil, Leaf.rootUnquoted, Leaf.unquoted]
  | textRange field lower upper =>
    obtain rfl := Except.ok.inj h
    exact congrArg (List.count c) (unquoted_interval field lower upper)
  | foreign kind => cases h
  | regexp field pattern | matchAll =>
    obtain rfl := Except.ok.inj h
    rfl

end Conversion

/-- A control character comes as often in the text of a filter as in the fields and patterns of the
query that it is for. -/
theorem Query.count_text_toFilter (hc : c < ' ') {settings : Settings} {query : Query}
    {filter : Filter} (h : (query.toFilter settings).result = .ok filter) :
    filter.text.toList.count c = (query.unquoted settings).count c := by
  rw [Filter.count_text hc]
  cases query with
  | leaf l => exact rootLeaf_count_unquoted hc h
  | boolean clauses =>
    obtain ⟨children, hchildren, rfl⟩ := root_boolean_eq_ok.mp h
    have hall := clauses_forall₂ (R := fun q f => f.unquoted = q.clauseUnquoted)
      (fun _ _ _ h => clause_unquoted h) hchildren
    rw [Filter.unquoted, clauses_unquoted hall, unquoted]

end SearchFilter
