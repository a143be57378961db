import SearchFilter.Proofs.Conversion.Settings
import SearchFilter.Proofs.Conversion.Shape
import SearchFilter.Proofs.Filter.Document
/-!
# Leaves alone and in required clauses

A leaf is converted by other rules where it is the whole query than in a clause. In a required
clause its document is the same nevertheless, unless it is a phrase with the separator in the field
of some word: there the root splits the field and a clause does not.
-/
namespace SearchFilter

open Conversion

namespace Path

theorem documentKey_filter (separator : Char) (field text : String) :
    (filter separator field text).documentKey =
      String.ofList (segments separator field.toList).1 := by
  rw [filter_eq_nest]
  cases dropTrailingEmpty (segments separator field.toList).2 <;> rfl

/-- A word has the same document with its field split and unsplit exactly when there is nothing to
split. -/
theorem document_eq_document_filter_iff (separator : Char) (field text : String) :
    (Filter.eq field (.text text)).document = (filter separator field text).document ↔
      separator ∉ field.toList := by
  constructor
  · intro h
    have hkey : field = String.ofList (segments separator field.toList).1 :=
      (Filter.documentKey_eq h).trans (documentKey_filter separator field text)
    have hfree := not_mem_segments separator field.toList _ List.mem_cons_self
    rwa [← String.toList_ofList (l := (segments separator field.toList).1), ← hkey] at hfree
  · intro h
    rw [filter_of_not_mem h]

end Path

/-- No word of a phrase has the separator in its field. Other leaves have no words. -/
def Leaf.IsUnsplit (separator : Char) : Leaf → Prop
  | phrase words => ∀ w ∈ words, separator ∉ w.field.toList
  | _ => True

namespace Conversion

variable {settings : Settings}

theorem exists_rootLeaf_clauseLeaf (settings : Settings) {l : Leaf}
    (h : l.kind ∈ [Kind.term, .phrase, .numericRange, .textRange]) :
    ∃ alone required, (rootLeaf settings l).result = .ok alone ∧
      (clauseLeaf settings .required l).result = .ok required ∧
      (required.document = alone.document ↔ l.IsUnsplit settings.separator) := by
  cases l with
  | term field text => exact ⟨_, _, rfl, rfl, iff_true_intro rfl⟩
  | numericRange field lower upper => exact ⟨_, _, rfl, rfl, iff_true_intro rfl⟩
  | textRange field lower upper => exact ⟨_, _, rfl, rfl, iff_true_intro rfl⟩
  | phrase words =>
    refine ⟨_, _, rfl, rfl, ?_⟩
    -- both documents are lists under the same operator, so they are compared word by word
    simp only [Filter.document, Connective.operator, Filter.documents_eq_map, List.map_map,
      Json.Value.object.injEq, List.cons.injEq, Prod.mk.injEq, Json.Value.array.injEq, true_and,
      and_true, List.map_inj_left, Function.comp_apply]
    exact forall₂_congr fun w _ =>
      Path.document_eq_document_filter_iff settings.separator w.field w.text
  | _ => simp [Leaf.kind] at h

theorem exists_required_clauses (settings : Settings) {leaves : List Leaf}
    (kinds : ∀ l ∈ leaves, l.kind ∈ [Kind.term, .phrase, .numericRange, .textRange]) :
    ∃ alone required,
      List.Forall₂ (fun l f => (rootLeaf settings l).result = .ok f) leaves alone ∧
      (clauses settings .root (leaves.map fun l => ⟨.leaf l, .required⟩)).result = .ok required ∧
      (Filter.documents required = Filter.documents alone ↔
        ∀ l ∈ leaves, l.IsUnsplit settings.separator) := by
  induction leaves with
  | nil => exact ⟨[], [], .nil, rfl, by simp⟩
  | cons l leaves ih =>
    rw [List.forall_mem_cons] at kinds
    obtain ⟨first, first', halone, hrequired, hdocument⟩ :=
      exists_rootLeaf_clauseLeaf settings kinds.1
    obtain ⟨others, others', hothers, hclauses, hdocuments⟩ := ih kinds.2
    refine ⟨first :: others, first' :: others', .cons halone hothers, ?_, ?_⟩
    · exact clauses_eq_ok.mpr (.cons hrequired (clauses_eq_ok.mp hclauses))
    · rw [Filter.documents, Filter.documents, List.cons.injEq, hdocument, hdocuments,
        List.forall_mem_cons]

end Conversion

/-- A boolean query of required leaves has as its document the conjunction of the documents that the
leaves have on their own exactly when no word of a phrase has the separator in its field. -/
theorem Query.toFilter_required_document_iff (settings : Settings) (leaves : List Leaf)
    (kinds : ∀ l ∈ leaves, l.kind ∈ [Kind.term, .phrase, .numericRange, .textRange]) :
    ∃ alone filter,
      List.Forall₂ (fun l f => ((leaf l).toFilter settings).result = .ok f) leaves alone ∧
      ((boolean (leaves.map fun l => ⟨leaf l, .required⟩)).toFilter settings).result = .ok filter ∧
      (filter.document = .single "$and" (.array (alone.map Filter.document)) ↔
        ∀ words, .phrase words ∈ leaves → ∀ w ∈ words, settings.separator ∉ w.field.toList) := by
  obtain ⟨alone, required, halone, hrequired, hdocuments⟩ :=
    exists_required_clauses settings kinds
  refine ⟨alone, .and required, halone, root_boolean_eq_ok.mpr ⟨required, hrequired, rfl⟩, ?_⟩
  have hunsplit : (∀ l ∈ leaves, l.IsUnsplit settings.separator) ↔
      ∀ words, .phrase words ∈ leaves → ∀ w ∈ words, settings.separator ∉ w.field.toList := by
    constructor
    · intro h words hmem
      exact h _ hmem
    · intro h l hmem
      cases l with
      | phrase words => exact h words hmem
      | _ => trivial
  rw [← hunsplit, ← hdocuments, ← Filter.documents_eq_map]
  simp only [Filter.document, Connective.operator, Json.Value.object.injEq, List.cons.injEq,
    Prod.mk.injEq, Json.Value.array.injEq, true_and, and_true]

/-- A separator at the end of a field is dropped at the root alone. -/
theorem Query.toFilter_required_document_iff_trailing :
    let leaves : List Leaf := [.term "title" "rust", .phrase [⟨"lang.", "en"⟩]]
    (∀ l ∈ leaves, l.kind ∈ [Kind.term, .phrase, .numericRange, .textRange]) ∧
      List.Forall₂ (fun l f => ((leaf l).toFilter ⟨"_id", '.'⟩).result = .ok f) leaves
        [.eq "title" (.text "rust"), .all [.eq "lang" (.text "en")]] ∧
      ∃ filter, ((boolean (leaves.map fun l => ⟨leaf l, .required⟩)).toFilter
          ⟨"_id", '.'⟩).result = .ok filter ∧
        filter.document ≠ .single "$and" (.array ([.eq "title" (.text "rust"),
          .all [.eq "lang" (.text "en")]].map Filter.document)) := by
  intro leaves
  have kinds : ∀ l ∈ leaves, l.kind ∈ [Kind.term, .phrase, .numericRange, .textRange] := by decide
  obtain ⟨alone, filter, halone, hfilter, hiff⟩ :=
    toFilter_required_document_iff ⟨"_id", '.'⟩ leaves kinds
  have hexpected : List.Forall₂ (fun l f => ((leaf l).toFilter ⟨"_id", '.'⟩).result = .ok f) leaves
      [.eq "title" (.text "rust"), .all [.eq "lang" (.text "en")]] := .cons rfl (.cons rfl .nil)
  obtain rfl := List.right_unique_forall₂'
    (fun _ _ _ h h' => Except.ok.inj (h.symm.trans h')) halone hexpected
  refine ⟨kinds, hexpected, filter, hfilter, ?_⟩
  intro hdocument
  exact hiff.mp hdocument [⟨"lang.", "en"⟩] (by simp [leaves]) ⟨"lang.", "en"⟩ (by simp) (by decide)

end SearchFilter
