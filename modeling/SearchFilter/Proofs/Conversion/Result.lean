import Mathlib.Data.List.Forall2
import SearchFilter.Conversion
/-!
# Results of conversions

Whether a conversion succeeds, and with what, apart from its log. A list of clauses is converted
exactly when every clause is, and the filters stand in the order of the clauses.
-/
namespace SearchFilter

namespace Traced

variable {α β γ : Type}

private theorem id_map_eq (traced : Traced α) : id <$> traced = traced := by
  obtain ⟨log, result⟩ := traced
  cases result with
  | error rejection => rfl
  | ok value => exact congrArg (Traced.mk · (.ok value)) (List.append_nil log)

private theorem bind_bind (traced : Traced α) (next : α → Traced β) (last : β → Traced γ) :
    traced >>= next >>= last = traced >>= fun value => next value >>= last := by
  obtain ⟨log, result⟩ := traced
  cases result with
  | error rejection => rfl
  | ok value =>
    rw [bind_ok, bind_ok]
    obtain ⟨log', result'⟩ := next value
    cases result' with
    | error rejection => rfl
    | ok value' => rw [bind_ok, bind_ok, List.append_assoc]

instance : LawfulMonad Traced :=
  .mk' Traced id_map_eq (fun _ _ => rfl) bind_bind

@[simp] theorem result_pure (value : α) : (pure value : Traced α).result = .ok value := rfl

@[simp] theorem result_reject (kind : String) (position : Position) :
    (reject kind position : Traced α).result = .error ⟨kind, position⟩ := rfl

theorem result_bind (traced : Traced α) (next : α → Traced β) :
    (traced >>= next).result = traced.result.bind fun value => (next value).result := by
  obtain ⟨log, result⟩ := traced
  cases result <;> rfl

theorem result_bind_eq_ok {traced : Traced α} {next : α → Traced β} {value : β} :
    (traced >>= next).result = .ok value ↔
      ∃ first, traced.result = .ok first ∧ (next first).result = .ok value := by
  rw [result_bind]
  cases traced.result <;> simp [Except.bind]

def rejection? (traced : Traced α) : Option Rejection :=
  match traced.result with
  | .ok _ => none
  | .error rejection => some rejection

theorem rejection?_eq_some {traced : Traced α} {rejection : Rejection} :
    traced.rejection? = some rejection ↔ traced.result = .error rejection := by
  unfold rejection?
  cases traced.result <;> simp

theorem rejection?_pure (value : α) : (pure value : Traced α).rejection? = none := rfl

theorem rejection?_bind {traced : Traced α} {next : α → Traced β} {second : Option Rejection}
    (h : ∀ value, (next value).rejection? = second) :
    (traced >>= next).rejection? = traced.rejection?.or second := by
  unfold rejection?
  rw [result_bind]
  cases hr : traced.result with
  | error rejection => rfl
  | ok value => exact h value

end Traced

namespace Conversion

open Sortable (Side)

variable {settings : Settings}

theorem toFilter_result (settings : Settings) (query : Query) :
    (query.toFilter settings).result = (root settings query).result := rfl

theorem toFilter_rejection? (settings : Settings) (query : Query) :
    (query.toFilter settings).rejection? = (root settings query).rejection? := rfl

theorem numericRange_result (field : String) (lower upper : List UInt8) :
    (numericRange settings field lower upper).result =
      .ok (interval field (.int (Side.lower.bound lower)) (.int (Side.upper.bound upper))) := rfl

theorem clause_boolean_eq_ok {scope : Scope} {own : Occurrence} {inner : List (Clause Query)}
    {filter : Filter} :
    (clause settings scope own (.boolean inner)).result = .ok filter ↔
      ∃ children, (clauses settings (.clause own) inner).result = .ok children ∧
        .or children = filter := by
  simp only [clause, Traced.result_bind_eq_ok, Traced.result_pure, Except.ok.injEq]

theorem root_boolean_eq_ok {inner : List (Clause Query)} {filter : Filter} :
    (root settings (.boolean inner)).result = .ok filter ↔
      ∃ children, (clauses settings .root inner).result = .ok children ∧
        .and children = filter := by
  simp only [root, Traced.result_bind_eq_ok, Traced.result_pure, Except.ok.injEq]

theorem root_boolean_eq_error {inner : List (Clause Query)} {rejection : Rejection} :
    (root settings (.boolean inner)).result = .error rejection ↔
      (clauses settings .root inner).result = .error rejection := by
  rw [root, Traced.result_bind]
  cases (clauses settings .root inner).result <;> simp [Except.bind]

theorem clauses_cons (settings : Settings) (scope : Scope) (c : Clause Query)
    (rest : List (Clause Query)) :
    clauses settings scope (c :: rest) = do
      let filter ← clause settings scope c.occurrence c.query
      let filters ← clauses settings scope rest
      return filter :: filters := rfl

theorem clauses_eq_ok {scope : Scope} {inner : List (Clause Query)} {filters : List Filter} :
    (clauses settings scope inner).result = .ok filters ↔
      List.Forall₂ (fun c f => (clause settings scope c.occurrence c.query).result = .ok f)
        inner filters := by
  induction inner generalizing filters with
  | nil => simp [clauses, eq_comm]
  | cons c rest ih =>
    rw [clauses_cons, Traced.result_bind_eq_ok, List.forall₂_cons_left_iff]
    constructor
    · intro h
      rcases h with ⟨filter, hfilter, h⟩
      obtain ⟨tail, htail, h⟩ := Traced.result_bind_eq_ok.mp h
      rw [Traced.result_pure, Except.ok.injEq] at h
      exact ⟨filter, tail, hfilter, ih.mp htail, h.symm⟩
    · intro h
      rcases h with ⟨filter, tail, hfilter, htail, rfl⟩
      exact ⟨filter, hfilter, Traced.result_bind_eq_ok.mpr ⟨tail, ih.mpr htail, rfl⟩⟩

end Conversion

end SearchFilter
