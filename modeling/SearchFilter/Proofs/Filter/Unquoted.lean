import SearchFilter.Proofs.Filter.Text
import SearchFilter.Proofs.Text.Visible
/-!
# Control characters in the text of a filter

Fields and patterns stand in the text of a filter as they are. The rest of the text has no control
characters, so those of the text are the ones in fields and patterns.
-/
namespace SearchFilter.Filter

open Text (Visible)

mutual

/-- What is written without quotes: the fields and patterns of all filters in a filter. -/
def unquoted : Filter → List Char
  | compare _ field operand => field.toList ++ operandUnquoted operand
  | regex field pattern => field.toList ++ pattern.toList
  | present field => field.toList
  | combine _ children => childrenUnquoted children
  | negate child => unquoted child

def operandUnquoted : Operand → List Char
  | .null | .int _ | .text _ => []
  | .document filter => unquoted filter

def childrenUnquoted : List Filter → List Char
  | [] => []
  | child :: children => unquoted child ++ childrenUnquoted children

end

theorem childrenUnquoted_eq_flatMap (children : List Filter) :
    childrenUnquoted children = children.flatMap unquoted := by
  induction children with
  | nil => rfl
  | cons child children ih => rw [childrenUnquoted, ih, List.flatMap_cons]

variable {c : Char}

theorem count_writeOperand (hc : c < ' ') {operand : Operand}
    (ih : ∀ inner, operand = .document inner → ∀ rest,
      (inner.write rest).count c = inner.unquoted.count c + rest.count c) (rest : List Char) :
    (writeOperand operand rest).count c = (operandUnquoted operand).count c + rest.count c := by
  cases operand with
  | null =>
    have hnull : Visible "null".toList := by decide
    rw [writeOperand, List.count_append, hnull.count_eq_zero hc, operandUnquoted, List.count_nil]
  | int value =>
    have hvalue := Text.visible_signedDecimal value.toInt
    rw [writeOperand, List.count_append, hvalue.count_eq_zero hc, operandUnquoted, List.count_nil]
  | text value =>
    have hvalue := Text.visible_quoted value
    rw [writeOperand, List.count_append, hvalue.count_eq_zero hc, operandUnquoted, List.count_nil]
  | document inner =>
    simp (disch := decide) only [writeOperand, operandUnquoted, Text.count_cons_of_le hc,
      ih inner rfl]

theorem count_writeChildren (hc : c < ' ') {children : List Filter}
    (ih : ∀ child ∈ children, ∀ rest,
      (child.write rest).count c = child.unquoted.count c + rest.count c) (rest : List Char) :
    (writeChildren children rest).count c =
      (childrenUnquoted children).count c + rest.count c := by
  induction children with
  | nil =>
    simp (disch := decide) only [writeChildren, childrenUnquoted, Text.count_cons_of_le hc,
      List.count_nil, Nat.zero_add]
  | cons child children ih' =>
    rw [List.forall_mem_cons] at ih
    simp (disch := decide) only [writeChildren, childrenUnquoted, Text.count_cons_of_le hc, ih.1,
      ih' ih.2, List.count_append, Nat.add_assoc]

theorem Operation.visible_name (operation : Operation) : Visible operation.name.toList := by
  have hall : ∀ o ∈ all, Visible o.name.toList := by decide
  exact hall operation (mem_all operation)

/-- A control character comes as often in the text of a filter as in its fields and patterns. -/
theorem count_write (hc : c < ' ') (filter : Filter) (rest : List Char) :
    (filter.write rest).count c = filter.unquoted.count c + rest.count c := by
  have hinside (filter : Filter) (rest : List Char) :
      (filter.write rest).count c = (filter.writeInside rest).count c := by
    rw [write_eq, List.count_append, filter.operation.visible_name.count_eq_zero hc, Nat.zero_add,
      Text.count_cons_of_le hc (by decide)]
  induction filter generalizing rest with
  | compare op field operand ih =>
    simp (disch := decide) only [hinside, writeInside, unquoted, List.count_append,
      Text.count_cons_of_le hc, count_writeOperand hc ih, Nat.add_assoc]
  | regex field pattern =>
    simp (disch := decide) only [hinside, writeInside, unquoted, List.count_append,
      Text.count_cons_of_le hc, Nat.add_assoc]
  | present field =>
    simp (disch := decide) only [hinside, writeInside, unquoted, List.count_append,
      Text.count_cons_of_le hc]
  | combine op children ih =>
    rw [hinside]
    cases children with
    | nil =>
      simp (disch := decide) only [writeInside, unquoted, childrenUnquoted,
        Text.count_cons_of_le hc, List.count_nil, Nat.zero_add]
    | cons child children =>
      rw [List.forall_mem_cons] at ih
      simp only [writeInside, unquoted, childrenUnquoted, List.count_append, ih.1,
        count_writeChildren hc ih.2, Nat.add_assoc]
  | negate child ih =>
    simp (disch := decide) only [hinside (negate child), writeInside, unquoted,
      Text.count_cons_of_le hc, ih]

theorem count_text (hc : c < ' ') (filter : Filter) :
    filter.text.toList.count c = filter.unquoted.count c := by
  rw [text, String.toList_ofList, count_write hc, List.count_nil, Nat.add_zero]

end SearchFilter.Filter
