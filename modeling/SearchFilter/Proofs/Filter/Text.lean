import SearchFilter.Filter
import SearchFilter.Proofs.Filter.Tree
import SearchFilter.Proofs.Json.Reading
import SearchFilter.Proofs.Text.Quoted
/-!
# Unique readability of filters

Filters are told apart by their texts if no comma and no closing parenthesis is in a field and no
slash in a pattern. No such text is the beginning of another one.
-/
namespace SearchFilter.Filter

/-- No field and no pattern in a filter contains a character that can stand behind it. -/
def IsReadable (filter : Filter) : Prop :=
  filter.Everywhere fun g =>
    (∀ field, g.field? = some field → ',' ∉ field.toList ∧ ')' ∉ field.toList) ∧
      ∀ pattern, g.pattern? = some pattern → '/' ∉ pattern.toList

/-- What a filter does, apart from what it applies to. -/
inductive Operation where
  | compare (op : Comparison)
  | regex
  | present
  | combine (op : Connective)
  | negate
  deriving DecidableEq

namespace Operation

def name : Operation → String
  | compare op => op.name
  | regex => "regex"
  | present => "exists"
  | combine op => op.name
  | negate => "not"

def all : List Operation :=
  [compare .eq, compare .ne, compare .gte, compare .lte, regex, present, combine .and,
    combine .or, combine .all, negate]

theorem mem_all (operation : Operation) : operation ∈ all := by
  cases operation with
  | compare op => cases op <;> decide
  | combine op => cases op <;> decide
  | _ => decide

theorem name_inj {operation operation' : Operation} (h : operation.name = operation'.name) :
    operation = operation' := by
  have hall : ∀ o ∈ all, ∀ o' ∈ all, o.name = o'.name → o = o' := by decide
  exact hall operation (mem_all operation) operation' (mem_all operation') h

theorem name_spec (operation : Operation) :
    '(' ∉ operation.name.toList ∧ ')' ∉ operation.name.toList := by
  have hall : ∀ o ∈ all, '(' ∉ o.name.toList ∧ ')' ∉ o.name.toList := by decide
  exact hall operation (mem_all operation)

end Operation

def operation : Filter → Operation
  | compare op _ _ => .compare op
  | regex _ _ => .regex
  | present _ => .present
  | combine op _ => .combine op
  | negate _ => .negate

def writeInside : Filter → List Char → List Char
  | compare _ field operand, rest =>
    field.toList ++ ',' :: ' ' :: writeOperand operand (')' :: rest)
  | regex field pattern, rest =>
    field.toList ++ ',' :: ' ' :: '/' :: (pattern.toList ++ '/' :: ')' :: rest)
  | present field, rest => field.toList ++ ')' :: rest
  | combine _ [], rest => ')' :: rest
  | combine _ (child :: children), rest => write child (writeChildren children rest)
  | negate child, rest => write child (')' :: rest)

theorem write_eq (filter : Filter) (rest : List Char) :
    filter.write rest = filter.operation.name.toList ++ '(' :: filter.writeInside rest := by
  cases filter with
  | compare op field operand => exact List.append_assoc _ _ _
  | regex field pattern =>
    have hwrite : (regex field pattern).write rest =
        "regex(".toList ++ field.toList ++ ", /".toList ++ pattern.toList ++ '/' :: ')' :: rest :=
      rfl
    simp [hwrite, writeInside, operation, Operation.name]
  | present field =>
    have hwrite : (present field).write rest =
        "exists(".toList ++ field.toList ++ ')' :: rest := rfl
    simp [hwrite, writeInside, operation, Operation.name]
  | combine op children => cases children <;> rfl
  | negate child =>
    have hwrite : (negate child).write rest = "not(".toList ++ write child (')' :: rest) := rfl
    simp [hwrite, writeInside, operation, Operation.name]

theorem operation_eq_of_write_eq {filter other : Filter} {rest rest' : List Char}
    (h : filter.write rest = other.write rest') :
    filter.operation = other.operation ∧ filter.writeInside rest = other.writeInside rest' := by
  rw [write_eq, write_eq] at h
  obtain ⟨hname, hinside⟩ :=
    Text.append_cons_inj filter.operation.name_spec.1 other.operation.name_spec.1 h
  exact ⟨Operation.name_inj (String.toList_inj.mp hname), hinside⟩

theorem write_ne_close (filter : Filter) (rest rest' : List Char) :
    filter.write rest ≠ ')' :: rest' := by
  rw [write_eq]
  intro h
  have hname := filter.operation.name_spec.2
  cases hchars : filter.operation.name.toList with
  | nil =>
    rw [hchars] at h
    simp at h
  | cons c cs =>
    rw [hchars, List.cons_append, List.cons.injEq] at h
    rw [hchars, h.1] at hname
    exact hname List.mem_cons_self

def operandKind : List Char → Nat
  | 'n' :: _ => 0
  | '"' :: _ => 2
  | '{' :: _ => 3
  | _ => 1

theorem operandKind_writeOperand (operand : Operand) (rest : List Char) :
    operandKind (writeOperand operand rest) =
      match operand with
      | .null => 0
      | .int _ => 1
      | .text _ => 2
      | .document _ => 3 := by
  cases operand with
  | null => simp [writeOperand, operandKind]
  | int value =>
    obtain ⟨c, cs, hvalue, hc⟩ := Json.signedDecimal_eq_cons value.toInt
    rw [writeOperand, hvalue, List.cons_append]
    have hne {d : Char} (hd : d ≠ '-') (hdigit : Text.isDigit d = false) : c ≠ d := by
      rcases hc with rfl | hc
      · exact hd.symm
      · exact Json.ne_of_isDigit hc hdigit
    have hn : c ≠ 'n' := hne (by decide) (by decide)
    have hquote : c ≠ '"' := hne (by decide) (by decide)
    have hbrace : c ≠ '{' := hne (by decide) (by decide)
    simp [operandKind, hn, hquote, hbrace]
  | text value => simp [writeOperand, Text.quoted, operandKind]
  | document inner => simp [writeOperand, operandKind]

/-- What has to be shown for every filter: its text is not the beginning of another one. -/
private def UniquelyReadable (filter : Filter) : Prop :=
  ∀ (other : Filter) (rest rest' : List Char), filter.IsReadable → other.IsReadable →
    filter.write rest = other.write rest' → filter = other ∧ rest = rest'

private theorem writeOperand_inj {operand operand' : Operand}
    (each : ∀ inner, operand = .document inner → UniquelyReadable inner)
    (hreadable : ∀ inner, operand = .document inner → inner.IsReadable)
    (hreadable' : ∀ inner, operand' = .document inner → inner.IsReadable)
    {rest rest' : List Char}
    (h : writeOperand operand (')' :: rest) = writeOperand operand' (')' :: rest')) :
    operand = operand' ∧ rest = rest' := by
  have hkind := congrArg operandKind h
  rw [operandKind_writeOperand, operandKind_writeOperand] at hkind
  cases operand with
  | null =>
    cases operand' with
    | null => simpa [writeOperand] using h
    | _ => cases hkind
  | int value =>
    cases operand' with
    | int value' =>
      have hends (cs : List Char) : Json.EndsNumber (')' :: cs) := by
        simp [Json.EndsNumber, Text.isDigit]
      have hread (v : Int64) (cs : List Char) :
          Json.readNumber (Text.signedDecimal v.toInt ++ ')' :: cs) =
            .ok (.integer v.toInt, ')' :: cs) := by
        have hlow := v.le_toInt
        have hhigh := v.toInt_lt
        exact Json.readNumber_signedDecimal (by omega) (by omega) (hends cs)
      have heq := hread value rest
      rw [writeOperand, writeOperand] at h
      rw [h, hread value' rest'] at heq
      simp only [Except.ok.injEq, Prod.mk.injEq, Json.Number.integer.injEq, Int64.toInt_inj,
        List.cons.injEq, true_and] at heq
      exact ⟨congrArg Operand.int heq.1.symm, heq.2.symm⟩
    | _ => cases hkind
  | text value =>
    cases operand' with
    | text value' =>
      rw [writeOperand, writeOperand] at h
      obtain ⟨rfl, hrest⟩ := Text.quoted_append_inj h
      exact ⟨rfl, (List.cons.inj hrest).2⟩
    | _ => cases hkind
  | document inner =>
    cases operand' with
    | document inner' =>
      rw [writeOperand, writeOperand, List.cons.injEq] at h
      obtain ⟨rfl, hrest⟩ :=
        each inner rfl inner' _ _ (hreadable inner rfl) (hreadable' inner' rfl) h.2
      simp only [List.cons.injEq, true_and] at hrest
      exact ⟨rfl, hrest⟩
    | _ => cases hkind

private theorem writeChildren_inj {children children' : List Filter}
    (each : ∀ child ∈ children, UniquelyReadable child)
    (hreadable : ∀ child ∈ children, child.IsReadable)
    (hreadable' : ∀ child ∈ children', child.IsReadable) {rest rest' : List Char}
    (h : writeChildren children rest = writeChildren children' rest') :
    children = children' ∧ rest = rest' := by
  induction children generalizing children' with
  | nil =>
    cases children' with
    | nil => simpa [writeChildren] using h
    | cons child' children' => simp [writeChildren] at h
  | cons child children ih =>
    cases children' with
    | nil => simp [writeChildren] at h
    | cons child' children' =>
      simp only [writeChildren, List.cons.injEq, true_and] at h
      obtain ⟨rfl, hchildren⟩ := each child List.mem_cons_self child' _ _
        (hreadable child List.mem_cons_self) (hreadable' child' List.mem_cons_self) h
      obtain ⟨rfl, hrest⟩ := ih (fun c hc => each c (List.mem_cons_of_mem _ hc))
        (fun c hc => hreadable c (List.mem_cons_of_mem _ hc))
        (fun c hc => hreadable' c (List.mem_cons_of_mem _ hc)) hchildren
      exact ⟨rfl, hrest⟩

private theorem writeInside_combine_inj {op : Connective} {children children' : List Filter}
    (each : ∀ child ∈ children, UniquelyReadable child)
    (hreadable : ∀ child ∈ children, child.IsReadable)
    (hreadable' : ∀ child ∈ children', child.IsReadable) {rest rest' : List Char}
    (h : (combine op children).writeInside rest = (combine op children').writeInside rest') :
    children = children' ∧ rest = rest' := by
  cases children with
  | nil =>
    cases children' with
    | nil => simpa [writeInside] using h
    | cons child' children' => exact absurd h.symm (write_ne_close child' _ _)
  | cons child children =>
    cases children' with
    | nil => exact absurd h (write_ne_close child _ _)
    | cons child' children' =>
      have hlist : writeChildren (child :: children) rest =
          writeChildren (child' :: children') rest' := by
        simp only [writeInside] at h
        simp only [writeChildren, h]
      exact writeChildren_inj each hreadable hreadable' hlist

private theorem uniquelyReadable (filter : Filter) : UniquelyReadable filter := by
  induction filter with
  | compare op field operand ih =>
    intro other rest rest' hreadable hreadable' h
    obtain ⟨hop, hinside⟩ := operation_eq_of_write_eq h
    cases other with
    | compare op' field' operand' =>
      obtain rfl := Operation.compare.inj hop
      -- no field holds the comma behind it
      obtain ⟨hfield, hoperand⟩ := Text.append_cons_inj (hreadable.self.1 field rfl).1
        (hreadable'.self.1 field' rfl).1 hinside
      obtain ⟨rfl, hrest⟩ := writeOperand_inj ih (fun _ => hreadable.document)
        (fun _ => hreadable'.document) (List.cons.inj hoperand).2
      rw [String.toList_inj.mp hfield]
      exact ⟨rfl, hrest⟩
    | _ => cases hop
  | regex field pattern =>
    intro other rest rest' hreadable hreadable' h
    obtain ⟨hop, hinside⟩ := operation_eq_of_write_eq h
    cases other with
    | regex field' pattern' =>
      obtain ⟨hfield, hpattern⟩ := Text.append_cons_inj (hreadable.self.1 field rfl).1
        (hreadable'.self.1 field' rfl).1 hinside
      simp only [List.cons.injEq, true_and] at hpattern
      obtain ⟨hpattern, hrest⟩ := Text.append_cons_inj (hreadable.self.2 pattern rfl)
        (hreadable'.self.2 pattern' rfl) hpattern
      rw [String.toList_inj.mp hfield, String.toList_inj.mp hpattern]
      exact ⟨rfl, (List.cons.inj hrest).2⟩
    | _ => cases hop
  | present field =>
    intro other rest rest' hreadable hreadable' h
    obtain ⟨hop, hinside⟩ := operation_eq_of_write_eq h
    cases other with
    | present field' =>
      obtain ⟨hfield, hrest⟩ := Text.append_cons_inj (hreadable.self.1 field rfl).2
        (hreadable'.self.1 field' rfl).2 hinside
      rw [String.toList_inj.mp hfield]
      exact ⟨rfl, hrest⟩
    | _ => cases hop
  | combine op children ih =>
    intro other rest rest' hreadable hreadable' h
    obtain ⟨hop, hinside⟩ := operation_eq_of_write_eq h
    cases other with
    | combine op' children' =>
      obtain rfl := Operation.combine.inj hop
      obtain ⟨rfl, hrest⟩ := writeInside_combine_inj ih (fun _ => hreadable.child)
        (fun _ => hreadable'.child) hinside
      exact ⟨rfl, hrest⟩
    | _ => cases hop
  | negate child ih =>
    intro other rest rest' hreadable hreadable' h
    obtain ⟨hop, hinside⟩ := operation_eq_of_write_eq h
    cases other with
    | negate child' =>
      obtain ⟨rfl, hrest⟩ := ih child' _ _ hreadable.negated hreadable'.negated hinside
      exact ⟨rfl, (List.cons.inj hrest).2⟩
    | _ => cases hop

/-- Readable filters have the same text only if they are equal. -/
theorem text_eq_iff {filter other : Filter} (hfilter : filter.IsReadable)
    (hother : other.IsReadable) : filter.text = other.text ↔ filter = other := by
  constructor
  · intro h
    have hwrite : filter.write [] = other.write [] := String.ofList_injective h
    exact (uniquelyReadable filter other [] [] hfilter hother hwrite).1
  · intro h
    rw [h]

/-- A quoted text that reads like the end of one equation and the beginning of another. -/
theorem text_eq_iff_quoted :
    let single : Filter := .and [.eq "a" (.text "x\"), eq(b, \"y")]
    let double : Filter := .and [.eq "a" (.text "x"), .eq "b" (.text "y")]
    single.IsReadable ∧ double.IsReadable ∧ single.text ≠ double.text := by
  intro single double
  have hsingle : single.IsReadable := by
    simp [IsReadable, Everywhere, single, subfilters, childrenSubfilters, operandSubfilters, field?,
      pattern?]
  have hdouble : double.IsReadable := by
    simp [IsReadable, Everywhere, double, subfilters, childrenSubfilters, operandSubfilters, field?,
      pattern?]
  refine ⟨hsingle, hdouble, ?_⟩
  intro h
  have heq := (text_eq_iff hsingle hdouble).mp h
  simp [single, double] at heq

end SearchFilter.Filter
