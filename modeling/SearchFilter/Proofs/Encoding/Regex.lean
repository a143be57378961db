import Mathlib.Computability.Language
/-!
# Regular expressions

The part of the usual syntax without groups, alternatives, anchors and escapes: characters, the dot,
classes of one character, and what may stand behind an item. An expression is read from left to
right and means the texts that it matches as a whole.
-/
namespace SearchFilter.Regex

open scoped Computability

/-- The characters that do not stand for themselves, the star and the question mark apart. -/
def reserved : List Char :=
  ['.', '+', '(', ')', '[', ']', '{', '}', '|', '^', '$', '\\']

inductive Atom where
  | literal (c : Char)
  | any
  deriving DecidableEq, Repr

/-- How often an item stands. A lazy item prefers fewer times, which does not matter for a whole
text. -/
inductive Quantifier where
  | once
  | optional (isLazy : Bool)
  | repeated (isLazy : Bool)
  deriving DecidableEq, Repr

/-- The star repeats an item that has no quantifier. -/
def Quantifier.star? : Quantifier → Option Quantifier
  | once => some (repeated false)
  | _ => none

/-- The question mark makes an item optional, or lazy if it has a quantifier. -/
def Quantifier.question? : Quantifier → Option Quantifier
  | once => some (optional false)
  | optional false => some (optional true)
  | repeated false => some (repeated true)
  | _ => none

structure Item where
  atom : Atom
  quantifier : Quantifier
  deriving DecidableEq, Repr

/-- The items of an expression behind an item, which is still open for a quantifier. At the start of
an expression there is none. -/
def readBehind? (last? : Option Item) : List Char → Option (List Item)
  | [] => some last?.toList
  | '*' :: cs => do
    let last ← last?
    let quantifier ← last.quantifier.star?
    readBehind? (some ⟨last.atom, quantifier⟩) cs
  | '?' :: cs => do
    let last ← last?
    let quantifier ← last.quantifier.question?
    readBehind? (some ⟨last.atom, quantifier⟩) cs
  | '.' :: cs => do
    let items ← readBehind? (some ⟨.any, .once⟩) cs
    return last?.toList ++ items
  | '[' :: c :: ']' :: cs => do
    guard (c ∉ reserved)
    let items ← readBehind? (some ⟨.literal c, .once⟩) cs
    return last?.toList ++ items
  | c :: cs => do
    guard (c ∉ reserved)
    let items ← readBehind? (some ⟨.literal c, .once⟩) cs
    return last?.toList ++ items

def read? (source : String) : Option (List Item) :=
  readBehind? none source.toList

theorem readBehind?_literal {c : Char} (hstar : c ≠ '*') (hquestion : c ≠ '?')
    (hplain : c ∉ reserved) (last? : Option Item) (cs : List Char) :
    readBehind? last? (c :: cs) =
      (readBehind? (some ⟨.literal c, .once⟩) cs).map (last?.toList ++ ·) := by
  have hdot : c ≠ '.' := fun h => hplain (h ▸ by decide)
  have hopen : c ≠ '[' := fun h => hplain (h ▸ by decide)
  rw [readBehind?] <;> simp_all [Option.map_eq_bind]

theorem readBehind?_class {c : Char} (hplain : c ∉ reserved) (last? : Option Item)
    (cs : List Char) :
    readBehind? last? ('[' :: c :: ']' :: cs) =
      (readBehind? (some ⟨.literal c, .once⟩) cs).map (last?.toList ++ ·) := by
  simp [readBehind?, hplain, Option.map_eq_bind]

def Atom.language : Atom → Language Char
  | literal c => {[c]}
  | any => {text | ∃ c, c ≠ '\n' ∧ text = [c]}

def Item.language (item : Item) : Language Char :=
  match item.quantifier with
  | .once => item.atom.language
  | .optional _ => 1 + item.atom.language
  | .repeated _ => item.atom.language∗

def language (items : List Item) : Language Char :=
  (items.map Item.language).prod

theorem mem_language_nil {text : List Char} : text ∈ language [] ↔ text = [] :=
  Iff.rfl

theorem mem_language_cons {item : Item} {items : List Item} {text : List Char} :
    text ∈ language (item :: items) ↔
      ∃ front back, front ++ back = text ∧ front ∈ item.language ∧ back ∈ language items := by
  rw [language, List.map_cons, List.prod_cons, Language.mem_mul]
  constructor
  · rintro ⟨front, hfront, back, hback, rfl⟩
    exact ⟨front, back, rfl, hfront, hback⟩
  · rintro ⟨front, back, rfl, hfront, hback⟩
    exact ⟨front, hfront, back, hback, rfl⟩

theorem mem_kstar_any {text : List Char} : text ∈ Atom.any.language∗ ↔ '\n' ∉ text := by
  rw [Language.mem_kstar]
  constructor
  · rintro ⟨parts, rfl, hparts⟩ hmem
    obtain ⟨part, hpart, hmem⟩ := List.mem_flatten.mp hmem
    obtain ⟨c, hc, rfl⟩ := hparts part hpart
    exact hc (List.mem_singleton.mp hmem).symm
  · intro h
    refine ⟨text.map fun c => [c], ?_, ?_⟩
    · rw [← List.flatMap_def, List.flatMap_singleton']
    intro part hpart
    obtain ⟨c, hmem, rfl⟩ := List.mem_map.mp hpart
    exact ⟨c, fun hc => h (hc ▸ hmem), rfl⟩

/-- A source is an expression that matches the texts with a property among those of one line. -/
def Describes (source : String) (property : List Char → Prop) : Prop :=
  ∃ items, read? source = some items ∧
    ∀ text : String, '\n' ∉ text.toList → (text.toList ∈ language items ↔ property text.toList)

end SearchFilter.Regex
