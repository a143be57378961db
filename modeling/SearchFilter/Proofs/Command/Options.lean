import Mathlib.Data.List.Nodup
import Mathlib.Data.List.Perm.Basic
import SearchFilter.Command.Arguments
/-!
# Options in any order and spelling

What a command line sets depends neither on the order of its options nor on how each of them is
given its value. An option that is given twice is refused wherever and however it comes again.
-/
namespace SearchFilter.Command

structure Assignment where
  option : OptionName
  value : String
  deriving DecidableEq, Repr

namespace Assignment

/-- The option takes the value. -/
def IsValid : Assignment → Prop
  | ⟨.config, value⟩ | ⟨.input, value⟩ => value ≠ ""
  | ⟨.format, value⟩ => ∃ format : Format, value = format.name

/-- The arguments that give an option its value. A value of its own must not look like an option. -/
inductive Spells (a : Assignment) : List String → Prop
  | joined : Spells a ["--" ++ a.option.name ++ "=" ++ a.value]
  | apart (h : a.value.toList.head? ≠ some '-') : Spells a ["--" ++ a.option.name, a.value]

end Assignment

/-- Arguments that give options their values, one option after the other. -/
inductive Spelled : List Assignment → List String → Prop
  | nil : Spelled [] []
  | cons {a : Assignment} {given : List Assignment} {first rest : List String}
      (hfirst : a.Spells first) (hrest : Spelled given rest) : Spelled (a :: given) (first ++ rest)

namespace Argument

theorem ofText_joined (option : OptionName) (value : String) :
    ofText ("--" ++ option.name ++ "=" ++ value) = .long option.name (some value) := by
  cases option <;> simp [ofText, splitLong, OptionName.name]

theorem ofText_apart (option : OptionName) :
    ofText ("--" ++ option.name) = .long option.name none := by
  cases option <;> decide

theorem ofText_plain {text : String} (h : text.toList.head? ≠ some '-') :
    ofText text = .plain text := by
  rw [ofText]
  cases hchars : text.toList with
  | nil => rfl
  | cons c cs =>
    have hc : c ≠ '-' := by
      rw [hchars] at h
      simpa using h
    split
    all_goals simp_all

end Argument

theorem Verb.option?_name {verb : Verb} {option : OptionName} (h : option ∈ verb.options) :
    verb.option? option.name = some option := by
  cases verb <;> cases option <;> first | rfl | simp [options] at h

namespace Draft

def put (draft : Draft) : Assignment → Draft
  | ⟨.config, value⟩ => { draft with config := some value }
  | ⟨.input, value⟩ => { draft with input := some value }
  | ⟨.format, value⟩ => { draft with format := Format.ofName? value }

def give (draft : Draft) (a : Assignment) : Except Refusal Draft :=
  draft.set a.option a.value

theorem put_comm (draft : Draft) {a b : Assignment} (h : a.option ≠ b.option) :
    (draft.put a).put b = (draft.put b).put a := by
  obtain ⟨option, value⟩ := a
  obtain ⟨option', value'⟩ := b
  cases option <;> cases option' <;> first | rfl | exact absurd rfl h

end Draft

theorem Format.ofName?_name (format : Format) : Format.ofName? format.name = some format := by
  cases format <;> decide

namespace Draft

theorem isSet_put (draft : Draft) {a : Assignment} (h : a.IsValid) (option : OptionName) :
    (draft.put a).isSet option = true ↔ option = a.option ∨ draft.isSet option = true := by
  obtain ⟨option', value⟩ := a
  cases option' with
  | format =>
    obtain ⟨format, rfl⟩ := h
    cases option <;> simp [put, isSet, Format.ofName?_name]
  | _ => cases option <;> simp [put, isSet]

theorem give_of_isValid (draft : Draft) {a : Assignment} (h : a.IsValid) :
    draft.give a = if draft.isSet a.option then .error .repeatedOption else .ok (draft.put a) := by
  obtain ⟨option, value⟩ := a
  unfold give set
  split
  · rfl
  · cases option with
    | format =>
      obtain ⟨format, rfl⟩ := h
      simp [put, Format.ofName?_name]
    | _ => simp_all [put, Assignment.IsValid]

/-- Valid values are all given exactly when every option comes once. -/
theorem foldlM_give {given : List Assignment} (hvalid : ∀ a ∈ given, a.IsValid) (draft : Draft) :
    given.foldlM give draft =
      if (given.map (·.option)).Nodup ∧ ∀ a ∈ given, ¬draft.isSet a.option then
        .ok (given.foldl put draft)
      else .error .repeatedOption := by
  induction given generalizing draft with
  | nil => rfl
  | cons a given ih =>
    rw [List.forall_mem_cons] at hvalid
    rw [List.foldlM_cons, give_of_isValid draft hvalid.1]
    by_cases hset : draft.isSet a.option
    · rw [if_pos hset, if_neg]
      · rfl
      · rintro ⟨-, hunset⟩
        exact hunset a List.mem_cons_self hset
    · rw [if_neg hset]
      change given.foldlM give (draft.put a) = _
      rw [ih hvalid.2, List.foldl_cons]
      -- a later option is set after this one if it is this one again
      have hiff : ((given.map (·.option)).Nodup ∧ ∀ b ∈ given, ¬(draft.put a).isSet b.option) ↔
          ((a :: given).map (·.option)).Nodup ∧ ∀ b ∈ a :: given, ¬draft.isSet b.option := by
        simp only [isSet_put draft hvalid.1, List.map_cons, List.nodup_cons, List.mem_map,
          List.forall_mem_cons, not_or, forall_and, not_exists, not_and]
        tauto
      simp only [hiff]

end Draft

section

variable {verb : Verb} {a : Assignment} (draft : Draft) (pending : Pending) (rest : List String)

theorem readOptions_joined (h : a.option ∈ verb.options) :
    readOptions verb draft pending (("--" ++ a.option.name ++ "=" ++ a.value) :: rest) =
      pending.settle draft >>= fun draft => draft.give a >>= fun draft =>
        readOptions verb draft .none rest := by
  rw [readOptions, Argument.ofText_joined]
  simp only [Verb.option?_name h]
  rfl

theorem readOptions_apart (h : a.option ∈ verb.options) (hvalue : a.value.toList.head? ≠ some '-') :
    readOptions verb draft pending (("--" ++ a.option.name) :: a.value :: rest) =
      pending.settle draft >>= fun draft =>
        readOptions verb draft (.complete a.option a.value) rest := by
  rw [readOptions, Argument.ofText_apart]
  simp only [Verb.option?_name h]
  cases pending.settle draft with
  | error refusal => rfl
  | ok draft =>
    change readOptions verb draft (.awaiting a.option) (a.value :: rest) = _
    rw [readOptions, Argument.ofText_plain hvalue]
    rfl

end

theorem readOptions_of_spelled {verb : Verb} {given : List Assignment} {arguments : List String}
    (hspelled : Spelled given arguments) (hoptions : ∀ a ∈ given, a.option ∈ verb.options)
    (draft : Draft) (pending : Pending) (hpending : ∀ option, pending ≠ .awaiting option) :
    readOptions verb draft pending arguments =
      pending.settle draft >>= given.foldlM Draft.give := by
  induction hspelled generalizing draft pending with
  | nil =>
    rw [readOptions]
    cases pending.settle draft <;> rfl
  | @cons a given first rest hfirst _ ih =>
    rw [List.forall_mem_cons] at hoptions
    cases hfirst with
    | joined =>
      have hrest (draft : Draft) := ih hoptions.2 draft .none nofun
      rw [List.singleton_append, readOptions_joined draft pending rest hoptions.1]
      simp only [hrest]
      rfl
    | apart hvalue =>
      -- the value is set when the next option begins or the arguments end
      have hrest (draft : Draft) := ih hoptions.2 draft (.complete a.option a.value) nofun
      rw [List.cons_append, List.singleton_append,
        readOptions_apart draft pending rest hoptions.1 hvalue]
      simp only [hrest]
      rfl

def verb : Command → Verb
  | translate .. => .translate
  | explain .. => .explain

def pathsGiven (config input : Option String) : List Assignment :=
  config.toList.map (⟨.config, ·⟩) ++ input.toList.map (⟨.input, ·⟩)

/-- What a command line gives for a command, in any order. A format that is not given is that of
documents. -/
inductive Gives : Command → List Assignment → Prop
  | translate {config input : Option String} {format : Option Format} {given : List Assignment}
      (h : given.Perm (pathsGiven config input ++ format.toList.map (⟨.format, ·.name⟩))) :
      Gives (.translate config input (format.getD .document)) given
  | explain {config input : Option String} {given : List Assignment}
      (h : given.Perm (pathsGiven config input)) : Gives (.explain config input) given

def HasPaths (command : Command) : Prop :=
  command.config ≠ some "" ∧ command.input ≠ some ""

/-- Values that make up a command, each of them valid and for an option of its own. -/
structure Sets (command : Command) (given : List Assignment) : Prop where
  valid : ∀ a ∈ given, a.IsValid
  options : ∀ a ∈ given, a.option ∈ command.verb.options
  once : (given.map (·.option)).Nodup
  finish : (given.foldl Draft.put {}).finish command.verb = command

theorem Sets.perm {command : Command} {given given' : List Assignment} (h : command.Sets given)
    (hperm : given'.Perm given) : command.Sets given' where
  valid a ha := h.valid a (hperm.subset ha)
  options a ha := h.options a (hperm.subset ha)
  once := (hperm.map _).nodup_iff.mpr h.once
  finish := by
    have hdraft : given.foldl Draft.put {} = given'.foldl Draft.put {} := by
      apply hperm.symm.foldl_eq'
      intro a ha b hb draft
      by_cases hab : a.option = b.option
      · rw [List.inj_on_of_nodup_map h.once ha hb hab]
      · exact draft.put_comm hab
    rw [← hdraft, h.finish]

theorem Gives.sets {command : Command} {given : List Assignment} (h : command.Gives given)
    (hpaths : command.HasPaths) : command.Sets given := by
  obtain ⟨hconfig, hinput⟩ := hpaths
  cases h with
  | @translate config input format _ hperm =>
    refine Sets.perm ⟨?_, ?_, ?_, ?_⟩ hperm
    -- each of the options is given or not
    all_goals
      cases config <;> cases input <;> cases format <;>
        simp_all [pathsGiven, Assignment.IsValid, verb, Verb.options, Draft.put, Draft.finish,
          Command.config, Command.input, Format.ofName?_name]
  | @explain config input _ hperm =>
    refine Sets.perm ⟨?_, ?_, ?_, ?_⟩ hperm
    all_goals
      cases config <;> cases input <;>
        simp_all [pathsGiven, Assignment.IsValid, verb, Verb.options, Draft.put, Draft.finish,
          Command.config, Command.input]

theorem parse_verb (verb : Verb) (rest : List String) :
    parse (verb.name :: rest) =
      readOptions verb {} .none rest >>= fun draft => .ok (draft.finish verb) := by
  cases verb <;> rfl

theorem parse_of_spelled {verb : Verb} {given : List Assignment} {arguments : List String}
    (hvalid : ∀ a ∈ given, a.IsValid) (hoptions : ∀ a ∈ given, a.option ∈ verb.options)
    (hspelled : Spelled given arguments) :
    parse (verb.name :: arguments) =
      if (given.map (·.option)).Nodup then .ok ((given.foldl Draft.put {}).finish verb)
      else .error .repeatedOption := by
  have hempty : ∀ a ∈ given, ¬({} : Draft).isSet a.option := by
    intro a _
    cases a.option <;> exact Bool.false_ne_true
  rw [parse_verb, readOptions_of_spelled hspelled hoptions {} .none nofun]
  change given.foldlM Draft.give {} >>= _ = _
  rw [Draft.foldlM_give hvalid]
  simp only [and_iff_left hempty]
  split <;> rfl

/-- A command line reads as a command in whatever order and spelling its options come, and as a
mistake when one of them comes once more. -/
theorem parse_of_gives {command : Command} {given : List Assignment} (hpaths : command.HasPaths)
    (hgiven : command.Gives given) :
    (∀ arguments, Spelled given arguments →
      parse (command.verb.name :: arguments) = .ok command) ∧
    ∀ before after again arguments, before ++ after = given → again.IsValid →
      again.option ∈ given.map (·.option) → Spelled (before ++ again :: after) arguments →
      ∃ refusal, parse (command.verb.name :: arguments) = .error refusal ∧
        refusal.kind = "ArgumentConflict" := by
  have hsets := hgiven.sets hpaths
  constructor
  · intro arguments hspelled
    rw [parse_of_spelled hsets.valid hsets.options hspelled, if_pos hsets.once, hsets.finish]
  · rintro before after again arguments rfl hagain hrepeated hspelled
    obtain ⟨earlier, hearlier, heq⟩ := List.mem_map.mp hrepeated
    have hperm : (before ++ again :: after).Perm (again :: (before ++ after)) :=
      List.perm_middle
    have hall : ∀ a ∈ again :: (before ++ after), a.IsValid ∧ a.option ∈ command.verb.options :=
      List.forall_mem_cons.mpr ⟨⟨hagain, heq ▸ hsets.options earlier hearlier⟩,
        fun a ha => ⟨hsets.valid a ha, hsets.options a ha⟩⟩
    have htwice : ¬((before ++ again :: after).map (·.option)).Nodup := by
      rw [(hperm.map _).nodup_iff, List.map_cons, List.nodup_cons]
      exact fun h => h.1 hrepeated
    refine ⟨.repeatedOption, ?_, rfl⟩
    rw [parse_of_spelled (fun a ha => (hall a (hperm.subset ha)).1)
      (fun a ha => (hall a (hperm.subset ha)).2) hspelled, if_neg htwice]

/-- Values that look like other parts of a command line, in reverse order and in both spellings. -/
theorem parse_of_gives_reversed :
    let command := translate (some "a=b") (some "explain") .text
    let given : List Assignment := [⟨.format, "text"⟩, ⟨.input, "explain"⟩, ⟨.config, "a=b"⟩]
    command.HasPaths ∧ command.Gives given ∧
      parse ["translate", "--format", "text", "--input=explain", "--config=a=b"] = .ok command ∧
      ∃ refusal, parse ["translate", "--format", "text", "--input=-x", "--input", "explain",
        "--config=a=b"] = .error refusal ∧ refusal.kind = "ArgumentConflict" := by
  intro command given
  have hpaths : command.HasPaths := by simp [command, HasPaths, config, input]
  have hgives : command.Gives given :=
    @Gives.translate (some "a=b") (some "explain") (some .text) given given.reverse_perm.symm
  have hspelled : Spelled given ["--format", "text", "--input=explain", "--config=a=b"] :=
    .cons (.apart (by decide)) (.cons .joined (.cons .joined .nil))
  obtain ⟨hparse, hrepeated⟩ := parse_of_gives hpaths hgives
  refine ⟨hpaths, hgives, hparse _ hspelled, ?_⟩
  exact hrepeated [⟨.format, "text"⟩] [⟨.input, "explain"⟩, ⟨.config, "a=b"⟩] ⟨.input, "-x"⟩ _ rfl
    (by simp [Assignment.IsValid]) (by simp [given])
    (.cons (.apart (by decide)) (.cons .joined (.cons (.apart (by decide)) (.cons .joined .nil))))

end SearchFilter.Command
