import DeferredAttributes.Proofs.Schema.Conditions
import DeferredAttributes.Proofs.Text.Splitting

-- Which texts declare an attribute, and what they declare, said without the function that reads
-- them. Every declaration has a printed form, which is such a text of its own.
namespace DeferredAttributes
open Expression Text

-- Every name of a type. The first one is printed.
def ValueType.names : ValueType → List String
  | .boolean => ["boolean","bool"]
  | .integer => ["integer","int"]
  | .decimal => ["decimal","number"]
  | .string => ["string"]

def IsCondition (condition : String) : Prop :=
  check condition = .ok () ∧
    ∀ name, .identifier name ∈ tokens condition → name = "value" ∨ name = "true" ∨ name = "false"

namespace Spec

def separator : List Char := " where ".toList

def Heads (head : List Char) (volatile : Bool) (type : ValueType) : Prop :=
  ∃ name ∈ type.names, Spaced head ((if volatile then ["volatile".toList] else []) ++ [name.toList])

inductive Declares (text : String) : Spec → Prop where
  | plain {volatile : Bool} {type : ValueType} (whole : ¬separator <:+: text.toList)
      (head : Heads text.toList volatile type) : Declares text ⟨type,volatile,none⟩
  | conditioned {before after : List Char} {volatile : Bool} {type : ValueType} {condition : String}
      (split : FirstAt separator text.toList before after) (head : Heads before volatile type)
      (numeric : type ≠ .string) (trimmed : Trimmed after condition.toList) (fine : IsCondition condition) :
      Declares text ⟨type,volatile,some condition⟩

def printHead (volatile : Bool) (type : ValueType) : String := (if volatile then "volatile " else "") ++ type.name

def print (spec : Spec) : String :=
  printHead spec.volatile spec.type ++ match spec.condition with
    | none => ""
    | some condition => " where " ++ condition

end Spec

theorem ValueType.ofName_names {word : String} {type : ValueType} : ofName? word = some type ↔ word ∈ type.names := by
  constructor
  · intro found
    unfold ofName? at found
    split at found <;> cases found <;> simp [names]
  · intro named
    cases type with
    | boolean | integer | decimal =>
      rcases (show word = _ ∨ word = _ by simpa [names] using named) with rfl | rfl <;> rfl
    | string =>
      cases List.mem_singleton.mp named
      rfl

theorem ValueType.parse_names {word : String} {type : ValueType} : parse word = .ok type ↔ word ∈ type.names := by
  rw [← ofName_names]
  unfold parse
  cases ofName? word <;> simp

theorem ValueType.names_plain {type : ValueType} : "volatile" ∉ type.names := by
  cases type <;> decide

namespace Spec
variable {text : String} {head : List Char} {volatile : Bool} {type : ValueType} {condition : String} {spec : Spec}

theorem heads_words : Heads head volatile type ↔
    ∃ name ∈ type.names, (words head).map String.ofList = (if volatile then ["volatile"] else []) ++ [name] := by
  have same : ∀ names : List String, (words head).map String.ofList = names ↔ Spaced head (names.map String.toList) := by
    intro names
    constructor
    · rintro rfl
      simpa [Function.comp_def] using words_spaced head
    · intro made
      simp [made.words,Function.comp_def]
  unfold Heads
  simp only [same]
  cases volatile <;> rfl

theorem parseHead_heads : parseHead head = .ok (volatile,type) ↔ Heads head volatile type := by
  rw [heads_words]
  unfold parseHead
  generalize (words head).map String.ofList = parts
  constructor
  · intro read
    dsimp only at read
    split at read
    · cases read
    · rename_i rest word more isRest
      cases named : ValueType.parse word with
      | error error => rw [named] at read; cases read
      | ok found =>
        rw [named] at read
        cases more with
        | cons => cases read
        | nil =>
          cases read
          refine ⟨word,ValueType.parse_names.mp named,?_⟩
          split at isRest
          · cases isRest; rfl
          · cases isRest; rfl
  · rintro ⟨name,named,rfl⟩
    have read := ValueType.parse_names.mpr named
    cases volatile with
    | true => simp [read]
    | false =>
      have other : name ≠ "volatile" := fun same => ValueType.names_plain (same ▸ named)
      simp [read,other]

theorem isCondition_tried :
    IsCondition condition ↔ ∃ x, (evaluate (conditionSource 1) condition ()).1 = .ok x := by
  constructor
  · rintro ⟨accepted,only⟩
    obtain ⟨e,parsed⟩ := check_parse.mp accepted
    have own : ∀ name ∈ asked (tokens condition), name = "value" := by
      intro name member
      obtain ⟨occurs,notTrue,notFalse⟩ := mem_asked.mp member
      rcases only name occurs with value | isTrue | isFalse
      · exact value
      · exact absurd isTrue notTrue
      · exact absurd isFalse notFalse
    rw [evaluate_answers parsed,conditionSource_answers own]
    exact ⟨_,rfl⟩
  · rintro ⟨x,tried⟩
    obtain ⟨parsed,own⟩ := conditionSource_asked tried
    refine ⟨check_parse.mpr parsed,?_⟩
    intro name occurs
    by_cases isTrue : name = "true"
    · exact .inr (.inl isTrue)
    · by_cases isFalse : name = "false"
      · exact .inr (.inr isFalse)
      · exact .inl (own name (mem_asked.mpr ⟨occurs,isTrue,isFalse⟩))

theorem isNumeric_iff : type.isNumeric = true ↔ type ≠ .string := by
  cases type <;> decide

theorem parse_declares (read : Spec.parse text = .ok spec) : Declares text spec := by
  unfold Spec.parse at read
  split at read
  · rename_i whole
    split at read
    · rename_i headed
      cases read
      exact .plain (splitOnce_none.mp whole) (parseHead_heads.mp headed)
    · cases read
  · rename_i before after split
    split at read
    · cases read
    · rename_i headed
      dsimp only at read
      split at read
      · cases read
      · rename_i numeric
        split at read
        · rename_i x tried
          cases read
          have trimmed : Trimmed after (String.ofList (trim after)).toList := by
            rw [String.toList_ofList]
            exact trim_trimmed after
          exact .conditioned (splitOnce_first split) (parseHead_heads.mp headed) (isNumeric_iff.mp (by simpa using numeric))
            trimmed (isCondition_tried.mpr ⟨x,tried⟩)
        · cases read

theorem Declares.parse (declared : Declares text spec) : Spec.parse text = .ok spec := by
  unfold Spec.parse
  cases declared with
  | plain whole head =>
    have none : splitOnce? " where ".toList text.toList = none := splitOnce_none.mpr whole
    simp only [none,parseHead_heads.mpr head]
  | conditioned split head numeric trimmed fine =>
    have some : splitOnce? " where ".toList text.toList = some _ := split.split
    obtain ⟨x,tried⟩ := isCondition_tried.mp fine
    simp only [some,parseHead_heads.mpr head,trimmed.trim,String.ofList_toList,isNumeric_iff.mpr numeric,tried]
    rfl

theorem printHead_whole (volatile : Bool) (type : ValueType) : ¬separator <:+: (printHead volatile type).toList := by
  rw [← splitOnce_none]
  cases volatile <;> cases type <;> rfl

theorem printHead_first (volatile : Bool) (type : ValueType) (rest : List Char) :
    FirstAt separator ((printHead volatile type).toList ++ separator ++ rest) (printHead volatile type).toList rest := by
  apply splitOnce_first
  cases volatile <;> cases type <;> rfl

theorem printHead_heads (volatile : Bool) (type : ValueType) : Heads (printHead volatile type).toList volatile type := by
  apply heads_words.mpr
  refine ⟨type.name,?_,?_⟩
  · cases type <;> decide
  · cases volatile <;> cases type <;> rfl

theorem Declares.print (declared : Declares text spec) : Declares spec.print spec := by
  cases declared with
  | @plain volatile type whole head =>
    have same : (Spec.mk type volatile none).print = printHead volatile type := String.append_empty
    rw [same]
    exact .plain (printHead_whole volatile type) (printHead_heads volatile type)
  | @conditioned before after volatile type condition split head numeric trimmed fine =>
    have same : (Spec.mk type volatile (some condition)).print.toList =
        (printHead volatile type).toList ++ separator ++ condition.toList := by
      rw [Spec.print,String.toList_append,String.toList_append,List.append_assoc]
      rfl
    have split' := printHead_first volatile type condition.toList
    rw [← same] at split'
    exact .conditioned split' (printHead_heads volatile type) numeric trimmed.again fine

-- A text is read just when its words in front of the first ` where ` are the name of a type,
-- behind `volatile` or not, and what is behind it is a condition, which no string has.
theorem parse_prints (text : String) :
    (∀ spec, Spec.parse text = .ok spec ↔ Declares text spec) ∧
      ∀ spec, Spec.parse text = .ok spec → Spec.parse spec.print = .ok spec :=
  ⟨fun _ => ⟨parse_declares,Declares.parse⟩,fun _ read => (parse_declares read).print.parse⟩

theorem parse_prints_throttle :
    let text := "  volatile\tint where   value >= 0 && value < 8 "
    ∃ spec, Spec.parse text = .ok spec ∧ spec.print = "volatile integer where value >= 0 && value < 8" ∧
      Spec.parse spec.print = .ok spec ∧ ∀ other, ¬Declares "int where value where 1" other := by
  intro text
  have reads : (match Spec.parse text with
    | .ok spec => decide (spec = ⟨.integer,true,some "value >= 0 && value < 8"⟩) | .error _ => false) = true := by
    decide +kernel
  have fails : (Spec.parse "int where value where 1").isOk = false := by decide +kernel
  cases read : Spec.parse text with
  | error error => rw [read] at reads; cases reads
  | ok spec =>
    rw [read] at reads
    cases of_decide_eq_true reads
    refine ⟨_,rfl,rfl,(parse_prints text).2 _ read,fun other declared => ?_⟩
    rw [((parse_prints "int where value where 1").1 other).mpr declared] at fails
    cases fails

end Spec
end DeferredAttributes
