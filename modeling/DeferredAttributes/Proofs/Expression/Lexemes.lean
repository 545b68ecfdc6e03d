import Mathlib.Data.List.TakeWhile
import DeferredAttributes.Expression.Token

-- One token at the start of a text: which characters it is made of, and how it is written.
namespace DeferredAttributes.Expression
open Text Decimal

-- How the characters at the start of a text make a token, and how many of them do.
inductive Makes : Char → List Char → Token → Nat → Prop where
  | number {first : Char} {cs : List Char} (digit : isDigit first = true)
      (formed : wellFormed (first :: cs.takeWhile fun c => !isBoundary c) = true) :
      Makes first cs (.value (literalValue (first :: cs.takeWhile fun c => !isBoundary c)))
        ((cs.takeWhile fun c => !isBoundary c).length + 1)
  | opening {cs : List Char} : Makes '(' cs .openBracket 1
  | closing {cs : List Char} : Makes ')' cs .closeBracket 1
  | name {first : Char} {cs : List Char}
      (marked : isLetter first = true ∨ (first = '@' ∨ first = '$') ∧ identifierRest first cs ≠ []) :
      Makes first cs (.identifier (String.ofList (first :: identifierRest first cs)))
        ((identifierRest first cs).length + 1)
  | symbol {first : Char} {cs : List Char} {op : Operator} {length : Nat}
      (known : operatorOf? first cs.head? = some (op,length)) : Makes first cs (.operator op) length

-- How a token is written. A number is digits with at most one point, which stands between two of them.
def Token.Spelled : Token → List Char → Prop
  | .identifier name, word => word = name.toList
  | .value x, word => ∃ whole fraction, whole ≠ [] ∧ (∀ c ∈ whole ++ fraction, isDigit c = true) ∧
      (fraction = [] ∧ word = whole ∨ fraction ≠ [] ∧ word = whole ++ '.' :: fraction) ∧ x = ofPlain whole fraction
  | .operator op, word => word = op.symbol.toList
  | .openBracket, word => word = ['(']
  | .closeBracket, word => word = [')']

def TokenError.Starts : TokenError → List Char → Prop
  | .unexpectedCharacter character _, rest => ∃ more, rest = character :: more
  | .invalidNumber literal _, rest => literal ≠ "" ∧ literal.toList <+: rest
  | .emptyIdentifier _, rest => ∃ more, rest = '@' :: more ∨ rest = '$' :: more

section
variable {offset : Nat} {first : Char} {cs : List Char} {token : Token} {length : Nat}

theorem letter_apart (letter : isLetter first = true) : isDigit first = false ∧ first ≠ '(' ∧ first ≠ ')' := by
  refine ⟨?_,?_,?_⟩
  · have code : first.val.toNat = first.toNat := rfl
    simp only [isLetter,Char.le_def,UInt32.le_iff_toNat_le,Bool.or_eq_true,Bool.and_eq_true,
      decide_eq_true_eq,code] at letter
    simp only [isDigit,Char.le_def,UInt32.le_iff_toNat_le,Bool.and_eq_false_iff,decide_eq_false_iff_not,code]
    simp at letter ⊢
    omega
  · rintro rfl
    exact absurd letter (by decide)
  · rintro rfl
    exact absurd letter (by decide)

theorem lexeme_makes : lexeme offset first cs = .ok (token,length) ↔ Makes first cs token length := by
  constructor
  · intro found
    unfold lexeme at found
    split at found
    · rename_i digit
      dsimp only at found
      split at found
      · rename_i formed
        cases found
        exact .number digit formed
      · cases found
    · split at found
      · rename_i opening
        cases found
        rw [beq_iff_eq.mp opening]
        exact .opening
      · split at found
        · rename_i closing
          cases found
          rw [beq_iff_eq.mp closing]
          exact .closing
        · split at found
          · rename_i marked
            dsimp only at found
            split at found
            · cases found
            · rename_i enough
              cases found
              refine .name ?_
              simp only [Bool.or_eq_true,beq_iff_eq,or_assoc] at marked
              rcases marked with letter | sign
              · exact .inl letter
              · by_cases letter : isLetter first = true
                · exact .inl letter
                · refine .inr ⟨sign,?_⟩
                  intro none
                  rw [none] at enough
                  simp [letter] at enough
          · split at found
            · rename_i op _ known
              cases found
              exact .symbol known
            · cases found
  · intro makes
    cases makes with
    | number digit formed =>
      unfold lexeme
      rw [if_pos digit]
      exact if_pos formed
    | opening | closing => rfl
    | name marked =>
      have apart : isDigit first = false ∧ (first == '(') = false ∧ (first == ')') = false ∧
          (isLetter first || first == '@' || first == '$') = true := by
        rcases marked with letter | ⟨rfl | rfl,_⟩
        · obtain ⟨digit,opening,closing⟩ := letter_apart letter
          simp [digit,opening,closing,letter]
        · decide
        · decide
      have enough : ((first :: identifierRest first cs).length == 1 && !isLetter first) = false := by
        rcases marked with letter | ⟨_,some⟩
        · simp [letter]
        · simp [some]
      unfold lexeme
      simp only [apart,enough]
      rfl
    | symbol known =>
      have kind : isDigit first = false ∧ (first == '(') = false ∧ (first == ')') = false ∧
          (isLetter first || first == '@' || first == '$') = false := by
        unfold operatorOf? at known
        split at known <;> cases known <;> decide
      unfold lexeme
      simp only [kind,known]
      rfl

theorem take_takeWhile (keep : Char → Bool) (cs : List Char) :
    cs.take (cs.takeWhile keep).length = cs.takeWhile keep :=
  (List.prefix_iff_eq_take.mp (List.takeWhile_prefix keep)).symm

theorem wellFormed_spelled {first : Char} {cs : List Char} (digit : isDigit first = true)
    (formed : wellFormed (first :: cs) = true) :
    (Token.value (literalValue (first :: cs))).Spelled (first :: cs) := by
  unfold wellFormed at formed
  simp only [Bool.and_eq_true,decide_eq_true_eq,bne_iff_ne,List.all_eq_true,Bool.or_eq_true,beq_iff_eq] at formed
  obtain ⟨⟨plain,points⟩,last⟩ := formed
  have split := List.takeWhile_append_dropWhile (p := isDigit) (l := first :: cs)
  have whole : ∀ c ∈ (first :: cs).takeWhile isDigit, isDigit c = true := fun c => List.mem_takeWhile_imp
  have some : (first :: cs).takeWhile isDigit ≠ [] := by
    rw [List.takeWhile_cons_of_pos digit]
    exact List.cons_ne_nil _ _
  unfold Token.Spelled literalValue
  cases behind : (first :: cs).dropWhile isDigit with
  | nil =>
    rw [behind,List.append_nil] at split
    exact ⟨_,[],some,by simpa using whole,.inl ⟨rfl,split.symm⟩,rfl⟩
  | cons c rest =>
    have stops := List.head?_dropWhile_not isDigit (first :: cs)
    rw [behind] at split stops
    have point : c = '.' := by
      have member : c ∈ first :: cs := by
        rw [← split]
        simp
      rcases plain c member with digit | point
      · exact absurd digit (by simpa using stops)
      · exact point
    subst point
    have once : '.' ∉ rest := by
      rw [← split,List.count_append,List.count_cons_self] at points
      exact List.count_eq_zero.mp (by omega)
    refine ⟨_,rest,some,?_,.inr ⟨?_,split.symm⟩,rfl⟩
    · intro c member
      rcases List.mem_append.mp member with before | after
      · exact whole c before
      · have present : c ∈ first :: cs := by
          rw [← split]
          simp [after]
        rcases plain c present with digit | point
        · exact digit
        · exact absurd (point ▸ after) once
    · rintro rfl
      rw [← split] at last
      simp at last

theorem operatorOf_symbol {next : Option Char} {op : Operator} (found : operatorOf? first next = some (op,length)) :
    length ≤ 2 ∧ op.symbol.toList = first :: next.toList.take (length - 1) := by
  unfold operatorOf? at found
  split at found <;> simp at found <;> obtain ⟨rfl,rfl⟩ := found <;> exact ⟨by decide,rfl⟩

theorem Makes.spelled (makes : Makes first cs token length) : token.Spelled (first :: cs.take (length - 1)) := by
  cases makes with
  | number digit formed =>
    rw [Nat.add_sub_cancel,take_takeWhile]
    exact wellFormed_spelled digit formed
  | opening | closing => rfl
  | name marked =>
    unfold identifierRest
    rw [Nat.add_sub_cancel,take_takeWhile]
    exact String.toList_ofList.symm
  | symbol known =>
    obtain ⟨short,symbol⟩ := operatorOf_symbol known
    refine Eq.trans ?_ symbol.symm
    cases cs with
    | nil => rfl
    | cons next rest =>
      have cut : length - 1 = 0 ∨ length - 1 = 1 := by omega
      rcases cut with none | one <;> simp [*]

theorem Makes.alone (makes : Makes first cs token length) : Makes first (cs.take (length - 1)) token length := by
  cases makes with
  | number digit formed =>
    have again : (cs.takeWhile fun c => !isBoundary c).takeWhile (fun c => !isBoundary c) =
        cs.takeWhile fun c => !isBoundary c := List.takeWhile_idem
    have made := Makes.number digit (again.symm ▸ formed)
    rw [again] at made
    rwa [Nat.add_sub_cancel,take_takeWhile]
  | opening => exact .opening
  | closing => exact .closing
  | name marked =>
    have again : identifierRest first (identifierRest first cs) = identifierRest first cs := List.takeWhile_idem
    have made := Makes.name (again.symm ▸ marked)
    rw [again] at made
    have cut : cs.take (identifierRest first cs).length = identifierRest first cs := take_takeWhile _ cs
    rwa [Nat.add_sub_cancel,cut]
  | symbol known =>
    refine .symbol ?_
    have some := operatorOf_pos known
    have short := (operatorOf_symbol known).1
    have sizes : length = 1 ∨ length = 2 := by omega
    rcases sizes with rfl | rfl
    · unfold operatorOf? at known ⊢
      split at known <;> simp_all
    · cases cs with
      | nil => exact known
      | cons next rest => exact known

theorem Makes.within (makes : Makes first cs token length) : 1 ≤ length ∧ length ≤ cs.length + 1 := by
  refine ⟨lexeme_pos (lexeme_makes.mpr makes : lexeme 0 first cs = _),?_⟩
  have some : ∀ keep : Char → Bool, (cs.takeWhile keep).length + 1 ≤ cs.length + 1 :=
    fun keep => Nat.succ_le_succ (List.takeWhile_sublist keep).length_le
  cases makes with
  | number | name => exact some _
  | opening | closing => exact Nat.le_add_left 1 _
  | symbol known =>
    have short := (operatorOf_symbol known).1
    cases cs with
    | nil =>
      unfold operatorOf? at known
      split at known <;> simp_all
    | cons next rest =>
      rw [List.length_cons]
      omega

theorem lexeme_rejects {error : TokenError} (rejected : lexeme offset first cs = .error error) :
    error.offset = offset ∧ error.Starts (first :: cs) := by
  unfold lexeme at rejected
  split at rejected
  · dsimp only at rejected
    split at rejected
    · cases rejected
    · cases rejected
      refine ⟨rfl,fun empty => ?_,?_⟩
      · simpa using congrArg String.toList empty
      · rw [String.toList_ofList]
        exact List.cons_prefix_cons.mpr ⟨rfl,List.takeWhile_prefix _⟩
  · split at rejected
    · cases rejected
    · split at rejected
      · cases rejected
      · split at rejected
        · rename_i marked
          dsimp only at rejected
          split at rejected
          · rename_i alone
            cases rejected
            simp only [Bool.and_eq_true,Bool.not_eq_true'] at alone
            simp only [alone.2,Bool.false_or,Bool.or_eq_true,beq_iff_eq] at marked
            exact ⟨rfl,cs,marked.imp (fun same => by rw [same]) fun same => by rw [same]⟩
          · cases rejected
        · split at rejected
          · cases rejected
          · cases rejected
            exact ⟨rfl,cs,rfl⟩

end
end DeferredAttributes.Expression
