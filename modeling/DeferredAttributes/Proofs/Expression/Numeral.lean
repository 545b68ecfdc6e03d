import DeferredAttributes.Proofs.Decimal.Whole
import DeferredAttributes.Proofs.Expression.Asking
import DeferredAttributes.Proofs.Expression.Compound
import DeferredAttributes.Value.Basic

-- The digits of a whole number as an expression.
namespace DeferredAttributes
open Decimal Text

namespace Expression

theorem isDigit_iff {c : Char} : isDigit c = true ↔ 48 ≤ c.toNat ∧ c.toNat ≤ 57 := by
  have code : c.val.toNat = c.toNat := rfl
  simp only [isDigit,Char.le_def,UInt32.le_iff_toNat_le,Bool.and_eq_true,decide_eq_true_eq,code]
  rfl

theorem digit_inside {c : Char} (digit : isDigit c = true) : isBlank c = false ∧ isBoundary c = false := by
  have other : ∀ d : Char, isDigit d = false → c ≠ d := by
    rintro d outside rfl
    rw [digit] at outside
    cases outside
  have range := isDigit_iff.mp digit
  have plain : isBlank c = false := by
    unfold isBlank
    simp
    omega
  refine ⟨plain,?_⟩
  simp (disch := decide) only [isBoundary,isOperatorChar,plain,beq_eq_false_iff_ne.mpr (other _ _),Bool.or_self]

theorem Reads.digits {digits : List Char} (present : digits ≠ []) (all : ∀ c ∈ digits, isDigit c = true) :
    Reads digits [.value (ofDigits (natOf digits) 0)] := by
  obtain ⟨first,rest,rfl⟩ := List.exists_cons_of_ne_nil present
  have digit := all first List.mem_cons_self
  have whole : rest.takeWhile (fun c => !isBoundary c) = rest := by
    rw [List.takeWhile_eq_self_iff]
    intro c member
    rw [(digit_inside (all c (List.mem_cons_of_mem _ member))).2]
    rfl
  have formed : wellFormed (first :: rest) = true := by
    have pointless : '.' ∉ first :: rest := fun member => absurd (all _ member) (by decide)
    have last : (first :: rest).getLast? ≠ some '.' := fun ends => pointless (List.mem_of_getLast? ends)
    unfold wellFormed
    rw [List.count_eq_zero.mpr pointless]
    rw [List.all_eq_true.mpr fun c member => by rw [all c member]; rfl]
    simpa using last
  have value : literalValue (first :: rest) = ofDigits (natOf (first :: rest)) 0 := by
    unfold literalValue
    rw [List.takeWhile_eq_self_iff.mpr all,List.dropWhile_eq_nil_iff.mpr all]
    unfold ofPlain
    rw [List.drop_nil,List.append_nil]
    rfl
  have makes : Makes first rest (.value (literalValue (first :: rest))) (rest.length + 1) := by
    have number := @Makes.number first rest digit (by rwa [whole])
    rwa [whole] at number
  rw [← value,← List.append_nil (first :: rest)]
  apply Reads.none.token
  intro offset
  refine ⟨Cursor.advance ⟨first :: rest,offset⟩ (rest.length + 1),List.drop_length,?_⟩
  unfold Cursor.next
  rw [List.append_nil,Cursor.skipBlanks_token (digit_inside digit).1]
  dsimp only
  rw [lexeme_makes.mpr makes]

variable (n : Nat)

theorem numeral_reads : Reads (toString n).toList [.value (ofDigits n 0)] := by
  have text : (toString n).toList = Nat.toDigits 10 n := Nat.toList_repr
  have digits : ∀ c ∈ Nat.toDigits 10 n, isDigit c = true := by
    intro c member
    have digit : c.isDigit = true := Nat.isDigit_of_mem_toDigits (by decide) (by decide) member
    simpa [Char.isDigit,isDigit_iff,UInt32.le_iff_toNat_le] using digit
  have reads := Reads.digits Nat.toDigits_ne_nil digits
  rwa [natOf_toDigits,← text] at reads

theorem numeral_parse : parse (toString n) = ⟨[],.ok (.number (ofDigits n 0))⟩ := by
  obtain ⟨whole,same⟩ := reads_tokens.mp (numeral_reads n)
  have derived := (Derives.value (ofDigits n 0)).lower (Nat.le_refl 1) (by decide) (by decide)
  rw [← same] at derived
  rw [derived.parse (Nat.zero_le _) whole,same]
  rfl

theorem numeral_evaluate {σ : Type} (source : Source σ) (s : σ) :
    evaluate source (toString n) s = (.ok (ofDigits n 0),s) := by
  unfold evaluate
  rw [numeral_parse]
  rfl

end Expression

end DeferredAttributes
