import Mathlib.Algebra.Group.Nat.Defs

-- What comparisons make of the special values. They are in the unpacked form of a number: the
-- packed one keeps them.
namespace DeferredAttributes.Decimal
open Float.Model Float.Model.UnpackedFloat

theorem isNaN_unpack {spec : Format} (bits : BitVec spec.numBits) :
    (UnpackedFloat.unpack spec bits).isNaN = true ↔ unpackExponent bits = -1#_ ∧ unpackMantissa bits ≠ 0#_ := by
  unfold UnpackedFloat.unpack
  dsimp only
  by_cases full : unpackExponent bits = -1#_
  · rw [if_pos full]
    by_cases none : unpackMantissa bits = 0#_
    · rw [if_pos none]
      exact iff_of_false nofun fun both => both.2 none
    · rw [if_neg none]
      exact iff_of_true rfl ⟨full,none⟩
  · rw [if_neg full]
    refine iff_of_false ?_ fun both => full both.1
    by_cases small : unpackExponent bits = 0#_
    · rw [if_pos small]
      by_cases none : unpackMantissa bits = 0#_
      · rw [dif_pos none]
        nofun
      · rw [dif_neg none]
        nofun
    · rw [if_neg small]
      nofun

theorem ofNat_ne_full {bits exponent : Nat} (small : ¬2 ^ bits ≤ exponent + 1) :
    BitVec.ofNat bits exponent ≠ -1#_ := by
  intro full
  have numbers := congrArg BitVec.toNat full
  rw [BitVec.neg_one_eq_allOnes,BitVec.toNat_ofNat,BitVec.toNat_allOnes,Nat.mod_eq_of_lt (by omega)] at numbers
  omega

theorem isNaN_pack (u : UnpackedFloat) : (Float.Model.pack u).unpack.isNaN = u.isNaN := by
  rw [Bool.eq_iff_iff]
  unfold Float.Model.pack Float.Model.unpack
  rw [isNaN_unpack]
  cases u with
  | notANumber => decide
  | infinity sign =>
    refine iff_of_false ?_ nofun
    change ¬(_ ∧ unpackMantissa (packedInfinity _ sign) ≠ _)
    rw [packedInfinity,unpackMantissa_packComponents]
    exact fun both => both.2 rfl
  | zero sign =>
    refine iff_of_false ?_ nofun
    change ¬(unpackExponent (packedZero _ sign) = _ ∧ _)
    rw [packedZero,unpackExponent_packComponents]
    exact fun both => absurd both.1 (by decide)
  | finite sign mantissa exponent positive =>
    refine iff_of_false ?_ nofun
    rw [not_and,Decidable.not_not]
    unfold UnpackedFloat.pack
    dsimp only
    split
    · intro full
      rw [packedInfinity,unpackMantissa_packComponents]
      rfl
    · rename_i small
      intro full
      split at full
      · rw [unpackExponent_packComponents] at full
        exact absurd full (ofNat_ne_full small)
      · rw [unpackExponent_packComponents] at full
        exact absurd full (by decide)

theorem compare_swap (u v : UnpackedFloat) : v.compare u = (u.compare v).map Ordering.swap := by
  have ordered : ∀ (e f : Int) (m n : Nat),
      (compare f e).then (compare n m) = ((compare e f).then (compare m n)).swap := by
    intro e f m n
    rw [Ordering.swap_then,← Std.OrientedCmp.eq_swap,← Std.OrientedCmp.eq_swap]
  unfold UnpackedFloat.compare
  cases u with
  | notANumber => cases v <;> rfl
  | infinity sign => cases sign <;> (cases v with | infinity other | finite other => cases other <;> rfl | _ => rfl)
  | zero sign => cases v with | infinity other | finite other => cases other <;> rfl | _ => rfl
  | finite sign m e =>
    cases v with
    | notANumber => rfl
    | infinity other => cases sign <;> cases other <;> rfl
    | zero => cases sign <;> rfl
    | finite other n f =>
      cases sign <;> cases other
      · exact congrArg (some ∘ Ordering.swap) (ordered e f m n)
      · rfl
      · rfl
      · exact congrArg some (ordered e f m n)

theorem compare_isSome (u v : UnpackedFloat) : (u.compare v).isSome = !(u.isNaN || v.isNaN) := by
  cases u with
  | notANumber => cases v <;> rfl
  | zero => cases v with | infinity other | finite other => cases other <;> rfl | _ => rfl
  | infinity sign | finite sign =>
    cases sign <;> (cases v with | infinity other | finite other => cases other <;> rfl | _ => rfl)

theorem isNaN_normalize (spec : Format) (mantissa exponent : Int) (zero : Sign) :
    (UnpackedFloat.normalize spec mantissa exponent zero).isNaN = false := by
  have rounded : ∀ sign mantissa exponent, (UnpackedFloat.round spec sign mantissa exponent).isNaN = false := by
    intro sign mantissa exponent
    unfold UnpackedFloat.round roundWithAccuracy
    dsimp only
    rw [apply_dite UnpackedFloat.isNaN]
    exact ite_self false
  unfold UnpackedFloat.normalize
  split
  · exact rounded ..
  · rfl
  · exact rounded ..

section
variable {a b : Float}

theorem le_unpacked : a ≤ b ↔ a.toModel.unpack.le b.toModel.unpack = true := decide_eq_true_iff

theorem lt_unpacked : a < b ↔ a.toModel.unpack.lt b.toModel.unpack = true := decide_eq_true_iff

theorem compare_found (left : a.isNaN = false) (right : b.isNaN = false) :
    ∃ order, a.toModel.unpack.compare b.toModel.unpack = some order := by
  have both := compare_isSome a.toModel.unpack b.toModel.unpack
  rw [show a.toModel.unpack.isNaN = false from left,show b.toModel.unpack.isNaN = false from right] at both
  exact Option.isSome_iff_exists.mp both

theorem le_iff_not_lt (left : a.isNaN = false) (right : b.isNaN = false) : b ≤ a ↔ ¬a < b := by
  obtain ⟨order,found⟩ := compare_found left right
  rw [le_unpacked,lt_unpacked,UnpackedFloat.le,UnpackedFloat.lt,compare_swap a.toModel.unpack,found]
  cases order <;> decide

theorem beq_self (number : a.isNaN = false) : (a == a) = true := by
  obtain ⟨order,found⟩ := compare_found number number
  have swapped := compare_swap a.toModel.unpack a.toModel.unpack
  rw [found] at swapped
  change (a.toModel.unpack.compare a.toModel.unpack == some .eq) = true
  rw [found]
  cases order with
  | eq => rfl
  | lt | gt => cases swapped

theorem isNaN_unordered (nan : a.isNaN = true) : ¬a < b ∧ ¬b ≤ a := by
  have nan : a.toModel.unpack = .notANumber := by
    change a.toModel.unpack.isNaN = true at nan
    cases unpacked : a.toModel.unpack <;> rw [unpacked] at nan <;> first | rfl | cases nan
  rw [le_unpacked,lt_unpacked,UnpackedFloat.le,UnpackedFloat.lt,nan,compare_swap .notANumber]
  exact ⟨Bool.false_ne_true,Bool.false_ne_true⟩

theorem isNaN_abs (a : Float) : a.abs.isNaN = a.isNaN := by
  change (Float.Model.pack a.toModel.unpack.abs).unpack.isNaN = a.toModel.unpack.isNaN
  rw [isNaN_pack]
  cases a.toModel.unpack <;> rfl

theorem isNaN_sub (left : a.isNaN = false) (right : b.isNaN = false) : (a - b).isNaN = (a.isInf && a == b) := by
  change a.toModel.unpack.isNaN = false at left
  change b.toModel.unpack.isNaN = false at right
  change (Float.Model.pack (a.toModel.unpack.sub Format.binary64 b.toModel.unpack)).unpack.isNaN =
    (a.toModel.unpack.isInf && a.toModel.unpack.beq b.toModel.unpack)
  rw [isNaN_pack]
  cases one : a.toModel.unpack with
  | notANumber => rw [one] at left; cases left
  | infinity sign =>
    cases two : b.toModel.unpack with
    | notANumber => rw [two] at right; cases right
    | infinity other => cases sign <;> cases other <;> rfl
    | zero | finite => cases sign <;> rfl
  | zero sign =>
    cases two : b.toModel.unpack with
    | notANumber => rw [two] at right; cases right
    | zero other => cases sign <;> cases other <;> rfl
    | infinity | finite => rfl
  | finite sign m e =>
    cases two : b.toModel.unpack with
    | notANumber => rw [two] at right; cases right
    | infinity | zero => rfl
    | finite => exact isNaN_normalize ..

theorem sub_self_finite (number : a.isNaN = false) (finite : a.isInf = false) : a - a = 0 := by
  change a.toModel.unpack.isNaN = false at number
  change a.toModel.unpack.isInf = false at finite
  have none : a.toModel.unpack.sub Format.binary64 a.toModel.unpack = .zero .positive := by
    cases unpacked : a.toModel.unpack with
    | notANumber => rw [unpacked] at number; cases number
    | infinity => rw [unpacked] at finite; cases finite
    | zero sign => cases sign <;> rfl
    | finite sign m e =>
      unfold UnpackedFloat.sub
      dsimp only
      rw [Int.sub_self]
      rfl
  change (⟨Float.Model.pack (a.toModel.unpack.sub Format.binary64 a.toModel.unpack)⟩ : Float) = 0
  rw [none]
  decide +kernel

end

end DeferredAttributes.Decimal
