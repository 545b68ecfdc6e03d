import DeferredAttributes.Decimal.Reading
import DeferredAttributes.Proofs.Decimal.Nearest
import DeferredAttributes.Proofs.Decimal.Special

-- The double-precision number of a whole one.
namespace DeferredAttributes.Decimal
open Float.Model Float.Model.UnpackedFloat

theorem shifted (mantissa count : Nat) : ExtendedMantissa.mk mantissa false false >>> count =
    ⟨mantissa / 2 ^ count,decide (2 ^ count ≤ 2 * (mantissa % 2 ^ count)),
      decide (2 * (mantissa % 2 ^ count) % 2 ^ count ≠ 0)⟩ := by
  induction count with
  | zero => simp [HShiftRight.hShiftRight,Nat.repeat,Nat.mod_one]
  | succ count ih =>
    change ExtendedMantissa.shiftRightOne (ExtendedMantissa.mk mantissa false false >>> count) = _
    rw [ih]
    have positive : 0 < 2 ^ count := Nat.two_pow_pos count
    have part := Nat.mod_lt mantissa positive
    have split : mantissa % 2 ^ (count + 1) = mantissa % 2 ^ count + 2 ^ count * (mantissa / 2 ^ count % 2) := by
      rw [Nat.pow_succ,Nat.mod_mul]
    have double : 2 ^ (count + 1) = 2 * 2 ^ count := by rw [Nat.pow_succ,Nat.mul_comm]
    have half : mantissa / 2 ^ (count + 1) = mantissa / 2 ^ count / 2 := by rw [Nat.div_div_eq_div_mul,Nat.pow_succ]
    have rest : 2 * (mantissa % 2 ^ (count + 1)) % 2 ^ (count + 1) = 2 * (mantissa % 2 ^ count) := by
      rw [split,double,Nat.mul_add,← Nat.mul_assoc,Nat.add_mul_mod_self_left,Nat.mod_eq_of_lt (by omega)]
    unfold ExtendedMantissa.shiftRightOne
    rw [half,rest,split,double]
    congr 1
    · rcases Nat.mod_two_eq_zero_or_one (mantissa / 2 ^ count) with even | odd
      · rw [even,decide_eq_false (by omega)]
        rfl
      · rw [odd,decide_eq_true (by omega)]
        rfl
    · rw [← Bool.decide_or]
      apply decide_eq_decide.mpr
      by_cases below : 2 * (mantissa % 2 ^ count) < 2 ^ count
      · rw [Nat.mod_eq_of_lt below]
        omega
      · omega

theorem shifted_rounded (mantissa count : Nat) :
    (ExtendedMantissa.mk mantissa false false >>> count).roundedMantissa = nearest mantissa (2 ^ count) := by
  have part := Nat.mod_lt mantissa (Nat.two_pow_pos count)
  rw [shifted]
  unfold nearest ExtendedMantissa.roundedMantissa
  by_cases below : 2 * (mantissa % 2 ^ count) < 2 ^ count
  · rw [decide_eq_false (Nat.not_le.mpr below),Nat.mod_eq_of_lt below,if_pos below]
    cases decide (2 * (mantissa % 2 ^ count) ≠ 0) <;> rfl
  · have rest : 2 * (mantissa % 2 ^ count) % 2 ^ count = 2 * (mantissa % 2 ^ count) - 2 ^ count := by
      rw [Nat.mod_eq_sub_mod (Nat.not_lt.mp below),Nat.mod_eq_of_lt (by omega)]
    rw [decide_eq_true (Nat.not_lt.mp below),rest,if_neg below]
    by_cases above : 2 ^ count < 2 * (mantissa % 2 ^ count)
    · rw [decide_eq_true (show 2 * (mantissa % 2 ^ count) - 2 ^ count ≠ 0 by omega),if_pos above]
      rfl
    · rw [decide_eq_false (show ¬2 * (mantissa % 2 ^ count) - 2 ^ count ≠ 0 by omega),if_neg above]
      rfl

theorem shiftToTargetExponent_whole (mantissa : Nat) {exponent : Int} (normal : -1074 ≤ exponent) :
    shiftToTargetExponent .binary64 mantissa exponent .exact =
      (ExtendedMantissa.mk mantissa false false >>> (mantissa.log2 - 52),exponent + (mantissa.log2 - 52 : Nat)) := by
  have target : (Format.binary64.targetExponent (totalExponent mantissa exponent) - exponent).toNat = mantissa.log2 - 52 := by
    unfold Format.targetExponent totalExponent Format.minExponent Format.mantissaBits
    simp
    omega
  unfold shiftToTargetExponent shiftToExponent
  dsimp only
  rw [target]
  rfl

theorem roundWithAccuracy_whole (sign : Sign) {mantissa : Nat} {exponent : Int} (large : 52 ≤ mantissa.log2)
    (normal : -1074 ≤ exponent) :
    ∃ digits place positive, roundWithAccuracy .binary64 sign mantissa exponent .exact =
        .finite sign digits (exponent + (place : Nat)) positive ∧
      2 ^ 52 ≤ digits ∧ digits < 2 ^ 53 ∧ digits * 2 ^ place = rounded mantissa ∧ place ≤ mantissa.log2 - 51 := by
  obtain ⟨low,high⟩ := div_unitOf large
  obtain ⟨least,most⟩ := nearest_bounds mantissa (unitOf mantissa)
  have twice : ∀ carry, (nearest mantissa (unitOf mantissa)).log2 - 52 = carry →
      ∀ positive : 0 < nearest mantissa (unitOf mantissa) / 2 ^ carry,
      roundWithAccuracy .binary64 sign mantissa exponent .exact =
        .finite sign (nearest mantissa (unitOf mantissa) / 2 ^ carry)
          (exponent + ((mantissa.log2 - 52 + carry : Nat) : Int)) positive := by
    rintro carry rfl positive
    have again := shiftToTargetExponent_whole (nearest mantissa (unitOf mantissa))
      (show -1074 ≤ exponent + (mantissa.log2 - 52 : Nat) by omega)
    unfold roundWithAccuracy
    rw [shiftToTargetExponent_whole mantissa normal]
    dsimp only
    rw [shifted_rounded,← unitOf,again,shifted]
    dsimp only
    rw [dif_neg positive.ne']
    congr 1
    omega
  by_cases carry : nearest mantissa (unitOf mantissa) < 2 ^ 53
  · have size : (nearest mantissa (unitOf mantissa)).log2 - 52 = 0 := by
      have short := (Nat.log2_lt (by omega)).mpr carry
      omega
    have found := twice 0 size
    rw [Nat.pow_zero,Nat.div_one] at found
    exact ⟨_,_,by omega,found _,by omega,carry,rfl,by omega⟩
  · have full : nearest mantissa (unitOf mantissa) = 2 ^ 53 := by omega
    have found := twice 1 (by rw [full,Nat.log2_two_pow])
    rw [full] at found
    refine ⟨_,_,by decide,found _,by decide,by decide,?_,by omega⟩
    rw [rounded,full,unitOf,Nat.pow_add 2 (mantissa.log2 - 52) 1]
    omega

theorem ofBits_normal {biased fraction : Nat} (some : 0 < biased) (below : biased < 2047) (short : fraction < 2 ^ 52) :
    Binary.ofBits (biased * 2 ^ 52 + fraction) =
      .finite false (2 ^ 52 + fraction) ((biased : Int) - 1075) (fraction == 0 && biased > 1) := by
  have sign : (biased * 2 ^ 52 + fraction) / Nat.pow 2 63 % 2 = 0 := by
    change (biased * 2 ^ 52 + fraction) / 2 ^ 63 % 2 = 0
    omega
  have front : (biased * 2 ^ 52 + fraction) / Nat.pow 2 52 % Nat.pow 2 11 = biased := by
    change (biased * 2 ^ 52 + fraction) / 2 ^ 52 % 2 ^ 11 = biased
    omega
  have rest : (biased * 2 ^ 52 + fraction) % Nat.pow 2 52 = fraction := by
    change (biased * 2 ^ 52 + fraction) % 2 ^ 52 = fraction
    omega
  unfold Binary.ofBits
  dsimp only
  rw [sign,front,rest,if_neg (by omega),if_neg (by omega)]
  rfl

theorem bias_binary64 :
    (Format.binary64.exponentBias : Int) + (Format.binary64.mantissaBitsWithoutImplicit : Nat) = 1075 := by decide

theorem exponent_bits {exponent : Int} (low : -1074 ≤ exponent) (high : exponent ≤ 971) :
    (BitVec.ofNat 11 (exponent + 1075).toNat).toNat = (exponent + 1075).toNat := by
  rw [BitVec.toNat_ofNat,Nat.mod_eq_of_lt (by omega)]

theorem mantissa_bits {digits : Nat} (least : 2 ^ 52 ≤ digits) (most : digits < 2 ^ 53) :
    (BitVec.ofNat 52 digits).toNat = digits - 2 ^ 52 := by
  rw [BitVec.toNat_ofNat]
  omega

theorem packed_bits (exponent : BitVec 11) (mantissa : BitVec 52) :
    (packComponents .binary64 .positive exponent mantissa).toNat = exponent.toNat * 2 ^ 52 + mantissa.toNat := by
  have front : (Sign.positive.toBitVec ++ exponent).toNat = exponent.toNat := by
    rw [BitVec.toNat_append]
    simp [Sign.toBitVec]
  unfold packComponents
  rw [BitVec.toNat_append,front,← Nat.shiftLeft_add_eq_or_of_lt mantissa.isLt,Nat.shiftLeft_eq]

theorem unpackSign_positive (exponent : BitVec 11) (mantissa : BitVec 52) :
    unpackSign (packComponents .binary64 .positive exponent mantissa) = Sign.positive.toBitVec := by
  have below : exponent.toNat * 2 ^ 52 + mantissa.toNat < 2 ^ 63 := by omega
  apply BitVec.eq_of_toNat_eq
  unfold unpackSign
  rw [BitVec.toNat_cast,BitVec.extractLsb_toNat,packed_bits,Nat.shiftRight_eq_div_pow]
  change _ / 2 ^ 63 % _ = 0
  rw [Nat.div_eq_of_lt below]
  rfl

section
variable {digits : Nat} {exponent : Int} (least : 2 ^ 52 ≤ digits) (most : digits < 2 ^ 53) (low : -1074 ≤ exponent)
  (high : exponent ≤ 971)
include least most low high

theorem pack_whole (positive : 0 < digits) :
    UnpackedFloat.pack .binary64 (.finite .positive digits exponent positive) =
      packComponents .binary64 .positive (BitVec.ofNat 11 (exponent + 1075).toNat) (BitVec.ofNat 52 digits) := by
  have size : digits.log2 = 52 := (Nat.log2_eq_iff positive.ne').mpr ⟨least,most⟩
  have bias : (exponent + (Format.binary64.exponentBias : Nat) + (Format.binary64.mantissaBitsWithoutImplicit : Nat)).toNat =
      (exponent + 1075).toNat := by rw [Int.add_assoc,bias_binary64]
  unfold UnpackedFloat.pack
  dsimp only
  rw [bias,if_neg,if_pos]
  · rw [size]
    rfl
  · omega

theorem unpack_pack_whole (positive : 0 < digits) :
    (Float.Model.pack (.finite .positive digits exponent positive)).unpack = .finite .positive digits exponent positive := by
  unfold Float.Model.pack Float.Model.unpack
  dsimp only
  rw [pack_whole least most low high positive]
  have biased := exponent_bits low high
  have some : BitVec.ofNat 11 (exponent + 1075).toNat ≠ 0#11 := by
    intro zero
    have none := congrArg BitVec.toNat zero
    rw [biased,BitVec.toNat_ofNat] at none
    omega
  have full : BitVec.ofNat 11 (exponent + 1075).toNat ≠ -1#11 := ofNat_ne_full (by omega)
  have mantissa : (1#1 ++ BitVec.ofNat 52 digits).toNat = digits := by
    rw [BitVec.toNat_append,mantissa_bits least most,← Nat.shiftLeft_add_eq_or_of_lt (by omega)]
    change 1 <<< 52 + (digits - 2 ^ 52) = digits
    omega
  have place : ((exponent + 1075).toNat : Int) -
      ((Format.binary64.exponentBias : Int) + (Format.binary64.mantissaBitsWithoutImplicit : Nat)) = exponent := by
    rw [bias_binary64]
    omega
  have parts : ∀ {sign mantissa power} (own : 0 < mantissa), sign = Sign.positive → mantissa = digits → power = exponent →
      UnpackedFloat.finite sign mantissa power own = .finite .positive digits exponent positive := by
    rintro _ _ _ _ rfl rfl rfl
    rfl
  unfold UnpackedFloat.unpack
  dsimp only
  rw [unpackExponent_packComponents,if_neg full,if_neg some]
  refine parts _ ?_ ?_ ?_
  · rw [unpackSign_positive]
    rfl
  · rw [unpackMantissa_packComponents,mantissa]
  · rw [biased,place]

theorem ofBits_pack_whole (positive : 0 < digits) :
    Binary.ofBits (UnpackedFloat.pack .binary64 (.finite .positive digits exponent positive)).toNat =
      .finite false digits exponent (digits - 2 ^ 52 == 0 && (exponent + 1075).toNat > 1) := by
  have whole : 2 ^ 52 + (digits - 2 ^ 52) = digits := by omega
  have place : ((exponent + 1075).toNat : Int) - 1075 = exponent := by omega
  rw [pack_whole least most low high positive,packed_bits,exponent_bits low high,mantissa_bits least most,
    ofBits_normal (by omega) (by omega) (by omega),whole,place]

end

-- A number with 53 digits that is a whole one: digits · 2^(up - down).
def Stores (bound : Nat) (x : Float) (n : Nat) : Prop :=
  ∃ (digits up down : Nat) (positive : 0 < digits),
    x.toModel = Float.Model.pack (.finite .positive digits (up - down) positive) ∧
      2 ^ 52 ≤ digits ∧ digits < 2 ^ 53 ∧ up ≤ bound ∧ down ≤ bound ∧ digits * 2 ^ up = n * 2 ^ down

theorem stores_round {bound mantissa up down n : Nat} (large : 52 ≤ mantissa.log2) (above : up + mantissa.log2 ≤ bound)
    (below : down ≤ bound) (most : bound ≤ 900) (same : rounded mantissa * 2 ^ up = n * 2 ^ down) :
    Stores bound ⟨.pack (roundWithAccuracy .binary64 .positive mantissa (up - down) .exact)⟩ n := by
  obtain ⟨digits,place,positive,found,least,few,value,short⟩ :=
    roundWithAccuracy_whole .positive large (show -1074 ≤ (up : Int) - down by omega)
  refine ⟨digits,up + place,down,positive,?_,least,few,by omega,below,?_⟩
  · have moved : ((up + place : Nat) : Int) - down = up - down + place := by omega
    rw [found]
    exact congrArg (fun place => Float.Model.pack (.finite .positive digits place positive)) moved.symm
  · rw [Nat.pow_add,Nat.mul_comm (2 ^ up),← Nat.mul_assoc,value,same]

theorem Stores.mul_one {bound : Nat} {x : Float} {n : Nat} (stores : Stores bound x n) (small : bound ≤ 700) :
    Stores (bound + 104) (x * Float.ofBits 0x3FF0000000000000) n := by
  obtain ⟨digits,up,down,positive,model,least,few,above,below,same⟩ := stores
  have one : (Float.ofBits 0x3FF0000000000000).toModel.unpack = .finite .positive (2 ^ 52) (-52) (by decide) := by rfl
  have own : x.toModel.unpack = .finite .positive digits ((up : Int) - down) positive := by
    rw [model]
    exact unpack_pack_whole least few (by omega) (by omega) positive
  have size : (digits * 2 ^ 52).log2 = 104 := by
    rw [Nat.log2_eq_iff (by omega)]
    omega
  have exact : rounded (digits * 2 ^ 52) = digits * 2 ^ 52 := rounded_eq_self.mpr ⟨digits,52,few,rfl⟩
  have product : Stores (bound + 104) ⟨.pack (roundWithAccuracy .binary64 .positive (digits * 2 ^ 52)
      (up - (down + 52 : Nat)) .exact)⟩ n := by
    refine stores_round (by omega) (by omega) (by omega) (by omega) ?_
    rw [exact,Nat.pow_add,← Nat.mul_assoc,← same,Nat.mul_right_comm]
  have model : x * Float.ofBits 0x3FF0000000000000 =
      ⟨.pack (UnpackedFloat.mul .binary64 x.toModel.unpack (Float.ofBits 0x3FF0000000000000).toModel.unpack)⟩ := rfl
  have place : ((up : Int) - down + -52) = up - (down + 52 : Nat) := by omega
  rw [model,own,one]
  change Stores _ ⟨.pack (roundWithAccuracy .binary64 .positive (digits * 2 ^ 52) (up - down + -52) .exact)⟩ n
  rw [place]
  exact product

theorem nearestInt_stores {bound : Nat} {x : Float} {n : Nat} (stores : Stores bound x n) (small : bound ≤ 900) :
    nearestInt? x = some (n : Int) := by
  obtain ⟨digits,up,down,positive,model,least,few,above,below,same⟩ := stores
  have bits : Binary.ofFloat x = .finite false digits (up - down)
      (digits - 2 ^ 52 == 0 && ((up : Int) - down + 1075).toNat > 1) := by
    have taken := ofBits_pack_whole least few (show -1074 ≤ (up : Int) - down by omega) (by omega) positive
    unfold Binary.ofFloat Float.toBits
    rw [model]
    exact taken
  have whole : roundHalfUp digits (up - down) = n := by
    unfold roundHalfUp
    by_cases larger : down ≤ up
    · have gap : up = (up - down) + down := by omega
      have size : (((up : Int) - down).toNat) = up - down := by omega
      rw [if_pos (by omega),size]
      rw [gap,Nat.pow_add,← Nat.mul_assoc] at same
      exact Nat.eq_of_mul_eq_mul_right (Nat.two_pow_pos down) same
    · have gap : down = (down - up) + up := by omega
      have size : (-((up : Int) - down)).toNat = down - up := by omega
      rw [if_neg (by omega),size]
      rw [gap,Nat.pow_add,← Nat.mul_assoc] at same
      have value : digits = n * 2 ^ (down - up) := Nat.eq_of_mul_eq_mul_right (Nat.two_pow_pos up) same
      have unit : 0 < 2 ^ (down - up) := Nat.two_pow_pos _
      rw [value]
      change (2 * (n * 2 ^ (down - up)) + 2 ^ (down - up)) / (2 * 2 ^ (down - up)) = n
      rw [Nat.mul_left_comm,Nat.add_comm,Nat.add_mul_div_right _ _ (by omega),Nat.div_eq_of_lt (by omega),Nat.zero_add]
  unfold nearestInt?
  rw [bits]
  dsimp only
  rw [whole]
  rfl

section
variable {n : Nat} (some : n ≠ 0)
include some

theorem toFloat_stores (few : n < 2 ^ 53) : Stores 200 n.toUInt64.toFloat n := by
  have short := (Nat.log2_lt some).mpr few
  have size : (n <<< (52 - n.log2)).log2 = 52 := by
    rw [Nat.shiftLeft_eq,log2_shifted some]
    omega
  have exact : rounded (n <<< (52 - n.log2)) = n * 2 ^ (52 - n.log2) := by
    rw [Nat.shiftLeft_eq,rounded_shifted,rounded_eq_self.mpr (representable_small few)]
  have product : Stores 200 ⟨.pack (roundWithAccuracy .binary64 .positive (n <<< (52 - n.log2))
      ((0 : Nat) - (52 - n.log2 : Nat)) .exact)⟩ n :=
    stores_round (by omega) (by omega) (by omega) (by omega) (by rw [exact,Nat.pow_zero,Nat.mul_one])
  have number : n.toUInt64.toNat = n := by
    change n % 2 ^ 64 = n
    omega
  have model : n.toUInt64.toFloat = ⟨.pack (UnpackedFloat.normalize .binary64 (n.toUInt64.toNat : Int) 0 .positive)⟩ := rfl
  have normal : UnpackedFloat.normalize .binary64 (n : Int) 0 .positive = UnpackedFloat.round .binary64 .positive n 0 := by
    have order : compare (n : Int) 0 = .gt := compare_gt_iff_gt.mpr (by omega)
    unfold UnpackedFloat.normalize
    rw [order]
    rfl
  have target : (0 - Format.binary64.targetExponent (totalExponent n 0)).toNat = 52 - n.log2 := by
    unfold Format.targetExponent totalExponent Format.minExponent Format.mantissaBits
    simp
    omega
  rw [model,number,normal]
  unfold UnpackedFloat.round decreaseExponent
  dsimp only
  rw [target]
  exact product

theorem ofScientific_stores (range : n < 2 ^ 63) : Stores 304 (Float.ofScientific n false 0) (rounded n) := by
  unfold Float.ofScientific
  split
  · rename_i small
    rw [rounded_eq_self.mpr (representable_small small.1)]
    exact (toFloat_stores some small.1).mul_one (by decide)
  · rename_i large
    have least : 2 ^ 53 ≤ n := by omega
    have size : n.log2 < 63 := (Nat.log2_lt some).mpr range
    have high : 53 ≤ n.log2 := (Nat.le_log2 some).mpr least
    have moved : (n <<< 53 * 10 ^ 0).log2 = n.log2 + 53 := by
      rw [Nat.pow_zero,Nat.mul_one,Nat.shiftLeft_eq,log2_shifted some]
    have product : Stores 304 ⟨.pack (roundWithAccuracy .binary64 .positive (n <<< 53 * 10 ^ 0) ((0 : Nat) - (53 : Nat)) .exact)⟩
        (rounded n) := by
      refine stores_round (by omega) (by omega) (by omega) (by omega) ?_
      rw [Nat.pow_zero,Nat.mul_one,Nat.shiftLeft_eq,rounded_shifted,Nat.pow_zero,Nat.mul_one]
    have scientific : UnpackedFloat.ofScientific .binary64 n 0 = UnpackedFloat.mul .binary64
        (.finite .positive (n <<< 53) (-53) (by rw [Nat.shiftLeft_eq]; omega)) (.finite .positive (10 ^ 0) 0 (by decide)) := by
      have near : ¬(0 : Int) > 2 ^ Format.binary64.exponentBits := by decide
      have far : ¬(0 : Int) < -((2 ^ Format.binary64.exponentBits : Int) + n.log2) := by
        have positive : (0 : Int) ≤ 2 ^ Format.binary64.exponentBits := by decide
        omega
      unfold UnpackedFloat.ofScientific
      rw [dif_neg some,if_neg near,if_neg far,if_pos (Int.le_refl 0)]
      rfl
    change Stores 304 ⟨.pack (UnpackedFloat.ofScientific .binary64 n 0)⟩ (rounded n)
    rw [scientific]
    exact product

end

theorem natOf_toDigits (n : Nat) : natOf (Nat.toDigits 10 n) = n := by
  have same : natOf (Nat.toDigits 10 n) = Nat.ofDigitChars 10 (Nat.toDigits 10 n) 0 := by
    unfold natOf Nat.ofDigitChars digitValue
    simp only [Nat.mul_comm]
  rw [same,Nat.ofDigitChars_ten_toDigits]

theorem nearestInt_ofDigits {n : Nat} (range : n < 2 ^ 63) : nearestInt? (ofDigits n 0) = some (rounded n : Int) := by
  by_cases zero : n = 0
  · subst zero
    decide +kernel
  · have short : (Nat.toDigits 10 n).length ≤ 19 := (Nat.length_toDigits_le_iff (by decide) (by decide)).mpr (by omega)
    unfold ofDigits
    dsimp only
    rw [if_neg zero,if_neg (by omega),if_neg (by omega)]
    exact nearestInt_stores (ofScientific_stores zero range) (by decide)

end DeferredAttributes.Decimal
