import Mathlib.Data.Nat.Dist

-- Whole numbers rounded to 53 binary digits, which is how many a double-precision number has.
namespace DeferredAttributes.Decimal

-- The quotient by a unit, rounded to the nearest whole number. Of two that are equally near it is the
-- even one.
def nearest (n unit : Nat) : Nat :=
  if 2 * (n % unit) < unit then n / unit
  else if unit < 2 * (n % unit) then n / unit + 1
  else n / unit + n / unit % 2

def unitOf (n : Nat) : Nat := 2 ^ (n.log2 - 52)

def rounded (n : Nat) : Nat := nearest n (unitOf n) * unitOf n

def Representable (n : Nat) : Prop := ∃ digits place, digits < 2 ^ 53 ∧ n = digits * 2 ^ place

section
variable {n m unit : Nat}

theorem unitOf_pos (n : Nat) : 0 < unitOf n := Nat.two_pow_pos _

theorem nearest_dvd (divides : n % unit = 0) (positive : 0 < unit) : nearest n unit = n / unit := by
  rw [nearest,divides,if_pos (by omega)]

theorem nearest_bounds (n unit : Nat) : n / unit ≤ nearest n unit ∧ nearest n unit ≤ n / unit + 1 := by
  unfold nearest
  split
  · omega
  · split <;> omega

theorem nearest_scaled (n unit : Nat) {scale : Nat} (positive : 0 < scale) :
    nearest (n * scale) (unit * scale) = nearest n unit := by
  have below : 2 * (n % unit * scale) < unit * scale ↔ 2 * (n % unit) < unit := by
    rw [← Nat.mul_assoc,Nat.mul_lt_mul_right positive]
  have above : unit * scale < 2 * (n % unit * scale) ↔ unit < 2 * (n % unit) := by
    rw [← Nat.mul_assoc,Nat.mul_lt_mul_right positive]
  unfold nearest
  simp only [Nat.mul_mod_mul_right,Nat.mul_div_mul_right _ _ positive,below,above]

theorem representable_small (small : n < 2 ^ 53) : Representable n := ⟨n,0,small,by simp⟩

theorem div_unitOf (large : 52 ≤ n.log2) : 2 ^ 52 ≤ n / unitOf n ∧ n / unitOf n < 2 ^ 53 := by
  have some : n ≠ 0 := by
    rintro rfl
    simp at large
  unfold unitOf
  have above : 2 ^ n.log2 = 2 ^ 52 * 2 ^ (n.log2 - 52) := by rw [← Nat.pow_add]; congr 1; omega
  have below : 2 ^ (n.log2 + 1) = 2 ^ 53 * 2 ^ (n.log2 - 52) := by rw [← Nat.pow_add]; congr 1; omega
  constructor
  · rw [Nat.le_div_iff_mul_le (Nat.two_pow_pos _),← above]
    exact Nat.log2_self_le some
  · rw [Nat.div_lt_iff_lt_mul (Nat.two_pow_pos _),← below]
    exact Nat.lt_log2_self

theorem unitOf_small (small : n.log2 < 52) : unitOf n = 1 := by
  rw [unitOf,Nat.sub_eq_zero_of_le (Nat.le_of_lt small),Nat.pow_zero]

theorem small_of_log2 (small : ¬52 ≤ n.log2) : n < 2 ^ 53 := by
  by_cases zero : n = 0
  · omega
  · exact (Nat.log2_lt zero).mp (by omega)

theorem rounded_representable (n : Nat) : Representable (rounded n) := by
  by_cases large : 52 ≤ n.log2
  · obtain ⟨_,high⟩ := div_unitOf large
    obtain ⟨_,most⟩ := nearest_bounds n (unitOf n)
    by_cases carry : nearest n (unitOf n) < 2 ^ 53
    · exact ⟨_,_,carry,rfl⟩
    · have full : nearest n (unitOf n) = 1 * 2 ^ 53 := by omega
      refine ⟨1,53 + (n.log2 - 52),by decide,?_⟩
      rw [rounded,full,unitOf,Nat.mul_assoc,← Nat.pow_add]
  · have small := small_of_log2 large
    rw [rounded,unitOf_small (by omega),nearest_dvd (Nat.mod_one n) (by decide),Nat.div_one,Nat.mul_one]
    exact representable_small small

theorem unitOf_dvd (exact : Representable n) : unitOf n ∣ n := by
  obtain ⟨digits,place,few,rfl⟩ := exact
  by_cases zero : digits = 0
  · rw [zero,Nat.zero_mul]
    exact Nat.dvd_zero _
  · have bound : digits * 2 ^ place < 2 ^ (53 + place) := by
      rw [Nat.pow_add]
      exact Nat.mul_lt_mul_of_pos_right few (Nat.two_pow_pos place)
    have some : digits * 2 ^ place ≠ 0 := Nat.mul_ne_zero zero (Nat.two_pow_pos place).ne'
    have least := (Nat.log2_lt some).mpr bound
    exact (Nat.pow_dvd_pow 2 (by omega)).trans (Nat.dvd_mul_left _ _)

theorem rounded_eq_self : rounded n = n ↔ Representable n := by
  constructor
  · intro same
    rw [← same]
    exact rounded_representable n
  · intro exact
    have divides := unitOf_dvd exact
    rw [rounded,nearest_dvd (Nat.mod_eq_zero_of_dvd divides) (unitOf_pos n),Nat.div_mul_cancel divides]

theorem log2_shifted (some : n ≠ 0) (place : Nat) : (n * 2 ^ place).log2 = n.log2 + place := by
  rw [Nat.log2_eq_iff (Nat.mul_ne_zero some (Nat.two_pow_pos place).ne'),Nat.pow_add,Nat.add_right_comm,Nat.pow_add]
  exact ⟨Nat.mul_le_mul_right _ (Nat.log2_self_le some),Nat.mul_lt_mul_of_pos_right Nat.lt_log2_self (Nat.two_pow_pos place)⟩

theorem rounded_shifted (n place : Nat) : rounded (n * 2 ^ place) = rounded n * 2 ^ place := by
  by_cases large : 52 ≤ n.log2
  · have some : n ≠ 0 := by
      rintro rfl
      simp at large
    have unit : unitOf (n * 2 ^ place) = unitOf n * 2 ^ place := by
      unfold unitOf
      rw [log2_shifted some,← Nat.pow_add]
      congr 1
      omega
    rw [rounded,unit,nearest_scaled n (unitOf n) (Nat.two_pow_pos place),rounded,Nat.mul_assoc]
  · have few := small_of_log2 large
    rw [rounded_eq_self.mpr (representable_small few),rounded_eq_self.mpr ⟨n,place,few,rfl⟩]

theorem rounded_nearest {other : Nat} (exact : Representable other) : Nat.dist n (rounded n) ≤ Nat.dist n other := by
  by_cases large : 52 ≤ n.log2
  · obtain ⟨low,_⟩ := div_unitOf large
    have split := Nat.div_add_mod' n (unitOf n)
    have part := Nat.mod_lt n (unitOf_pos n)
    have own : Nat.dist n (rounded n) ≤ n % unitOf n ∧ Nat.dist n (rounded n) ≤ unitOf n - n % unitOf n := by
      unfold rounded nearest Nat.dist
      split_ifs with below above
      · omega
      · rw [Nat.add_mul]
        omega
      · rcases Nat.mod_two_eq_zero_or_one (n / unitOf n) with even | odd
        · rw [even,Nat.add_zero]
          omega
        · rw [odd,Nat.add_mul]
          omega
    obtain ⟨digits,place,few,rfl⟩ := exact
    by_cases high : n.log2 - 52 ≤ place
    · -- a multiple of the unit
      obtain ⟨times,same⟩ : unitOf n ∣ digits * 2 ^ place := (Nat.pow_dvd_pow 2 high).trans (Nat.dvd_mul_left _ _)
      rw [same,Nat.mul_comm]
      unfold Nat.dist
      unfold Nat.dist at own
      by_cases less : times ≤ n / unitOf n
      · have scaled := Nat.mul_le_mul_right (unitOf n) less
        omega
      · have scaled := Nat.mul_le_mul_right (unitOf n) (show n / unitOf n + 1 ≤ times by omega)
        rw [Nat.add_mul] at scaled
        omega
    · -- a number with a smaller unit is smaller than every number with as many digits as this one
      have less : digits * 2 ^ place < 2 ^ 52 * unitOf n := by
        have step : digits * 2 ^ place < 2 ^ 53 * 2 ^ place := Nat.mul_lt_mul_of_pos_right few (Nat.two_pow_pos place)
        have unit : 2 ^ 53 * 2 ^ place ≤ 2 ^ 52 * unitOf n := by
          unfold unitOf
          rw [← Nat.pow_add,← Nat.pow_add]
          exact Nat.pow_le_pow_right (by decide) (by omega)
        omega
      have scaled := Nat.mul_le_mul_right (unitOf n) low
      unfold Nat.dist
      unfold Nat.dist at own
      omega
  · rw [rounded_eq_self.mpr (representable_small (small_of_log2 large)),Nat.dist_self]
    exact Nat.zero_le _

theorem rounded_limit (range : n < 2 ^ 63) : rounded n ≤ 2 ^ 63 ∧ (rounded n < 2 ^ 63 ↔ n < 2 ^ 63 - 512) := by
  by_cases large : n.log2 = 62
  · have unit : unitOf n = 1024 := by rw [unitOf,large]; rfl
    rw [rounded,unit]
    unfold nearest
    split_ifs <;> omega
  · have less : n < 2 ^ 62 := by
      by_cases zero : n = 0
      · omega
      · refine (Nat.log2_lt zero).mp ?_
        have most := (Nat.log2_lt zero).mpr range
        omega
    have exact : Representable (2 ^ 62) := ⟨1,62,by decide,by decide⟩
    have nearer := rounded_nearest (n := n) exact
    unfold Nat.dist at nearer
    omega

end
end DeferredAttributes.Decimal
