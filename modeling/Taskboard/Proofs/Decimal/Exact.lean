import Mathlib
import Taskboard.Json.Value

/-!
# Taskboard — comparing doubles, comparing numbers

Settings are checked by comparing doubles. What a check says of a double it says of the number that
the double stands for. The comparison looks at sign, exponent and mantissa in turn, which are the
same in both views of a double (`Double.ofFloat_eq`); since a mantissa has at most 53 digits, a
smaller exponent means a smaller number.

* `toRat` — the number that a double stands for;
* `Double.ofFloat_eq` — the bits of a double, read in two ways;
* `toRat_pos`, `toRat_lt_one` — doubles above zero and below one.
-/

namespace Taskboard.Decimal

open Float.Model (UnpackedFloat Format)
open Float.Model.UnpackedFloat (unpackMantissa unpackExponent unpackSign)

/-- The number that a double has for its value, if it is finite. -/
def Double.toRat? : Double → Option Rat
  | .finite negative mantissa exponent =>
    some ((if negative then -1 else 1) * mantissa * 2 ^ exponent)
  | _ => none

/-- The number that a double stands for. What is not finite counts as zero. -/
def toRat (x : Float) : Rat :=
  (Double.ofFloat x).toRat?.getD 0

/-! ## Two views of a double -/

/-- A double from the parts that comparisons look at. -/
def Double.ofUnpacked : UnpackedFloat → Double
  | .infinity sign => .infinite (sign == .negative)
  | .notANumber => .nan
  | .zero sign => .finite (sign == .negative) 0 (-1074)
  | .finite sign mantissa exponent _ => .finite (sign == .negative) mantissa exponent

section Bits

variable (b : BitVec Format.binary64.numBits)

theorem toNat_unpackMantissa : (unpackMantissa b).toNat = b.toNat % Nat.pow 2 52 := by
  simp [unpackMantissa]

theorem toNat_unpackExponent :
    (unpackExponent b).toNat = b.toNat / Nat.pow 2 52 % Nat.pow 2 11 := by
  simp [unpackExponent, Nat.shiftRight_eq_div_pow]

theorem toNat_unpackSign : (unpackSign b).toNat = b.toNat / Nat.pow 2 63 % 2 := by
  simp [unpackSign, Nat.shiftRight_eq_div_pow]

/-- The sign bit stands for a negative sign. -/
theorem ofBitVec_eq_negative (sign : BitVec 1) :
    (Float.Model.UnpackedFloat.Sign.ofBitVec sign == .negative) = (sign.toNat == 1) := by
  revert sign
  decide

/-- The leading one of a normal mantissa. -/
theorem toNat_one_append (mantissa : BitVec 52) :
    (1#1 ++ mantissa).toNat = Nat.pow 2 52 + mantissa.toNat := by
  rw [BitVec.toNat_append, ← Nat.shiftLeft_add_eq_or_of_lt mantissa.isLt]
  rfl

/-- **The bits of a double, read in two ways**, say the same. -/
theorem Double.ofFloat_eq (x : Float) :
    Double.ofFloat x = Double.ofUnpacked x.toModel.unpack := by
  show _ = Double.ofUnpacked (UnpackedFloat.unpack Format.binary64 x.toBits.toBitVec)
  rw [Double.ofFloat, UnpackedFloat.unpack]
  simp only [← BitVec.toNat_inj, ← UInt64.toNat_toBitVec]
  generalize x.toBits.toBitVec = b
  have hMantissa := toNat_unpackMantissa b
  have hExponent := toNat_unpackExponent b
  have hSign := toNat_unpackSign b
  rw [← hMantissa, ← hExponent, ← hSign]
  have hLargest : (-1#11).toNat = 2047 := rfl
  simp only [hLargest, BitVec.toNat_ofNat, Nat.zero_mod]
  by_cases hField : (@unpackExponent Format.binary64 b).toNat = 2047
  · rw [if_pos hField, if_pos hField]
    split <;> rw [Double.ofUnpacked]
    rw [ofBitVec_eq_negative]
  · rw [if_neg hField, if_neg hField]
    by_cases hSmall : (@unpackExponent Format.binary64 b).toNat = 0
    · rw [if_pos hSmall, if_pos hSmall]
      by_cases hFraction : (@unpackMantissa Format.binary64 b).toNat = 0
      · rw [dif_pos hFraction, hFraction, Double.ofUnpacked, ofBitVec_eq_negative]
      · rw [dif_neg hFraction, Double.ofUnpacked, ofBitVec_eq_negative, hSmall]
        rfl
    · rw [if_neg hSmall, if_neg hSmall, Double.ofUnpacked, ofBitVec_eq_negative, toNat_one_append]
      rfl

end Bits

/-- A mantissa has at most 53 binary digits. -/
theorem Double.mantissa_lt {x : Float} {negative : Bool} {mantissa : Nat} {exponent : Int}
    (h : Double.ofFloat x = .finite negative mantissa exponent) : mantissa < 2 ^ 53 := by
  have hFraction : x.toBits.toNat % Nat.pow 2 52 < Nat.pow 2 52 :=
    Nat.mod_lt _ (Nat.two_pow_pos 52)
  have hDigit : Nat.pow 2 52 + Nat.pow 2 52 = 2 ^ 53 := rfl
  rw [Double.ofFloat] at h
  split at h
  · split at h <;> cases h
  · split at h
    · obtain ⟨-, rfl, -⟩ := Double.finite.inj h
      omega
    · obtain ⟨-, rfl, -⟩ := Double.finite.inj h
      omega

/-! ## Comparisons -/

/-- A double above zero has the positive sign, and it is infinite or has some mantissa. -/
theorem unpack_of_pos {x : Float} (h : 0 < x) : x.toModel.unpack = .infinity .positive ∨
    ∃ mantissa exponent hSome, x.toModel.unpack = .finite .positive mantissa exponent hSome := by
  have hCompare : (UnpackedFloat.zero .positive).compare x.toModel.unpack == some .lt :=
    of_decide_eq_true h
  cases hView : x.toModel.unpack with
  | notANumber => simp [hView, UnpackedFloat.compare] at hCompare
  | zero sign => simp [hView, UnpackedFloat.compare] at hCompare
  | infinity sign =>
    cases sign with
    | negative => simp [hView, UnpackedFloat.compare] at hCompare
    | positive => exact Or.inl rfl
  | finite sign mantissa exponent hSome =>
    cases sign with
    | negative => simp [hView, UnpackedFloat.compare] at hCompare
    | positive => exact Or.inr ⟨mantissa, exponent, hSome, rfl⟩

theorem toRat_of_unpack {x : Float} {mantissa : Nat} {exponent : Int} {hSome : 0 < mantissa}
    (h : x.toModel.unpack = .finite .positive mantissa exponent hSome) :
    toRat x = mantissa * 2 ^ exponent := by
  rw [toRat, Double.ofFloat_eq, h]
  show (1 : Rat) * mantissa * 2 ^ exponent = _
  rw [one_mul]

/-- **A finite double above zero** stands for a number above zero. -/
theorem toRat_pos {x : Float} (h : 0 < x) (hFinite : Json.isFinite x = true) : 0 < toRat x := by
  rcases unpack_of_pos h with hView | ⟨mantissa, exponent, hSome, hView⟩
  · rw [Json.isFinite, Double.ofFloat_eq, hView] at hFinite
    exact absurd hFinite Bool.false_ne_true
  · rw [toRat_of_unpack hView]
    have hMantissa : (0 : Rat) < mantissa := Nat.cast_pos.mpr hSome
    positivity

/-- **A double between zero and one** is finite, and stands for a number below one. -/
theorem toRat_lt_one {x : Float} (h : 0 < x) (hLess : x < 1) :
    Json.isFinite x = true ∧ toRat x < 1 := by
  have hCompare : x.toModel.unpack.compare (.finite .positive (2 ^ 52) (-52) (by decide)) ==
      some .lt := of_decide_eq_true hLess
  rcases unpack_of_pos h with hView | ⟨mantissa, exponent, hSome, hView⟩
  · simp [hView, UnpackedFloat.compare] at hCompare
  · have hFinite : Double.ofFloat x = .finite false mantissa exponent := by
      rw [Double.ofFloat_eq, hView]
      rfl
    have hDigits := Double.mantissa_lt hFinite
    refine ⟨by rw [Json.isFinite, hFinite], ?_⟩
    rw [toRat_of_unpack hView]
    have hOrder : (compare exponent (-52)).then (compare mantissa (2 ^ 52)) = .lt := by
      simpa [hView, UnpackedFloat.compare] using hCompare
    -- the exponents decide, or else the mantissas do
    rcases Ordering.then_eq_lt.mp hOrder with hExponent | ⟨hSame, hMantissa⟩
    · have hLe : exponent ≤ -53 := by
        have hLess := compare_lt_iff_lt.mp hExponent
        omega
      calc (mantissa : Rat) * 2 ^ exponent
          ≤ mantissa * 2 ^ (-53 : Int) := by gcongr; norm_num
        _ < 2 ^ 53 * 2 ^ (-53 : Int) := by
          have hCast : (mantissa : Rat) < 2 ^ 53 := by exact_mod_cast hDigits
          gcongr
        _ = 1 := by norm_num
    · obtain rfl : exponent = -52 := compare_eq_iff_eq.mp hSame
      have hCast : (mantissa : Rat) < 2 ^ 52 := by exact_mod_cast compare_lt_iff_lt.mp hMantissa
      calc (mantissa : Rat) * 2 ^ (-52 : Int)
          < 2 ^ 52 * 2 ^ (-52 : Int) := by gcongr
        _ = 1 := by norm_num

end Taskboard.Decimal
