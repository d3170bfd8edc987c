import ApiContract.Proofs.Decimal.Digits
import Mathlib.Data.List.TakeWhile
/-!
# Integers read back

The decimal text of an integer is read as that integer, and where it is read as a real number, as the
nearest one (`readInteger?_integerText`, `readReal?_integerText`). Every integer of 64 bits has a
nearest one.
-/

namespace ApiContract.Decimal

/-- No digit is a sign. -/
theorem splitSign_toDigits (n : Nat) : splitSign (Nat.toDigits 10 n) = (false, Nat.toDigits 10 n) := by
  have unsigned : ∀ c ∈ Nat.toDigits 10 n, c ≠ '-' ∧ c ≠ '+' := by
    intro c member
    obtain ⟨d, small, rfl⟩ := exists_of_mem_toDigits (by omega) member
    have all : ∀ i : Fin 10, (i : Nat).digitChar ≠ '-' ∧ (i : Nat).digitChar ≠ '+' := by decide
    exact all ⟨d, small⟩
  cases digits : Nat.toDigits 10 n with
  | nil => rfl
  | cons c rest =>
    obtain ⟨minus, plus⟩ := unsigned c (digits ▸ List.mem_cons_self)
    unfold splitSign
    split <;> simp_all

/-- The text of an integer is read as that integer. -/
theorem readInteger?_integerText (n : Int) : readInteger? 10 (integerText n).toList = some n := by
  by_cases negative : n < 0
  · obtain ⟨m, rfl⟩ : ∃ m : Nat, n = -m := ⟨n.natAbs, by omega⟩
    rw [integerText, if_pos negative, String.toList_ofList, readInteger?, Int.natAbs_neg,
      Int.natAbs_natCast]
    simp [splitSign, digitChars, readDigits?_toDigits]
  · obtain ⟨m, rfl⟩ := Int.eq_ofNat_of_zero_le (Int.not_lt.mp negative)
    rw [toList_integerText, readInteger?, splitSign_toDigits]
    simp [readDigits?_toDigits]

/-- A text of digits alone is read as the real number nearest to what the digits write. -/
theorem readReal?_toDigits (n : Nat) : readReal? (Nat.toDigits 10 n) = nearest? false n 0 := by
  have digits : ∀ c ∈ Nat.toDigits 10 n, c.isDigit = true := by
    intro c member
    obtain ⟨d, small, rfl⟩ := exists_of_mem_toDigits (by omega) member
    have all : ∀ i : Fin 10, (i : Nat).digitChar.isDigit = true := by decide
    exact all ⟨d, small⟩
  have whole : (Nat.toDigits 10 n).takeWhile Char.isDigit = Nat.toDigits 10 n :=
    List.takeWhile_eq_self_iff.mpr digits
  have rest : (Nat.toDigits 10 n).dropWhile Char.isDigit = [] :=
    List.dropWhile_eq_nil_iff.mpr digits
  simp [readReal?, splitSign_toDigits, whole, rest, readDigits?_toDigits]

/-- Every natural number below `2^64` has a nearest number of the format. -/
theorem exists_ofRatio {n : Nat} (h : n < Nat.pow 2 64) :
    ∃ x, Binary64.ofRatio false n 1 = some x := by
  by_cases zero : n = 0
  · exact ⟨_, if_pos zero⟩
  have log : n.log2 < 64 := (Nat.log2_lt zero).mpr h
  have floor : Binary64.floorLog2 n 1 ≤ 63 := by
    simp only [Binary64.floorLog2, show Nat.log2 1 = 0 from rfl]
    split <;> omega
  -- The exponent is the least one or not above twelve, far below the greatest.
  rw [Binary64.ofRatio, if_neg zero]
  generalize exponent : max (Binary64.floorLog2 n 1 - 52) Binary64.leastExponent = e
  have low : e ≤ 11 := by
    rw [← exponent, Binary64.leastExponent]
    omega
  dsimp only
  generalize (if 0 ≤ e then _ else _) = q
  refine ⟨_, if_neg (Int.not_lt.mpr ?_)⟩
  split
  · exact Int.le_trans (Int.add_le_add_right low 1) (by decide)
  · split
    · decide
    · exact Int.le_trans low (by decide)

theorem nearest?_eq_ofInt {n : Nat} (h : n < Nat.pow 2 64) :
    nearest? false n 0 = some (Binary64.ofInt n) := by
  obtain ⟨x, nearest⟩ := exists_ofRatio h
  have whole : Binary64.ofInt n = x := by
    rw [Binary64.ofInt, show decide ((n : Int) < 0) = false by simp, Int.natAbs_natCast, nearest]
    rfl
  rw [whole]
  by_cases zero : n = 0
  · subst zero
    exact nearest
  have log : n.log2 < 64 := (Nat.log2_lt zero).mpr h
  rw [nearest?, if_neg zero]
  simp only [Int.add_zero]
  rw [if_neg (by omega), if_neg (by omega), Binary64.ofDecimal, if_pos (by omega)]
  simpa using nearest

/-- The text of an integer that is not negative is read as the nearest real number. -/
theorem readReal?_integerText {n : Int} (least : 0 ≤ n) (most : n < Int.pow 2 64) :
    readReal? (integerText n).toList = some (Binary64.ofInt n) := by
  obtain ⟨m, rfl⟩ := Int.eq_ofNat_of_zero_le least
  have below : m < Nat.pow 2 64 := by
    have : (Int.pow 2 64 : Int) = ((Nat.pow 2 64 : Nat) : Int) := by decide
    omega
  rw [toList_integerText, readReal?_toDigits, nearest?_eq_ofInt below]

end ApiContract.Decimal
