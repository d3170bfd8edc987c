import ApiContract.Decimal.Layout
import ApiContract.Decimal.Reader
import Mathlib.Data.List.Induction
/-!
# Digits

Numbers are told apart by their digits, in any base up to sixteen. What is read as a number in base ten
is its digits, with zeros in front or not (`readDigits?_eq_some_iff`).
-/

namespace ApiContract.Decimal

theorem digitChar_inj {m n : Nat} (hm : m < 16) (hn : n < 16) (h : m.digitChar = n.digitChar) :
    m = n := by
  have all : ∀ i : Fin 16, ∀ j : Fin 16, (i : Nat).digitChar = (j : Nat).digitChar → i = j := by
    decide
  exact congrArg Fin.val (all ⟨m, hm⟩ ⟨n, hn⟩ h)

variable {base : Nat}

theorem toDigits_inj (least : 1 < base) (most : base ≤ 16) {m n : Nat}
    (h : Nat.toDigits base m = Nat.toDigits base n) : m = n := by
  induction m using Nat.strongRecOn generalizing n with
  | ind m ih =>
    rw [Nat.toDigits_eq_if least, Nat.toDigits_eq_if (n := n) least] at h
    split at h <;> split at h
    · exact digitChar_inj (by omega) (by omega) (List.singleton_inj.mp h)
    · have := congrArg List.length h
      simp at this
    · have := congrArg List.length h
      simp at this
    · next large _ =>
      obtain ⟨front, last⟩ := List.append_inj' h rfl
      have lower : m / base < m := Nat.div_lt_self (by omega) least
      have quotient := ih _ lower front
      have remainder := digitChar_inj (by have := Nat.mod_lt m (show 0 < base by omega); omega)
        (by have := Nat.mod_lt n (show 0 < base by omega); omega) (List.singleton_inj.mp last)
      rw [← Nat.div_add_mod m base, ← Nat.div_add_mod n base, quotient, remainder]

theorem exists_of_mem_toDigits (least : 1 < base) {n : Nat} {c : Char}
    (h : c ∈ Nat.toDigits base n) : ∃ d < base, c = d.digitChar := by
  induction n using Nat.strongRecOn with
  | ind n ih =>
    rw [Nat.toDigits_eq_if least] at h
    split at h
    · next small => exact ⟨n, small, List.mem_singleton.mp h⟩
    · rcases List.mem_append.mp h with front | last
      · exact ih _ (Nat.div_lt_self (by omega) least) front
      · exact ⟨n % base, Nat.mod_lt _ (by omega), List.mem_singleton.mp last⟩

theorem digitChar_ne_plus {d : Nat} (h : d < 10) : d.digitChar ≠ '+' := by
  have all : ∀ i : Fin 10, (i : Nat).digitChar ≠ '+' := by decide
  exact all ⟨d, h⟩

theorem digitValue?_digitChar {d : Nat} (h : d < 10) : digitValue? 10 d.digitChar = some d := by
  have all : ∀ i : Fin 10, digitValue? 10 (i : Nat).digitChar = some (i : Nat) := by decide
  exact all ⟨d, h⟩

/-- The decimal digits of a number are read as that number. -/
theorem readDigits?_toDigits (n : Nat) : readDigits? 10 (Nat.toDigits 10 n) = some n := by
  have fold : (Nat.toDigits 10 n).foldlM
      (fun m c => (digitValue? 10 c).map fun d => m * 10 + d) 0 = some n := by
    induction n using Nat.strongRecOn with
    | ind n ih =>
      rw [Nat.toDigits_eq_if (by omega)]
      split
      · next small => simp [digitValue?_digitChar small]
      · have rest : n % 10 < 10 := Nat.mod_lt n (by omega)
        have whole : n / 10 * 10 + n % 10 = n := by omega
        rw [List.foldlM_append, ih _ (Nat.div_lt_self (by omega) (by omega))]
        simp [digitValue?_digitChar rest, whole]
  have nonempty : (Nat.toDigits 10 n).isEmpty = false := by
    rw [Nat.toDigits_eq_if (by omega)]
    split <;> simp
  rw [readDigits?, nonempty, if_neg Bool.false_ne_true]
  exact fold

theorem digitValue?_eq_some_iff {c : Char} {d : Nat} :
    digitValue? 10 c = some d ↔ d < 10 ∧ c = d.digitChar := by
  constructor
  · intro h
    obtain ⟨v, value, below⟩ := Option.bind_eq_some_iff.mp h
    obtain ⟨small, same⟩ : v < 10 ∧ v = d := by simpa using below
    subst same
    refine ⟨small, ?_⟩
    split at value
    · next between =>
      obtain ⟨first, -⟩ : '0' ≤ c ∧ c ≤ '9' := by simpa using between
      have least : '0'.toNat ≤ c.toNat := first
      have distance : c.toNat - '0'.toNat = v := Option.some.inj value
      refine Char.toNat_inj.mp ?_
      rw [Nat.toNat_digitChar_of_lt_ten small, ← distance]
      exact (Nat.add_sub_cancel' least).symm
    · -- A letter has a value of ten at least.
      have large : ∀ letter : Char, c.toNat - letter.toNat + 10 ≠ v := by omega
      split at value
      · exact absurd (Option.some.inj value) (large 'a')
      · split at value
        · exact absurd (Option.some.inj value) (large 'A')
        · cases value
  · rintro ⟨small, rfl⟩
    exact digitValue?_digitChar small

theorem readDigits?_concat (cs : List Char) (c : Char) :
    readDigits? 10 (cs ++ [c]) =
      if cs = [] then digitValue? 10 c
      else (readDigits? 10 cs).bind fun n => (digitValue? 10 c).map fun d => n * 10 + d := by
  cases cs with
  | nil => simp [readDigits?]
  | cons first rest => simp [readDigits?, List.foldlM_append, Option.bind_assoc]

theorem readDigits?_zero_cons {cs : List Char} (nonempty : cs ≠ []) :
    readDigits? 10 ('0' :: cs) = readDigits? 10 cs := by
  have zero : digitValue? 10 '0' = some 0 := by decide
  simp [readDigits?, nonempty, zero]

/-- What is read as a number is the number's digits, with zeros in front or not. -/
theorem readDigits?_eq_some_iff {cs : List Char} {n : Nat} :
    readDigits? 10 cs = some n ↔
      ∃ zeros, cs = List.replicate zeros '0' ++ Nat.toDigits 10 n := by
  constructor
  · intro h
    induction cs using List.reverseRecOn generalizing n with
    | nil => cases h
    | append_singleton front c ih =>
      rw [readDigits?_concat] at h
      split at h
      · next empty =>
        obtain ⟨small, rfl⟩ := digitValue?_eq_some_iff.mp h
        exact ⟨0, by rw [empty, Nat.toDigits_of_lt_base small]; rfl⟩
      · obtain ⟨m, read, last⟩ := Option.bind_eq_some_iff.mp h
        obtain ⟨d, value, rfl⟩ := Option.map_eq_some_iff.mp last
        obtain ⟨small, rfl⟩ := digitValue?_eq_some_iff.mp value
        obtain ⟨zeros, rfl⟩ := ih read
        rw [List.append_assoc]
        by_cases zero : m = 0
        · -- What stands before the last digit is zeros alone.
          subst zero
          refine ⟨zeros + 1, ?_⟩
          rw [List.replicate_succ', Nat.zero_mul, Nat.zero_add, Nat.toDigits_of_lt_base small]
          simp
        · refine ⟨zeros, ?_⟩
          rw [← Nat.toDigits_of_lt_base small,
            Nat.toDigits_append_toDigits (by omega) (by omega) small, Nat.mul_comm]
  · rintro ⟨zeros, rfl⟩
    have nonempty : Nat.toDigits 10 n ≠ [] := Nat.toDigits_ne_nil
    induction zeros with
    | zero => exact readDigits?_toDigits n
    | succ zeros ih =>
      rw [List.replicate_succ, List.cons_append, readDigits?_zero_cons (by simp [nonempty]), ih]

/-- A sign is no digit. -/
theorem readDigits?_plus_cons (cs : List Char) : readDigits? 10 ('+' :: cs) = none := by
  refine Option.eq_none_iff_forall_ne_some.mpr fun n h => ?_
  obtain ⟨zeros, text⟩ := readDigits?_eq_some_iff.mp h
  have member : '+' ∈ List.replicate zeros '0' ++ Nat.toDigits 10 n := text ▸ List.mem_cons_self
  rcases List.mem_append.mp member with zero | digit
  · exact absurd (List.eq_of_mem_replicate zero) (by decide)
  · obtain ⟨d, small, same⟩ := exists_of_mem_toDigits (by omega) digit
    exact digitChar_ne_plus small same.symm

theorem toList_integerText (n : Nat) : (integerText n).toList = Nat.toDigits 10 n := by
  rw [integerText, if_neg (by omega)]
  simp [digitChars]

end ApiContract.Decimal
