import ApiContract.Proofs.Text.Percent
import ApiContract.Proofs.Url.Host
/-!
# Reading hosts

A host that is read is well-formed: a name holds no character that ends an authority, addresses are
small enough for their texts, and what could be read as an address is read as one.
-/

namespace ApiContract

open Text

theorem lacks_encode {inSet : Nat → Bool} {s : String} {marks : List Char}
    (foreign : marks.all Percent.isForeign = true)
    (h : ∀ c ∈ marks, c ∉ s.toList ∨ inSet c.toNat = true) : Lacks marks (Percent.encode inSet s) :=
  fun c member => Percent.not_mem_encode (List.all_eq_true.mp foreign c member) (h c member)

namespace Domain

namespace Punycode

/-- Characters that are digits of base 36. -/
def IsDigit (c : Char) : Prop := ∃ n < 36, c = digit n

theorem threshold_le (k bias : Nat) : threshold k bias ≤ 26 := by
  unfold threshold
  split
  · omega
  split <;> omega

theorem isDigit_of_mem_writeNumber {bias fuel k q : Nat} {c : Char}
    (h : c ∈ writeNumber bias fuel k q) : IsDigit c := by
  induction fuel generalizing k q with
  | zero => cases h
  | succ fuel ih =>
    have most := threshold_le k bias
    rw [writeNumber] at h
    split at h
    · next small => exact ⟨q, by omega, List.mem_singleton.mp h⟩
    · rcases List.mem_cons.mp h with rfl | later
      · have := Nat.mod_lt (q - threshold k bias) (show 0 < 36 - threshold k bias by omega)
        exact ⟨_, by omega, rfl⟩
      · exact ih later

theorem isDigit_of_mem_writePoint {basic point : Nat} {p : Progress} {cs : List Char} {c : Char}
    (h : c ∈ (writePoint basic point p cs).1) : IsDigit c := by
  induction cs generalizing p with
  | nil => cases h
  | cons first rest ih =>
    rw [writePoint] at h
    split at h
    · exact ih h
    split at h
    · rcases List.mem_append.mp h with number | later
      · exact isDigit_of_mem_writeNumber number
      · exact ih later
    · exact ih h

theorem isDigit_of_mem_writePoints {basic reached : Nat} {cs : List Char} {p : Progress}
    {points : List Nat} {c : Char} (h : c ∈ writePoints basic cs reached p points) : IsDigit c := by
  induction points generalizing reached p with
  | nil => cases h
  | cons point points ih =>
    rw [writePoints] at h
    rcases List.mem_append.mp h with now | later
    · exact isDigit_of_mem_writePoint now
    · exact ih later

/-- The Punycode of a label is made of its ASCII characters, a hyphen and digits. -/
theorem mem_encode {cs : List Char} {c : Char} (h : c ∈ encode cs) :
    (c ∈ cs ∧ c.toNat < 0x80) ∨ c = '-' ∨ IsDigit c := by
  simp only [encode, List.mem_append] at h
  rcases h with (basic | mark) | number
  · exact .inl (by simpa using List.mem_filter.mp basic)
  · split at mark
    · cases mark
    · exact .inr (.inl (List.mem_singleton.mp mark))
  · exact .inr (.inr (isDigit_of_mem_writePoints number))

theorem isForbidden_digit {c : Char} (h : IsDigit c) : isForbidden c = false := by
  obtain ⟨n, small, rfl⟩ := h
  have all : ∀ n < 36, isForbidden (digit n) = false := by decide
  exact all n small

end Punycode

/-- No character of a label that is looked up is one that no name may hold. -/
theorem isForbidden_of_mem_label {label result : List Char} (h : labelToAscii? label = some result) :
    ∀ c ∈ result, isForbidden c = false := by
  unfold labelToAscii? at h
  have mark : ∀ c ∈ punycodeMark, isForbidden c = false := by
    simpa using (show (punycodeMark.all fun c => !isForbidden c) = true by decide)
  split at h
  · split at h
    · cases h
    next allowed =>
    have own : ∀ c ∈ label, isForbidden c = false := by simpa using allowed
    split at h
    · split at h
      · split at h
        · cases h
          exact own
        · cases h
      · cases h
    · cases h
      exact own
  · split at h
    · cases h
    next allowed =>
    split at h
    · cases h
    cases h
    intro c member
    rcases List.mem_append.mp member with front | written
    · exact mark c front
    · rcases Punycode.mem_encode written with ⟨own, ascii⟩ | rfl | digit
      · simp only [List.any_eq_true, not_exists, not_and] at allowed
        have := allowed c own
        simpa [ascii] using this
      · decide
      · exact Punycode.isForbidden_digit digit

theorem isForbidden_of_mem_joinLabels {ls : List (List Char)} {c : Char} (h : c ∈ joinLabels ls)
    (labels : ∀ label ∈ ls, ∀ c ∈ label, isForbidden c = false) : isForbidden c = false := by
  induction ls with
  | nil => cases h
  | cons first rest ih =>
    obtain ⟨own, others⟩ := List.forall_mem_cons.mp labels
    cases rest with
    | nil => exact own c h
    | cons second rest =>
      rw [joinLabels] at h
      · rcases List.mem_append.mp h with here | later
        · exact own c here
        · rcases List.mem_cons.mp later with rfl | later
          · decide
          · exact ih later others
      · simp

theorem isForbidden_of_mapM {labels ls : List (List Char)} (h : labels.mapM labelToAscii? = some ls) :
    ∀ label ∈ ls, ∀ c ∈ label, isForbidden c = false := by
  induction labels generalizing ls with
  | nil =>
    cases h
    simp
  | cons label rest ih =>
    rw [List.mapM_cons] at h
    obtain ⟨first, own, h⟩ := Option.bind_eq_some_iff.mp h
    obtain ⟨others, further, h⟩ := Option.bind_eq_some_iff.mp h
    cases h
    exact List.forall_mem_cons.mpr ⟨isForbidden_of_mem_label own, ih further⟩

theorem isForbidden_of_toAscii? {name domain : String} (h : toAscii? name = some domain) {c : Char}
    (member : c ∈ domain.toList) : isForbidden c = false := by
  obtain ⟨ls, read, rfl⟩ := Option.map_eq_some_iff.mp h
  rw [String.toList_ofList] at member
  exact isForbidden_of_mem_joinLabels member (isForbidden_of_mapM read)

end Domain

namespace Host

variable {scheme name text domain : String} {host : Host}

/-- A name without the characters that no domain may hold is well-formed, unless it is to be read as
an address. -/
theorem wellFormed_name (allowed : ∀ c ∈ name.toList, Domain.isForbidden c = false)
    (noAddress : endsInNumber name = false) : (Host.name name).WellFormed scheme := by
  have absent {c : Char} (forbidden : Domain.isForbidden c = true) : c ∉ name.toList := by
    intro member
    rw [allowed c member] at forbidden
    cases forbidden
  refine ⟨fun c mark => absent ?_, fun first => ?_, fun _ => noAddress⟩
  · have all : [':', '/', '?', '#', '@'].all Domain.isForbidden = true := by decide
    exact List.all_eq_true.mp all c mark
  · exact absent (by decide) (List.mem_of_mem_head? first)

/-- Numbers at their places, added to the last one. -/
theorem placed_cons (n unit last : Nat) (numbers units : List Nat) :
    (((n :: numbers).zip (unit :: units)).map fun (n, unit) => n * unit).foldl (· + ·) last =
      ((numbers.zip units).map fun (n, unit) => n * unit).foldl (· + ·) (last + n * unit) := rfl

theorem lt_of_ipv4OfNumbers? {numbers : List Nat} {address : Nat}
    (h : ipv4OfNumbers? numbers = some address) : address < 0x100000000 := by
  unfold ipv4OfNumbers? at h
  split at h
  · cases h
  next last front _ =>
  split at h
  · cases h
  next bounded =>
  obtain rfl := Option.some.inj h
  simp only [Bool.or_eq_true, decide_eq_true_eq, not_or, Nat.not_le, List.any_eq_true, not_exists,
    not_and, Nat.not_lt] at bounded
  obtain ⟨lastSmall, frontSmall⟩ := bounded
  have small : ∀ n ∈ front.reverse, n ≤ 255 := fun n member =>
    frontSmall n (List.mem_reverse.mp member)
  rw [← List.length_reverse, Nat.pow_eq] at lastSmall
  generalize front.reverse = octets at small lastSmall
  match octets with
  | [] => simpa using lastSmall
  | [a] =>
    have most : last < 2 ^ 24 := by simpa using lastSmall
    have small := small a (by simp)
    rw [placed_cons, List.zip_nil_left, List.map_nil, List.foldl_nil]
    omega
  | [a, b] =>
    have most : last < 2 ^ 16 := by simpa using lastSmall
    have small : a ≤ 255 ∧ b ≤ 255 := ⟨small a (by simp), small b (by simp)⟩
    rw [placed_cons, placed_cons, List.zip_nil_left, List.map_nil, List.foldl_nil]
    omega
  | a :: b :: c :: rest =>
    have most : 2 ^ (32 - 8 * (a :: b :: c :: rest).length) ≤ 2 ^ 8 :=
      Nat.pow_le_pow_right (by decide) (by simp only [List.length_cons]; omega)
    have small : a ≤ 255 ∧ b ≤ 255 ∧ c ≤ 255 :=
      ⟨small a (by simp), small b (by simp), small c (by simp)⟩
    rw [placed_cons, placed_cons, placed_cons, List.zip_nil_right, List.map_nil, List.foldl_nil]
    omega

theorem wellFormed_readIpv4 (special : Url.isSpecialScheme scheme = true)
    (h : readIpv4 name = .ok host) : host.WellFormed scheme := by
  simp only [readIpv4] at h
  generalize (if (Domain.labels name.toList).getLast? = some [] then
    (Domain.labels name.toList).dropLast else Domain.labels name.toList) = parts at h
  split at h
  · cases h
  split at h
  · next address read =>
    cases h
    obtain ⟨numbers, -, combined⟩ := Option.bind_eq_some_iff.mp read
    exact ⟨special, lt_of_ipv4OfNumbers? combined⟩
  · cases h

theorem wellFormed_readIpv6 {cs : List Char} (h : readIpv6 cs = .ok host) :
    host.WellFormed scheme := by
  unfold readIpv6 at h
  simp only [] at h
  split at h
  · next pieces read =>
    cases h
    split at read
    · have length : pieces.length = 8 := by simpa using (Option.filter_eq_some_iff.mp read).2
      exact length
    · next before after _ =>
      split at read
      · cases read
      obtain ⟨front, -, read⟩ := Option.bind_eq_some_iff.mp read
      obtain ⟨back, -, read⟩ := Option.bind_eq_some_iff.mp read
      split at read
      · next short =>
        cases read
        simp only [WellFormed, List.length_append, List.length_replicate]
        omega
      · cases read
  · cases h

theorem wellFormed_readBracketed? (h : readBracketed? text = some (.ok host)) :
    host.WellFormed scheme := by
  unfold readBracketed? at h
  split at h
  · split at h
    · exact wellFormed_readIpv6 (Option.some.inj h)
    · cases h
  · cases h

/-- The host of a scheme with an authority. -/
theorem wellFormed_readDomain (special : Url.isSpecialScheme scheme = true)
    (h : readDomain text = .ok host) : host.WellFormed scheme := by
  unfold readDomain at h
  split at h
  · next bracketed =>
    subst h
    exact wellFormed_readBracketed? bracketed
  split at h
  · cases h
  next domain read =>
  obtain ⟨decoded, -, ascii⟩ := Option.bind_eq_some_iff.mp read
  split at h
  · cases h
  split at h
  · exact wellFormed_readIpv4 special h
  · next noAddress =>
    cases h
    exact wellFormed_name (fun c member => Domain.isForbidden_of_toAscii? ascii member)
      (by simpa using noAddress)

/-- The host of any other scheme. -/
theorem wellFormed_readText (special : Url.isSpecialScheme scheme = false)
    (h : readText text = .ok host) : host.WellFormed scheme := by
  unfold readText at h
  split at h
  · next bracketed =>
    subst h
    exact wellFormed_readBracketed? bracketed
  split at h
  · cases h
  next allowed =>
  cases h
  have absent {c : Char} (forbidden : isForbidden c = true) : c ∉ text.toList := by
    intro member
    exact allowed (List.any_eq_true.mpr ⟨c, member, forbidden⟩)
  refine ⟨lacks_encode (by decide) fun c mark => .inl (absent ?_), fun first => ?_, fun own => ?_⟩
  · have all : [':', '/', '?', '#', '@'].all isForbidden = true := by decide
    exact List.all_eq_true.mp all c mark
  · exact Percent.not_mem_encode (by decide) (.inl (absent (by decide))) (List.mem_of_mem_head? first)
  · rw [special] at own
    cases own

end Host

end ApiContract
