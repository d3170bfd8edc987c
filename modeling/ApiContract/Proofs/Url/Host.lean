import ApiContract.Proofs.Decimal.Digits
import ApiContract.Proofs.Text.Pieces
import ApiContract.Url.Host
/-!
# Texts of hosts

A host and a port are found again in what they write together (`text_port_inj`): a name holds no
colon and is not one that is read as an address, the four numbers of an address stand between points,
and of the eight pieces of an address those that are left out are zeros, and as many as are missing.
-/

namespace ApiContract

open Text

namespace Host

/-- What holds of the host of a URL with a given scheme. -/
def WellFormed (scheme : String) : Host → Prop
  | name s => Lacks [':', '/', '?', '#', '@'] s ∧ s.toList.head? ≠ some '[' ∧
      (Url.isSpecialScheme scheme = true → endsInNumber s = false)
  | ipv4 address => Url.isSpecialScheme scheme = true ∧ address < 0x100000000
  | ipv6 pieces => pieces.length = 8

theorem labels_eq_pieces (cs : List Char) : Domain.labels cs = pieces '.' cs := by
  induction cs with
  | nil => rfl
  | cons c rest ih =>
    by_cases dot : c = '.'
    · simp [Domain.labels, pieces, dot, ih]
    · cases others : pieces '.' rest <;> simp [Domain.labels, pieces, dot, ih, others]

/-! ### Addresses of four numbers -/

/-- The numbers of an address. -/
def octets (address : Nat) : List Nat :=
  [address / 16777216 % 256, address / 65536 % 256, address / 256 % 256, address % 256]

theorem toList_ipv4Text (address : Nat) :
    (ipv4Text address).toList = joined '.' ((octets address).map (Nat.toDigits 10)) := by
  have dots : "." = String.singleton '.' := rfl
  rw [ipv4Text, dots, toList_intercalate]
  simp only [octets, List.map_cons, List.map_nil, Decimal.toList_integerText, Nat.div_one]

theorem isDigit_of_mem_octets {address : Nat} {digits : List Char}
    (h : digits ∈ (octets address).map (Nat.toDigits 10)) : ∀ c ∈ digits, c.isDigit = true := by
  obtain ⟨n, -, rfl⟩ := List.mem_map.mp h
  exact fun c member => Nat.isDigit_of_mem_toDigits (by decide) (by decide) member

theorem dot_not_mem_octets {address : Nat} {digits : List Char}
    (h : digits ∈ (octets address).map (Nat.toDigits 10)) : '.' ∉ digits :=
  fun member => absurd (isDigit_of_mem_octets h '.' member) (by decide)

theorem ipv4Text_inj {a b : Nat} (ha : a < 0x100000000) (hb : b < 0x100000000)
    (h : ipv4Text a = ipv4Text b) : a = b := by
  have chars := congrArg String.toList h
  rw [toList_ipv4Text, toList_ipv4Text] at chars
  have same := joined_inj (by simp [octets]) (by simp [octets]) (fun _ => dot_not_mem_octets)
    (fun _ => dot_not_mem_octets) chars
  have numbers := (List.map_inj_right fun _ _ => Decimal.toDigits_inj (by decide) (by decide)).mp same
  simp only [octets, List.cons.injEq, and_true] at numbers
  omega

theorem endsInNumber_ipv4Text (address : Nat) : endsInNumber (ipv4Text address) = true := by
  unfold endsInNumber
  rw [toList_ipv4Text, labels_eq_pieces, pieces_joined '.' _ (by simp [octets])
    (fun _ => dot_not_mem_octets)]
  have last : Nat.toDigits 10 (address % 256) ∈ (octets address).map (Nat.toDigits 10) := by
    simp [octets]
  have digits := isDigit_of_mem_octets last
  have nonempty : Nat.toDigits 10 (address % 256) ≠ [] := Nat.toDigits_ne_nil
  simp only [octets, List.map_cons, List.map_nil, List.reverse_cons, List.reverse_nil,
    List.nil_append, List.cons_append]
  split
  · next empty => exact absurd (List.cons.inj empty).1 nonempty
  · next empty => exact absurd (List.cons.inj empty).1 nonempty
  · next label _ _ _ same =>
    obtain ⟨rfl, -⟩ := List.cons.inj same
    simpa using Or.inl digits
  · next empty => cases empty

/-! ### Addresses of eight pieces -/

theorem zeroRun_spec (pieces : List Nat) :
    pieces = List.replicate (zeroRun pieces) 0 ++ pieces.drop (zeroRun pieces) := by
  induction pieces with
  | nil => rfl
  | cons piece rest ih =>
    cases piece with
    | zero =>
      rw [zeroRun, List.replicate_succ, List.drop_succ_cons, List.cons_append, ← ih]
    | succ n => simp [zeroRun]

/-- The longest run of zeros consists of zeros, and begins where it is said to. -/
theorem longestZeroRun_spec (position : Nat) (pieces : List Nat) :
    (0 < (longestZeroRun position pieces).2 → position ≤ (longestZeroRun position pieces).1) ∧
      pieces = pieces.take ((longestZeroRun position pieces).1 - position) ++
        (List.replicate (longestZeroRun position pieces).2 0 ++
          pieces.drop ((longestZeroRun position pieces).1 - position +
            (longestZeroRun position pieces).2)) := by
  induction pieces generalizing position with
  | nil => simp [longestZeroRun]
  | cons piece rest ih =>
    obtain ⟨later, split⟩ := ih (position + 1)
    rw [longestZeroRun]
    by_cases longest : (longestZeroRun (position + 1) rest).2 ≤ zeroRun (piece :: rest)
    · simpa [longest] using zeroRun_spec (piece :: rest)
    · rw [if_neg longest]
      have beyond := later (by omega)
      refine ⟨fun _ => by omega, ?_⟩
      obtain ⟨offset, found⟩ := Nat.exists_eq_add_of_le beyond
      rw [found] at split ⊢
      rw [show position + 1 + offset - (position + 1) = offset by omega] at split
      rw [show position + 1 + offset - position = offset + 1 by omega, List.take_succ_cons,
        show offset + 1 + (longestZeroRun (position + 1) rest).2 =
          offset + (longestZeroRun (position + 1) rest).2 + 1 by omega,
        List.drop_succ_cons, List.cons_append, ← split]

/-- The hexadecimal digits of pieces. -/
def hexadecimal (pieces : List Nat) : List (List Char) := pieces.map (Nat.toDigits 16)

theorem hexadecimal_inj {a b : List Nat} (h : hexadecimal a = hexadecimal b) : a = b :=
  (List.map_inj_right fun _ _ => Decimal.toDigits_inj (by decide) (by decide)).mp h

theorem not_mem_hexadecimal {pieces : List Nat} {digits : List Char} {mark : Char}
    (h : digits ∈ hexadecimal pieces) (other : ∀ d < 16, mark ≠ d.digitChar) : mark ∉ digits := by
  obtain ⟨n, -, rfl⟩ := List.mem_map.mp h
  intro member
  obtain ⟨d, small, same⟩ := Decimal.exists_of_mem_toDigits (by decide) member
  exact other d small same

theorem colon_not_mem_hexadecimal {pieces : List Nat} {digits : List Char}
    (h : digits ∈ hexadecimal pieces) : ':' ∉ digits := not_mem_hexadecimal h (by decide)

theorem nil_not_mem_hexadecimal (pieces : List Nat) : [] ∉ hexadecimal pieces := by
  intro member
  obtain ⟨n, -, empty⟩ := List.mem_map.mp member
  exact Nat.toDigits_ne_nil empty

theorem joinedPieces_hexadecimal_inj {a b : List Nat}
    (h : joinedPieces (hexadecimal a) = joinedPieces (hexadecimal b)) : a = b := by
  unfold joinedPieces at h
  split at h <;> split at h
  · next empty empty' => exact hexadecimal_inj (empty.trans empty'.symm)
  · exact absurd (h ▸ List.mem_singleton.mpr rfl) (nil_not_mem_hexadecimal b)
  · exact absurd (h ▸ List.mem_singleton.mpr rfl) (nil_not_mem_hexadecimal a)
  · exact hexadecimal_inj h

theorem joinedPieces_append_inj {a b c d : List Nat}
    (h : joinedPieces (hexadecimal a) ++ [] :: joinedPieces (hexadecimal b) =
      joinedPieces (hexadecimal c) ++ [] :: joinedPieces (hexadecimal d)) : a = c ∧ b = d := by
  have first {x : List Nat} {y z : List (List Char)} (other : hexadecimal x ≠ []) :
      hexadecimal x ++ y ≠ [] :: z := by
    intro same
    obtain ⟨digits, rest, split⟩ := List.exists_cons_of_ne_nil other
    rw [split] at same
    obtain ⟨rfl, -⟩ := List.cons.inj same
    exact nil_not_mem_hexadecimal x (split ▸ List.mem_cons_self)
  by_cases emptyA : hexadecimal a = [] <;> by_cases emptyC : hexadecimal c = []
  · rw [emptyA, emptyC, joinedPieces_nil] at h
    exact ⟨hexadecimal_inj (emptyA.trans emptyC.symm),
      joinedPieces_hexadecimal_inj (List.cons.inj (List.cons.inj h).2).2⟩
  · rw [emptyA, joinedPieces_nil, joinedPieces_of_ne_nil emptyC] at h
    exact absurd h.symm (first emptyC)
  · rw [emptyC, joinedPieces_nil, joinedPieces_of_ne_nil emptyA] at h
    exact absurd h (first emptyA)
  · rw [joinedPieces_of_ne_nil emptyA, joinedPieces_of_ne_nil emptyC] at h
    obtain ⟨before, after⟩ :=
      append_cons_inj (nil_not_mem_hexadecimal a) (nil_not_mem_hexadecimal c) h
    exact ⟨hexadecimal_inj before, joinedPieces_hexadecimal_inj after⟩

theorem toList_piecesText (pieces : List Nat) :
    (piecesText pieces).toList = joined ':' (hexadecimal pieces) := by
  have colon : ":" = String.singleton ':' := rfl
  rw [piecesText, colon, toList_intercalate]
  simp [hexadecimal, Function.comp_def]

/-- The pieces of the text of an address: each number has its digits, or those around a gap have
theirs. -/
theorem pieces_ipv6Text {address : List Nat} (nonempty : address ≠ []) :
    pieces ':' (ipv6Text address).toList = hexadecimal address ∨
      ∃ before zeros after, address = before ++ (List.replicate zeros 0 ++ after) ∧
        pieces ':' (ipv6Text address).toList =
          joinedPieces (hexadecimal before) ++ [] :: joinedPieces (hexadecimal after) := by
  unfold ipv6Text
  obtain ⟨-, split⟩ := longestZeroRun_spec 0 address
  generalize longestZeroRun 0 address = run at split
  obtain ⟨position, length⟩ := run
  simp only []
  split
  · left
    rw [toList_piecesText]
    exact pieces_joined ':' _ (by simpa [hexadecimal] using nonempty)
      fun _ => colon_not_mem_hexadecimal
  · right
    refine ⟨_, _, _, split, ?_⟩
    simp only [String.toList_append, toList_piecesText, Nat.sub_zero, List.append_assoc]
    have gap : "::".toList = [':', ':'] := rfl
    rw [gap, List.cons_append, List.singleton_append,
      pieces_joined_append fun _ => colon_not_mem_hexadecimal, pieces, if_pos rfl,
      pieces_joined_eq fun _ => colon_not_mem_hexadecimal]

theorem ipv6Text_inj {a b : List Nat} (ha : a.length = 8) (hb : b.length = 8)
    (h : ipv6Text a = ipv6Text b) : a = b := by
  have same : pieces ':' (ipv6Text a).toList = pieces ':' (ipv6Text b).toList := by rw [h]
  have gapless {x y z : List Nat} : hexadecimal x ≠
      joinedPieces (hexadecimal y) ++ [] :: joinedPieces (hexadecimal z) := by
    intro equal
    exact nil_not_mem_hexadecimal x (equal ▸ by simp)
  have nonempty {x : List Nat} (length : x.length = 8) : x ≠ [] := by
    rintro rfl
    cases length
  rcases pieces_ipv6Text (nonempty ha) with whole | ⟨before, zeros, after, split, parts⟩ <;>
    rcases pieces_ipv6Text (nonempty hb) with
      whole' | ⟨before', zeros', after', split', parts'⟩
  · exact hexadecimal_inj (whole.symm.trans (same.trans whole'))
  · exact absurd (whole.symm.trans (same.trans parts')) gapless
  · exact absurd (whole'.symm.trans (same.symm.trans parts)) gapless
  · obtain ⟨rfl, rfl⟩ := joinedPieces_append_inj (parts.symm.trans (same.trans parts'))
    subst split split'
    simp only [List.length_append, List.length_replicate] at ha hb
    rw [show zeros = zeros' by omega]

/-! ### Hosts -/

variable {scheme : String} {a b : Host}

theorem mem_toList_ipv4Text {address : Nat} {c : Char} (h : c ∈ (ipv4Text address).toList) :
    c = '.' ∨ c.isDigit = true := by
  rw [toList_ipv4Text] at h
  rcases eq_or_mem_of_mem_joined h with dot | ⟨digits, member, own⟩
  · exact .inl dot
  · exact .inr (isDigit_of_mem_octets member c own)

theorem mem_toList_piecesText {pieces : List Nat} {c : Char} (h : c ∈ (piecesText pieces).toList) :
    c = ':' ∨ ∃ d < 16, c = d.digitChar := by
  rw [toList_piecesText] at h
  rcases eq_or_mem_of_mem_joined h with colon | ⟨digits, member, own⟩
  · exact .inl colon
  · obtain ⟨n, -, rfl⟩ := List.mem_map.mp member
    exact .inr (Decimal.exists_of_mem_toDigits (by decide) own)

theorem mem_toList_ipv6Text {address : List Nat} {c : Char} (h : c ∈ (ipv6Text address).toList) :
    c = ':' ∨ ∃ d < 16, c = d.digitChar := by
  unfold ipv6Text at h
  simp only [] at h
  split at h
  · exact mem_toList_piecesText h
  · simp only [String.toList_append, List.mem_append] at h
    rcases h with (before | gap) | after
    · exact mem_toList_piecesText before
    · exact .inl (by simpa using gap)
    · exact mem_toList_piecesText after

theorem not_mem_toList_ipv6Text (address : List Nat) {c : Char} (colon : c ≠ ':')
    (digit : ∀ d < 16, c ≠ d.digitChar) : c ∉ (ipv6Text address).toList := by
  intro member
  rcases mem_toList_ipv6Text member with same | ⟨d, small, same⟩
  · exact colon same
  · exact digit d small same

/-- Hosts that are no addresses in brackets are free of colons and brackets. -/
theorem plain_of_wellFormed (h : a.WellFormed scheme) (noBrackets : ∀ pieces, a ≠ ipv6 pieces) :
    ':' ∉ a.text.toList ∧ a.text.toList.head? ≠ some '[' := by
  cases a with
  | name s => exact ⟨h.1 ':' (by decide), h.2.1⟩
  | ipv4 address =>
    refine ⟨fun member => ?_, fun first => ?_⟩
    · exact absurd (mem_toList_ipv4Text member) (by decide)
    · exact absurd (mem_toList_ipv4Text (List.mem_of_mem_head? first)) (by decide)
  | ipv6 pieces => exact absurd rfl (noBrackets pieces)

theorem text_inj (ha : a.WellFormed scheme) (hb : b.WellFormed scheme)
    (noBrackets : ∀ pieces, a ≠ ipv6 pieces) (noBrackets' : ∀ pieces, b ≠ ipv6 pieces)
    (h : a.text = b.text) : a = b := by
  cases a with
  | ipv6 pieces => exact absurd rfl (noBrackets pieces)
  | name s =>
    cases b with
    | ipv6 pieces => exact absurd rfl (noBrackets' pieces)
    | name t => exact congrArg name h
    | ipv4 address =>
      -- A name that could be taken for an address is one where addresses are not told from names.
      have := ha.2.2 hb.1
      rw [show s = ipv4Text address from h, endsInNumber_ipv4Text] at this
      cases this
  | ipv4 address =>
    cases b with
    | ipv6 pieces => exact absurd rfl (noBrackets' pieces)
    | name t =>
      have := hb.2.2 ha.1
      rw [show t = ipv4Text address from h.symm, endsInNumber_ipv4Text] at this
      cases this
    | ipv4 other => exact congrArg ipv4 (ipv4Text_inj ha.2 hb.2 h)

theorem toList_text_ipv6 (address : List Nat) (rest : List Char) :
    (ipv6 address).text.toList ++ rest = '[' :: ((ipv6Text address).toList ++ ']' :: rest) := by
  simp [text]

/-- What ends an authority or one of its parts is no character of an address. -/
theorem not_in_address {c : Char} (mark : c ∈ ['/', '?', '#', '@']) :
    c.isDigit = false ∧ c ∉ ['.', ':', '[', ']'] ∧ ∀ d < 16, c ≠ d.digitChar := by
  simp only [List.mem_cons, List.not_mem_nil, or_false] at mark
  rcases mark with rfl | rfl | rfl | rfl <;> decide

theorem not_mem_text (h : a.WellFormed scheme) {c : Char} (mark : c ∈ ['/', '?', '#', '@']) :
    c ∉ a.text.toList := by
  obtain ⟨digit, others, hexadecimal⟩ := not_in_address mark
  simp only [List.mem_cons, List.not_mem_nil, or_false, not_or] at others
  obtain ⟨dot, colon, opening, closing⟩ := others
  cases a with
  | name s => exact h.1 c (List.mem_cons_of_mem _ mark)
  | ipv4 address =>
    intro member
    rcases mem_toList_ipv4Text member with same | same
    · exact dot same
    · rw [digit] at same
      cases same
  | ipv6 address =>
    rw [← List.append_nil (ipv6 address).text.toList, toList_text_ipv6]
    simp [not_mem_toList_ipv6Text address colon hexadecimal, opening, closing]

/-- A host and a port do not hold what ends an authority. -/
theorem not_mem_text_port (h : a.WellFormed scheme) (port : Option Nat) {c : Char}
    (mark : c ∈ ['/', '?', '#', '@']) :
    c ∉ a.text.toList ++ markedChars ':' (port.map (Nat.toDigits 10)) := by
  obtain ⟨digit, others, -⟩ := not_in_address mark
  rw [List.mem_append, not_or]
  refine ⟨not_mem_text h mark, ?_⟩
  cases port with
  | none => exact List.not_mem_nil
  | some n =>
    intro member
    rcases List.mem_cons.mp member with rfl | member
    · exact others (by decide)
    · rw [Nat.isDigit_of_mem_toDigits (by decide) (by decide) member] at digit
      cases digit

theorem head?_plain (rest : Option (List Char)) (h : a.text.toList.head? ≠ some '[') :
    (a.text.toList ++ markedChars ':' rest).head? ≠ some '[' := by
  cases own : a.text.toList with
  | cons c cs => simpa [own] using h
  | nil => cases rest <;> simp [markedChars]

/-- A host and a port are found again in what they write together. -/
theorem text_port_inj {p q : Option (List Char)} (ha : a.WellFormed scheme)
    (hb : b.WellFormed scheme)
    (h : a.text.toList ++ markedChars ':' p = b.text.toList ++ markedChars ':' q) :
    a = b ∧ p = q := by
  by_cases brackets : ∃ pieces, a = ipv6 pieces <;> by_cases brackets' : ∃ pieces, b = ipv6 pieces
  · obtain ⟨address, rfl⟩ := brackets
    obtain ⟨other, rfl⟩ := brackets'
    rw [toList_text_ipv6, toList_text_ipv6] at h
    have free (address : List Nat) : ']' ∉ (ipv6Text address).toList :=
      not_mem_toList_ipv6Text address (by decide) (by decide)
    obtain ⟨same, rest⟩ := append_cons_inj (free address) (free other) (List.cons.inj h).2
    refine ⟨congrArg ipv6 (ipv6Text_inj ha hb (String.toList_inj.mp same)), ?_⟩
    exact (append_marked_inj List.not_mem_nil List.not_mem_nil rest).2
  · obtain ⟨address, rfl⟩ := brackets
    have plain := plain_of_wellFormed hb fun pieces same => brackets' ⟨pieces, same⟩
    refine absurd ?_ (head?_plain q plain.2)
    rw [← h, toList_text_ipv6]
    rfl
  · obtain ⟨other, rfl⟩ := brackets'
    have plain := plain_of_wellFormed ha fun pieces same => brackets ⟨pieces, same⟩
    refine absurd ?_ (head?_plain p plain.2)
    rw [h, toList_text_ipv6]
    rfl
  · have none : ∀ pieces, a ≠ ipv6 pieces := fun pieces same => brackets ⟨pieces, same⟩
    have none' : ∀ pieces, b ≠ ipv6 pieces := fun pieces same => brackets' ⟨pieces, same⟩
    obtain ⟨same, ports⟩ :=
      append_marked_inj (plain_of_wellFormed ha none).1 (plain_of_wellFormed hb none').1 h
    exact ⟨text_inj ha hb none none' (String.toList_inj.mp same), ports⟩

end Host

end ApiContract
