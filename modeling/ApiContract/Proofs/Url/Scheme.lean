import ApiContract.Proofs.Url.Reading
import Mathlib.Data.List.Basic
/-!
# What a scheme says of a URL

A scheme that is read begins with a letter, and is found again in front of a colon
(`splitScheme_append`). A URL whose scheme has an authority has a host, and the authority of a file's
URL is nothing but the host (`Schemed`); so it is with every URL that is read (`schemed_of_join`).
-/

namespace ApiContract.Url

open Text

/-! ### Schemes -/

/-- What holds of each ASCII character in turn. -/
theorem forall_ascii (p : Char → Bool) (all : ∀ n < 128, p (Char.ofNat n) = true) {c : Char}
    (ascii : c.toNat < 128) : p c = true := by
  have own := all c.toNat ascii
  rwa [Char.ofNat_toNat] at own

/-- Whether a character may stand in a scheme. -/
def isSchemeChar (c : Char) : Bool := c.isAlphanum || c = '+' || c = '-' || c = '.'

theorem ascii_of_isAlphanum {c : Char} (h : c.isAlphanum = true) : c.toNat < 128 := by
  delta Char.isAlphanum Char.isAlpha Char.isUpper Char.isLower Char.isDigit at h
  simp only [Bool.or_eq_true, Bool.and_eq_true, decide_eq_true_eq, ge_iff_le,
    UInt32.le_iff_toNat_le] at h
  have codes : 'Z'.val.toNat = 90 ∧ 'z'.val.toNat = 122 ∧ '9'.val.toNat = 57 := by decide
  show c.val.toNat < 128
  omega

theorem ascii_of_isSchemeChar {c : Char} (h : isSchemeChar c = true) : c.toNat < 128 := by
  simp only [isSchemeChar, Bool.or_eq_true, decide_eq_true_eq] at h
  rcases h with ((alphanum | rfl) | rfl) | rfl
  · exact ascii_of_isAlphanum alphanum
  all_goals decide

/-- A character of a scheme is written small: it is one still, and a letter if it was one. -/
theorem isSchemeChar_toLower {c : Char} (h : isSchemeChar c = true) :
    isSchemeChar c.toLower = true ∧ c.toLower.toLower = c.toLower ∧
      c.toLower.isAlpha = c.isAlpha := by
  have each := forall_ascii (fun c => !isSchemeChar c || (isSchemeChar c.toLower &&
    c.toLower.toLower == c.toLower && c.toLower.isAlpha == c.isAlpha)) (by decide +kernel)
    (ascii_of_isSchemeChar h)
  simpa [h, and_assoc] using each

/-- What holds of a scheme that is read: it begins with a letter, and its letters are small. -/
structure IsScheme (scheme : String) : Prop where
  first : (scheme.toList.head?.map Char.isAlpha).getD false = true
  chars : ∀ c ∈ scheme.toList, isSchemeChar c = true ∧ c.toLower = c

theorem isScheme_of_splitScheme {cs rest : List Char} {scheme : String}
    (h : splitScheme cs = some (scheme, rest)) : IsScheme scheme := by
  simp only [splitScheme] at h
  split at h
  · split at h
    · next first =>
      cases h
      have inside : ∀ c ∈ cs.takeWhile isSchemeChar, isSchemeChar c = true :=
        fun c member => List.mem_takeWhile_imp member
      refine ⟨?_, fun c member => ?_⟩
      · rw [String.toList_ofList, List.head?_map, Option.map_map]
        cases cs with
        | nil => cases first
        | cons c others =>
          have letter : c.isAlpha = true := first
          have own : isSchemeChar c = true := by simp [isSchemeChar, Char.isAlphanum, letter]
          have step : (c :: others).takeWhile isSchemeChar = c :: others.takeWhile isSchemeChar :=
            List.takeWhile_cons_of_pos own
          change ((((c :: others).takeWhile isSchemeChar).head?).map _).getD false = true
          rw [step]
          exact (isSchemeChar_toLower own).2.2.trans letter
      · rw [String.toList_ofList] at member
        obtain ⟨d, listed, rfl⟩ := List.mem_map.mp member
        obtain ⟨still, small, -⟩ := isSchemeChar_toLower (inside d listed)
        exact ⟨still, small⟩
    · cases h
  · cases h

/-- A scheme is found again in front of the first colon. -/
theorem splitScheme_append {scheme : String} (h : IsScheme scheme) (rest : List Char) :
    splitScheme (scheme.toList ++ ':' :: rest) = some (scheme, rest) := by
  have inside : ∀ c ∈ scheme.toList, isSchemeChar c = true := fun c member => (h.chars c member).1
  have before : (scheme.toList ++ ':' :: rest).takeWhile isSchemeChar = scheme.toList := by
    rw [List.takeWhile_append_of_pos inside, List.takeWhile_cons_of_neg (by decide), List.append_nil]
  have behind : (scheme.toList ++ ':' :: rest).dropWhile isSchemeChar = ':' :: rest := by
    rw [List.dropWhile_append_of_pos inside, List.dropWhile_cons_of_neg (by decide)]
  have small : scheme.toList.map Char.toLower = scheme.toList :=
    (List.map_congr_left fun c member => (h.chars c member).2).trans (List.map_id _)
  have first : ((scheme.toList ++ ':' :: rest).head?.map Char.isAlpha).getD false = true := by
    have own := h.first
    cases chars : scheme.toList with
    | nil =>
      rw [chars] at own
      cases own
    | cons c others =>
      rw [chars] at own
      exact own
  have written : String.ofList (((scheme.toList ++ ':' :: rest).takeWhile isSchemeChar).map
      Char.toLower) = scheme := by rw [before, small, String.ofList_toList]
  unfold splitScheme
  dsimp only
  split
  · next others same =>
    obtain rfl := (List.cons.inj (behind.symm.trans same)).2
    exact (if_pos first).trans (congrArg (fun own => some (own, _)) written)
  · next none => exact absurd behind (none rest)

/-! ### What is read -/

/-- What holds of every URL that is read, by its scheme. -/
structure Schemed (url : Url) : Prop where
  scheme : IsScheme url.scheme
  hosted : isSpecialScheme url.scheme = true → url.scheme ≠ "file" →
    ∃ host, url.host = some host ∧ host ≠ .name ""
  file : url.scheme = "file" →
    url.host.isSome = true ∧ url.username = "" ∧ url.password = "" ∧ url.port = none

variable {url base : Url} {scheme : String} {path : List String}

/-- Scheme and authority decide. -/
theorem Schemed.congr {other : Url} (h : base.Schemed) (scheme : other.scheme = base.scheme)
    (host : other.host = base.host) (username : other.username = base.username)
    (password : other.password = base.password) (port : other.port = base.port) :
    other.Schemed := by
  refine ⟨scheme ▸ h.scheme, fun special noFile => ?_, fun file => ?_⟩
  · rw [host]
    exact h.hosted (scheme ▸ special) (scheme ▸ noFile)
  · rw [host, username, password, port]
    exact h.file (scheme ▸ file)

theorem schemed_withTail (h : url.Schemed) (tail : List Char) : (url.withTail tail).Schemed := by
  unfold withTail
  split <;> exact h.congr rfl rfl rfl rfl rfl

theorem schemed_withFragmentOf (h : base.Schemed) (cs : List Char) :
    (base.withFragmentOf cs).Schemed := h.congr rfl rfl rfl rfl rfl

theorem schemed_withoutFragment (h : url.Schemed) : url.withoutFragment.Schemed := by
  unfold withoutFragment
  split <;> exact h.congr rfl rfl rfl rfl rfl

theorem schemed_withPath (h : base.Schemed) (path : UrlPath) :
    { base with path := path : Url }.Schemed := h.congr rfl rfl rfl rfl rfl

theorem schemed_hostless (own : IsScheme scheme) (plain : isSpecialScheme scheme = false)
    (path : UrlPath) : (⟨scheme, "", "", none, none, path, none, none⟩ : Url).Schemed := by
  have other : scheme ≠ "file" := by
    rintro rfl
    exact absurd plain (by decide)
  refine ⟨own, fun special _ => ?_, fun file => absurd file other⟩
  rw [plain] at special
  cases special

theorem ne_of_readBracketed? {text : String} {host : Host}
    (h : Host.readBracketed? text = some (.ok host)) : host ≠ .name "" := by
  unfold Host.readBracketed? at h
  split at h
  · split at h
    · have read := Option.some.inj h
      simp only [Host.readIpv6] at read
      split at read <;> cases read
      simp
    · cases h
  · cases h

/-- The host of a scheme with an authority is not empty. -/
theorem ne_of_readDomain {text : String} {host : Host} (h : Host.readDomain text = .ok host) :
    host ≠ .name "" := by
  unfold Host.readDomain at h
  split at h
  · next bracketed =>
    subst h
    exact ne_of_readBracketed? bracketed
  split at h
  · cases h
  next domain _ =>
  split at h
  · cases h
  next nonempty =>
  split at h
  · simp only [Host.readIpv4] at h
    generalize (if (Domain.labels domain.toList).getLast? = some [] then
      (Domain.labels domain.toList).dropLast else Domain.labels domain.toList) = parts at h
    split at h
    · cases h
    · split at h <;> cases h
      simp
  · cases h
    simpa using nonempty

theorem reads_host_readAuthority (special : isSpecialScheme scheme = true) (cs : List Char)
    (ended : Bool) : Reads (readAuthority scheme cs ended) fun authority =>
      authority.host ≠ .name "" := by
  unfold readAuthority
  simp only []
  refine .guarded (.guarded (.bindEither (Q := fun host => host ≠ .name "")
    (fun _ host read => ne_of_readDomain read) (fun other => absurd special other)
    fun host own => .guarded (.after fun _ => .guarded (.ok own))))

theorem schemed_readAfterSlashes (own : IsScheme scheme) (noFile : scheme ≠ "file")
    (cs : List Char) : Reads (readAfterSlashes scheme cs) Schemed := by
  unfold readAfterSlashes
  by_cases special : isSpecialScheme scheme = true
  · refine .bind (reads_host_readAuthority special _ _) fun authority host => .ok ?_
    refine schemed_withTail ⟨own, fun _ _ => ⟨_, rfl, host⟩, fun file => absurd file noFile⟩ _
  · refine .after fun authority => .ok (schemed_withTail ⟨own, fun other _ => ?_, ?_⟩ _)
    · exact absurd other special
    · exact fun file => absurd file noFile

theorem isScheme_file : IsScheme "file" := ⟨by decide, List.forall_iff_forall_mem.mp (by decide)⟩

theorem schemed_fileUrl (host : Host) (path : List String) : (fileUrl host path).Schemed :=
  ⟨isScheme_file, fun _ noFile => absurd rfl noFile, fun _ => ⟨rfl, rfl, rfl, rfl⟩⟩

theorem schemed_readFileAfterSlashes (cs : List Char) :
    Reads (readFileAfterSlashes cs) Schemed := by
  unfold readFileAfterSlashes
  simp only []
  exact .bindEither (Q := fun _ => True) (fun _ _ _ => trivial) (fun _ _ _ => trivial)
    fun part _ => .ok (schemed_withTail (schemed_fileUrl _ _) _)

theorem schemed_readFile {base? : Option Url} (bases : ∀ base ∈ base?, base.Schemed)
    (cs : List Char) : Reads (readFile base? cs) Schemed := by
  have absolute (host : Host) (path : List String) (tail : List Char) :
      ((fileUrl host path).withTail tail).Schemed := schemed_withTail (schemed_fileUrl host path) tail
  have relative : (readFilePath base? cs).Schemed := by
    unfold readFilePath
    split
    · next base => exact schemed_withoutFragment (bases base rfl)
    · exact schemed_fileUrl _ _
    split
    · exact absolute _ _ _
    split
    · next base =>
      have good := bases base rfl
      split
      · exact schemed_withFragmentOf good _
      split
      · exact schemed_withTail good _
      split
      · exact absolute _ _ _
      · exact schemed_withTail (schemed_withPath good _) _
    · exact absolute _ _ _
  unfold readFile
  split
  · exact .ite (fun _ => schemed_readFileAfterSlashes _) fun _ => .ok relative
  · exact .ok relative

theorem schemed_readRelative (h : base.Schemed) (noFile : base.scheme ≠ "file") (cs : List Char) :
    Reads (readRelative base cs) Schemed := by
  have moved (path : UrlPath) (tail : List Char) :
      ({ base with path := path : Url }.withTail tail).Schemed :=
    schemed_withTail (schemed_withPath h path) tail
  unfold readRelative
  split
  · exact .ok (schemed_withoutFragment h)
  refine .ite (fun _ => .ok (schemed_withFragmentOf h _)) fun _ => ?_
  refine .ite (fun _ => .ok (schemed_withTail h _)) fun _ => ?_
  refine .ite (fun _ => ?_) fun _ => .ok (moved _ _)
  split
  · refine .ite (fun _ => .ite ?_ ?_) fun _ => .ok (moved _ _)
    · exact fun _ => schemed_readAfterSlashes h.scheme noFile _
    · exact fun _ => schemed_readAfterSlashes h.scheme noFile _
  · exact .ok (moved _ _)

theorem schemed_readWithScheme {base? : Option Url} (bases : ∀ base ∈ base?, base.Schemed)
    (own : IsScheme scheme) (cs : List Char) : Reads (readWithScheme base? scheme cs) Schemed := by
  unfold readWithScheme
  refine .ite (fun _ => schemed_readFile (fun base isBase => ?_) cs) fun noFile => ?_
  · exact bases base (Option.filter_eq_some_iff.mp isBase).1
  refine .ite (fun special => ?_) fun plain => ?_
  · simp only []
    split
    · next base same =>
      obtain ⟨isBase, equal⟩ := Option.filter_eq_some_iff.mp same
      have equal : base.scheme = scheme := by simpa using equal
      refine .ite (fun _ => ?_) fun _ => schemed_readAfterSlashes own noFile _
      exact schemed_readRelative (bases base isBase) (equal ▸ noFile) cs
    · exact schemed_readAfterSlashes own noFile _
  · have plain : isSpecialScheme scheme = false := by simpa using plain
    split
    · exact schemed_readAfterSlashes own noFile _
    · exact .ok (schemed_withTail (schemed_hostless own plain _) _)
    · exact .ok (schemed_withTail (schemed_hostless own plain _) _)

theorem schemed_read {base? : Option Url} (bases : ∀ base ∈ base?, base.Schemed) (text : String) :
    Reads (read base? text) Schemed := by
  unfold read
  simp only []
  split
  · next scheme rest front =>
    exact schemed_readWithScheme bases (isScheme_of_splitScheme front) rest
  split
  · exact .error
  · next base =>
    have good := bases base rfl
    refine .ite (fun _ => .ok (schemed_withFragmentOf good _)) fun _ => ?_
    refine .ite (fun _ => .error) fun _ => .ite (fun _ => ?_) fun noFile => ?_
    · exact schemed_readFile bases _
    · exact schemed_readRelative good noFile _

theorem schemed_of_parse {text : String} (h : parse text = .ok url) : url.Schemed :=
  schemed_read (by simp) text url h

theorem schemed_of_join {reference : String} (good : base.Schemed)
    (h : base.join reference = .ok url) : url.Schemed :=
  schemed_read (fun _ own => Option.some.inj own ▸ good) reference url h

end ApiContract.Url
