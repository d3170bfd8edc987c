import ApiContract.Proofs.Url.Segments
/-!
# The end of a URL

What the query and the fragment of a URL are that is read, alone or relative to another one
(`endsAs_read`): the fragment is what follows the first number sign, and where the text has no question
mark the query is at most that of the base.
-/

namespace ApiContract.Url

open Text

/-- The fragment that a text gives: what follows the first number sign. -/
def fragmentIn (cs : List Char) : Option String :=
  (cutAt? '#' cs).map fun (_, after) => encodeChars encodedInFragment after

/-- A URL ends as a text does. A text without a question mark has no query, but may take over that of
the base. -/
structure EndsAs (base? : Option Url) (cs : List Char) (url : Url) : Prop where
  fragment : url.fragment = fragmentIn cs
  query : '?' ∉ cs → url.query = none ∨ url.query = base?.bind Url.query

theorem fragmentIn_of_not_mem {cs : List Char} (free : '#' ∉ cs) : fragmentIn cs = none := by
  rw [fragmentIn, cutAt?_eq_none_iff.mpr free, Option.map_none]

theorem fragmentIn_append_cons {front : List Char} (free : '#' ∉ front) (rest : List Char) :
    fragmentIn (front ++ '#' :: rest) = some (encodeChars encodedInFragment rest) := by
  rw [fragmentIn, cutAt?_append_cons rest free, Option.map_some]

theorem fragmentIn_cons (rest : List Char) :
    fragmentIn ('#' :: rest) = some (encodeChars encodedInFragment rest) :=
  fragmentIn_append_cons List.not_mem_nil rest

/-- What stands before the number sign does not matter. -/
theorem fragmentIn_append {front : List Char} (free : '#' ∉ front) (rest : List Char) :
    fragmentIn (front ++ rest) = fragmentIn rest := by
  cases cut : cutAt? '#' rest with
  | none =>
    have free' := cutAt?_eq_none_iff.mp cut
    rw [fragmentIn_of_not_mem free', fragmentIn_of_not_mem (by simp [free, free'])]
  | some parts =>
    obtain ⟨rfl, free'⟩ := eq_of_cutAt? cut
    have before : '#' ∉ front ++ parts.1 := by simp [free, free']
    rw [fragmentIn_append_cons free', ← List.append_assoc, fragmentIn_append_cons before]

variable {base? : Option Url} {cs front rest : List Char} {base url : Url} {scheme : String}

namespace EndsAs

theorem after (h : EndsAs base? rest url) (free : '#' ∉ front) :
    EndsAs base? (front ++ rest) url where
  fragment := h.fragment.trans (fragmentIn_append free rest).symm
  query := fun noQuery => h.query fun member => noQuery (List.mem_append_right _ member)

theorem cons {c : Char} (h : EndsAs base? rest url) (other : c ≠ '#') :
    EndsAs base? (c :: rest) url := by
  have free : '#' ∉ [c] := by simpa using other.symm
  exact h.after free

theorem ofFilter {p : Url → Bool} (h : EndsAs (base?.filter p) cs url) : EndsAs base? cs url where
  fragment := h.fragment
  query := fun noQuery => by
    rcases h.query noQuery with none | own
    · exact .inl none
    · cases kept : base?.filter p with
      | none => exact .inl (by rw [own, kept, Option.bind_none])
      | some base => exact .inr (by rw [own, kept, (Option.filter_eq_some_iff.mp kept).1])

end EndsAs

/-! ### Parts -/

/-- What a query or a fragment begins with, if there is either. -/
def IsTail (tail : List Char) : Prop := tail = [] ∨ ∃ c rest, tail = c :: rest ∧ (c = '?' ∨ c = '#')

theorem cut_fromQuery (cs : List Char) :
    cs = beforeQuery cs ++ fromQuery cs ∧ '#' ∉ beforeQuery cs ∧ IsTail (fromQuery cs) := by
  refine ⟨List.takeWhile_append_dropWhile.symm, fun member => ?_, ?_⟩
  · exact absurd (List.mem_takeWhile_imp member) (by decide)
  · cases behind : fromQuery cs with
    | nil => exact .inl rfl
    | cons c rest =>
      have ended := List.head?_dropWhile_not (fun c => !endsPath c) cs
      rw [← fromQuery, behind] at ended
      exact .inr ⟨c, rest, rfl, by simpa [endsPath, or_iff_not_imp_left] using ended⟩

/-- A URL with a query and a fragment ends as the text that gives them. -/
theorem endsAs_withTail_of_isTail (base? : Option Url) (url : Url) {tail : List Char}
    (start : IsTail tail) : EndsAs base? tail (url.withTail tail) := by
  rcases start with rfl | ⟨c, rest, rfl, rfl | rfl⟩
  · exact ⟨rfl, fun _ => .inl rfl⟩
  · refine ⟨?_, fun noQuery => absurd List.mem_cons_self noQuery⟩
    have free : '#' ∉ rest.takeWhile (· != '#') := fun member =>
      absurd (List.mem_takeWhile_imp member) (by decide)
    have apart : fragmentIn ('?' :: rest) = fragmentIn (rest.dropWhile (· != '#')) := by
      rw [← List.singleton_append, fragmentIn_append (by decide),
        ← List.takeWhile_append_dropWhile (p := (· != '#')) (l := rest), fragmentIn_append free,
        List.takeWhile_append_dropWhile]
    rw [apart, withTail]
    cases behind : rest.dropWhile (· != '#') with
    | nil => rfl
    | cons d after =>
      have mark := List.head?_dropWhile_not (· != '#') rest
      rw [behind] at mark
      obtain rfl : d = '#' := by simpa using mark
      exact (fragmentIn_cons after).symm
  · exact ⟨(fragmentIn_cons rest).symm, fun _ => .inl rfl⟩

theorem endsAs_withTail (base? : Option Url) (url : Url) (cs : List Char) :
    EndsAs base? cs (url.withTail (fromQuery cs)) := by
  obtain ⟨whole, free, start⟩ := cut_fromQuery cs
  have ends := (endsAs_withTail_of_isTail base? url start).after free
  rwa [← whole] at ends

theorem endsAs_withFragmentOf (base : Url) (first : cs.head? = some '#') :
    EndsAs (some base) cs (base.withFragmentOf cs) := by
  obtain ⟨rest, rfl⟩ := List.head?_eq_some_iff.mp first
  exact ⟨(fragmentIn_cons rest).symm, fun _ => .inr rfl⟩

theorem endsAs_withoutFragment (base : Url) : EndsAs (some base) [] base.withoutFragment := by
  have parts : base.withoutFragment.fragment = none ∧ base.withoutFragment.query = base.query := by
    unfold withoutFragment
    split <;> exact ⟨rfl, rfl⟩
  exact ⟨parts.1, fun _ => .inr parts.2⟩

/-! ### What is read -/

theorem subset_readPort (scheme : String) (cs : List Char) :
    Reads (readPort scheme cs) fun part => part.2 ⊆ cs := by
  unfold readPort
  split
  · refine .ite (fun _ => .error) fun _ => .ite (fun _ => .error) fun _ => .ok ?_
    exact fun c member => List.mem_cons_of_mem _ ((List.dropWhile_sublist _).subset member)
  · exact .ok (List.Subset.refl _)

theorem subset_readAuthority (scheme : String) (cs : List Char) (ended : Bool) :
    Reads (readAuthority scheme cs ended) fun authority => authority.rest ⊆ cs := by
  have inside : (splitHost false (splitLast '@' cs).2).2 ⊆ cs :=
    fun _ member => splitLast_subset '@' cs ((splitHost_spec false _).1 member)
  unfold readAuthority
  simp only []
  refine .guarded (.guarded (.bindEither (Q := fun _ => True) (fun _ _ _ => trivial)
    (fun _ _ _ => trivial) fun host _ => .guarded ?_))
  exact .bind (subset_readPort scheme _) fun part own =>
    .guarded (.ok fun _ member => inside (own member))

/-- An authority holds no number sign. -/
theorem hash_not_mem_takeWhile (special : Bool) (cs : List Char) :
    '#' ∉ cs.takeWhile fun c => !(isSlash special c || endsPath c) := fun member =>
  absurd (List.mem_takeWhile_imp member) (by simp [endsPath])

theorem endsAs_readAfterSlashes (base? : Option Url) (scheme : String) (cs : List Char) :
    Reads (readAfterSlashes scheme cs) (EndsAs base? cs) := by
  unfold readAfterSlashes
  simp only []
  refine .bind (subset_readAuthority _ _ _) fun authority subset => .ok ?_
  have whole := List.takeWhile_append_dropWhile
    (p := fun c => !(isSlash (isSpecialScheme scheme) c || endsPath c)) (l := cs)
  have free := hash_not_mem_takeWhile (isSpecialScheme scheme) cs
  obtain ⟨fragment, query⟩ := endsAs_withTail base? _ _
  refine ⟨fragment.trans ?_, fun noQuery => query ?_⟩
  · rw [fragmentIn_append fun member => free (subset member), ← fragmentIn_append free, whole]
  · rw [← whole, List.mem_append, not_or] at noQuery
    rw [List.mem_append, not_or]
    exact ⟨fun member => noQuery.1 (subset member), noQuery.2⟩

theorem endsAs_readFileAfterSlashes (base? : Option Url) (cs : List Char) :
    Reads (readFileAfterSlashes cs) (EndsAs base? cs) := by
  unfold readFileAfterSlashes
  simp only []
  have whole := List.takeWhile_append_dropWhile
    (p := fun c => !(isSlash true c || endsPath c)) (l := cs)
  have free := hash_not_mem_takeWhile true cs
  -- The host, if there is one, stands before what is left.
  refine .bindEither (Q := fun part => ∃ front, cs = front ++ part.2 ∧ '#' ∉ front)
    (fun _ => .ok ⟨[], rfl, List.not_mem_nil⟩) (fun _ => ?_) fun part ⟨front, split, free⟩ => .ok ?_
  · exact .map (Q := fun _ => True) (fun _ _ => trivial) fun _ _ => ⟨_, whole.symm, free⟩
  · rw [split]
    exact (endsAs_withTail base? _ _).after free

theorem ne_hash_of_isSlash {special : Bool} {c : Char} (slash : isSlash special c = true) :
    c ≠ '#' := by
  rintro rfl
  revert slash
  simp [isSlash]

theorem endsAs_readFilePath (cs : List Char) : EndsAs base? cs (readFilePath base? cs) := by
  unfold readFilePath
  split
  · exact endsAs_withoutFragment _
  · exact ⟨rfl, fun _ => .inl rfl⟩
  split
  · next c rest slash => exact (endsAs_withTail _ _ rest).cons (ne_hash_of_isSlash slash)
  split
  · split
    · next hash => exact endsAs_withFragmentOf _ (by simp [hash])
    split
    · next question => exact endsAs_withTail_of_isTail _ _ (.inr ⟨_, _, rfl, .inl question⟩)
    split
    · exact endsAs_withTail _ _ _
    · exact endsAs_withTail _ _ _
  · exact endsAs_withTail _ _ _

theorem endsAs_readFile (cs : List Char) : Reads (readFile base? cs) (EndsAs base? cs) := by
  unfold readFile
  split
  · next a b rest =>
    refine .ite (fun slashes => ?_) fun _ => .ok (endsAs_readFilePath _)
    obtain ⟨first, second⟩ := Bool.and_eq_true_iff.mp slashes
    intro url read
    have ends := endsAs_readFileAfterSlashes base? rest url read
    exact (ends.cons (ne_hash_of_isSlash second)).cons (ne_hash_of_isSlash first)
  · exact .ok (endsAs_readFilePath _)

/-- What is read behind slashes ends as the text with them. -/
theorem endsAs_behindSlashes (base? : Option Url) (scheme : String) (cs : List Char) :
    Reads (readAfterSlashes scheme (cs.dropWhile (isSlash true))) (EndsAs base? cs) := by
  have free : '#' ∉ cs.takeWhile (isSlash true) := fun member =>
    ne_hash_of_isSlash (List.mem_takeWhile_imp member) rfl
  intro url read
  have ends := (endsAs_readAfterSlashes base? scheme _ url read).after free
  rwa [List.takeWhile_append_dropWhile] at ends

theorem endsAs_readRelative (base : Url) (cs : List Char) :
    Reads (readRelative base cs) (EndsAs (some base) cs) := by
  unfold readRelative
  split
  · exact .ok (endsAs_withoutFragment base)
  next c rest =>
  refine .ite (fun hash => .ok (endsAs_withFragmentOf base (by simp [hash]))) fun hash => ?_
  refine .ite (fun question => .ok ?_) fun _ => ?_
  · exact endsAs_withTail_of_isTail _ base (.inr ⟨c, rest, rfl, .inl question⟩)
  refine .ite (fun slash => ?_) fun _ => .ok (endsAs_withTail _ _ _)
  split
  · next d after =>
    refine .ite (fun second => .ite (fun _ url read => ?_) fun _ => ?_) fun _ => .ok ?_
    · have ends := endsAs_readAfterSlashes (some base) base.scheme after url read
      exact (ends.cons (ne_hash_of_isSlash second)).cons hash
    · exact endsAs_behindSlashes _ _ _
    · exact (endsAs_withTail _ _ _).cons hash
  · exact .ok ⟨(fragmentIn_of_not_mem (by simpa using Ne.symm hash)).symm, fun _ => .inl rfl⟩

theorem endsAs_readWithScheme (scheme : String) (cs : List Char) :
    Reads (readWithScheme base? scheme cs) (EndsAs base? cs) := by
  unfold readWithScheme
  refine .ite (fun _ url read => ?_) fun _ => .ite (fun _ => ?_) fun _ => ?_
  · exact (endsAs_readFile cs url read).ofFilter
  · simp only []
    split
    · next base own =>
      refine .ite (fun _ url read => ?_) fun _ => endsAs_behindSlashes _ _ _
      have ends := endsAs_readRelative base cs url read
      rw [← own] at ends
      exact ends.ofFilter
    · exact endsAs_behindSlashes _ _ _
  · split
    · next rest =>
      intro url read
      have ends := endsAs_readAfterSlashes base? scheme rest url read
      exact (ends.cons (by decide)).cons (by decide)
    · exact .ok ((endsAs_withTail _ _ _).cons (by decide))
    · exact .ok (endsAs_withTail _ _ _)

/-- What stands before a scheme's rest holds no number sign. -/
theorem cut_splitScheme (h : splitScheme cs = some (scheme, rest)) :
    ∃ front, cs = front ++ rest ∧ '#' ∉ front := by
  simp only [splitScheme] at h
  split at h
  · next after behind =>
    split at h
    · cases h
      have inside : '#' ∉ cs.takeWhile isSchemeChar := fun member =>
        absurd (List.mem_takeWhile_imp member) (by decide)
      refine ⟨cs.takeWhile isSchemeChar ++ [':'], ?_, by simpa using inside⟩
      have behind : cs.dropWhile isSchemeChar = ':' :: rest := behind
      rw [List.append_assoc, List.singleton_append, ← behind, List.takeWhile_append_dropWhile]
    · cases h
  · cases h

/-- A URL that is read ends as the text that it is read from, but for what reading disregards. -/
theorem endsAs_read (base? : Option Url) (text : String) :
    Reads (read base? text) (EndsAs base? (clean text)) := by
  unfold read
  simp only []
  split
  · next scheme rest front =>
    intro url read
    obtain ⟨before, whole, free⟩ := cut_splitScheme front
    rw [whole]
    exact (endsAs_readWithScheme scheme rest url read).after free
  split
  · exact .error
  · next base =>
    refine .ite (fun hash => .ok (endsAs_withFragmentOf base hash)) fun _ => ?_
    refine .ite (fun _ => .error) fun _ => .ite (fun _ => endsAs_readFile _) fun _ => ?_
    exact endsAs_readRelative base _

theorem mem_of_mem_clean {text : String} {c : Char} (h : c ∈ clean text) : c ∈ text.toList := by
  have kept := (List.mem_filter.mp h).1
  have kept := (List.dropWhile_sublist _).subset (List.mem_reverse.mp kept)
  exact (List.dropWhile_sublist _).subset (List.mem_reverse.mp kept)

/-- A text without a question mark has no query. -/
theorem query_of_parse {text : String} (h : parse text = .ok url) (noQuery : '?' ∉ text.toList) :
    url.query = none := by
  have ends := endsAs_read none text url h
  rcases ends.query fun member => noQuery (mem_of_mem_clean member) with none | none
  · exact none
  · exact none

/-- Nothing but the characters that a fragment does not admit is changed by reading it. -/
theorem fragment_of_join {reference : String} (h : base.join reference = .ok url) :
    url.fragment = fragmentIn (clean reference) :=
  (endsAs_read (some base) reference url h).fragment

/-! ### References within a document -/

theorem dropTrailingSpaces_idem (s : String) :
    dropTrailingSpaces (dropTrailingSpaces s) = dropTrailingSpaces s := by
  simp [dropTrailingSpaces, List.dropWhile_idempotent]

theorem withoutFragment_withFragmentOf (base : Url) (cs : List Char) :
    (base.withoutFragment.withFragmentOf cs).withoutFragment = base.withoutFragment := by
  obtain ⟨scheme, username, password, host, port, path, query, fragment⟩ := base
  cases path with
  | rooted segments => rfl
  | rootless s => cases query <;> simp [withoutFragment, withFragmentOf, dropTrailingSpaces_idem]

theorem splitScheme_of_hash {cs : List Char} (first : cs.head? = some '#') :
    splitScheme cs = none := by
  obtain ⟨rest, rfl⟩ := List.head?_eq_some_iff.mp first
  rfl

/-- A reference that begins with a number sign means the document that it stands in. -/
theorem exists_join_of_hash (base : Url) {reference : String}
    (first : (clean reference).head? = some '#') :
    ∃ absolute, base.withoutFragment.join reference = .ok absolute ∧
      absolute.withoutFragment = base.withoutFragment := by
  refine ⟨_, ?_, withoutFragment_withFragmentOf base (clean reference)⟩
  simp only [join, read, splitScheme_of_hash first, first, if_true]

end ApiContract.Url
