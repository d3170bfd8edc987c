import ApiContract.Proofs.Url.Segments
/-!
# A path behind a URL

What a URL means whose text is that of another one, without the slashes at its end, with more
segments behind it (`path_of_extended`): the segments of the one, then the others, as they are read.
-/

namespace ApiContract.Url

open Text

/-! ### Plain URLs -/

/-- Whether a character means nothing in a URL but itself. -/
def isUnreserved (c : Char) : Bool := c.isAlphanum || c = '-' || c = '.' || c = '_' || c = '~'

theorem ascii_of_isUnreserved {c : Char} (h : isUnreserved c = true) : c.toNat < 128 := by
  simp only [isUnreserved, Bool.or_eq_true, decide_eq_true_eq] at h
  rcases h with (((alphanum | rfl) | rfl) | rfl) | rfl
  · exact ascii_of_isAlphanum alphanum
  all_goals decide

theorem isPathChar_of_isUnreserved {c : Char} (h : isUnreserved c = true) :
    isPathChar c = true ∧ c ≠ ':' ∧ c ≠ '|' := by
  have each := forall_ascii (fun c => !isUnreserved c || (isPathChar c && c != ':' && c != '|'))
    (by decide +kernel) (ascii_of_isUnreserved h)
  simpa [h, and_assoc] using each

/-- A URL without query, fragment and segments to be resolved, which consists of characters that mean
only themselves, but for the marks between its parts. -/
structure IsPlain (url : Url) : Prop where
  query : url.query = none
  fragment : url.fragment = none
  rooted : url.isRootless = false
  /-- No dot marks a path that begins as an authority would. -/
  unmarked : url.authorityText ≠ "/."
  authority : ∀ host ∈ url.host, ∀ c ∈ url.authority host,
    isUnreserved c = true ∨ c ∈ [':', '@', '[', ']']
  segments : ∀ s ∈ url.segments, isDots s = false ∧ ∀ c ∈ s.toList, isUnreserved c = true

/-- The segments of a path, without the empty ones at its end. -/
def stem (url : Url) : List String := url.segments.rdropWhile fun s => decide (s = "")

/-- What stands between the scheme and the path where the path goes on behind the URL. Slashes with
nothing behind them are dropped. -/
def lead (url : Url) : List Char :=
  match url.host with
  | some host =>
    if url.stem = [] ∧ url.authority host = [] then [] else '/' :: '/' :: url.authority host
  | none => []

/-- The first of some segments begins a path: it is not taken for a host where none stands before the
path, and for no drive where the path is that of a file. -/
def Leads (url : Url) (segments : List String) : Prop :=
  (url.lead = [] → segments.head? ≠ some "") ∧ (url.scheme = "file" → LeadsFile segments)

instance (url : Url) : DecidablePred url.Leads := fun _ => inferInstanceAs (Decidable (_ ∧ _))

variable {base url : Url} {segments more : List String} {scheme : String}

theorem IsPlain.path_eq (h : base.IsPlain) : base.path = .rooted base.segments := by
  have rooted := h.rooted
  unfold isRootless at rooted
  unfold Url.segments
  cases path : base.path with
  | rooted segments => rfl
  | rootless s => simp [path] at rooted

theorem mem_of_mem_stem {s : String} (h : s ∈ base.stem) : s ∈ base.segments :=
  (List.rdropWhile_prefix _ _).subset h

theorem IsPlain.stem (h : base.IsPlain) : Plain base.stem := by
  intro s member c own
  exact (isPathChar_of_isUnreserved ((h.segments s (mem_of_mem_stem member)).2 c own)).1

theorem IsPlain.not_mem_authority (h : base.IsPlain) {host : Host} (hosted : base.host = some host) :
    ∀ c ∈ base.authority host, 0x20 < c.toNat ∧ c ∉ ['/', '\\', '?', '#'] := by
  intro c member
  rcases h.authority host hosted c member with own | mark
  · exact ne_of_isPathChar (isPathChar_of_isUnreserved own).1
  · have all : ∀ c ∈ [':', '@', '[', ']'], 0x20 < c.toNat ∧ c ∉ ['/', '\\', '?', '#'] :=
      List.forall_iff_forall_mem.mp (by decide)
    exact all c mark

/-! ### The slashes at the end -/

theorem segmentChars_append (segments more : List String) :
    segmentChars (segments ++ more) = segmentChars segments ++ segmentChars more := List.flatMap_append

/-- Of a path that is written the slashes at the end are those of empty segments. -/
theorem rdropWhile_segmentChars (front : List Char) (free : ∀ s ∈ segments, '/' ∉ s.toList) :
    (front ++ segmentChars segments).rdropWhile (fun c => decide (c = '/')) =
      if segments.rdropWhile (fun s => decide (s = "")) = [] then
        front.rdropWhile fun c => decide (c = '/')
      else front ++ segmentChars (segments.rdropWhile fun s => decide (s = "")) := by
  induction segments using List.reverseRecOn with
  | nil => simp [segmentChars]
  | append_singleton others last ih =>
    by_cases empty : last = ""
    · have shorter := ih fun s member => free s (List.mem_append_left _ member)
      rw [List.rdropWhile_concat_pos _ _ _ (by simp [empty]), segmentChars_append, ← List.append_assoc,
        ← shorter, empty]
      exact List.rdropWhile_concat_pos _ _ _ rfl
    · -- The last character stands in the last segment, and is no slash.
      obtain ⟨init, c, chars⟩ := List.eq_nil_or_concat last.toList |>.resolve_left (by simpa using empty)
      have inside : c ∈ last.toList := by simp [chars]
      have noSlash : c ≠ '/' := by
        rintro rfl
        exact free last (by simp) inside
      have ends : front ++ segmentChars (others ++ [last]) =
          (front ++ segmentChars others ++ '/' :: init) ++ [c] := by
        simp [segmentChars, chars]
      rw [List.rdropWhile_concat_neg _ _ _ (by simpa using empty), if_neg (by simp), ends]
      exact List.rdropWhile_concat_neg _ _ _ (by simpa using noSlash)

/-! ### Reading what is put together -/

theorem clean_eq {text : String} (visible : ∀ c ∈ text.toList, 0x20 < c.toNat) :
    clean text = text.toList := by
  have edge : ∀ c ∈ text.toList, ¬ (decide (c.toNat ≤ 0x20)) = true := by
    intro c member
    have := visible c member
    simpa using this
  have front : text.toList.dropWhile (fun c => decide (c.toNat ≤ 0x20)) = text.toList := by
    rw [List.dropWhile_eq_self_iff]
    intro nonempty
    exact edge _ (List.getElem_mem _)
  have back : text.toList.reverse.dropWhile (fun c => decide (c.toNat ≤ 0x20)) =
      text.toList.reverse := by
    rw [List.dropWhile_eq_self_iff]
    intro nonempty
    exact edge _ (List.mem_reverse.mp (List.getElem_mem _))
  simp only [clean, front, back, List.reverse_reverse]
  refine List.filter_eq_self.mpr fun c member => ?_
  have own := visible c member
  have tab : c ≠ '\t' := by
    rintro rfl
    revert own
    decide
  have newline : c ≠ '\n' := by
    rintro rfl
    revert own
    decide
  have back : c ≠ '\r' := by
    rintro rfl
    revert own
    decide
  simp [tab, newline, back]

/-- Reading a text with a scheme at its front. -/
theorem parse_scheme {text : String} {rest : List Char} (own : IsScheme scheme)
    (chars : text.toList = scheme.toList ++ ':' :: rest)
    (visible : ∀ c ∈ text.toList, 0x20 < c.toNat) :
    parse text = readWithScheme none scheme rest := by
  simp only [parse, read, clean_eq visible, chars, splitScheme_append own]

/-- The host of a file's URL, which is its whole authority, names no drive: it holds no colon, or
begins with a bracket. -/
theorem isDrive_authority (good : base.WellFormed) (schemed : base.Schemed) (plain : base.IsPlain)
    (file : base.scheme = "file") {host : Host} (hosted : base.host = some host) :
    isDrive (String.ofList (base.authority host)) = false := by
  obtain ⟨-, username, password, port⟩ := schemed.file file
  have whole : base.authority host = host.text.toList := by
    simp [authority, toList_userInfoText, username, password, port, markedChars]
  have bar : '|' ∉ base.authority host := by
    intro member
    rcases plain.authority host hosted '|' member with own | mark
    · exact (isPathChar_of_isUnreserved own).2.2 rfl
    · exact absurd mark (by decide)
  rw [whole] at bar
  unfold isDrive
  rw [whole, String.toList_ofList]
  split
  · next a b chars =>
    rw [chars] at bar
    have noBar : b ≠ '|' := fun same => bar (by simp [same])
    have colon : b = ':' → a.isAlpha = false := by
      rintro rfl
      by_cases brackets : ∃ pieces, host = .ipv6 pieces
      · obtain ⟨pieces, rfl⟩ := brackets
        have first := Host.toList_text_ipv6 pieces []
        rw [List.append_nil, chars] at first
        rw [(List.cons.inj first).1]
        decide
      · have free := (Host.plain_of_wellFormed (good.host host hosted) (not_exists.mp brackets)).1
        rw [chars] at free
        simp at free
    by_cases same : b = ':'
    · simp [colon same]
    · simp [same, noBar]
  · rfl

theorem readWithScheme_file (cs : List Char) :
    readWithScheme none "file" ('/' :: '/' :: cs) = readFileAfterSlashes cs := by
  rw [readWithScheme, if_pos rfl, Option.filter_none, readFile, if_pos (by decide)]

theorem text_ne_nil {host : Host} (named : host ≠ .name "") : host.text.toList ≠ [] := by
  cases host with
  | name s =>
    intro empty
    exact named (congrArg Host.name (String.toList_eq_nil_iff.mp empty))
  | ipv4 address =>
    rw [Host.text, Host.toList_ipv4Text]
    simp [Host.octets, joined]
  | ipv6 pieces =>
    have brackets := Host.toList_text_ipv6 pieces []
    rw [List.append_nil] at brackets
    rw [brackets]
    simp

theorem authority_ne_nil {host : Host} (named : host ≠ .name "") : base.authority host ≠ [] := by
  have := text_ne_nil named
  simp [authority, this]

/-- What the text of a URL with a host means, with any segments behind the authority. -/
theorem reads_path_hosted (good : base.WellFormed) (schemed : base.Schemed) (plain : base.IsPlain)
    {host : Host} (hosted : base.host = some host) (chars : Plain segments)
    (nonempty : segments ≠ []) :
    Reads (readWithScheme none base.scheme
        ('/' :: '/' :: (base.authority host ++ segmentChars segments))) fun url =>
      url.path = .rooted (extendPath base.scheme [] (segmentText segments)) := by
  have free : ∀ c ∈ base.authority host, c ∉ ['/', '\\', '?', '#'] :=
    fun c member => (plain.not_mem_authority hosted c member).2
  by_cases file : base.scheme = "file"
  · have noDrive := isDrive_authority good schemed plain file hosted
    rw [file, readWithScheme_file]
    exact reads_path_readFileAfterSlashes free noDrive chars nonempty
  · unfold readWithScheme
    rw [if_neg file]
    by_cases special : isSpecialScheme base.scheme = true
    · -- The slashes before the authority are skipped, and it begins with none.
      rw [if_pos special]
      obtain ⟨other, own, named⟩ := schemed.hosted special file
      obtain rfl : host = other := Option.some.inj (hosted.symm.trans own)
      have skipped : ('/' :: '/' :: (base.authority host ++ segmentChars segments)).dropWhile
          (isSlash true) = base.authority host ++ segmentChars segments := by
        obtain ⟨first, others, begins⟩ := List.exists_cons_of_ne_nil (authority_ne_nil named)
        have mark := free first (by rw [begins]; exact List.mem_cons_self)
        simp only [List.mem_cons, List.not_mem_nil, or_false, not_or] at mark
        rw [begins]
        simp [isSlash, mark.1, mark.2.1]
      simp only [skipped, Option.filter_none]
      exact reads_path_readAfterSlashes base.scheme free chars nonempty
    · rw [if_neg special]
      exact reads_path_readAfterSlashes base.scheme free chars nonempty

/-- A file without an authority: its path begins with a single slash. -/
theorem reads_path_readFile {cs : List Char} (single : cs.head? ≠ some '/') (free : '\\' ∉ cs) :
    Reads (readFile none ('/' :: cs)) fun url =>
      url.path = .rooted (extendPath "file" [] (beforeQuery cs)) := by
  have start : fileStart none cs = (.name "", []) := by
    unfold fileStart
    split <;> rfl
  have rooted : (readFilePath none ('/' :: cs)).path =
      .rooted (extendPath "file" [] (beforeQuery cs)) := by
    simp only [readFilePath, start]
    rw [if_pos (by decide), path_withTail, path_fileUrl]
  cases cs with
  | nil => exact .ok rooted
  | cons b others =>
    have slash : b ≠ '/' := fun slash => single (by simp [slash])
    have backslash : b ≠ '\\' := fun backslash => free (by simp [backslash])
    have solid : isSlash true b = false := by simp [isSlash, slash, backslash]
    simp only [readFile, solid, Bool.and_false]
    exact .ok rooted

/-- What a scheme and a path mean alone. -/
theorem reads_path_hostless (noHost : isSpecialScheme scheme = true → scheme = "file")
    (chars : Plain segments) (nonempty : segments ≠ []) (named : segments.head? ≠ some "") :
    Reads (readWithScheme none scheme (segmentChars segments)) fun url =>
      url.path = .rooted (extendPath scheme [] (segmentText segments)) := by
  have own := (chars.beforeQuery_eq nonempty).2
  have single : (segmentText segments).head? ≠ some '/' := by
    -- No second slash follows the first: the first segment is not empty.
    obtain ⟨first, rest, rfl⟩ := List.exists_cons_of_ne_nil nonempty
    intro slash
    obtain ⟨others, same⟩ := List.head?_eq_some_iff.mp slash
    exact chars.segmentText_ne (fun empty => named (by simp [empty])) others same
  rw [segmentChars_eq nonempty]
  unfold readWithScheme
  by_cases file : scheme = "file"
  · have read := reads_path_readFile single (chars.not_mem_segmentText (by decide))
    rw [own] at read
    rw [if_pos file, Option.filter_none, file]
    exact read
  · rw [if_neg file, if_neg fun special => file (noHost special)]
    split
    · next others same =>
      rw [(List.cons.inj same).2] at single
      exact absurd rfl single
    · next others _ same =>
      obtain rfl := (List.cons.inj same).2
      refine .ok ?_
      rw [path_withTail, own]
    · next other => exact absurd rfl (other _)

/-! ### A URL with more behind it -/

/-- A plain URL is written as its scheme and what stands between the scheme and a query. -/
theorem IsPlain.toList_text (h : base.IsPlain) :
    base.text.toList = base.scheme.toList ++ ':' :: base.front := by
  simp [Url.toList_text, h.query, h.fragment, markedChars]

theorem Schemed.visible (h : base.Schemed) : ∀ c ∈ base.scheme.toList, 0x20 < c.toNat := by
  intro c member
  have own := (h.scheme.chars c member).1
  have each := forall_ascii (fun c => !isSchemeChar c || decide (0x20 < c.toNat))
    (by decide +kernel) (ascii_of_isSchemeChar own)
  simpa [own] using each

theorem Plain.visible (h : Plain segments) : ∀ c ∈ segmentChars segments, 0x20 < c.toNat := by
  intro c member
  obtain ⟨s, listed, own⟩ := List.mem_flatMap.mp member
  rcases List.mem_cons.mp own with rfl | own
  · decide
  · exact (ne_of_isPathChar (h s listed c own)).1

theorem Plain.append (h : Plain segments) (further : Plain more) : Plain (segments ++ more) :=
  List.forall_mem_append.mpr ⟨h, further⟩

/-- The text of a URL without the slashes at its end, where it goes on behind them. -/
def bare (url : Url) : List Char := url.text.toList.rdropWhile fun c => decide (c = '/')

theorem IsPlain.slash_not_mem (h : base.IsPlain) : ∀ s ∈ base.segments, '/' ∉ s.toList := by
  intro s member slash
  have own := (h.segments s member).2 '/' slash
  revert own
  decide

theorem IsPlain.rdropWhile_eq (h : base.IsPlain) (front : List Char) :
    (front ++ segmentChars base.segments).rdropWhile (fun c => decide (c = '/')) =
      if base.stem = [] then front.rdropWhile fun c => decide (c = '/')
      else front ++ segmentChars base.stem :=
  rdropWhile_segmentChars front h.slash_not_mem

theorem IsPlain.lead_visible (h : base.IsPlain) : ∀ c ∈ base.lead, 0x20 < c.toNat := by
  unfold lead
  split
  · next host hosted =>
    split
    · simp
    · have own := fun c member => (h.not_mem_authority hosted c member).1
      simpa using own
  · simp

/-- The slashes before an authority are at the end where it is empty. -/
theorem IsPlain.rdropWhile_authority (h : base.IsPlain) {host : Host}
    (hosted : base.host = some host) :
    (base.scheme.toList ++ ':' :: '/' :: '/' :: base.authority host).rdropWhile
        (fun c => decide (c = '/')) =
      base.scheme.toList ++ ':' ::
        if base.authority host = [] then [] else '/' :: '/' :: base.authority host := by
  rcases List.eq_nil_or_concat (base.authority host) with none | ⟨init, c, ends⟩
  · have slashes : base.scheme.toList ++ ':' :: '/' :: '/' :: base.authority host =
        (base.scheme.toList ++ [':']) ++ ['/'] ++ ['/'] := by simp [none]
    rw [slashes, List.rdropWhile_concat_pos _ _ _ (by decide),
      List.rdropWhile_concat_pos _ _ _ (by decide), List.rdropWhile_concat_neg _ _ _ (by decide),
      if_pos none]
  · have solid : c ≠ '/' := by
      rintro rfl
      exact (h.not_mem_authority hosted '/' (by simp [ends])).2 (by decide)
    have last : base.scheme.toList ++ ':' :: '/' :: '/' :: base.authority host =
        (base.scheme.toList ++ ':' :: '/' :: '/' :: init) ++ [c] := by simp [ends]
    rw [if_neg (by simp [ends]), last, List.rdropWhile_concat_neg _ _ _ (by simpa using solid)]

theorem IsPlain.front_of_hostless (h : base.IsPlain) (hostless : base.host = none) :
    base.front = segmentChars base.segments := by
  have unmarked : base.authorityText = "" := by
    have other := h.unmarked
    unfold authorityText at other ⊢
    simp only [hostless] at other ⊢
    split at other
    · exact absurd rfl other
    · rfl
  rw [front, unmarked, Url.toList_path, h.path_eq]
  simp

/-- The slashes at the end are those of empty segments, and those before the path where nothing stands
between. -/
theorem IsPlain.bare_eq (h : base.IsPlain) :
    base.bare = base.scheme.toList ++ ':' :: (base.lead ++ segmentChars base.stem) := by
  rw [bare, h.toList_text]
  cases hosted : base.host with
  | some host =>
    have written : base.scheme.toList ++ ':' :: base.front =
        (base.scheme.toList ++ ':' :: '/' :: '/' :: base.authority host) ++
          segmentChars base.segments := by
      rw [front_of_hosted hosted h.path_eq]
      simp
    rw [written, h.rdropWhile_eq, h.rdropWhile_authority hosted]
    by_cases pathless : base.stem = []
    · simp [pathless, lead, hosted, segmentChars]
    · simp [pathless, lead, hosted]
  | none =>
    have written : base.scheme.toList ++ ':' :: base.front =
        (base.scheme.toList ++ [':']) ++ segmentChars base.segments := by
      rw [h.front_of_hostless hosted]
      simp
    rw [written, h.rdropWhile_eq, List.rdropWhile_concat_neg _ _ _ (by decide)]
    by_cases pathless : base.stem = []
    · simp [pathless, lead, hosted, segmentChars]
    · simp [pathless, lead, hosted]

/-- What a plain URL's text means with any segments for its own. -/
theorem reads_path_lead (good : base.WellFormed) (schemed : base.Schemed) (plain : base.IsPlain)
    (chars : Plain segments) (nonempty : segments ≠ []) (leads : base.Leads segments) :
    Reads (readWithScheme none base.scheme (base.lead ++ segmentChars segments)) fun url =>
      url.path = .rooted (extendPath base.scheme [] (segmentText segments)) := by
  by_cases alone : base.lead = []
  · have noHost : isSpecialScheme base.scheme = true → base.scheme = "file" := by
      intro special
      by_contra file
      obtain ⟨host, hosted, named⟩ := schemed.hosted special file
      simp [lead, hosted, authority_ne_nil named] at alone
    rw [alone, List.nil_append]
    exact reads_path_hostless noHost chars nonempty (leads.1 alone)
  · cases hosted : base.host with
    | none => simp [lead, hosted] at alone
    | some host =>
      have front : base.lead = '/' :: '/' :: base.authority host := by
        simp only [lead, hosted] at alone ⊢
        split
        · next none => exact absurd (if_pos none) alone
        · rfl
      rw [front]
      exact reads_path_hosted good schemed plain hosted chars nonempty

/-- With segments behind it a plain URL means the segments of its own path and these, as they are
read. -/
theorem path_of_extended (good : base.WellFormed) (schemed : base.Schemed) (plain : base.IsPlain)
    (leads : base.Leads (base.stem ++ more)) (chars : Plain more) (nonempty : more ≠ [])
    {text : String} (extended : text.toList = base.bare ++ segmentChars more)
    (h : parse text = .ok url) :
    url.path = .rooted (extendPath base.scheme [] (segmentText (base.stem ++ more))) := by
  have all : Plain (base.stem ++ more) := plain.stem.append chars
  have written : text.toList =
      base.scheme.toList ++ ':' :: (base.lead ++ segmentChars (base.stem ++ more)) := by
    rw [extended, plain.bare_eq, segmentChars_append]
    simp
  have visible : ∀ c ∈ text.toList, 0x20 < c.toNat := by
    rw [written]
    refine List.forall_mem_append.mpr ⟨schemed.visible, List.forall_mem_cons.mpr ⟨by decide, ?_⟩⟩
    exact List.forall_mem_append.mpr ⟨plain.lead_visible, all.visible⟩
  rw [parse_scheme schemed.scheme written visible] at h
  exact reads_path_lead good schemed plain all (by simp [nonempty]) leads url h

/-- A URL with segments behind it has its own segments and these, exactly if none of them is to be
resolved. -/
theorem path_of_extended_iff (good : base.WellFormed) (schemed : base.Schemed)
    (plain : base.IsPlain) (leads : base.Leads (base.stem ++ more)) (chars : Plain more)
    (nonempty : more ≠ []) {text : String} (extended : text.toList = base.bare ++ segmentChars more)
    (h : parse text = .ok url) :
    url.path = .rooted (base.stem ++ more) ↔ ∀ s ∈ more, isDots s = false := by
  have own : ∀ s ∈ base.stem, isDots s = false := fun s member =>
    (plain.segments s (mem_of_mem_stem member)).1
  rw [path_of_extended good schemed plain leads chars nonempty extended h, UrlPath.rooted.injEq,
    extendPath_segmentText_iff (plain.stem.append chars) (by simp [nonempty]) leads.2,
    List.forall_mem_append]
  exact and_iff_right own

end ApiContract.Url
