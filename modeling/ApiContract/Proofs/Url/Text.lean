import ApiContract.Proofs.Url.Host
/-!
# Texts of URLs

A URL is known by its text. That does not hold of every value of the type `Url`, as a part may hold
what marks the beginning of the next one; `Url.WellFormed` says what the parts of a URL are free of.
With this each part is found again in the text: `text_inj`.
-/

namespace ApiContract

open Text

/-- What holds of a segment of a path: nothing in it ends it, and it is not to be resolved. -/
def UrlPath.IsSegment (segment : String) : Prop := Lacks ['/', '?', '#'] segment ∧ segment ≠ "."

/-- What holds of the path of a URL, with a host before it or not. -/
def UrlPath.WellFormed (hosted : Bool) : UrlPath → Prop
  | rooted segments => (∀ segment ∈ segments, IsSegment segment) ∧ (hosted = false → segments ≠ [])
  | rootless s => hosted = false ∧ Lacks ['?', '#'] s ∧ s.toList.head? ≠ some '/'

/-- What holds of every URL that is read: no part holds what marks the end of it. -/
structure Url.WellFormed (url : Url) : Prop where
  scheme : Lacks [':'] url.scheme
  username : Lacks [':', '@', '/', '?', '#'] url.username
  password : Lacks ['@', '/', '?', '#'] url.password
  host : ∀ host ∈ url.host, host.WellFormed url.scheme
  hostless : url.host = none → url.username = "" ∧ url.password = "" ∧ url.port = none
  path : url.path.WellFormed url.host.isSome
  query : ∀ query ∈ url.query, Lacks ['#'] query

namespace Url

theorem toList_marked (mark : Char) (part : Option String) :
    (marked (String.singleton mark) part).toList = markedChars mark (part.map String.toList) := by
  cases part <;> simp [marked, markedChars]

/-- The text of a URL between the scheme and the query. -/
def front (url : Url) : List Char := url.authorityText.toList ++ url.path.text.toList

theorem toList_text (url : Url) : url.text.toList =
    url.scheme.toList ++ ':' :: ((url.front ++ markedChars '?' (url.query.map String.toList)) ++
      markedChars '#' (url.fragment.map String.toList)) := by
  have marks : String.singleton '?' = "?" ∧ String.singleton '#' = "#" := ⟨rfl, rfl⟩
  rw [← toList_marked, ← toList_marked, marks.1, marks.2]
  simp [text, front]

/-- The segments of a rooted path with the slashes before them. -/
def segmentChars (segments : List String) : List Char :=
  segments.flatMap fun segment => '/' :: segment.toList

theorem toList_path (path : UrlPath) : path.text.toList =
    match path with
    | .rooted segments => segmentChars segments
    | .rootless s => s.toList := by
  cases path with
  | rootless s => rfl
  | rooted segments =>
    simp only [UrlPath.text, segmentChars]
    induction segments with
    | nil => rfl
    | cons segment rest ih => simp [String.join_cons, ih]

theorem pieces_segments (front : List Char) (segments : List String) (first : '/' ∉ front)
    (others : ∀ segment ∈ segments, '/' ∉ segment.toList) :
    pieces '/' (front ++ segmentChars segments) = front :: segments.map String.toList :=
  pieces_append_flatMap String.toList segments first others

/-! ### Authorities -/

/-- What a URL with a host writes between the two slashes and the path. -/
def authority (url : Url) (host : Host) : List Char :=
  url.userInfoText.toList ++
    (host.text.toList ++ markedChars ':' (url.port.map (Nat.toDigits 10)))

/-- The user name and the password as they are written. -/
def userInfo (url : Url) : List Char :=
  url.username.toList ++
    markedChars ':' (if url.password = "" then none else some url.password.toList)

theorem toList_userInfoText (url : Url) : url.userInfoText.toList =
    if url.username = "" ∧ url.password = "" then [] else url.userInfo ++ ['@'] := by
  unfold userInfoText userInfo
  by_cases user : url.username = "" <;> by_cases password : url.password = "" <;>
    simp [user, password, markedChars]

variable {url a b : Url} {host : Host}

theorem not_mem_userInfo (h : url.WellFormed) {c : Char} (mark : c ∈ ['@', '/', '?', '#']) :
    c ∉ url.userInfo := by
  have colon : c ≠ ':' := by
    rintro rfl
    revert mark
    decide
  have user : c ∉ url.username.toList := h.username c (List.mem_cons_of_mem _ mark)
  have password : c ∉ url.password.toList := h.password c mark
  unfold userInfo
  split <;> simp [markedChars, user, password, colon]

theorem userInfo_inj (ha : a.WellFormed) (hb : b.WellFormed) (h : a.userInfo = b.userInfo) :
    a.username = b.username ∧ a.password = b.password := by
  obtain ⟨user, password⟩ :=
    append_marked_inj (ha.username ':' (by decide)) (hb.username ':' (by decide)) h
  refine ⟨String.toList_inj.mp user, ?_⟩
  split at password <;> split at password
  · next empty empty' => rw [empty, empty']
  · cases password
  · cases password
  · exact String.toList_inj.mp (Option.some.inj password)

/-- User name and password are found again in front of a text without the sign that follows them. -/
theorem userInfoText_inj {x y : List Char} (ha : a.WellFormed) (hb : b.WellFormed) (hx : '@' ∉ x)
    (hy : '@' ∉ y) (h : a.userInfoText.toList ++ x = b.userInfoText.toList ++ y) :
    (a.username = b.username ∧ a.password = b.password) ∧ x = y := by
  rw [toList_userInfoText, toList_userInfoText] at h
  split at h <;> split at h
  · next none none' => exact ⟨⟨none.1.trans none'.1.symm, none.2.trans none'.2.symm⟩, h⟩
  · rw [List.nil_append] at h
    exact absurd (by simp [h]) hx
  · rw [List.nil_append] at h
    exact absurd (by simp [← h]) hy
  · rw [List.append_assoc, List.append_assoc, List.singleton_append, List.singleton_append] at h
    obtain ⟨info, rest⟩ := append_cons_inj (not_mem_userInfo ha (by decide))
      (not_mem_userInfo hb (by decide)) h
    exact ⟨userInfo_inj ha hb info, rest⟩

theorem authority_inj {other : Host} (ha : a.WellFormed) (hb : b.WellFormed)
    (scheme : a.scheme = b.scheme) (hosted : a.host = some host) (hosted' : b.host = some other)
    (h : a.authority host = b.authority other) :
    (a.username = b.username ∧ a.password = b.password) ∧ host = other ∧ a.port = b.port := by
  have own := ha.host host hosted
  have own' := scheme ▸ hb.host other hosted'
  obtain ⟨info, rest⟩ := userInfoText_inj ha hb (Host.not_mem_text_port own _ (by decide))
    (Host.not_mem_text_port own' _ (by decide)) h
  obtain ⟨same, port⟩ := Host.text_port_inj own own' rest
  refine ⟨info, same, ?_⟩
  exact (Option.map_inj_right fun _ _ => Decimal.toDigits_inj (by decide) (by decide)).mp port

theorem not_mem_authority (h : url.WellFormed) (hosted : url.host = some host) {c : Char}
    (mark : c ∈ ['/', '?', '#']) : c ∉ url.authority host := by
  have mark' : c ∈ ['@', '/', '?', '#'] := List.mem_cons_of_mem _ mark
  have other : c ≠ '@' := by
    rintro rfl
    exact absurd mark (by decide)
  rw [authority, List.mem_append, not_or, toList_userInfoText]
  refine ⟨?_, Host.not_mem_text_port (h.host host hosted) _ (by grind)⟩
  split
  · exact List.not_mem_nil
  · simp [not_mem_userInfo h mark', other]

theorem front_of_hosted {segments : List String} (hosted : url.host = some host)
    (rooted : url.path = .rooted segments) :
    url.front = '/' :: '/' :: (url.authority host ++ segmentChars segments) := by
  have slashes : "//".toList = ['/', '/'] := rfl
  unfold front authorityText authority
  rw [toList_path, rooted, hosted]
  cases url.port with
  | none => simp [markedChars, slashes]
  | some n => simp [markedChars, slashes, Decimal.toList_integerText]

/-! ### Paths -/

/-- The authority, if there is one, and the segments of a rooted path, read off what a URL writes
between the scheme and the query when that is cut at the slashes. A point in front marks a path that
begins as an authority would. -/
def outline : List (List Char) → Option (Option (List Char) × List (List Char))
  | [] :: [] :: authority :: segments => some (some authority, segments)
  | [] :: ['.'] :: segments => some (none, segments)
  | [] :: segment :: segments => some (none, segment :: segments)
  | _ => none

theorem outline_rooted {first : String} {rest : List String} (noDot : first ≠ ".")
    (single : first = "" → rest = []) :
    outline ([] :: first.toList :: rest.map String.toList) =
      some (none, first.toList :: rest.map String.toList) := by
  by_cases empty : first = ""
  · rw [single empty, empty]
    rfl
  · have chars : first.toList ≠ [] := by simpa using empty
    have chars' : first.toList ≠ ['.'] := fun same => noDot (String.toList_inj.mp same)
    unfold outline
    split
    · next same => exact absurd (List.cons.inj (List.cons.inj same).2).1 chars
    · next same => exact absurd (List.cons.inj (List.cons.inj same).2).1 chars'
    · next same =>
      obtain ⟨rfl, rfl⟩ := List.cons.inj (List.cons.inj same).2
      rfl
    · next other => exact absurd rfl (other _ _)

theorem front_of_rootless {s : String} (hostless : url.host = none)
    (rootless : url.path = .rootless s) : url.front = s.toList := by
  simp [front, authorityText, hostless, rootless, UrlPath.text]

theorem outline_rootless {s : String} (start : s.toList.head? ≠ some '/') :
    outline (pieces '/' s.toList) = none := by
  cases chars : s.toList with
  | nil => rfl
  | cons c cs =>
    rw [chars] at start
    rw [pieces, if_neg (by simpa using start)]
    split <;> rfl

/-- What a URL writes between the scheme and the query shows its authority and its segments. -/
theorem outline_front (h : url.WellFormed) : outline (pieces '/' url.front) =
    match url.path with
    | .rooted segments => some (url.host.map url.authority, segments.map String.toList)
    | .rootless _ => none := by
  have own := h.path
  cases path : url.path with
  | rootless s =>
    rw [path] at own
    obtain ⟨hostless, -, start⟩ := own
    have none : url.host = none := by simpa using hostless
    rw [front_of_rootless none path]
    exact outline_rootless start
  | rooted segments =>
    rw [path] at own
    obtain ⟨segmentsFree, nonempty⟩ := own
    have free : ∀ segment ∈ segments, '/' ∉ segment.toList := fun segment member =>
      (segmentsFree segment member).1 '/' (by decide)
    cases hosted : url.host with
    | some host =>
      rw [front_of_hosted hosted path, pieces, if_pos rfl, pieces, if_pos rfl,
        pieces_segments _ segments (not_mem_authority h hosted (by decide)) free]
      rfl
    | none =>
      obtain ⟨first, rest, rfl⟩ := List.exists_cons_of_ne_nil (nonempty (by rw [hosted]; rfl))
      have pathChars := toList_path url.path
      rw [path] at pathChars
      by_cases marked : first = "" ∧ rest ≠ []
      · obtain ⟨rfl, further⟩ := marked
        obtain ⟨second, others, rfl⟩ := List.exists_cons_of_ne_nil further
        have mark : url.authorityText = "/." := by simp [authorityText, hosted, path]
        have chars : "/.".toList = ['/', '.'] := rfl
        rw [front, mark, path, pathChars, chars, List.cons_append, pieces, if_pos rfl]
        simp only []
        rw [pieces_segments _ _ (by decide) free]
        rfl
      · have single : first = "" → rest = [] := fun empty =>
          Decidable.byContradiction fun further => marked ⟨empty, further⟩
        have unmarked : url.authorityText = "" := by
          unfold authorityText
          rw [hosted, path]
          simp only []
          split
          · next x y same =>
            cases same
            cases single rfl
          · rfl
        rw [front, unmarked, path, pathChars]
        rw [String.toList_empty, pieces_segments [] (first :: rest) (by simp) free]
        exact outline_rooted (segmentsFree first List.mem_cons_self).2 single

theorem hostless_inj (ha : a.WellFormed) (hb : b.WellFormed) (hostless : a.host = none)
    (hostless' : b.host = none) :
    (a.username = b.username ∧ a.password = b.password) ∧ a.host = b.host ∧ a.port = b.port := by
  obtain ⟨username, password, port⟩ := ha.hostless hostless
  obtain ⟨username', password', port'⟩ := hb.hostless hostless'
  rw [username, username', password, password', hostless, hostless', port, port']
  exact ⟨⟨rfl, rfl⟩, rfl, rfl⟩

/-- Authority and path are found again in what is written between the scheme and the query. -/
theorem front_inj (ha : a.WellFormed) (hb : b.WellFormed) (scheme : a.scheme = b.scheme)
    (h : a.front = b.front) :
    ((a.username = b.username ∧ a.password = b.password) ∧ a.host = b.host ∧ a.port = b.port) ∧
      a.path = b.path := by
  have same := outline_front ha
  rw [h, outline_front hb] at same
  have own := ha.path
  have own' := hb.path
  cases path : a.path with
  | rootless s =>
    cases path' : b.path with
    | rooted segments => simp [path, path'] at same
    | rootless t =>
      rw [path] at own
      rw [path'] at own'
      have hostless : a.host = none := by simpa using own.1
      have hostless' : b.host = none := by simpa using own'.1
      rw [front_of_rootless hostless path, front_of_rootless hostless' path'] at h
      exact ⟨hostless_inj ha hb hostless hostless', by rw [String.toList_inj.mp h]⟩
  | rooted segments =>
    cases path' : b.path with
    | rootless t => simp [path, path'] at same
    | rooted segments' =>
      simp only [path, path', Option.some.injEq, Prod.mk.injEq] at same
      obtain ⟨authorities, names⟩ := same
      have segmentsSame := (List.map_inj_right fun _ _ => String.toList_inj.mp).mp names
      refine ⟨?_, by rw [segmentsSame]⟩
      cases hosted : a.host with
      | none =>
        cases hosted' : b.host with
        | none => simpa [hosted, hosted'] using hostless_inj ha hb hosted hosted'
        | some other => simp [hosted, hosted'] at authorities
      | some host =>
        cases hosted' : b.host with
        | none => simp [hosted, hosted'] at authorities
        | some other =>
          rw [hosted, hosted'] at authorities
          obtain ⟨info, sameHost, port⟩ :=
            authority_inj ha hb scheme hosted hosted' (Option.some.inj authorities).symm
          exact ⟨info, congrArg some sameHost, port⟩

theorem not_mem_front (h : url.WellFormed) {c : Char} (mark : c ∈ ['?', '#']) :
    c ∉ url.front := by
  have slash : c ≠ '/' := by
    rintro rfl
    exact absurd mark (by decide)
  have dot : c ≠ '.' := by
    rintro rfl
    exact absurd mark (by decide)
  have own := h.path
  have segmentsFree {segments : List String}
      (free : ∀ segment ∈ segments, UrlPath.IsSegment segment) :
      c ∉ segmentChars segments := by
    intro member
    obtain ⟨segment, listed, there⟩ := List.mem_flatMap.mp member
    rcases List.mem_cons.mp there with same | there
    · exact slash same
    · exact (free segment listed).1 c (List.mem_cons_of_mem _ mark) there
  cases hosted : url.host with
  | some host =>
    cases path : url.path with
    | rootless s =>
      rw [path, hosted] at own
      cases own.1
    | rooted segments =>
      rw [path] at own
      rw [front_of_hosted hosted path]
      simp [slash, not_mem_authority h hosted (List.mem_cons_of_mem _ mark), segmentsFree own.1]
  | none =>
    have start : c ∉ url.authorityText.toList := by
      unfold authorityText
      rw [hosted]
      simp only []
      split <;> simp [slash, dot]
    rw [front, List.mem_append, not_or, toList_path]
    refine ⟨start, ?_⟩
    cases path : url.path with
    | rootless s =>
      rw [path] at own
      exact own.2.1 c mark
    | rooted segments =>
      rw [path] at own
      exact segmentsFree own.1

/-- URLs that are written alike are the same. -/
theorem text_inj (ha : a.WellFormed) (hb : b.WellFormed) (h : a.text = b.text) : a = b := by
  have chars := congrArg String.toList h
  rw [toList_text, toList_text] at chars
  obtain ⟨scheme, chars⟩ :=
    append_cons_inj (ha.scheme ':' (by decide)) (hb.scheme ':' (by decide)) chars
  have scheme := String.toList_inj.mp scheme
  have noFragment {url : Url} (h : url.WellFormed) :
      '#' ∉ url.front ++ markedChars '?' (url.query.map String.toList) := by
    rw [List.mem_append, not_or]
    refine ⟨not_mem_front h (by decide), ?_⟩
    cases query : url.query with
    | none => simp [markedChars]
    | some s => simpa [markedChars] using h.query s query '#' (by decide)
  obtain ⟨chars, fragment⟩ := append_marked_inj (noFragment ha) (noFragment hb) chars
  obtain ⟨front, query⟩ :=
    append_marked_inj (not_mem_front ha (by decide)) (not_mem_front hb (by decide)) chars
  obtain ⟨⟨⟨username, password⟩, host, port⟩, path⟩ := front_inj ha hb scheme front
  have inj {p q : Option String} (same : p.map String.toList = q.map String.toList) : p = q :=
    Option.map_inj_right (fun _ _ => String.toList_inj.mp) |>.mp same
  cases a
  cases b
  simp only at scheme host username password port path query fragment
  rw [scheme, host, username, password, port, path, inj query, inj fragment]

end Url

end ApiContract
