import ApiContract.Proofs.Url.Scheme
import Mathlib.Data.List.DropRight
/-!
# Segments found again

A path that is written is read again segment by segment, except for segments that mean the one they
stand in or the one above: these are resolved, and no path that is read has any
(`extendPath_segmentText_iff`). All that is needed for that are characters that stand for themselves.
-/

namespace ApiContract.Url

open Text

/-! ### Segments that are resolved -/

/-- Whether a segment means the one that it stands in or the one above. -/
def isDots (segment : String) : Bool := doubleDots.contains segment || singleDots.contains segment

variable {file : Bool} {path pieces segments : List String} {piece segment scheme : String}

theorem isDots_empty : isDots "" = false := by decide

theorem mem_of_mem_shorten (h : segment ∈ shorten file path) : segment ∈ path := by
  unfold shorten at h
  split at h
  · exact h
  · exact (List.dropLast_sublist path).subset h

theorem isDots_drive (drive : isDrive piece = true) :
    isDots (String.ofList (piece.toList.take 1 ++ [':'])) = false := by
  unfold isDrive at drive
  split at drive
  · next a b chars =>
    rw [chars]
    have colon : ':' ∈ (String.ofList ([a, b].take 1 ++ [':'])).toList := by simp
    have free : ∀ spelling ∈ doubleDots ++ singleDots, ':' ∉ spelling.toList := by decide
    generalize String.ofList ([a, b].take 1 ++ [':']) = named at colon
    have other : named ∉ doubleDots ++ singleDots := fun member => free _ member colon
    simpa [isDots] using other
  · cases drive

/-- Whatever a segment is, reading it adds none that is to be resolved. -/
theorem mem_addSegment {last : Bool} (h : segment ∈ addSegment file path piece last) :
    segment ∈ path ∨ isDots segment = false := by
  have added {front : List String} {own : String} (kept : ∀ s ∈ front, s ∈ path)
      (resolved : isDots own = false) (member : segment ∈ front ++ [own]) :
      segment ∈ path ∨ isDots segment = false := by
    rcases List.mem_append.mp member with before | now
    · exact .inl (kept segment before)
    · rw [List.mem_singleton.mp now]
      exact .inr resolved
  unfold addSegment at h
  split at h
  · split at h
    · exact added (fun _ => mem_of_mem_shorten) isDots_empty h
    · exact .inl (mem_of_mem_shorten h)
  split at h
  · split at h
    · exact added (fun _ => id) isDots_empty h
    · exact .inl h
  split at h
  · next drive => exact added (fun _ => id) (isDots_drive (Bool.and_eq_true_iff.mp drive).2) h
  · next above same _ =>
    refine added (fun _ => id) ?_ h
    exact Bool.or_eq_false_iff.mpr ⟨Bool.eq_false_iff.mpr above, Bool.eq_false_iff.mpr same⟩

theorem mem_addSegments (h : segment ∈ addSegments file path pieces) :
    segment ∈ path ∨ isDots segment = false := by
  induction path, pieces using addSegments.induct file with
  | case1 path => exact .inl h
  | case2 path piece => exact mem_addSegment h
  | case3 path piece rest more ih =>
    rw [addSegments] at h
    · rcases ih h with before | resolved
      · exact mem_addSegment before
      · exact .inr resolved
    · exact more

/-- A segment that is not to be resolved is added as it is, unless a drive begins the path. -/
theorem addSegment_eq (plain : isDots piece = false)
    (noDrive : file = true → path = [] → isDrive piece = false) (last : Bool) :
    addSegment file path piece last = path ++ [piece] := by
  obtain ⟨above, same⟩ := Bool.or_eq_false_iff.mp plain
  unfold addSegment
  rw [if_neg (Bool.eq_false_iff.mp above), if_neg (Bool.eq_false_iff.mp same)]
  refine if_neg fun drive => ?_
  simp only [Bool.and_eq_true, List.isEmpty_iff] at drive
  obtain ⟨⟨isFile, empty⟩, drive⟩ := drive
  rw [noDrive isFile empty] at drive
  cases drive

theorem addSegments_eq (plain : ∀ piece ∈ pieces, isDots piece = false)
    (noDrive : file = true → path = [] → ∀ piece ∈ pieces.head?, isDrive piece = false) :
    addSegments file path pieces = path ++ pieces := by
  induction path, pieces using addSegments.induct file with
  | case1 path => simp [addSegments]
  | case2 path piece =>
    exact addSegment_eq (plain piece (by simp)) (fun isFile empty => noDrive isFile empty _ rfl) true
  | case3 path piece rest more ih =>
    obtain ⟨own, plain⟩ := List.forall_mem_cons.mp plain
    have step := addSegment_eq own (fun isFile empty => noDrive isFile empty _ rfl) false
    rw [addSegments]
    · rw [step] at ih ⊢
      rw [ih plain (by simp), List.append_assoc, List.singleton_append]
    · exact more

/-! ### Characters that stand for themselves -/

/-- Whether a character of a path stands for itself, wherever it is. -/
def isPathChar (c : Char) : Bool :=
  c.toNat < 0x80 && !encodedInPath c.toNat && c != '/' && c != '\\'

theorem encode_eq_self {inSet : Nat → Bool} {cs : List Char}
    (plain : ∀ c ∈ cs, c.toNat < 0x80 ∧ inSet c.toNat = false) :
    Percent.encode inSet (String.ofList cs) = String.ofList cs := by
  have octets {c : Char} (ascii : c.toNat < 0x80) :
      Utf8.encodeChar c = [UInt8.ofNat c.toNat] ∧ (UInt8.ofNat c.toNat).toNat = c.toNat := by
    refine ⟨if_pos ascii, ?_⟩
    rw [UInt8.toNat_ofNat']
    omega
  rw [Percent.encode, Utf8.encode, String.toList_ofList]
  congr 1
  induction cs with
  | nil => rfl
  | cons c rest ih =>
    obtain ⟨⟨ascii, own⟩, others⟩ := List.forall_mem_cons.mp plain
    obtain ⟨single, octet⟩ := octets ascii
    have low : ¬ 0x80 ≤ c.toNat := by omega
    have rest := ih others
    unfold Percent.encodeOctets at rest ⊢
    rw [List.flatMap_cons, single, List.singleton_append, List.flatMap_cons, rest, octet]
    simp [low, own, Char.ofNat_toNat]

theorem encodeChars_eq_self {cs : List Char} (plain : ∀ c ∈ cs, isPathChar c = true) :
    encodeChars encodedInPath cs = String.ofList cs := by
  refine encode_eq_self fun c member => ?_
  have own := plain c member
  simp only [isPathChar, Bool.and_eq_true, decide_eq_true_eq, Bool.not_eq_true'] at own
  exact ⟨own.1.1.1, own.1.1.2⟩

theorem ne_of_isPathChar {c : Char} (h : isPathChar c = true) :
    0x20 < c.toNat ∧ c ∉ ['/', '\\', '?', '#'] := by
  simp only [isPathChar, encodedInPath, encodedInFragment, Percent.isControl, Bool.and_eq_true,
    Bool.not_eq_true', Bool.or_eq_false_iff, decide_eq_true_eq, decide_eq_false_iff_not, bne_iff_ne]
    at h
  obtain ⟨⟨⟨-, excluded⟩, slash⟩, backslash⟩ := h
  have question : c ≠ '?' := by
    rintro rfl
    revert excluded
    decide
  have hash : c ≠ '#' := by
    rintro rfl
    revert excluded
    decide
  refine ⟨by omega, ?_⟩
  simp [slash, backslash, question, hash]

/-! ### Paths that are written -/

theorem splitSegments_eq_pieces (special : Bool) {cs : List Char} (free : '\\' ∉ cs) :
    splitSegments special cs = Text.pieces '/' cs := by
  induction cs with
  | nil => rfl
  | cons c rest ih =>
    simp only [List.mem_cons, not_or] at free
    have slash : isSlash special c = true ↔ c = '/' := by
      simp [isSlash, Ne.symm free.1]
    rw [splitSegments, Text.pieces, ih free.2]
    exact if_congr slash rfl rfl

/-- The segments with a slash between each two of them. -/
def segmentText (segments : List String) : List Char := joined '/' (segments.map String.toList)

theorem segmentChars_eq (nonempty : segments ≠ []) :
    segmentChars segments = '/' :: segmentText segments := by
  induction segments with
  | nil => exact absurd rfl nonempty
  | cons first rest ih =>
    cases rest with
    | nil => simp [segmentChars, segmentText, joined]
    | cons second others =>
      have further := ih (by simp)
      simp only [segmentChars, segmentText, List.flatMap_cons, List.map_cons, joined_cons_cons] at further ⊢
      rw [List.cons_append, further]

/-- What holds of all characters of some segments. -/
def Plain (segments : List String) : Prop := ∀ s ∈ segments, ∀ c ∈ s.toList, isPathChar c = true

theorem Plain.not_mem_segmentText (h : Plain segments) {c : Char} (mark : c ∈ ['\\', '?', '#']) :
    c ∉ segmentText segments := by
  intro member
  have slash : c ≠ '/' := by
    rintro rfl
    exact absurd mark (by decide)
  obtain ⟨text, listed, own⟩ := (eq_or_mem_of_mem_joined member).resolve_left slash
  obtain ⟨s, present, rfl⟩ := List.mem_map.mp listed
  exact (ne_of_isPathChar (h s present c own)).2 (List.mem_cons_of_mem _ mark)

/-- Only an empty segment leaves a slash at the front. -/
theorem Plain.segmentText_ne {first : String} {rest : List String} (h : Plain (first :: rest))
    (named : first ≠ "") (others : List Char) : segmentText (first :: rest) ≠ '/' :: others := by
  obtain ⟨c, cs, begins⟩ := List.exists_cons_of_ne_nil (show first.toList ≠ [] by simpa using named)
  have solid : c ≠ '/' := by
    rintro rfl
    have own := h first List.mem_cons_self '/' (by rw [begins]; exact List.mem_cons_self)
    exact absurd own (by decide)
  cases rest <;> simp [segmentText, joined, begins, solid]

/-- The pieces of a path that is written are its segments, and none of them is encoded. -/
theorem Plain.pieces_segmentText (h : Plain segments) (nonempty : segments ≠ []) (special : Bool) :
    splitSegments special (segmentText segments) = segments.map String.toList ∧
      (segments.map String.toList).map (encodeChars encodedInPath) = segments := by
  constructor
  · rw [splitSegments_eq_pieces special (h.not_mem_segmentText (by decide))]
    refine pieces_joined '/' _ (List.map_eq_nil_iff.not.mpr nonempty) fun text listed slash => ?_
    obtain ⟨s, present, rfl⟩ := List.mem_map.mp listed
    exact (ne_of_isPathChar (h s present '/' slash)).2 (by decide)
  · rw [List.map_map]
    refine (List.map_congr_left fun s member => ?_).trans (List.map_id _)
    exact (encodeChars_eq_self (h s member)).trans String.ofList_toList

theorem mem_dropEmptyFront (h : segment ∈ dropEmptyFront path) : segment = "" ∨ segment ∈ path := by
  unfold dropEmptyFront at h
  split at h
  · exact .inl (List.mem_singleton.mp h)
  · exact .inr ((List.dropWhile_sublist _).subset h)

/-- No path that is read from its beginning has segments to be resolved. -/
theorem isDots_of_mem_extendPath {cs : List Char} (h : segment ∈ extendPath scheme [] cs) :
    isDots segment = false := by
  have added {file : Bool} {pieces : List String} (member : segment ∈ addSegments file [] pieces) :
      isDots segment = false := (mem_addSegments member).resolve_left List.not_mem_nil
  simp only [extendPath] at h
  split at h
  · rcases mem_dropEmptyFront h with rfl | member
    · exact isDots_empty
    · exact added member
  · exact added h

/-- Whether the first segment of a file's path begins it as it is: it is not empty, and neither colon nor
bar stands behind its first character, as in the name of a drive. -/
def LeadsFile (segments : List String) : Prop :=
  ∀ first ∈ segments.head?, first ≠ "" ∧ ∀ mark ∈ first.toList[1]?, mark ≠ ':' ∧ mark ≠ '|'

instance : DecidablePred LeadsFile := fun segments =>
  inferInstanceAs (Decidable (∀ first ∈ segments.head?, first ≠ "" ∧ ∀ mark ∈ first.toList[1]?, _))

theorem LeadsFile.isDrive (h : LeadsFile segments) :
    ∀ first ∈ segments.head?, isDrive first = false := by
  intro first own
  unfold Url.isDrive
  split
  · next a b chars =>
    obtain ⟨colon, bar⟩ := (h first own).2 b (by simp [chars])
    simp [colon, bar]
  · rfl

theorem LeadsFile.cutDrive (h : LeadsFile segments) :
    cutDrive [] (segments.map String.toList) = segments.map String.toList := by
  unfold Url.cutDrive
  split
  · next a c cs rest same =>
    cases segments with
    | nil => cases same
    | cons first others =>
      obtain ⟨chars, -⟩ := List.cons.inj same
      exact absurd rfl ((h first rfl).2 ':' (by simp [chars])).1
  · rfl

theorem LeadsFile.dropEmptyFront (h : LeadsFile segments) (nonempty : segments ≠ []) :
    dropEmptyFront segments = segments := by
  obtain ⟨first, rest, rfl⟩ := List.exists_cons_of_ne_nil nonempty
  have kept : (first :: rest).dropWhile (fun s => decide (s = "")) = first :: rest :=
    List.dropWhile_cons_of_neg (by simpa using (h first rfl).1)
  simp only [Url.dropEmptyFront, kept]

/-- A path that is written is read as it is exactly if none of its segments is to be resolved. -/
theorem extendPath_segmentText_iff (plain : Plain segments) (nonempty : segments ≠ [])
    (leads : scheme = "file" → LeadsFile segments) :
    extendPath scheme [] (segmentText segments) = segments ↔
      ∀ s ∈ segments, isDots s = false := by
  constructor
  · intro same s member
    rw [← same] at member
    exact isDots_of_mem_extendPath member
  · intro resolved
    obtain ⟨split, encoded⟩ := plain.pieces_segmentText nonempty (isSpecialScheme scheme)
    simp only [extendPath, split]
    by_cases file : scheme = "file"
    · rw [if_pos file, if_pos file, (leads file).cutDrive, encoded,
        addSegments_eq resolved fun _ _ => (leads file).isDrive]
      exact (leads file).dropEmptyFront nonempty
    · rw [if_neg file, if_neg file, encoded]
      exact addSegments_eq resolved (by simp [file])

/-! ### Reading after an authority -/

theorem splitLast_subset (mark : Char) (cs : List Char) : (splitLast mark cs).2 ⊆ cs := by
  unfold splitLast
  split
  · exact List.Subset.refl cs
  · intro c member
    exact List.mem_reverse.mp ((List.takeWhile_sublist _).subset (List.mem_reverse.mp member))

/-- What follows a host is nothing or begins with a colon. -/
theorem splitHost_spec (bracketed : Bool) (cs : List Char) :
    (splitHost bracketed cs).2 ⊆ cs ∧
      ((splitHost bracketed cs).2 = [] ∨ ∃ rest, (splitHost bracketed cs).2 = ':' :: rest) := by
  induction cs generalizing bracketed with
  | nil => exact ⟨List.Subset.refl _, .inl rfl⟩
  | cons c rest ih =>
    rw [splitHost]
    split
    · next colon =>
      have same : c = ':' := by simpa using (Bool.and_eq_true_iff.mp colon).1
      exact ⟨List.Subset.refl _, .inr ⟨rest, by rw [same]⟩⟩
    · obtain ⟨inside, outcome⟩ := ih ((bracketed || c = '[') && c != ']')
      exact ⟨fun d member => List.mem_cons_of_mem c (inside member), outcome⟩

theorem reads_rest_readPort (scheme : String) {cs : List Char} (free : '\\' ∉ cs)
    (start : cs = [] ∨ ∃ rest, cs = ':' :: rest) :
    Reads (readPort scheme cs) fun part => part.2 = [] := by
  rcases start with rfl | ⟨rest, rfl⟩
  · exact .ok rfl
  · refine .ite (fun _ => .error) fun _ => .ite (fun _ => .error) fun ended => .ok ?_
    cases behind : rest.dropWhile Char.isDigit with
    | nil => rfl
    | cons c others =>
      have other : c = '\\' := by simpa [behind] using ended
      have inside : c ∈ rest := (List.dropWhile_sublist _).subset (behind ▸ List.mem_cons_self)
      exact absurd (List.mem_cons_of_mem ':' (other ▸ inside)) free

/-- Without a backslash nothing is left of an authority. -/
theorem reads_rest_readAuthority (scheme : String) {cs : List Char} (free : '\\' ∉ cs)
    (ended : Bool) : Reads (readAuthority scheme cs ended) fun authority => authority.rest = [] := by
  obtain ⟨inside, start⟩ := splitHost_spec false (splitLast '@' cs).2
  have free : '\\' ∉ (splitHost false (splitLast '@' cs).2).2 :=
    fun member => free (splitLast_subset '@' cs (inside member))
  unfold readAuthority
  simp only []
  refine .guarded (.guarded (.bindEither (Q := fun _ => True) (fun _ _ _ => trivial)
    (fun _ _ _ => trivial) fun host _ => .guarded ?_))
  exact .bind (reads_rest_readPort scheme free start) fun part none => .guarded (.ok none)

theorem path_withTail (url : Url) (tail : List Char) : (url.withTail tail).path = url.path := by
  unfold withTail
  split <;> rfl

/-- The text before a path that is written, and the path. -/
theorem cut_segmentChars {authority : List Char} {special : Bool}
    (free : ∀ c ∈ authority, c ∉ ['/', '\\', '?', '#']) (nonempty : segments ≠ []) :
    (authority ++ segmentChars segments).takeWhile
        (fun c => !(isSlash special c || endsPath c)) = authority ∧
      (authority ++ segmentChars segments).dropWhile
        (fun c => !(isSlash special c || endsPath c)) = segmentChars segments := by
  have inside : ∀ c ∈ authority, (!(isSlash special c || endsPath c)) = true := by
    intro c member
    have own := free c member
    simp only [List.mem_cons, List.not_mem_nil, or_false, not_or] at own
    simp [isSlash, endsPath, own]
  have mark : isSlash special '/' = true := by simp [isSlash]
  rw [segmentChars_eq nonempty, List.takeWhile_append_of_pos inside,
    List.dropWhile_append_of_pos inside]
  simp [mark]

/-- A path that is written has no query. -/
theorem Plain.beforeQuery_eq (h : Plain segments) (nonempty : segments ≠ []) :
    beforeQuery (segmentChars segments) = segmentChars segments ∧
      beforeQuery (segmentText segments) = segmentText segments := by
  have free : ∀ c ∈ segmentText segments, (!endsPath c) = true := by
    intro c member
    have question : c ≠ '?' := fun same => h.not_mem_segmentText (c := '?') (by decide) (same ▸ member)
    have hash : c ≠ '#' := fun same => h.not_mem_segmentText (c := '#') (by decide) (same ▸ member)
    simp [endsPath, question, hash]
  have slashFree : ∀ c ∈ '/' :: segmentText segments, (!endsPath c) = true :=
    List.forall_mem_cons.mpr ⟨by decide, free⟩
  rw [segmentChars_eq nonempty]
  exact ⟨List.takeWhile_eq_self_iff.mpr slashFree, List.takeWhile_eq_self_iff.mpr free⟩

theorem dropSlash_segmentChars (special : Bool) (nonempty : segments ≠ []) :
    dropSlash special (segmentChars segments) = segmentText segments := by
  have mark : isSlash special '/' = true := by simp [isSlash]
  rw [segmentChars_eq nonempty, dropSlash, if_pos mark]

theorem reads_path_readAfterSlashes (scheme : String) {authority : List Char}
    (free : ∀ c ∈ authority, c ∉ ['/', '\\', '?', '#']) (plain : Plain segments)
    (nonempty : segments ≠ []) :
    Reads (readAfterSlashes scheme (authority ++ segmentChars segments)) fun url =>
      url.path = .rooted (extendPath scheme [] (segmentText segments)) := by
  have noBackslash : '\\' ∉ authority := fun member => free _ member (by decide)
  obtain ⟨before, behind⟩ := @cut_segmentChars segments authority (isSpecialScheme scheme) free nonempty
  have written : (segmentChars segments).isEmpty = false := by
    rw [segmentChars_eq nonempty]
    rfl
  unfold readAfterSlashes
  simp only [before, behind]
  refine .bind (reads_rest_readAuthority scheme noBackslash _) fun parts none => .ok ?_
  rw [path_withTail, none, List.nil_append, (plain.beforeQuery_eq nonempty).1, written,
    dropSlash_segmentChars _ nonempty]
  rfl

theorem path_fileUrl (host : Host) (path : List String) : (fileUrl host path).path = .rooted path := rfl

theorem reads_path_readFileAfterSlashes {authority : List Char}
    (free : ∀ c ∈ authority, c ∉ ['/', '\\', '?', '#'])
    (noDrive : isDrive (String.ofList authority) = false) (plain : Plain segments)
    (nonempty : segments ≠ []) :
    Reads (readFileAfterSlashes (authority ++ segmentChars segments)) fun url =>
      url.path = .rooted (extendPath "file" [] (segmentText segments)) := by
  obtain ⟨before, behind⟩ := @cut_segmentChars segments authority true free nonempty
  unfold readFileAfterSlashes
  simp only [before, behind, noDrive]
  refine .bind (Q := fun part => part.2 = segmentChars segments) ?_ fun part own => .ok ?_
  · exact .map (Q := fun _ => True) (fun _ _ => trivial) fun _ _ => rfl
  · rw [path_withTail, path_fileUrl, own, (plain.beforeQuery_eq nonempty).1,
      dropSlash_segmentChars _ nonempty]

end ApiContract.Url
