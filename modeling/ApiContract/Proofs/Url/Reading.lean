import ApiContract.Proofs.Url.HostReading
import ApiContract.Proofs.Url.Text
import ApiContract.Url.Parser
import Mathlib.Data.List.TakeWhile
/-!
# Reading well-formed URLs

Every URL that is read, alone or relative to a well-formed one, is well-formed (`reads_read`), and so
is the URL of the document that it points into. With `Url.text_inj` the URLs that are read are known by
their texts.
-/

namespace ApiContract.Url

open Text
open UrlPath (IsSegment)

/-! ### Paths -/

variable {file : Bool} {path start : List String} {segment scheme : String}

/-- What holds of a text that is to become a segment. -/
def IsPiece (piece : String) : Prop := Lacks ['/', '?', '#'] piece

theorem isSegment_empty : IsSegment "" := ⟨by simp [Lacks], by decide⟩

theorem isSegment_shorten (h : ∀ s ∈ path, IsSegment s) : ∀ s ∈ shorten file path, IsSegment s := by
  unfold shorten
  split
  · exact h
  · exact fun s member => h s ((List.dropLast_sublist path).subset member)

theorem isSegment_drive (drive : isDrive segment = true) :
    IsSegment (String.ofList (segment.toList.take 1 ++ [':'])) := by
  unfold isDrive at drive
  split at drive
  · next a b chars =>
    have letter : a.isAlpha = true := (Bool.and_eq_true_iff.mp drive).1
    have other {c : Char} (h : c.isAlpha = false) : c ≠ a := by
      rintro rfl
      rw [letter] at h
      cases h
    rw [chars]
    refine ⟨fun c mark => ?_, fun same => ?_⟩
    · have all : (['/', '?', '#'].all fun c => !c.isAlpha && c != ':') = true := by decide
      have := List.all_eq_true.mp all c mark
      simp only [Bool.and_eq_true, Bool.not_eq_true', bne_iff_ne] at this
      simpa using ⟨other this.1, this.2⟩
    · have := congrArg (List.length ∘ String.toList) same
      simp at this
  · cases drive

/-- Segments stay segments when one more is read. -/
theorem isSegment_addSegment (h : ∀ s ∈ path, IsSegment s) (own : IsPiece segment) (last : Bool) :
    ∀ s ∈ addSegment file path segment last, IsSegment s := by
  unfold addSegment
  split
  · split
    · exact List.forall_mem_append.mpr ⟨isSegment_shorten h, List.forall_mem_singleton.mpr isSegment_empty⟩
    · exact isSegment_shorten h
  split
  · split
    · exact List.forall_mem_append.mpr ⟨h, List.forall_mem_singleton.mpr isSegment_empty⟩
    · exact h
  · next noDots =>
    split
    · next drive =>
      have isDrive := (Bool.and_eq_true_iff.mp drive).2
      exact List.forall_mem_append.mpr ⟨h, List.forall_mem_singleton.mpr (isSegment_drive isDrive)⟩
    · refine List.forall_mem_append.mpr ⟨h, List.forall_mem_singleton.mpr ⟨own, ?_⟩⟩
      rintro rfl
      exact noDots (by decide)

theorem addSegment_last_ne_nil (file : Bool) (path : List String) (segment : String) :
    addSegment file path segment true ≠ [] := by
  unfold addSegment
  split
  · simp
  split
  · simp
  split <;> simp

theorem isSegment_addSegments {pieces : List String} (h : ∀ s ∈ path, IsSegment s)
    (own : ∀ piece ∈ pieces, IsPiece piece) : ∀ s ∈ addSegments file path pieces, IsSegment s := by
  induction path, pieces using addSegments.induct file with
  | case1 path => exact h
  | case2 path piece => exact isSegment_addSegment h (own piece (by simp)) true
  | case3 path piece rest more ih =>
    rw [addSegments]
    · obtain ⟨first, others⟩ := List.forall_mem_cons.mp own
      exact ih (isSegment_addSegment h first false) others
    · exact more

theorem addSegments_ne_nil {pieces : List String} (nonempty : pieces ≠ []) :
    addSegments file path pieces ≠ [] := by
  induction path, pieces using addSegments.induct file with
  | case1 path => exact absurd rfl nonempty
  | case2 path piece => exact addSegment_last_ne_nil file path piece
  | case3 path piece rest more ih =>
    rw [addSegments]
    · exact ih more
    · exact more

theorem splitSegments_ne_nil (special : Bool) (cs : List Char) : splitSegments special cs ≠ [] := by
  cases cs with
  | nil => simp [splitSegments]
  | cons c rest =>
    rw [splitSegments]
    split
    · simp
    · split <;> simp

theorem slash_not_mem_splitSegments (special : Bool) (cs : List Char) :
    ∀ piece ∈ splitSegments special cs, '/' ∉ piece := by
  induction cs with
  | nil => simp [splitSegments]
  | cons c rest ih =>
    rw [splitSegments]
    split
    · exact List.forall_mem_cons.mpr ⟨List.not_mem_nil, ih⟩
    · next inside =>
      have other : '/' ≠ c := by
        rintro rfl
        exact inside (by simp [isSlash])
      split
      · next first others split =>
        rw [split] at ih
        obtain ⟨own, further⟩ := List.forall_mem_cons.mp ih
        exact List.forall_mem_cons.mpr ⟨by simp [other, own], further⟩
      · simp [other]

/-- Cutting a drive off changes neither that there are segments nor what they lack. -/
theorem cutDrive_spec {pieces : List (List Char)} (nonempty : pieces ≠ [])
    (free : ∀ piece ∈ pieces, '/' ∉ piece) :
    cutDrive start pieces ≠ [] ∧ ∀ piece ∈ cutDrive start pieces, '/' ∉ piece := by
  unfold cutDrive
  split
  · split
    · obtain ⟨own, others⟩ := List.forall_mem_cons.mp free
      simp only [List.mem_cons, not_or] at own
      obtain ⟨first, second, third, rest⟩ := own
      refine ⟨by simp, List.forall_mem_cons.mpr ⟨by simp [first, second], ?_⟩⟩
      exact List.forall_mem_cons.mpr ⟨by simp [third, rest], others⟩
    · exact ⟨nonempty, free⟩
  · exact ⟨nonempty, free⟩

theorem dropEmptyFront_spec (h : ∀ s ∈ path, IsSegment s) :
    (∀ s ∈ dropEmptyFront path, IsSegment s) ∧ dropEmptyFront path ≠ [] := by
  unfold dropEmptyFront
  split
  · exact ⟨by simpa using isSegment_empty, by simp⟩
  · next nonempty =>
    exact ⟨fun s member => h s ((List.dropWhile_sublist _).subset member), nonempty⟩

theorem isPiece_encodeChars {cs : List Char} (free : '/' ∉ cs) :
    IsPiece (encodeChars encodedInPath cs) := by
  refine lacks_encode (by decide) ?_
  simp only [List.forall_mem_cons, String.toList_ofList]
  exact ⟨.inl free, .inr (by decide), .inr (by decide), by simp⟩

/-- A path that is read consists of segments, one at least. -/
theorem extendPath_spec (scheme : String) (cs : List Char) (h : ∀ s ∈ start, IsSegment s) :
    (∀ s ∈ extendPath scheme start cs, IsSegment s) ∧ extendPath scheme start cs ≠ [] := by
  unfold extendPath
  have nonempty := splitSegments_ne_nil (isSpecialScheme scheme) cs
  have free := slash_not_mem_splitSegments (isSpecialScheme scheme) cs
  generalize splitSegments (isSpecialScheme scheme) cs = pieces at nonempty free
  simp only []
  have segments {pieces : List (List Char)} (free : ∀ piece ∈ pieces, '/' ∉ piece) (file : Bool) :
      ∀ s ∈ addSegments file start (pieces.map (encodeChars encodedInPath)), IsSegment s := by
    refine isSegment_addSegments h fun piece member => ?_
    obtain ⟨cs, own, rfl⟩ := List.mem_map.mp member
    exact isPiece_encodeChars (free cs own)
  split
  · exact dropEmptyFront_spec (segments (cutDrive_spec nonempty free).2 _)
  · exact ⟨segments free _, addSegments_ne_nil (by simpa using nonempty)⟩

/-! ### Query and fragment -/

variable {url base : Url} {cs tail : List Char}

theorem wellFormed_withTail (h : url.WellFormed) (tail : List Char) :
    (url.withTail tail).WellFormed := by
  unfold withTail
  split
  · refine { h with query := fun query own => ?_ }
    obtain rfl := Option.some.inj own
    refine lacks_encode (by decide) ?_
    simp only [List.forall_mem_cons]
    refine ⟨.inr ?_, by simp⟩
    have hash : ∀ special, encodedInQuery special '#'.toNat = true := by decide
    exact hash _
  · exact { h with query := fun query own => by cases own }

theorem wellFormed_withFragmentOf (h : base.WellFormed) (cs : List Char) :
    (base.withFragmentOf cs).WellFormed := { h with }

theorem dropTrailingSpaces_shorter (s : String) :
    (dropTrailingSpaces s).toList <+: s.toList := by
  rw [dropTrailingSpaces, String.toList_ofList, ← List.reverse_suffix, List.reverse_reverse]
  exact List.dropWhile_suffix _

theorem head?_mono {a b : List Char} (h : a <+: b) {c : Char} (first : a.head? = some c) :
    b.head? = some c := by
  obtain ⟨rest, rfl⟩ := h
  rw [List.head?_append, first]
  rfl

/-- The URL of the document that a URL points into. -/
theorem wellFormed_withoutFragment (h : url.WellFormed) : url.withoutFragment.WellFormed := by
  unfold withoutFragment
  split
  · next s rootless =>
    refine { h with path := ?_ }
    have own := h.path
    rw [rootless] at own
    obtain ⟨hostless, free, start⟩ := own
    split
    · have shorter := dropTrailingSpaces_shorter s
      exact ⟨hostless, fun c mark member => free c mark (shorter.subset member),
        fun first => start (head?_mono shorter first)⟩
    · exact ⟨hostless, free, start⟩
  · exact { h with }

/-! ### Parts of a URL put together -/

/-- A well-formed URL with another rooted path. -/
theorem wellFormed_withPath (h : base.WellFormed) (own : ∀ s ∈ path, IsSegment s)
    (nonempty : path ≠ []) : { base with path := .rooted path : Url }.WellFormed :=
  { h with path := ⟨own, fun _ => nonempty⟩ }

/-- A URL with a scheme and a path alone. -/
theorem wellFormed_hostless {path : UrlPath} (lacks : Lacks [':'] scheme)
    (own : path.WellFormed false) :
    (⟨scheme, "", "", none, none, path, none, none⟩ : Url).WellFormed where
  scheme := lacks
  username := by simp [Lacks]
  password := by simp [Lacks]
  host _ none := by cases none
  hostless _ := ⟨rfl, rfl, rfl⟩
  path := own
  query _ none := by cases none

theorem lacks_userInfo (cs : List Char) :
    Lacks [':', '@', '/', '?', '#'] (encodeChars encodedInUserInfo cs) := by
  refine lacks_encode (by decide) fun c mark => .inr ?_
  have all : ([':', '@', '/', '?', '#'].all fun c => encodedInUserInfo c.toNat) = true := by decide
  exact List.all_eq_true.mp all c mark

/-! ### Authorities -/

/-- Whatever is read has a property. -/
def Reads {α : Type} (result : Except UrlError α) (P : α → Prop) : Prop := ∀ a, result = .ok a → P a

namespace Reads

variable {α β : Type} {P : α → Prop} {Q : β → Prop} {result first second : Except UrlError α}
  {f : β → Except UrlError α} {e : UrlError} {condition : Prop} [Decidable condition]

theorem ok {a : α} (h : P a) : Reads (.ok a) P := by
  intro b same
  cases same
  exact h

theorem error : Reads (.error e : Except UrlError α) P := by
  intro b same
  cases same

theorem bind {start : Except UrlError β} (first : Reads start Q) (next : ∀ b, Q b → Reads (f b) P) :
    Reads (start >>= f) P := by
  intro a run
  cases start with
  | error e => cases run
  | ok b => exact next b (first b rfl) a run

theorem ite (yes : condition → Reads first P) (no : ¬ condition → Reads second P) :
    Reads (if condition then first else second) P := by
  split
  · next holds => exact yes holds
  · next fails => exact no fails

theorem map {start : Except UrlError β} {g : β → α} (first : Reads start Q)
    (next : ∀ b, Q b → P (g b)) : Reads (start.map g) P := by
  intro a run
  cases start with
  | error e => cases run
  | ok b =>
    cases run
    exact next b (first b rfl)

/-- What is read after a check. -/
theorem guarded (h : Reads result P) :
    Reads (if condition then (do throw e; result) else result) P :=
  ite (fun _ => error) fun _ => h

/-- What is read after one of two parts. -/
theorem bindEither {start other : Except UrlError β} (yes : condition → Reads start Q)
    (no : ¬ condition → Reads other Q) (next : ∀ b, Q b → Reads (f b) P) :
    Reads (if condition then start >>= f else other >>= f) P :=
  ite (fun holds => bind (yes holds) next) fun fails => bind (no fails) next

/-- What is read after a part of which nothing has to be known. -/
theorem after {start : Except UrlError β} (next : ∀ b, Reads (f b) P) : Reads (start >>= f) P :=
  bind (Q := fun _ => True) (fun _ _ => trivial) fun b _ => next b

end Reads

theorem reads_readAuthority (scheme : String) (cs : List Char) (ended : Bool) :
    Reads (readAuthority scheme cs ended) fun authority =>
      Lacks [':', '@', '/', '?', '#'] authority.username ∧
        Lacks [':', '@', '/', '?', '#'] authority.password ∧ authority.host.WellFormed scheme := by
  unfold readAuthority
  simp only []
  refine .guarded (.guarded (.bindEither (Q := Host.WellFormed scheme) (fun special host read => ?_)
    (fun other host read => ?_) fun host own => .guarded (.after fun _ => .guarded (.ok ?_))))
  · exact Host.wellFormed_readDomain special read
  · exact Host.wellFormed_readText (by simpa using other) read
  · exact ⟨lacks_userInfo _, lacks_userInfo _, own⟩

theorem reads_readAfterSlashes (lacks : Lacks [':'] scheme) (cs : List Char) :
    Reads (readAfterSlashes scheme cs) WellFormed := by
  unfold readAfterSlashes
  refine .bind (reads_readAuthority _ _ _) fun authority ⟨username, password, host⟩ => .ok ?_
  refine wellFormed_withTail ?_ _
  refine ⟨lacks, username, fun c mark => password c (List.mem_cons_of_mem _ mark), ?_, ?_, ?_, ?_⟩
  · rintro _ ⟨⟩
    exact host
  · rintro ⟨⟩
  · refine ⟨?_, by simp⟩
    split
    · simp
    · exact (extendPath_spec scheme _ (by simp)).1
  · rintro _ ⟨⟩

/-! ### Files -/

theorem wellFormed_emptyHost (scheme : String) : (Host.name "").WellFormed scheme :=
  Host.wellFormed_name (by simp) (by decide)

theorem wellFormed_fileUrl {host : Host} (own : host.WellFormed "file")
    (segments : ∀ s ∈ path, IsSegment s) : (fileUrl host path).WellFormed := by
  unfold fileUrl
  have lacks : Lacks [':'] "file" := by simp [Lacks]
  refine ⟨lacks, by simp [Lacks], by simp [Lacks], ?_, ?_, ?_, ?_⟩
  · rintro _ ⟨⟩
    split
    · exact wellFormed_emptyHost "file"
    · exact own
  · rintro ⟨⟩
  · exact ⟨segments, by simp⟩
  · rintro _ ⟨⟩

theorem reads_readFileHost (text : String) : Reads (readFileHost text) (Host.WellFormed "file") := by
  unfold readFileHost
  refine .ite (fun _ => .ok (wellFormed_emptyHost "file")) fun _ => ?_
  have special : isSpecialScheme "file" = true := by decide
  refine .map (fun host read => Host.wellFormed_readDomain special read) fun host own => ?_
  split
  · exact wellFormed_emptyHost "file"
  · exact own

theorem isSegment_segments (h : base.WellFormed) : ∀ s ∈ base.segments, IsSegment s := by
  unfold segments
  have own := h.path
  split
  · next path rooted =>
    rw [rooted] at own
    exact own.1
  · simp

theorem reads_readFileAfterSlashes (cs : List Char) :
    Reads (readFileAfterSlashes cs) WellFormed := by
  have noHost := wellFormed_emptyHost "file"
  unfold readFileAfterSlashes
  simp only []
  refine .bindEither (Q := fun part => part.1.WellFormed "file") (fun _ => .ok noHost) (fun _ => ?_)
    fun part own => .ok ?_
  · exact .map (reads_readFileHost _) fun host own => own
  · exact wellFormed_withTail (wellFormed_fileUrl own (extendPath_spec "file" _ (by simp)).1) _

section File

variable {base? : Option Url} (bases : ∀ base ∈ base?, base.WellFormed ∧ base.scheme = "file")
include bases

theorem fileStart_spec (cs : List Char) : (fileStart base? cs).1.WellFormed "file" ∧
    ∀ s ∈ (fileStart base? cs).2, IsSegment s := by
  have noHost := wellFormed_emptyHost "file"
  unfold fileStart
  split
  · exact ⟨noHost, by simp⟩
  split
  · next drive found =>
    refine ⟨noHost, ?_⟩
    obtain ⟨base, isBase, first⟩ := Option.bind_eq_some_iff.mp (Option.filter_eq_some_iff.mp found).1
    have := isSegment_segments (bases base isBase).1 drive (List.mem_of_mem_head? first)
    simpa using this
  · refine ⟨?_, by simp⟩
    cases own : base?.bind host with
    | none => exact noHost
    | some host =>
      obtain ⟨base, isBase, hosted⟩ := Option.bind_eq_some_iff.mp own
      obtain ⟨good, file⟩ := bases base isBase
      exact file ▸ good.host host hosted

theorem wellFormed_readFilePath (cs : List Char) : (readFilePath base? cs).WellFormed := by
  have absolute {host : Host} {start : List String} (own : host.WellFormed "file")
      (segments : ∀ s ∈ start, IsSegment s) (text tail : List Char) :
      ((fileUrl host (extendPath "file" start text)).withTail tail).WellFormed :=
    wellFormed_withTail (wellFormed_fileUrl own (extendPath_spec "file" text segments).1) tail
  have noHost := wellFormed_emptyHost "file"
  have noSegments : ∀ s ∈ ([] : List String), IsSegment s := by simp
  unfold readFilePath
  split
  · next base => exact wellFormed_withoutFragment (bases base rfl).1
  · exact wellFormed_fileUrl noHost (by simpa using isSegment_empty)
  split
  · obtain ⟨host, segments⟩ := fileStart_spec bases _
    exact absolute host segments _ _
  split
  · next base =>
    have good := (bases base rfl).1
    split
    · exact wellFormed_withFragmentOf good _
    split
    · exact wellFormed_withTail good _
    split
    · exact absolute noHost noSegments _ _
    · obtain ⟨segments, nonempty⟩ :=
        extendPath_spec "file" (beforeQuery _) (isSegment_shorten (isSegment_segments good))
      exact wellFormed_withTail (wellFormed_withPath good segments nonempty) _
  · exact absolute noHost noSegments _ _

theorem reads_readFile (cs : List Char) : Reads (readFile base? cs) WellFormed := by
  unfold readFile
  split
  · exact .ite (fun _ => reads_readFileAfterSlashes _) fun _ => .ok (wellFormed_readFilePath bases _)
  · exact .ok (wellFormed_readFilePath bases _)

end File

/-! ### References -/

/-- What a text without a scheme writes relative to a URL that is no file. -/
theorem reads_readRelative (h : base.WellFormed) (cs : List Char) :
    Reads (readRelative base cs) WellFormed := by
  have moved {start : List String} (segments : ∀ s ∈ start, IsSegment s) (text tail : List Char) :
      ({ base with path := .rooted (extendPath base.scheme start text) }.withTail
        tail).WellFormed := by
    obtain ⟨segments, nonempty⟩ := extendPath_spec base.scheme text segments
    exact wellFormed_withTail (wellFormed_withPath h segments nonempty) tail
  unfold readRelative
  split
  · exact .ok (wellFormed_withoutFragment h)
  refine .ite (fun _ => .ok (wellFormed_withFragmentOf h _)) fun _ => ?_
  refine .ite (fun _ => .ok (wellFormed_withTail h _)) fun _ => ?_
  refine .ite (fun _ => ?_) fun _ => ?_
  · split
    · refine .ite (fun _ => .ite ?_ ?_) fun _ => .ok (moved (by simp) _ _)
      · exact fun _ => reads_readAfterSlashes h.scheme _
      · exact fun _ => reads_readAfterSlashes h.scheme _
    · have single : ∀ s ∈ [""], IsSegment s := List.forall_mem_singleton.mpr isSegment_empty
      exact .ok (wellFormed_withTail (wellFormed_withPath h single (by simp)) _)
  · refine .ok (moved (fun s member => ?_) _ _)
    exact isSegment_segments h s ((List.dropLast_sublist _).subset member)

theorem wellFormed_rootless (noSlash : ∀ rest, cs ≠ '/' :: rest) :
    (UrlPath.rootless (encodeChars Percent.isControl (beforeQuery cs))).WellFormed false := by
  refine ⟨rfl, lacks_encode (by decide) fun c mark => .inl fun member => ?_, fun first => ?_⟩
  · rw [String.toList_ofList] at member
    have inside := List.mem_takeWhile_imp member
    have all : ['?', '#'].all endsPath = true := by decide
    rw [List.all_eq_true.mp all c mark] at inside
    cases inside
  · rcases Percent.head?_encode first with percent | first
    · exact absurd percent (by decide)
    · rw [String.toList_ofList] at first
      have := head?_mono ( List.takeWhile_prefix _) first
      obtain ⟨rest, same⟩ := List.head?_eq_some_iff.mp this
      exact noSlash rest same

/-- What the text after a scheme writes, relative to a URL or not. -/
theorem reads_readWithScheme {base? : Option Url} (bases : ∀ base ∈ base?, base.WellFormed)
    (lacks : Lacks [':'] scheme) (cs : List Char) :
    Reads (readWithScheme base? scheme cs) WellFormed := by
  unfold readWithScheme
  refine .ite (fun _ => ?_) fun _ => .ite (fun _ => ?_) fun _ => ?_
  · refine reads_readFile (fun base own => ?_) cs
    obtain ⟨isBase, file⟩ := Option.filter_eq_some_iff.mp own
    exact ⟨bases base isBase, by simpa using file⟩
  · simp only []
    split
    · next base own =>
      have good := bases base (Option.filter_eq_some_iff.mp own).1
      exact .ite (fun _ => reads_readRelative good cs) fun _ => reads_readAfterSlashes lacks _
    · exact reads_readAfterSlashes lacks _
  · split
    · exact reads_readAfterSlashes lacks _
    · next rest _ =>
      obtain ⟨segments, nonempty⟩ :=
        extendPath_spec scheme (beforeQuery rest) (List.forall_mem_nil IsSegment)
      have path : (UrlPath.rooted (extendPath scheme [] (beforeQuery rest))).WellFormed false :=
        ⟨segments, fun _ => nonempty⟩
      exact .ok (wellFormed_withTail (wellFormed_hostless lacks path) _)
    · next _ noSlash =>
      exact .ok (wellFormed_withTail (wellFormed_hostless lacks (wellFormed_rootless noSlash)) _)

theorem toLower_ne_colon {c : Char} (h : c ≠ ':') : c.toLower ≠ ':' := by
  unfold Char.toLower
  split
  · next upper =>
    intro same
    have value : c.val + ('a'.val - 'A'.val) = ':'.val := congrArg Char.val same
    have number := congrArg UInt32.toNat value
    have least : 'A'.val.toNat ≤ c.val.toNat := upper.1
    have most : c.val.toNat ≤ 'Z'.val.toNat := upper.2
    rw [UInt32.toNat_add] at number
    have codes : 'A'.val.toNat = 65 ∧ 'Z'.val.toNat = 90 ∧ ('a'.val - 'A'.val).toNat = 32 ∧
      ':'.val.toNat = 58 := by decide
    omega
  · exact h

theorem lacks_splitScheme {rest : List Char} (h : splitScheme cs = some (scheme, rest)) :
    Lacks [':'] scheme := by
  simp only [splitScheme] at h
  split at h
  · split at h
    · cases h
      simp only [Lacks, List.mem_singleton, forall_eq, String.toList_ofList, List.mem_map, not_exists,
        not_and]
      intro c member
      have own := List.mem_takeWhile_imp member
      refine toLower_ne_colon ?_
      rintro rfl
      revert own
      decide
    · cases h
  · cases h

/-- A URL that is read relative to a well-formed one, or for itself, is well-formed. -/
theorem reads_read {base? : Option Url} (bases : ∀ base ∈ base?, base.WellFormed) (text : String) :
    Reads (read base? text) WellFormed := by
  unfold read
  simp only []
  split
  · next scheme rest front => exact reads_readWithScheme bases (lacks_splitScheme front) rest
  split
  · exact .error
  · next base =>
    have good := bases base rfl
    refine .ite (fun _ => .ok (wellFormed_withFragmentOf good _)) fun _ => ?_
    refine .ite (fun _ => .error) fun _ => .ite (fun file => ?_) fun _ => reads_readRelative good _
    refine reads_readFile (fun other own => ?_) _
    obtain rfl := Option.some.inj own
    exact ⟨good, file⟩

theorem wellFormed_of_parse {text : String} (h : parse text = .ok url) : url.WellFormed :=
  reads_read (by simp) text url h

theorem wellFormed_of_join {reference : String} (good : base.WellFormed)
    (h : base.join reference = .ok url) : url.WellFormed :=
  reads_read (fun _ own => Option.some.inj own ▸ good) reference url h

end ApiContract.Url
