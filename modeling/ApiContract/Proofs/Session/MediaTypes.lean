import ApiContract.Proofs.Description.Sites
import ApiContract.Proofs.RelatedLists
import ApiContract.Proofs.Session.Outcome
import ApiContract.Proofs.Text.Decoding
import Mathlib.Data.List.TakeWhile
/-!
# Media types of responses

A declared media type is known by its name in lower case, the media type of a response by its text
without what follows a semicolon. A response with a declared name for its media type is taken for what
is declared under that name exactly if nothing is dropped from the name (`readsAs_declared_iff`): a
name with parameters never accepts itself.
-/

namespace ApiContract

open Json (Value)
open Build (Ensures)

/-! ### Names -/

/-- Whether a character may stand in a header that is read as text. -/
def IsReadable (c : Char) : Prop := 0x20 ≤ c.toNat ∧ c.toNat < 0x7F ∨ c = '\t'

instance : DecidablePred IsReadable := fun c =>
  inferInstanceAs (Decidable (0x20 ≤ c.toNat ∧ c.toNat < 0x7F ∨ c = '\t'))

/-- A name of a media type of which nothing is dropped: it can be read as a header, has no semicolon, no
blanks at its ends, and is not empty. -/
structure IsBareType (name : String) : Prop where
  readable : ∀ c ∈ name.toList, IsReadable c
  single : ';' ∉ name.toList
  trimmed : Text.trim name.toList = name.toList
  nonempty : name.toList ≠ []

namespace Headers

/-- Whether an octet may stand in a header that is read as text. -/
def IsReadableOctet (b : UInt8) : Prop := 0x20 ≤ b.toNat ∧ b.toNat < 0x7F ∨ b.toNat = 0x09

theorem textOf?_eq_some_iff {value : Octets} {text : String} : textOf? value = some text ↔
    (∀ b ∈ value, IsReadableOctet b) ∧
      text = String.ofList (value.map fun b => Char.ofNat b.toNat) := by
  have all : (value.all fun b => (0x20 ≤ b && b < 0x7F) || b = 0x09) = true ↔
      ∀ b ∈ value, IsReadableOctet b := by
    simp only [List.all_eq_true, Bool.or_eq_true, Bool.and_eq_true, decide_eq_true_eq,
      UInt8.le_iff_toNat_le, UInt8.lt_iff_toNat_lt, ← UInt8.toNat_inj, UInt8.reduceToNat,
      IsReadableOctet]
  rw [textOf?, Option.ite_none_right_eq_some, all, Option.some.injEq, eq_comm]

/-- What can be read as text is read as it was written. -/
theorem textOf?_encode {s : String} (h : ∀ c ∈ s.toList, IsReadable c) :
    textOf? (Text.Utf8.encode s) = some s := by
  have tab : '\t'.toNat = 9 := rfl
  have ascii : ∀ c ∈ s.toList, c.toNat < 0x80 := by
    intro c member
    rcases h c member with ⟨-, small⟩ | rfl
    · omega
    · decide
  have octets : Text.Utf8.encode s = Text.Utf8.asciiOctets s.toList := by
    rw [← Text.Utf8.encode_ascii ascii, String.ofList_toList]
  have code : ∀ c ∈ s.toList, (UInt8.ofNat c.toNat).toNat = c.toNat := fun c member =>
    Text.Utf8.toNat_octet (Nat.lt_trans (ascii c member) (by decide))
  rw [textOf?_eq_some_iff, octets, Text.Utf8.asciiOctets]
  refine ⟨List.forall_mem_map.mpr fun c member => ?_, ?_⟩
  · rw [IsReadableOctet, code c member]
    exact (h c member).imp id fun same => by rw [same]; rfl
  · have own : s.toList.map (fun c => Char.ofNat (UInt8.ofNat c.toNat).toNat) = s.toList := by
      rw [List.map_congr_left fun c member => by rw [code c member, Char.ofNat_toNat], List.map_id']
    rw [List.map_map, Function.comp_def, own, String.ofList_toList]

/-- Nothing else can be read as text. -/
theorem readable_of_textOf?_encode {s text : String}
    (h : textOf? (Text.Utf8.encode s) = some text) : ∀ c ∈ s.toList, IsReadable c := by
  intro c member
  obtain ⟨b, rest, octets⟩ := List.exists_cons_of_ne_nil (Text.Utf8.encodeChar_ne_nil c)
  have first : b ∈ Text.Utf8.encodeChar c := octets ▸ List.mem_cons_self
  have own := (textOf?_eq_some_iff.mp h).1 b (List.mem_flatMap.mpr ⟨c, member, first⟩)
  have small : b.toNat < 0x80 := by
    unfold IsReadableOctet at own
    omega
  rw [IsReadableOctet, Text.Utf8.toNat_eq_of_mem_encodeChar first small] at own
  exact own.imp id fun code => Char.toNat_inj.mp code

end Headers

theorem Text.trim_sublist (cs : List Char) : (Text.trim cs).Sublist cs := by
  have front : (Text.trimStart cs).Sublist cs := List.dropWhile_sublist _
  have back : (Text.trimEnd (Text.trimStart cs)).Sublist (Text.trimStart cs) := by
    rw [← List.reverse_sublist, Text.trimEnd, List.reverse_reverse]
    exact List.dropWhile_sublist _
  exact back.trans front

namespace HttpResponse

variable {response : HttpResponse} {name : String}

/-- The media type of a response is the name in its header, in lower case, exactly if nothing is
dropped from the name. -/
theorem mediaType?_eq_lowerAscii_iff
    (h : response.headers.first? "content-type" = some (Text.Utf8.encode name)) :
    response.mediaType? = some (Text.lowerAscii name) ↔ IsBareType name := by
  have header : response.headers.text? "content-type" = Headers.textOf? (Text.Utf8.encode name) := by
    rw [Headers.text?, h, Option.bind_some]
  unfold mediaType?
  rw [header]
  constructor
  · intro own
    obtain ⟨text, read, own⟩ := Option.bind_eq_some_iff.mp own
    have readable := Headers.readable_of_textOf?_encode read
    obtain rfl : name = text := Option.some.inj ((Headers.textOf?_encode readable).symm.trans read)
    simp only [Option.ite_none_left_eq_some, Option.some.injEq] at own
    obtain ⟨full, lower⟩ := own
    have sublist := (Text.trim_sublist (name.toList.takeWhile (· != ';')))
    have inside := List.takeWhile_sublist (l := name.toList) (· != ';')
    -- What is left of the name is as long as the name, so that nothing has been dropped.
    have length := congrArg (List.length ∘ String.toList) lower
    simp only [Function.comp_apply, Text.lowerAscii, String.toList_ofList, List.length_map] at length
    have whole := (sublist.trans inside).eq_of_length length
    have cut : name.toList.takeWhile (· != ';') = name.toList :=
      inside.eq_of_length (Nat.le_antisymm inside.length_le (by rw [← length]; exact sublist.length_le))
    rw [cut] at whole full
    refine ⟨readable, fun member => ?_, whole, fun empty => ?_⟩
    · have := List.takeWhile_eq_self_iff.mp cut ';' member
      simp at this
    · rw [whole, empty] at full
      exact full rfl
  · intro bare
    have cut : name.toList.takeWhile (· != ';') = name.toList := by
      refine List.takeWhile_eq_self_iff.mpr fun c member => ?_
      rw [bne_iff_ne]
      rintro rfl
      exact bare.single member
    have full : (name.toList.isEmpty) = false := by simpa using bare.nonempty
    rw [Headers.textOf?_encode bare.readable, Option.bind_some]
    simp only [cut, bare.trimmed, full, String.ofList_toList, Bool.false_eq_true, if_false]

end HttpResponse

/-! ### Declared names -/

namespace Entries

variable {α : Type} {name : String}

theorem get?_foldl_put {pairs : List (String × α)} (others : ∀ other ∈ pairs, other.1 ≠ name)
    (start : Entries α) :
    get? name (pairs.foldl (fun entries pair => put pair.1 pair.2 entries) start) =
      get? name start := by
  induction pairs generalizing start with
  | nil => rfl
  | cons pair rest ih =>
    obtain ⟨own, others⟩ := List.forall_mem_cons.mp others
    rw [List.foldl_cons, ih others, get?_put, if_neg (Ne.symm own)]

/-- The last of the pairs of a name counts. -/
theorem get?_ofPairs {before after : List (String × α)} {value : α}
    (last : ∀ other ∈ after, other.1 ≠ name) :
    get? name (ofPairs (before ++ (name, value) :: after)) = some value := by
  rw [ofPairs, List.foldl_append, List.foldl_cons, get?_foldl_put last, get?_put, if_pos rfl]

end Entries

/-- The media types that an object declares, as they are written. -/
def declaredContent (members : Entries Value) : Entries Value :=
  ((Entries.get? "content" members).bind Value.members?).getD []

/-- A name is declared, and no other one that is the same in lower case. -/
def DeclaresAlone (members : Entries Value) (name : String) (node : Value) : Prop :=
  ∃ before after, declaredContent members = before ++ (name, node) :: after ∧
    ∀ other ∈ before ++ after, Text.lowerAscii other.1 ≠ Text.lowerAscii name

namespace Description

/-- A name that is declared alone stands in lower case for what is declared under it. -/
def HasDeclared (located : Location → SchemaId → Prop) (owner : Location) (members : Entries Value)
    (content : Entries MediaType) : Prop :=
  ∀ name node, DeclaresAlone members name node → ∃ media,
    MediaOf located ((owner.child "content").child name) node media ∧
      Entries.get? (Text.lowerAscii name) content = some media

theorem ensures_readContent_hasDeclared (loader : Loader) (owner : Location)
    (members : Entries Value) :
    Ensures (readContent loader owner members) fun content s =>
      HasDeclared s.Located owner members content := by
  simp only [readContent]
  refine .bind (Ensures.mapM (R := fun entry read s => read.1 = Text.lowerAscii entry.1 ∧
    MediaOf s.Located ((owner.child "content").child entry.1) entry.2 read.2) ?_) fun read => ?_
  · rintro ⟨name, node⟩ -
    refine .bind (ensures_readMediaType loader _ node) fun media => ?_
    exact .pure fun _ own => ⟨rfl, own⟩
  · refine .pure ?_
    rintro s each name node ⟨before, after, declared, alone⟩
    rw [← declaredContent, declared] at each
    obtain ⟨front, entry, back, rfl, ⟨own, media⟩, rest⟩ := exists_append_of_forall₂ each
    obtain ⟨key, value⟩ := entry
    cases own
    refine ⟨value, media, Entries.get?_ofPairs fun other member => ?_⟩
    obtain ⟨written, listed, same, -⟩ := exists_of_mem_forall₂ rest member
    rw [same]
    exact alone written (List.mem_append_right _ listed)

/-- Of every response of a description that is read, the names that are declared alone stand for what
is declared under them. -/
theorem hasDeclared_of_read {loader : Loader} {base : Url} {document : Value} {reading : Reading}
    (h : read loader base document = .ok reading) :
    ∀ operation ∈ reading.description.operations, ∀ entry ∈ operation.responses,
      ∃ location target members,
        reading.library.Answers (Location.root base.withoutFragment) operation entry.1 location ∧
        reading.library.Shows location target members ∧
        HasDeclared (reading.Places loader) target members entry.2.content := by
  have each (location : Location) : Ensures (readResponse loader location) fun response s =>
      ∃ target members, s.library.Shows location target members ∧
        HasDeclared s.Located target members response.content := by
    simp only [readResponse]
    refine .bind (ensures_objectAt loader location) fun object => ?_
    refine .bind (Ensures.mapM_forall (Q := fun _ _ => True) ?_) fun headers => ?_
    · intro name _
      refine .bind (ensures_readHeader loader _) fun header => ?_
      exact .pure fun _ _ => trivial
    refine .bind (Ensures.mapM_forall (Q := fun _ _ => True) ?_) fun links => ?_
    · intro name _
      refine .bind (ensures_objectAt loader _) fun link => ?_
      refine .bind (ensures_ofExcept _) fun read => ?_
      exact .pure fun _ _ _ => trivial
    refine .bind (ensures_readContent_hasDeclared loader _ _) fun content => ?_
    exact .pure fun _ own _ _ shows => ⟨_, _, shows, own⟩
  obtain ⟨state, library, places, holds⟩ := responses_of_read each h
  intro operation declared entry listed
  obtain ⟨location, answers, target, members, shows, own⟩ := holds operation declared entry listed
  rw [library] at shows
  rw [places] at own
  exact ⟨location, target, members, answers, shows, own⟩

end Description

namespace Session

variable {session : Session} {operation : Operation} {response : HttpResponse} {declared : Response}
  {code name : String} {media : MediaType}

/-- The media type that is found for a response with a declared name. -/
theorem readsAs_iff_of_get? (h : response.headers.first? "content-type" = some (Text.Utf8.encode name))
    (found : Entries.get? (Text.lowerAscii name) declared.content = some media) :
    declared.ReadsAs response (some (Text.lowerAscii name, media)) ↔ IsBareType name := by
  rw [← HttpResponse.mediaType?_eq_lowerAscii_iff h]
  constructor
  · intro reads
    cases reads with
    | listed named _ => exact named
  · intro named
    exact .listed named found

/-- What a response comes to whose media type has been found: a failure if headers are missing, and
else what its body holds, checked against the schema of the media type. -/
theorem finish_of_readsAs (accepted : ∀ class', ¬ session.Refuses response class')
    (routes : operation.Routes response.status code declared)
    (reads : declared.ReadsAs response (some (name, media))) :
    (session.decode operation response).bind session.finish =
      if missingHeaders response declared.headers = [] then
        (decodeBody (some name) response.body).bind fun data =>
          (session.checkData media.schema data).map fun warnings =>
            ⟨response.status, code, some name, session.headerValues declared response, data, warnings⟩
      else .error (.headersMissing (missingHeaders response declared.headers)) := by
  rw [decode_of_routes accepted routes, decodeAs, mediaOf_of_readsAs reads, decodeHeaders_eq]
  by_cases present : missingHeaders response declared.headers = []
  · rw [if_pos present]
    cases held : decodeBody (some name) response.body with
    | error e => simp [Except.bind, Except.map, present, held]
    | ok data => simp [Except.bind, Except.map, present, held, finish]
  · rw [if_neg present]
    simp [Except.bind, present]

/-- In a response of a description that is read, a name of a media type that is declared alone has a
media type: the one that is declared under it. A response that is taken for that declaration, with the
name itself as its media type, is read as this media type exactly if nothing is dropped from the name.
Then its body is decoded, and checked against the schema of the media type. -/
theorem readsAs_declared_iff {loader : Loader} {base : Url} {document : Value}
    {reading : Description.Reading} {location target : Location} {members : Entries Value}
    {node : Value} (read : Description.read loader base document = .ok reading)
    (listed : operation ∈ reading.description.operations)
    (answer : (code, declared) ∈ operation.responses)
    (answers : reading.library.Answers (Location.root base.withoutFragment) operation code location)
    (shows : reading.library.Shows location target members)
    (alone : DeclaresAlone members name node) :
    ∃ media,
      Description.MediaOf (reading.Places loader) ((target.child "content").child name) node media ∧
      ∀ (session : Session) (response : HttpResponse),
        (∀ class', ¬ session.Refuses response class') →
        operation.Routes response.status code declared →
        response.headers.first? "content-type" = some (Text.Utf8.encode name) →
          (declared.ReadsAs response (some (Text.lowerAscii name, media)) ↔ IsBareType name) ∧
          (IsBareType name →
            (session.decode operation response).bind session.finish =
              if missingHeaders response declared.headers = [] then
                (decodeBody (some (Text.lowerAscii name)) response.body).bind fun data =>
                  (session.checkData media.schema data).map fun warnings =>
                    ⟨response.status, code, some (Text.lowerAscii name),
                      session.headerValues declared response, data, warnings⟩
              else .error (.headersMissing (missingHeaders response declared.headers))) := by
  obtain ⟨place, there, found, answers', shows', own⟩ :=
    Description.hasDeclared_of_read read operation listed (code, declared) answer
  obtain rfl := answers.unique answers'
  obtain ⟨rfl, rfl⟩ := shows.unique shows'
  obtain ⟨media, placed, known⟩ := own name node alone
  refine ⟨media, placed, fun session response accepted routes header => ?_⟩
  have reads := readsAs_iff_of_get? header known
  exact ⟨reads, fun bare => finish_of_readsAs accepted routes (reads.mpr bare)⟩

/-! ### Two names of one response -/

/-- The media types of a list of cats: one with a name in mixed case, and one with a parameter. -/
def catsContent : Entries Value :=
  [("Application/JSON", .object [("schema", .object [("type", .string "array")])]),
    ("text/plain; charset=utf-8", .object [("schema", .object [("type", .string "string")])])]

/-- A response with cats. -/
def catsMembers : Entries Value := [("description", .string "cats"), ("content", .object catsContent)]

/-- The operation that lists cats. -/
def catsList : Entries Value := [("responses", .object [("200", .object catsMembers)])]

/-- A description of cats. -/
def catsDocument : Value :=
  .object [
    ("openapi", .string "3.1.0"),
    ("paths", .object [("/cats", .object [("get", .object catsList)])])]

/-- The location of the path item of cats. -/
def catsItem : Location := ⟨Description.treeBase, "/paths/~1cats"⟩

/-- The location of the operation that lists cats. -/
def catsSite : Location := ⟨Description.treeBase, "/paths/~1cats/get"⟩

/-- The location of the response with cats. -/
def catsAnswer : Location := ⟨Description.treeBase, "/paths/~1cats/get/responses/200"⟩

theorem shows_catsAnswer {reading : Description.Reading}
    (read : Description.read Description.noLoader Description.treeBase catsDocument = .ok reading) :
    reading.library.Shows catsAnswer catsAnswer catsMembers :=
  Library.shows_self (Description.node?_of_read read rfl) rfl

/-- The operation that lists cats, and the response that it declares, which may be an empty list. -/
structure ListsCats (reading : Description.Reading) (operation : Operation) (declared : Response) :
    Prop where
  read : Description.read Description.noLoader Description.treeBase catsDocument = .ok reading
  listed : operation ∈ reading.description.operations
  address : operation.path = "/cats" ∧ operation.method = "GET"
  routed : Entries.get? "200" operation.responses = some declared
  headers : declared.headers = []
  names : declared.content.keys = ["application/json", "text/plain; charset=utf-8"]
  admits : ∃ media, Entries.get? "application/json" declared.content = some media ∧
    (ofReading reading .default none).checkData media.schema (.json (.array [])) = .ok []

/-- Whether computing shows such a response. -/
def showsCats (reading : Description.Reading) : Bool :=
  reading.description.operations.any fun operation =>
    decide (operation.path = "/cats" ∧ operation.method = "GET") &&
      (Entries.get? "200" operation.responses).any fun declared =>
        declared.headers.isEmpty &&
          decide (declared.content.keys = ["application/json", "text/plain; charset=utf-8"]) &&
          (Entries.get? "application/json" declared.content).any fun media =>
            ((ofReading reading .default none).checkData media.schema
              (.json (.array []))).toOption.any List.isEmpty

theorem exists_listsCats : ∃ reading operation declared, ListsCats reading operation declared := by
  obtain ⟨reading, read, shown⟩ := @Description.exists_of_any_read Description.noLoader
    Description.treeBase catsDocument showsCats (by decide +kernel)
  obtain ⟨operation, listed, shown⟩ := List.any_eq_true.mp shown
  obtain ⟨address, shown⟩ := Bool.and_eq_true_iff.mp shown
  obtain ⟨declared, routed, shown⟩ := (Option.any_eq_true _ _).mp shown
  simp only [Bool.and_eq_true, List.isEmpty_iff, decide_eq_true_eq] at shown
  obtain ⟨⟨headers, names⟩, checked⟩ := shown
  obtain ⟨media, known, checked⟩ := (Option.any_eq_true _ _).mp checked
  obtain ⟨warnings, checked, none⟩ := exists_of_any _ checked
  rw [List.isEmpty_iff.mp none] at checked
  exact ⟨reading, operation, declared, read, listed, of_decide_eq_true address, routed, headers, names,
    media, known, checked⟩

theorem ListsCats.answers {reading : Description.Reading}
    (cats : ListsCats reading operation declared) :
    reading.library.Answers (Location.root Description.treeBase.withoutFragment) operation "200"
      catsAnswer := by
  have item : reading.library.Shows catsItem catsItem [("get", .object catsList)] :=
    Library.shows_self (Description.node?_of_read cats.read rfl) rfl
  have site : reading.library.Shows catsSite catsSite catsList :=
    Library.shows_self (Description.node?_of_read cats.read rfl) rfl
  obtain ⟨path, method⟩ := cats.address
  have stands : reading.library.StandsAt (Location.root Description.treeBase.withoutFragment)
      operation "get" catsSite := by
    refine ⟨by decide, method, catsItem, [("get", .object catsList)], ?_, rfl, by decide⟩
    rw [path]
    exact item
  exact ⟨"get", catsSite, catsSite, catsList, stands, site, by decide⟩

/-- A response with a name for its media type. -/
def catsResponse (name body : String) : HttpResponse :=
  ⟨200, [("content-type", Text.Utf8.encode name)], Text.Utf8.encode body⟩

theorem not_refuses_catsResponse (reading : Description.Reading) (name body : String)
    (class' : StatusClass) :
    ¬ (ofReading reading .default none).Refuses (catsResponse name body) class' := by
  rintro ⟨own, member⟩
  have success : StatusClass.of? 200 = some .success := rfl
  obtain rfl := Option.some.inj (success.symm.trans own)
  have allowed : StatusClass.success ∉ SessionOptions.default.failOnStatus := by decide
  exact allowed member

theorem isBareType_json : IsBareType "Application/JSON" where
  readable := List.forall_iff_forall_mem.mp (by decide)
  single := by decide
  trimmed := by decide
  nonempty := by decide

/-- A name in mixed case accepts itself. -/
theorem readsAs_catsResponse :
    ∃ reading operation declared node media, ListsCats reading operation declared ∧
      reading.library.Answers (Location.root Description.treeBase.withoutFragment) operation "200"
        catsAnswer ∧
      reading.library.Shows catsAnswer catsAnswer catsMembers ∧
      DeclaresAlone catsMembers "Application/JSON" node ∧
      Description.MediaOf (reading.Places Description.noLoader)
        ((catsAnswer.child "content").child "Application/JSON") node media ∧
      declared.ReadsAs (catsResponse "Application/JSON" "[]") (some ("application/json", media)) ∧
      ((ofReading reading .default none).decode operation
          (catsResponse "Application/JSON" "[]")).bind (ofReading reading .default none).finish =
        .ok ⟨200, "200", some "application/json", [], .json (.array []), []⟩ := by
  obtain ⟨reading, operation, declared, cats⟩ := exists_listsCats
  have shows := shows_catsAnswer cats.read
  have alone : DeclaresAlone catsMembers "Application/JSON" _ :=
    ⟨[], [("text/plain; charset=utf-8", _)], rfl, by decide⟩
  obtain ⟨media, placed, reads⟩ := readsAs_declared_iff cats.read cats.listed
    (Entries.mem_of_get? cats.routed) cats.answers shows alone
  obtain ⟨same, result⟩ := reads (ofReading reading .default none)
    (catsResponse "Application/JSON" "[]") (not_refuses_catsResponse reading _ _) (.exact cats.routed)
    rfl
  have own := same.mpr isBareType_json
  refine ⟨reading, operation, declared, _, media, cats, cats.answers, shows, alone, placed, own, ?_⟩
  obtain ⟨media', known, admits⟩ := cats.admits
  have lower : Text.lowerAscii "Application/JSON" = "application/json" := by decide
  have held : decodeBody (some "application/json") (Text.Utf8.encode "[]") =
      .ok (.json (.array [])) := by with_unfolding_all rfl
  cases own with
  | listed _ found =>
    obtain rfl := Option.some.inj ((lower ▸ found).symm.trans known)
    rw [result isBareType_json, cats.headers, lower]
    simp [missingHeaders, catsResponse, held, Except.bind, Except.map, admits, headerValues,
      cats.headers]

/-- A name with a parameter does not accept itself. -/
theorem name_refuses_itself :
    ∃ reading operation declared node, ListsCats reading operation declared ∧
      reading.library.Answers (Location.root Description.treeBase.withoutFragment) operation "200"
        catsAnswer ∧
      reading.library.Shows catsAnswer catsAnswer catsMembers ∧
      DeclaresAlone catsMembers "text/plain; charset=utf-8" node ∧
      let session := ofReading reading .default none
      let response := catsResponse "text/plain; charset=utf-8" "none"
      (∀ class', ¬ session.Refuses response class') ∧
      operation.Routes response.status "200" declared ∧
      response.headers.first? "content-type" = some (Text.Utf8.encode "text/plain; charset=utf-8") ∧
      (session.decode operation response).bind session.finish =
        .error (.contentType 200 (some "text/plain")
          ["application/json", "text/plain; charset=utf-8"]) := by
  obtain ⟨reading, operation, declared, cats⟩ := exists_listsCats
  let session := ofReading reading .default none
  let response := catsResponse "text/plain; charset=utf-8" "none"
  have accepted := not_refuses_catsResponse reading "text/plain; charset=utf-8" "none"
  have routes : operation.Routes 200 (Decimal.integerText 200) declared := .exact cats.routed
  have media : response.mediaType? = some "text/plain" := by decide
  have missing : "text/plain" ∉ declared.content.keys := by
    rw [cats.names]
    decide
  have untyped : ∀ media, ¬ declared.ReadsAs response media := by
    intro other reads
    cases reads with
    | undeclared empty =>
      have names := cats.names
      rw [empty] at names
      cases names
    | bodiless none _ => rw [media] at none; cases none
    | listed named found =>
      obtain rfl := Option.some.inj (media.symm.trans named)
      exact missing (List.mem_map_of_mem (Entries.mem_of_get? found))
  have outcome : (session.decode operation response).bind session.finish = _ :=
    eq_of_outcome (.undeclaredType accepted routes untyped)
  rw [media, cats.names] at outcome
  exact ⟨reading, operation, declared, _, cats, cats.answers, shows_catsAnswer cats.read,
    ⟨[("Application/JSON", _)], [], rfl, by decide⟩, accepted, routes, rfl, outcome⟩

end Session

end ApiContract
