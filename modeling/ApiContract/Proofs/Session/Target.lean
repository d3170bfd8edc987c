import ApiContract.Proofs.Description.WellFormed
import ApiContract.Proofs.Parameter.Template
import ApiContract.Proofs.Session.Admission
/-!
# Where requests go

The path of a request is that of the server with the operation's path behind it, segment by segment,
whatever values the placeholders of that path take: none of them ends the segment that it stands in.
What they can do is to make a segment one that means the one above or the one that it stands in, as
points are written as they are. Such a segment is resolved, so that the request goes elsewhere
(`path_of_prepare_iff`).
-/

namespace ApiContract

open Json (Value)

/-- The values for the placeholders of an operation's path are those that are supplied for its
parameters in the path, as these are written. -/
def Operation.Writes (operation : Operation) (supplied : Entries Value) (values : Entries String) :
    Prop :=
  ∀ name ∈ Template.names operation.path, ∃ p ∈ operation.parameters,
    p.location = .path ∧ p.name = name ∧
      ∃ value ∈ Entries.get? name supplied, ∃ text ∈ Entries.get? name values,
        p.encode value = .ok (.text text)

/-- The URL of a description is the one that it is read from. -/
theorem Description.base_of_read {loader : Loader} {base : Url} {document : Value}
    {reading : Description.Reading} (h : Description.read loader base document = .ok reading) :
    reading.description.base = base := by
  obtain ⟨dialect, state, root, -, -⟩ := Description.readRoot_of_read h
  refine (?_ : Build.Yields _ fun description => description.base = base) _ _ _ root
  refine .bind (.any _) fun members _ => ?_
  refine .bind (.any _) fun schemas _ => ?_
  refine .bind (.any _) fun securitySchemes _ => ?_
  refine .bind (.any _) fun security _ => ?_
  refine .bind (.any _) fun servers _ => ?_
  refine .bind (.any _) fun operations _ => ?_
  exact .bind (.any _) fun _ _ => .pure rfl

theorem Url.path_addPairs (url : Url) (pairs : List (String × String)) :
    (url.addPairs pairs).path = url.path := rfl

namespace Session

variable {session : Session} {operation : Operation} {supplied : Entries Value}
  {payload : Option Payload} {parameter : Parameter} {parameters : List Parameter} {value : Value}
  {sofar after encoded : EncodedParameters}

/-! ### The values of the placeholders -/

theorem path_place {encoded : EncodedValue} (elsewhere : parameter.location ≠ .path)
    (h : place parameter encoded sofar = .ok after) : after.path = sofar.path := by
  unfold place at h
  split at h
  · next travels => exact absurd travels elsewhere
  · obtain ⟨headers, -, rfl⟩ := exists_of_map_eq_ok h
    rfl
  all_goals
    cases h
    rfl

/-- A parameter in the path adds its own value to those of the path, and others leave them alone. -/
theorem path_encodeParameter (h : session.encodeParameter parameter value sofar = .ok after) :
    (parameter.location = .path → ∃ text, parameter.encode value = .ok (.text text) ∧
      after.path = Entries.put parameter.name text sofar.path) ∧
    (parameter.location ≠ .path → after.path = sofar.path) := by
  obtain ⟨_, -, written⟩ := exists_of_bind_eq_ok h
  cases own : parameter.encode value with
  | error cause => simp [own] at written
  | ok encoded =>
    simp only [own] at written
    refine ⟨fun travels => ?_, fun elsewhere => path_place elsewhere written⟩
    obtain ⟨text, rfl, -⟩ := Parameter.exists_text_of_encode travels own
    simp only [place, travels] at written
    exact ⟨text, rfl, (congrArg EncodedParameters.path (Except.ok.inj written)).symm⟩

/-- After all parameters the value of a name in the path is what a parameter writes for it, unless
none has been supplied. -/
theorem path_encodeParameters (h : session.encodeParameters supplied parameters sofar = .ok encoded)
    (name : String) :
    (∃ p ∈ parameters, p.location = .path ∧ p.name = name ∧
      ∃ value ∈ Entries.get? name supplied, ∃ text ∈ Entries.get? name encoded.path,
        p.encode value = .ok (.text text)) ∨
    (Entries.get? name encoded.path = Entries.get? name sofar.path ∧
      ∀ p ∈ parameters, p.location = .path → p.name = name → Entries.get? name supplied = none) := by
  induction parameters generalizing sofar with
  | nil =>
    cases h
    exact .inr ⟨rfl, by simp⟩
  | cons parameter rest ih =>
    rw [encodeParameters] at h
    split at h
    · next missing =>
      rcases ih h with ⟨p, member, facts⟩ | ⟨same, none⟩
      · exact .inl ⟨p, List.mem_cons_of_mem _ member, facts⟩
      · refine .inr ⟨same, List.forall_mem_cons.mpr ⟨?_, none⟩⟩
        rintro - rfl
        exact missing
    · next value given =>
      split at h
      · cases h
      next after step =>
      rcases ih h with ⟨p, member, facts⟩ | ⟨same, none⟩
      · exact .inl ⟨p, List.mem_cons_of_mem _ member, facts⟩
      obtain ⟨put, kept⟩ := path_encodeParameter step
      by_cases travels : parameter.location = .path
      · obtain ⟨text, written, path⟩ := put travels
        rw [path, Entries.get?_put] at same
        by_cases own : name = parameter.name
        · subst own
          rw [if_pos rfl] at same
          exact .inl ⟨parameter, List.mem_cons_self, travels, rfl, value, given, text, same, written⟩
        · rw [if_neg own] at same
          exact .inr ⟨same, List.forall_mem_cons.mpr ⟨fun _ other => absurd other.symm own, none⟩⟩
      · rw [kept travels] at same
        exact .inr ⟨same, List.forall_mem_cons.mpr ⟨fun other => absurd other travels, none⟩⟩

theorem encodeParameters_of_encodeSupplied
    (h : session.encodeSupplied operation supplied = .ok encoded) :
    session.encodeParameters supplied operation.parameters ⟨[], [], [], []⟩ = .ok encoded := by
  unfold encodeSupplied at h
  split at h
  · cases h
  · exact h

/-- Every placeholder has the value that is supplied for it. -/
theorem writes_of_encodeSupplied (good : operation.WellFormed)
    (h : session.encodeSupplied operation supplied = .ok encoded) :
    operation.Writes supplied encoded.path := by
  intro name placeholder
  obtain ⟨p, member, travels, rfl⟩ := (good.placeholders name).mp placeholder
  have given := (encodeSupplied_spec h).2.1 p member (.inr travels)
  rcases path_encodeParameters (encodeParameters_of_encodeSupplied h) p.name with found | ⟨-, none⟩
  · exact found
  · rw [← Entries.get?_isSome_iff, none p member travels rfl] at given
    cases given

/-- Whatever the values are, their characters stand for themselves in a path. -/
theorem isPathText_of_encodeSupplied (h : session.encodeSupplied operation supplied = .ok encoded)
    (name text : String) (own : Entries.get? name encoded.path = some text) : IsPathText text := by
  rcases path_encodeParameters (encodeParameters_of_encodeSupplied h) name with
    ⟨p, -, travels, -, value, -, other, found, written⟩ | ⟨none, -⟩
  · rw [own] at found
    cases found
    obtain ⟨_, same, plain⟩ := Parameter.exists_text_of_encode travels written
    cases same
    exact plain
  · rw [own] at none
    cases none

/-! ### The URL -/

theorem wellFormed_of_parseBase {text : String} {base : Url} (h : parseBase text = .ok base) :
    base.WellFormed ∧ base.Schemed := by
  have parsed {text : String} {url : Url} (h : Url.parse text = .ok url) :
      url.WellFormed ∧ url.Schemed := ⟨Url.wellFormed_of_parse h, Url.schemed_of_parse h⟩
  simp only [parseBase] at h
  split at h
  · next url found =>
    cases h
    split at found
    · obtain ⟨root, file, joined⟩ := exists_of_bind_eq_ok found
      obtain ⟨wellFormed, schemed⟩ := parsed file
      exact ⟨Url.wellFormed_of_join wellFormed joined, Url.schemed_of_join schemed joined⟩
    · exact parsed found
  · cases h

/-- The URL of a server is one that is read behind the one of the description. -/
theorem wellFormed_of_serverUrl {server : Server} {url : Url}
    (base : session.description.base.WellFormed ∧ session.description.base.Schemed)
    (h : session.serverUrl server = .ok url) : url.WellFormed ∧ url.Schemed := by
  obtain ⟨filled, -, joined⟩ := exists_of_bind_eq_ok h
  simp only at joined
  split at joined
  · next own found =>
    cases joined
    exact ⟨Url.wellFormed_of_join base.1 found, Url.schemed_of_join base.2 found⟩
  · cases joined

/-- The URL of a request is put together from the values that are encoded for its path. -/
theorem exists_of_prepare {prepared : PreparedRequest}
    (h : (session.prepare operation supplied payload).1 = .ok prepared) :
    ∃ encoded query, session.encodeSupplied operation supplied = .ok encoded ∧
      session.requestUrl operation encoded.path query = .ok prepared.request.url := by
  obtain ⟨parameters, applied, encoding, -, assembled⟩ := exists_of_prepare_eq_ok h
  obtain ⟨-, -, located⟩ := exists_of_assemble_eq_ok assembled
  exact ⟨parameters, _, encoding, located⟩

/-- The path of a URL that is put together is that of the server and the template's segments, filled,
exactly if none of these is to be resolved. -/
theorem path_of_requestUrl_iff {path : Entries String} {query : List (String × String)}
    {server url : Url} (good : server.WellFormed ∧ server.Schemed)
    (located : session.serverUrl (session.serverOf operation) = .ok server)
    (plain : server.IsPlain) (template : Template.IsPlain operation.path)
    (values : ∀ name text, Entries.get? name path = some text → IsPathText text)
    (leads : server.Leads (server.stem ++ Template.fillSegments path operation.path))
    (begins : operation.path.toList.head? = some '/' ∨
      (Template.fillSegments path operation.path).head? ≠ some "")
    (h : session.requestUrl operation path query = .ok url) :
    url.path = .rooted (server.stem ++ Template.fillSegments path operation.path) ↔
      ∀ s ∈ Template.fillSegments path operation.path, Url.isDots s = false := by
  have chars := Template.plain_fillSegments template values
  obtain ⟨own, located', put⟩ := exists_of_bind_eq_ok h
  obtain rfl : own = server := Except.ok.inj (located'.symm.trans located)
  have extended : (dropTrailingSlashes own.text ++ Template.fillPath path operation.path).toList =
      own.bare ++ Url.segmentChars (Template.fillSegments path operation.path) := by
    rw [String.toList_append, Template.toList_fillPath chars begins]
    simp [dropTrailingSlashes, Url.bare, List.rdropWhile]
  simp only at put
  split at put
  · next target parsed =>
    cases put
    rw [Url.path_addPairs]
    exact Url.path_of_extended_iff good.1 good.2 plain leads chars
      (Template.fillSegments_ne_nil path operation.path) extended parsed
  · cases put

/-- Of a request that is prepared for an operation of a description the path is that of the server,
followed by the segments of the operation's path with the values for their placeholders, exactly if
no value makes one of these a segment that is to be resolved. The first of all segments has to be one
that begins a path, which is no question behind a host and a slash. -/
theorem path_of_prepare_iff {loader : Loader} {base : String} {document : Value}
    {reading : Description.Reading} {prepared : PreparedRequest} {server : Url}
    (distinct : document.hasDistinctNames = true)
    (read : readAt loader base document = .ok reading)
    (same : session.description = reading.description)
    (declared : operation ∈ session.description.operations)
    (h : (session.prepare operation supplied payload).1 = .ok prepared)
    (located : session.serverUrl (session.serverOf operation) = .ok server)
    (plain : server.IsPlain) (template : Template.IsPlain operation.path) :
    ∃ encoded, session.encodeSupplied operation supplied = .ok encoded ∧
      operation.Writes supplied encoded.path ∧
      let filled := Template.fillSegments encoded.path operation.path
      server.Leads (server.stem ++ filled) →
        operation.path.toList.head? = some '/' ∨ filled.head? ≠ some "" →
          (prepared.request.url.path = .rooted (server.stem ++ filled) ↔
            ∀ s ∈ filled, Url.isDots s = false) := by
  obtain ⟨url, parsed, read⟩ := exists_of_bind_eq_ok read
  obtain ⟨encoded, query, encoding, put⟩ := exists_of_prepare h
  obtain ⟨dialect, state, root, -, -⟩ := Description.readRoot_of_read read
  have wellFormed := (Description.sound_of_readRoot root).2 distinct
  have base : session.description.base = url := by rw [same, Description.base_of_read read]
  have good := wellFormed_of_serverUrl (base ▸ wellFormed_of_parseBase parsed) located
  refine ⟨encoded, encoding, ?_, fun leads begins => ?_⟩
  · exact writes_of_encodeSupplied (wellFormed.operations operation (same ▸ declared)) encoding
  · exact path_of_requestUrl_iff good located plain template
      (isPathText_of_encodeSupplied encoding) leads begins put

/-- A description of items on a host, of which the end can be read. -/
def itemDocument : Value :=
  let id := Value.object [("name", .string "id"), ("in", .string "path"), ("required", .bool true)]
  .object [
    ("openapi", .string "3.1.0"),
    ("servers", .array [.object [("url", .string "http://h/v1")]]),
    ("paths", .object [("/items/{id}/tail", .object [("get", .object [
      ("parameters", .array [id]),
      ("responses", .object [])])])])]

/-- The server of the items. -/
def itemServer : Url :=
  { (default : Url) with scheme := "http", host := some (.name "h"), path := .rooted ["v1"] }

theorem isPlain_itemServer : itemServer.IsPlain where
  query := by decide
  fragment := by decide
  rooted := by decide
  unmarked := by decide
  authority := by
    rintro host own
    obtain rfl := Option.some.inj own
    exact List.forall_iff_forall_mem.mp (by decide)
  segments := by
    intro s member
    obtain rfl := List.mem_singleton.mp member
    exact ⟨by decide, List.all_eq_true.mp (by decide)⟩

/-- A request for the end of an item: its number as it is given and as it is written, and the path of
the request. -/
structure ItemRequest (id written : String) (path : List String) (reading : Description.Reading)
    (operation : Operation) (encoded : EncodedParameters) (prepared : PreparedRequest) : Prop where
  declared : operation ∈ reading.description.operations
  template : operation.path = "/items/{id}/tail"
  encoding : (ofReading reading .default none).encodeSupplied operation [("id", .string id)] =
    .ok encoded
  values : encoded.path = [("id", written)]
  located : (ofReading reading .default none).serverUrl
    ((ofReading reading .default none).serverOf operation) = .ok itemServer
  preparing : ((ofReading reading .default none).prepare operation [("id", .string id)] none).1 =
    .ok prepared
  path : prepared.request.url.path = .rooted path

/-- Whether computing shows such a request. -/
def showsRequest (id written : String) (path : List String) (reading : Description.Reading) : Bool :=
  let session := ofReading reading .default none
  reading.description.operations.any fun operation =>
    operation.path = "/items/{id}/tail" &&
      ((session.encodeSupplied operation [("id", .string id)]).toOption.any fun encoded =>
        encoded.path = [("id", written)]) &&
      ((session.serverUrl (session.serverOf operation)).toOption.any fun server =>
        server = itemServer) &&
      ((session.prepare operation [("id", .string id)] none).1.toOption.any fun prepared =>
        prepared.request.url.path = .rooted path)

/-- The description is read, and computing shows both requests. -/
theorem exists_itemReading :
    ∃ reading, readAt Description.noLoader "http://h/openapi.json" itemDocument = .ok reading ∧
      showsRequest "a/../b" "a%2F..%2Fb" ["v1", "items", "a%2F..%2Fb", "tail"] reading = true ∧
      showsRequest ".." ".." ["v1", "tail"] reading = true := by
  obtain ⟨reading, read, shown⟩ := @exists_of_any _ _
    (readAt Description.noLoader "http://h/openapi.json" itemDocument)
    (fun reading => showsRequest "a/../b" "a%2F..%2Fb" ["v1", "items", "a%2F..%2Fb", "tail"] reading &&
      showsRequest ".." ".." ["v1", "tail"] reading) (by decide +kernel)
  exact ⟨reading, read, Bool.and_eq_true_iff.mp shown⟩

theorem exists_itemRequest {id written : String} {path : List String} {reading : Description.Reading}
    (shown : showsRequest id written path reading = true) :
    ∃ operation encoded prepared, ItemRequest id written path reading operation encoded prepared := by
  obtain ⟨operation, declared, shown⟩ := List.any_eq_true.mp shown
  simp only [Bool.and_eq_true, decide_eq_true_eq] at shown
  obtain ⟨⟨⟨template, encoding⟩, located⟩, prepared⟩ := shown
  obtain ⟨encoded, encoding, values⟩ := exists_of_any _ encoding
  obtain ⟨server, located, same⟩ := exists_of_any _ located
  obtain ⟨prepared, preparing, path⟩ := exists_of_any _ prepared
  obtain rfl := of_decide_eq_true same
  exact ⟨operation, encoded, prepared, declared, template, encoding, of_decide_eq_true values,
    located, preparing, of_decide_eq_true path⟩

/-- A number with slashes and points stays in its segment. -/
theorem path_itemRequest :
    ∃ reading operation prepared,
      readAt Description.noLoader "http://h/openapi.json" itemDocument = .ok reading ∧
        operation ∈ reading.description.operations ∧
        ((ofReading reading .default none).prepare operation [("id", .string "a/../b")] none).1 =
          .ok prepared ∧
        prepared.request.url.path = .rooted ["v1", "items", "a%2F..%2Fb", "tail"] := by
  obtain ⟨reading, read, shown, -⟩ := exists_itemReading
  obtain ⟨operation, encoded, prepared, request⟩ := exists_itemRequest shown
  obtain ⟨own, encoding, -, moves⟩ := path_of_prepare_iff (by decide) read rfl
    request.declared request.preparing request.located isPlain_itemServer
    (by rw [request.template]; decide)
  obtain rfl : own = encoded := Except.ok.inj (encoding.symm.trans request.encoding)
  have filled : Template.fillSegments own.path operation.path = ["items", "a%2F..%2Fb", "tail"] := by
    rw [request.values, request.template]
    decide
  simp only [filled] at moves
  refine ⟨reading, operation, prepared, read, request.declared, request.preparing, ?_⟩
  exact (moves (by decide) (.inr (by decide))).mpr (by decide)

/-- Two points for a number lead to the end of what the server holds, instead of that of an item. -/
theorem item_resolved :
    ∃ reading operation encoded prepared,
      readAt Description.noLoader "http://h/openapi.json" itemDocument = .ok reading ∧
        ItemRequest ".." ".." ["v1", "tail"] reading operation encoded prepared ∧
        itemServer.IsPlain ∧ Template.IsPlain operation.path ∧
        prepared.request.url.path ≠
          .rooted (itemServer.stem ++ Template.fillSegments encoded.path operation.path) := by
  obtain ⟨reading, read, -, shown⟩ := exists_itemReading
  obtain ⟨operation, encoded, prepared, request⟩ := exists_itemRequest shown
  refine ⟨reading, operation, encoded, prepared, read, request, isPlain_itemServer, ?_, ?_⟩
  · rw [request.template]
    decide
  · rw [request.path, request.values, request.template]
    decide

end Session

end ApiContract
