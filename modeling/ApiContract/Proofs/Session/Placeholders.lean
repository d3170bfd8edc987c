import ApiContract.Proofs.Parameter.Interleaving
import ApiContract.Proofs.Session.Target
/-!
# Placeholders of paths

Once the parameters of a call are checked and written, each placeholder of the operation's path has a
text: what the parameter of its name writes for the value that is supplied (`Operation.Fills`). These
texts take the places of the placeholders, and nothing else in the path changes, unless it begins
without a slash (`filled_of_encodeSupplied`).
-/

namespace ApiContract

open Json (Value)

/-- What a parameter in the path writes for a value: JSON, encoded, where it has a media type, and
else what its style says. -/
def Parameter.pathText (parameter : Parameter) (value : Value) : Except CodecError String :=
  if parameter.mediaType.isSome then
    .ok (Text.Percent.encode Parameter.isPathReserved value.render)
  else Parameter.encodePath parameter.name parameter.style parameter.explode value

/-- The text is what is written for a placeholder of that name: what the only parameter of the name in
the path writes for the value that is supplied. -/
def Operation.Fills (operation : Operation) (supplied : Entries Value) (values : Entries String)
    (name text : String) : Prop :=
  Entries.get? name values = some text ∧
    ∃ p ∈ operation.parameters, p.location = .path ∧ p.name = name ∧
      (∀ other ∈ operation.parameters, other.location = .path → other.name = name → other = p) ∧
      ∃ value ∈ Entries.get? name supplied, p.pathText value = .ok text

theorem Parameter.encode_of_path {parameter : Parameter} (travels : parameter.location = .path)
    (value : Value) : parameter.encode value = (parameter.pathText value).map .text := by
  unfold encode pathText
  split
  · rw [encodeContent, travels]
    rfl
  · rw [travels]

/-- Parameters of an operation are told apart in the path by their names. -/
theorem Parameter.WellFormed.eq_of_path {parameters : List Parameter} {p q : Parameter}
    (good : Parameter.WellFormed parameters) (hp : p ∈ parameters) (hq : q ∈ parameters)
    (travels : p.location = .path) (travels' : q.location = .path) (same : p.name = q.name) :
    p = q := by
  refine List.inj_on_of_nodup_map good.distinct hp hq ?_
  rw [Parameter.key, Parameter.key, same, travels, travels']

namespace Session

variable {session : Session} {operation : Operation} {supplied : Entries Value}
  {encoded : EncodedParameters}

/-- No placeholder is left without a text. -/
theorem fills_of_encodeSupplied (good : operation.WellFormed)
    (h : session.encodeSupplied operation supplied = .ok encoded) :
    ∀ name ∈ Template.names operation.path,
      operation.Fills supplied encoded.path name ((Entries.get? name encoded.path).getD "") := by
  intro name placeholder
  obtain ⟨p, member, travels, rfl, value, given, text, found, written⟩ :=
    writes_of_encodeSupplied good h name placeholder
  rw [Parameter.encode_of_path travels] at written
  obtain ⟨own, written, same⟩ := exists_of_map_eq_ok written
  cases same
  rw [Option.mem_def] at found
  rw [found]
  refine ⟨found, p, member, travels, rfl, fun other listed there same => ?_, value, given, written⟩
  exact good.parameters.eq_of_path listed member there travels same

/-- Once the parameters of a call are checked and written, each placeholder in the path of the
operation has the text that its parameter writes for the value that is supplied. What is put behind
the server's URL is the path with these texts for the placeholders, after a slash if it would not
begin with one. -/
theorem filled_of_encodeSupplied {loader : Loader} {base : String} {document : Value}
    {reading : Description.Reading} (read : readAt loader base document = .ok reading)
    (same : session.description = reading.description)
    (declared : operation ∈ session.description.operations)
    (h : session.encodeSupplied operation supplied = .ok encoded) :
    ∃ texts,
      List.Forall₂ (operation.Fills supplied encoded.path) (Template.names operation.path) texts ∧
      Template.interleaved (Template.literals operation.path)
        ((Template.names operation.path).map Template.braced) = operation.path.toList ∧
      Template.fillPath encoded.path operation.path = String.ofList (Template.rooted
        (Template.interleaved (Template.literals operation.path) (texts.map String.toList))) ∧
      ∀ payload prepared, (session.prepare operation supplied payload).1 = .ok prepared →
        ∃ server target query, session.serverUrl (session.serverOf operation) = .ok server ∧
          Url.parse (dropTrailingSlashes server.text ++
            Template.fillPath encoded.path operation.path) = .ok target ∧
          prepared.request.url = target.addPairs query := by
  obtain ⟨url, -, read⟩ := exists_of_bind_eq_ok read
  have good := ((Description.sound_of_read read).operations operation (same ▸ declared)).1
  have fills := fills_of_encodeSupplied good h
  refine ⟨(Template.names operation.path).map fun name => (Entries.get? name encoded.path).getD "",
    List.forall₂_map_right_iff.mpr (List.forall₂_same.mpr fills), Template.interleaved_braced _, ?_,
    fun payload prepared preparing => ?_⟩
  · rw [Template.fillPath_eq_interleaved, List.map_map]
    rfl
  · obtain ⟨own, query, encoding, put⟩ := exists_of_prepare preparing
    obtain rfl : own = encoded := Except.ok.inj (encoding.symm.trans h)
    obtain ⟨server, located, put⟩ := exists_of_bind_eq_ok put
    simp only at put
    split at put
    · next target parsed =>
      exact ⟨server, target, query, located, parsed, (Except.ok.inj put).symm⟩
    · cases put

/-- A number with slashes and points takes the place of its placeholder, encoded. -/
theorem filled_itemRequest :
    ∃ reading operation encoded,
      readAt Description.noLoader "http://h/openapi.json" itemDocument = .ok reading ∧
        operation ∈ reading.description.operations ∧
        (ofReading reading .default none).encodeSupplied operation [("id", .string "a/../b")] =
          .ok encoded ∧
        operation.Fills [("id", .string "a/../b")] encoded.path "id" "a%2F..%2Fb" ∧
        Template.fillPath encoded.path operation.path = "/items/a%2F..%2Fb/tail" := by
  obtain ⟨reading, read, shown, -⟩ := exists_itemReading
  obtain ⟨operation, encoded, prepared, request⟩ := exists_itemRequest shown
  obtain ⟨texts, fills, -, path, -⟩ := filled_of_encodeSupplied read rfl request.declared
    request.encoding
  have names : Template.names "/items/{id}/tail" = ["id"] := by decide +kernel
  rw [request.template] at fills path
  rw [names] at fills
  cases fills with
  | cons own rest =>
    cases rest
    have written := own.1
    rw [request.values] at written
    obtain rfl := Option.some.inj written
    refine ⟨reading, operation, encoded, read, request.declared, request.encoding, own, ?_⟩
    rw [request.template, path]
    decide +kernel

/-- A description of slots, the path of which begins without a slash. -/
def slotDocument : Value :=
  let id := Value.object [("name", .string "id"), ("in", .string "path"), ("required", .bool true)]
  .object [
    ("openapi", .string "3.1.0"),
    ("servers", .array [.object [("url", .string "http://h/v1")]]),
    ("paths", .object [("slots/{id}", .object [("get", .object [
      ("parameters", .array [id]),
      ("responses", .object [])])])])]

/-- What is put behind the server's URL has a slash in front of the path with its placeholder filled. -/
theorem slash_added :
    ∃ reading operation encoded,
      readAt Description.noLoader "http://h/openapi.json" slotDocument = .ok reading ∧
        operation ∈ reading.description.operations ∧
        (ofReading reading .default none).encodeSupplied operation [("id", .ofInt 5)] =
          .ok encoded ∧
        Template.fillPath encoded.path operation.path = "/slots/5" ∧
        Template.fillPath encoded.path operation.path ≠ String.ofList
          (Template.interleaved (Template.literals operation.path)
            ((Template.names operation.path).map (Template.valueText encoded.path))) := by
  have shown : (readAt Description.noLoader "http://h/openapi.json" slotDocument).toOption.any
      (fun reading => reading.description.operations.any fun operation =>
        operation.path = "slots/{id}" &&
          ((ofReading reading .default none).encodeSupplied operation
            [("id", .ofInt 5)]).toOption.any fun encoded => encoded.path = [("id", "5")]) = true := by
    decide +kernel
  obtain ⟨reading, read, shown⟩ := exists_of_any _ shown
  obtain ⟨operation, declared, shown⟩ := List.any_eq_true.mp shown
  obtain ⟨template, encoding⟩ := Bool.and_eq_true_iff.mp shown
  obtain ⟨encoded, encoding, values⟩ := exists_of_any _ encoding
  refine ⟨reading, operation, encoded, read, declared, encoding, ?_, ?_⟩
  all_goals
    rw [of_decide_eq_true values, of_decide_eq_true template]
    decide +kernel

end Session

end ApiContract
