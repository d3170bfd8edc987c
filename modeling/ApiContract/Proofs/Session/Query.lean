import ApiContract.Proofs.Session.Pairs
import ApiContract.Proofs.Text.FormEncoded
import ApiContract.Proofs.Url.Tail
/-!
# Queries of requests

What the server of a request reads from its query is what the call carries there, pair by pair,
whatever names and values are (`query_of_prepare`). This takes a URL in front of the query that has
none of its own.
-/

namespace ApiContract

open Json (Value)
open Text

/-- A path is filled with characters of its template and of the values. -/
theorem Template.mem_fillIn {values : Entries String} {text : List Char} {c : Char}
    (h : c ∈ fillIn values text) :
    c ∈ text ∨ ∃ name value, Entries.get? name values = some value ∧ c ∈ value.toList := by
  induction text using fillIn.induct with
  | case1 text opened =>
    rw [fillIn_eq, opened] at h
    exact .inl h
  | case2 text before after opened closed ih =>
    rw [fillIn_eq, opened] at h
    simp only [closed, List.mem_append, List.mem_cons] at h
    rw [(eq_of_cutAt? opened).1]
    simp only [List.mem_append, List.mem_cons]
    grind
  | case3 text before after opened name rest closed ih =>
    rw [fillIn_eq, opened] at h
    simp only [closed, List.mem_append] at h
    rw [(eq_of_cutAt? opened).1, (eq_of_cutAt? closed).1]
    simp only [List.mem_append, List.mem_cons]
    rcases h with (own | filled) | further
    · exact .inl (.inl own)
    · unfold valueText at filled
      cases found : Entries.get? (String.ofList name) values with
      | none => simp [found] at filled
      | some value =>
        rw [found] at filled
        exact .inr ⟨_, value, found, filled⟩
    · grind

theorem Template.mem_fillPath {values : Entries String} {template : String} {c : Char}
    (h : c ∈ (fillPath values template).toList) :
    c = '/' ∨ c ∈ template.toList ∨
      ∃ name value, Entries.get? name values = some value ∧ c ∈ value.toList := by
  rw [fillPath, String.toList_ofList] at h
  unfold rooted at h
  split at h
  · next rest begins => exact .inr (mem_fillIn (begins ▸ h))
  · exact (List.mem_cons.mp h).imp id mem_fillIn

namespace Session

variable {session : Session} {operation : Operation} {supplied : Entries Value}
  {payload : Option Payload} {prepared : PreparedRequest}

/-- A URL that is put together has no other query than the pairs. -/
theorem query_of_requestUrl {path : Entries String} {query : List (String × String)}
    {server url : Url} (located : session.serverUrl (session.serverOf operation) = .ok server)
    (noQuery : '?' ∉ server.text.toList) (template : '?' ∉ operation.path.toList)
    (values : ∀ name text, Entries.get? name path = some text → IsPathText text)
    (h : session.requestUrl operation path query = .ok url) :
    url.query = Url.extendQuery none query := by
  obtain ⟨own, located', put⟩ := exists_of_bind_eq_ok h
  obtain rfl : own = server := Except.ok.inj (located'.symm.trans located)
  simp only at put
  split at put
  · next target parsed =>
    cases put
    have none : target.query = none := by
      refine Url.query_of_parse parsed ?_
      rw [String.toList_append, List.mem_append, not_or]
      refine ⟨fun member => noQuery ?_, fun member => ?_⟩
      · rw [dropTrailingSlashes, String.toList_ofList, List.mem_reverse] at member
        exact List.mem_reverse.mp ((List.dropWhile_sublist _).subset member)
      · rcases Template.mem_fillPath member with slash | own | ⟨name, text, found, inside⟩
        · cases slash
        · exact template own
        · exact absurd (values name text found _ inside) (by decide)
    rw [Url.addPairs, none]
  · cases put

/-- Reading pairs from a query that has been extended by pairs from nothing. -/
theorem decode_extendQuery (pairs : List (String × String)) :
    (Url.extendQuery none pairs = none ↔ pairs = []) ∧
      FormEncoded.decode ((Url.extendQuery none pairs).getD "") = pairs := by
  cases pairs with
  | nil => exact ⟨Iff.intro (fun _ => rfl) fun _ => rfl, by decide⟩
  | cons pair rest =>
    have written : Url.extendQuery none (pair :: rest) = some (FormEncoded.encode (pair :: rest)) := rfl
    rw [written]
    exact ⟨by simp, FormEncoded.decode_encode _⟩

/-- Of a request that is prepared the query is read as the pairs that the call carries there: what
each parameter of the query that is supplied writes, in the order of declaration, then the keys of the
alternative that the session takes, in its order. Where there are none, there is no query. -/
theorem query_of_prepare {server : Url}
    (h : (session.prepare operation supplied payload).1 = .ok prepared)
    (located : session.serverUrl (session.serverOf operation) = .ok server)
    (noQuery : '?' ∉ server.text.toList) (template : '?' ∉ operation.path.toList) :
    ∃ pairs, session.Carries operation supplied .query pairs ∧
      (prepared.request.url.query = none ↔ pairs = []) ∧
      FormEncoded.decode (prepared.request.url.query.getD "") = pairs := by
  obtain ⟨parameters, applied, encoding, secured, assembled⟩ := exists_of_prepare_eq_ok h
  obtain ⟨-, -, put⟩ := exists_of_assemble_eq_ok assembled
  have query := query_of_requestUrl located noQuery template (isPathText_of_encodeSupplied encoding) put
  rw [query]
  exact ⟨_, carries_of_prepare (.inl rfl) encoding secured, decode_extendQuery _⟩

/-- A description of a search with two parameters and a key in its query. -/
def searchDocument : Value :=
  let parameter (name : String) := Value.object [("name", .string name), ("in", .string "query")]
  let key := Value.object [("type", .string "apiKey"), ("in", .string "query"), ("name", .string "key")]
  .object [
    ("openapi", .string "3.1.0"),
    ("servers", .array [.object [("url", .string "http://h/v1")]]),
    ("paths", .object [("/items", .object [("get", .object [
      ("parameters", .array [parameter "q", parameter "filter"]),
      ("responses", .object [])])])]),
    ("components", .object [("securitySchemes", .object [("key", key)])]),
    ("security", .array [.object [("key", .array [])]])]

/-- A session that has the key. -/
def searchSession (reading : Description.Reading) : Session :=
  { ofReading reading .default none with credentials := [("key", .secret "1+1")] }

/-- What is searched for: a text with marks in it, and an object of which each member is a pair. -/
def searchValues : Entries Value :=
  [("filter", .object [("k=", .string ""), ("", .string "\u00e9")]), ("q", .string "a&b=c")]

/-- The marks in texts and names, and what is empty, come through. -/
theorem query_searchRequest :
    ∃ reading operation prepared,
      readAt Description.noLoader "http://h/openapi.json" searchDocument = .ok reading ∧
        operation ∈ reading.description.operations ∧
        ((searchSession reading).prepare operation searchValues none).1 = .ok prepared ∧
        (searchSession reading).Carries operation searchValues .query
          [("q", "a&b=c"), ("k=", ""), ("", "\u00e9"), ("key", "1+1")] ∧
        prepared.request.url.query = some "q=a%26b%3Dc&k%3D=&=%C3%A9&key=1%2B1" := by
  have shown : (readAt Description.noLoader "http://h/openapi.json" searchDocument).toOption.any
      (fun reading => reading.description.operations.any fun operation =>
        operation.path = "/items" &&
          (((searchSession reading).serverUrl ((searchSession reading).serverOf operation)).toOption.any
            fun server => server.text = "http://h/v1") &&
          ((searchSession reading).prepare operation searchValues none).1.toOption.any fun prepared =>
            prepared.request.url.query = some "q=a%26b%3Dc&k%3D=&=%C3%A9&key=1%2B1") = true := by
    decide +kernel
  obtain ⟨reading, read, shown⟩ := exists_of_any _ shown
  obtain ⟨operation, declared, shown⟩ := List.any_eq_true.mp shown
  simp only [Bool.and_eq_true, decide_eq_true_eq] at shown
  obtain ⟨⟨path, located⟩, prepared⟩ := shown
  obtain ⟨server, located, text⟩ := exists_of_any _ located
  obtain ⟨prepared, preparing, query⟩ := exists_of_any _ prepared
  have query := of_decide_eq_true query
  have plain : '?' ∉ server.text.toList := by
    rw [of_decide_eq_true text]
    decide
  obtain ⟨pairs, carries, -, written⟩ :=
    query_of_prepare preparing located plain (by rw [path]; decide)
  have same : "q=a%26b%3Dc&k%3D=&=%C3%A9&key=1%2B1" =
      FormEncoded.encode [("q", "a&b=c"), ("k=", ""), ("", "\u00e9"), ("key", "1+1")] := by
    decide
  rw [query, Option.getD_some, same, FormEncoded.decode_encode] at written
  exact ⟨reading, operation, prepared, read, declared, preparing, written ▸ carries, query⟩

end Session

end ApiContract
