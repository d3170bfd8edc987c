import ApiContract.Proofs.Session.Pairs
import ApiContract.Proofs.Text.Decoding
import ApiContract.Proofs.Text.Pieces
/-!
# Cookies of requests

The cookies of a request are put together in one header as they are, and nothing in them is escaped.
What the server reads when it cuts the header at its marks are the pairs that the call carries, exactly
if no pair has such a mark inside (`cookies_of_prepare_iff`): a value with a semicolon and a blank in it
makes a cookie of its own.
-/

namespace ApiContract

open Json (Value)
open Text

/-- What stands between two cookies. -/
def cookieMark : List Char := [';', ' ']

/-- The pieces of a text around each mark; there is always at least one. -/
def cookiePieces : List Char → List (List Char)
  | [] => [[]]
  | ';' :: ' ' :: rest => [] :: cookiePieces rest
  | c :: rest => (cookiePieces rest).modifyHead (c :: ·)

/-- The name and the value in a piece, around its first equals sign. -/
def readCookie (piece : List Char) : String × String :=
  match cutAt? '=' piece with
  | some (name, value) => (String.ofList name, String.ofList value)
  | none => (String.ofList piece, "")

/-- The cookies that a server reads from a header. -/
def readCookies (header : String) : List (String × String) :=
  (cookiePieces header.toList).map readCookie

/-- A cookie as it is written. -/
def cookieChars (pair : String × String) : List Char := pair.1.toList ++ '=' :: pair.2.toList

/-- A cookie has no mark inside: none between cookies, and in its name none between name and value. -/
def IsSeparable (pair : String × String) : Prop :=
  '=' ∉ pair.1.toList ∧ ¬ cookieMark <:+: pair.1.toList ∧ ¬ cookieMark <:+: pair.2.toList

instance : DecidablePred IsSeparable := fun _ => inferInstanceAs (Decidable (_ ∧ _))

/-! ### Pieces -/

theorem cookiePieces_ne_nil (cs : List Char) : cookiePieces cs ≠ [] := by
  induction cs using cookiePieces.induct with
  | case1 => simp [cookiePieces]
  | case2 rest ih => simp [cookiePieces]
  | case3 c rest unmarked ih =>
    rw [cookiePieces]
    · simpa using ih
    · exact unmarked

/-- A character that does not begin a mark belongs to the first piece. -/
theorem exists_cookiePieces_cons {c : Char} {rest : List Char}
    (unmarked : ∀ others, c = ';' → rest = ' ' :: others → False) :
    ∃ first others, cookiePieces rest = first :: others ∧
      cookiePieces (c :: rest) = (c :: first) :: others := by
  obtain ⟨first, others, cut⟩ := List.exists_cons_of_ne_nil (cookiePieces_ne_nil rest)
  refine ⟨first, others, cut, ?_⟩
  rw [cookiePieces, cut, List.modifyHead_cons]
  exact unmarked

theorem cookiePieces_append (front rest : List Char) :
    cookiePieces (front ++ cookieMark ++ rest) = cookiePieces front ++ cookiePieces rest := by
  induction front using cookiePieces.induct with
  | case1 => rfl
  | case2 others ih => exact congrArg ([] :: ·) ih
  | case3 c others unmarked ih =>
    obtain ⟨first, more, cut, own⟩ := exists_cookiePieces_cons unmarked
    -- The mark begins with a semicolon, so that none begins before it.
    have unmarked' : ∀ further, c = ';' → others ++ cookieMark ++ rest = ' ' :: further → False := by
      intro further semicolon same
      cases others with
      | nil => cases same
      | cons d others => exact unmarked others semicolon (by rw [(List.cons.inj same).1])
    obtain ⟨first', more', cut', own'⟩ := exists_cookiePieces_cons unmarked'
    rw [ih, cut, List.cons_append] at cut'
    obtain ⟨rfl, rfl⟩ := List.cons.inj cut'
    rw [own]
    exact own'

/-- A text is one piece exactly if there is no mark in it. -/
theorem length_cookiePieces_eq_one_iff (cs : List Char) :
    (cookiePieces cs).length = 1 ↔ ¬ cookieMark <:+: cs := by
  constructor
  · rintro single ⟨front, rest, rfl⟩
    have front_ne := List.length_pos_iff.mpr (cookiePieces_ne_nil front)
    have rest_ne := List.length_pos_iff.mpr (cookiePieces_ne_nil rest)
    rw [cookiePieces_append, List.length_append] at single
    omega
  · intro free
    induction cs using cookiePieces.induct with
    | case1 => rfl
    | case2 rest ih => exact absurd ⟨[], rest, rfl⟩ free
    | case3 c rest unmarked ih =>
      obtain ⟨first, others, cut, own⟩ := exists_cookiePieces_cons unmarked
      have single := ih fun inside => free (List.infix_cons inside)
      rw [cut] at single
      rw [own]
      exact single

/-- The pieces are those of the text. -/
theorem eq_of_length_cookiePieces {cs : List Char} (single : (cookiePieces cs).length = 1) :
    cookiePieces cs = [cs] := by
  induction cs using cookiePieces.induct with
  | case1 => rfl
  | case2 rest ih =>
    have := List.length_pos_iff.mpr (cookiePieces_ne_nil rest)
    rw [cookiePieces, List.length_cons] at single
    omega
  | case3 c rest unmarked ih =>
    obtain ⟨first, others, cut, own⟩ := exists_cookiePieces_cons unmarked
    rw [own] at single ⊢
    rw [cut] at ih
    obtain ⟨rfl, rfl⟩ := List.cons.inj (ih single)
    rfl

/-! ### Cookies -/

variable {pair : String × String} {pairs : List (String × String)}

theorem cookiePieces_cookieText (nonempty : pairs ≠ []) :
    cookiePieces (Session.cookieText pairs).toList =
      pairs.flatMap fun pair => cookiePieces (cookieChars pair) := by
  have single (pair : String × String) : (pair.1 ++ "=" ++ pair.2).toList = cookieChars pair := by
    simp [cookieChars]
  induction pairs with
  | nil => exact absurd rfl nonempty
  | cons pair rest ih =>
    cases rest with
    | nil => simp [Session.cookieText, single]
    | cons second others =>
      have text : (Session.cookieText (pair :: second :: others)).toList =
          cookieChars pair ++ cookieMark ++ (Session.cookieText (second :: others)).toList := by
        rw [← single]
        simp [Session.cookieText, cookieMark]
      rw [text, cookiePieces_append, ih (by simp)]
      rfl

/-- Where nonempty lists are put together to one no longer than their number, each is of length one. -/
theorem length_eq_one_of_flatMap {α β : Type} {f : α → List β} {l : List α}
    (nonempty : ∀ a, f a ≠ []) (short : (l.flatMap f).length ≤ l.length) :
    ∀ a ∈ l, (f a).length = 1 := by
  have least (l : List α) : l.length ≤ (l.flatMap f).length := by
    induction l with
    | nil => exact Nat.zero_le _
    | cons a rest ih =>
      have := List.length_pos_iff.mpr (nonempty a)
      rw [List.flatMap_cons, List.length_append, List.length_cons]
      omega
  induction l with
  | nil => simp
  | cons a rest ih =>
    have own := List.length_pos_iff.mpr (nonempty a)
    have others := least rest
    rw [List.flatMap_cons, List.length_append, List.length_cons] at short
    exact List.forall_mem_cons.mpr ⟨by omega, ih (by omega)⟩

theorem readCookie_cookieChars_iff : readCookie (cookieChars pair) = pair ↔ '=' ∉ pair.1.toList := by
  constructor
  · intro same member
    obtain ⟨before, after, cut⟩ := List.append_of_mem member
    cases found : cutAt? '=' (cookieChars pair) with
    | none => exact cutAt?_eq_none_iff.mp found (by simp [cookieChars])
    | some parts =>
      have free := (eq_of_cutAt? found).2
      rw [readCookie, found] at same
      have name : parts.1 = pair.1.toList := by rw [← same, String.toList_ofList]
      exact free (name ▸ member)
  · intro free
    rw [readCookie, cookieChars, cutAt?_append_cons _ free]
    simp

/-- No mark between cookies goes over an equals sign. -/
theorem infix_cookieChars_iff : cookieMark <:+: cookieChars pair ↔
    cookieMark <:+: pair.1.toList ∨ cookieMark <:+: pair.2.toList := by
  have noEquals : '=' ∉ cookieMark := by decide
  constructor
  · rw [cookieChars, List.infix_append_iff, List.infix_cons_iff]
    rintro (name | (start | value) | ⟨own, rest, cut, ends, begins⟩)
    · exact .inl name
    · exact absurd (List.cons_prefix_cons.mp start).1 (by decide)
    · exact .inr value
    · cases rest with
      | nil => exact .inl (by rw [cut, List.append_nil]; exact ends.isInfix)
      | cons c rest =>
        obtain rfl := (List.cons_prefix_cons.mp begins).1
        exact absurd (by simp [cut]) noEquals
  · rintro (name | value)
    · exact List.infix_append_of_infix_left name
    · exact List.infix_append_of_infix_right (List.infix_cons value)

/-- Cookies are read as they are put together exactly if none has a mark inside. -/
theorem readCookies_cookieText_iff (nonempty : pairs ≠ []) :
    readCookies (Session.cookieText pairs) = pairs ↔ ∀ pair ∈ pairs, IsSeparable pair := by
  have read (single : ∀ pair ∈ pairs, (cookiePieces (cookieChars pair)).length = 1) :
      readCookies (Session.cookieText pairs) = pairs.map (readCookie ∘ cookieChars) := by
    rw [readCookies, cookiePieces_cookieText nonempty,
      List.flatMap_congr fun pair member => eq_of_length_cookiePieces (single pair member),
      ← List.map_eq_flatMap, List.map_map]
  have each : pairs.map (readCookie ∘ cookieChars) = pairs ↔
      ∀ pair ∈ pairs, '=' ∉ pair.1.toList := by
    have same := List.map_inj_left (l := pairs) (f := readCookie ∘ cookieChars) (g := id)
    simpa [readCookie_cookieChars_iff] using same
  constructor
  · -- With a mark inside a cookie there are more pieces than cookies.
    intro same
    have length := congrArg List.length same
    rw [readCookies, List.length_map, cookiePieces_cookieText nonempty] at length
    have single := length_eq_one_of_flatMap
      (fun pair : String × String => cookiePieces_ne_nil (cookieChars pair)) length.le
    intro pair member
    have unmarked := (length_cookiePieces_eq_one_iff _).mp (single pair member)
    rw [infix_cookieChars_iff, not_or] at unmarked
    exact ⟨each.mp ((read single).symm.trans same) pair member, unmarked⟩
  · intro separable
    have single : ∀ pair ∈ pairs, (cookiePieces (cookieChars pair)).length = 1 := by
      intro pair member
      rw [length_cookiePieces_eq_one_iff, infix_cookieChars_iff, not_or]
      exact (separable pair member).2
    exact (read single).trans (each.mpr fun pair member => (separable pair member).1)

namespace Session

variable {session : Session} {operation : Operation} {supplied : Entries Value}
  {payload : Option Payload} {prepared : PreparedRequest}

/-- The cookies are all that the header for them has, if there are any. -/
theorem cookie_of_setCookies {headers after : Headers} (h : setCookies headers pairs = .ok after)
    (nonempty : pairs ≠ []) :
    (after.filter fun field => field.1 = "cookie") = [("cookie", Utf8.encode (cookieText pairs))] := by
  simp only [setCookies, List.isEmpty_iff, if_neg nonempty] at h
  split at h
  · cases h
    have name : Text.lowerAscii "cookie" = "cookie" := by decide
    simp [Headers.set, name, List.filter_append, List.filter_filter]
  · cases h

/-- A request that is prepared has one header with the cookies that the call carries, if there are
any. -/
theorem exists_cookies_of_prepare
    (h : (session.prepare operation supplied payload).1 = .ok prepared) :
    ∃ pairs, session.Carries operation supplied .cookie pairs ∧ (pairs ≠ [] →
      (prepared.request.headers.filter fun field => field.1 = "cookie") =
        [("cookie", Utf8.encode (cookieText pairs))]) := by
  obtain ⟨parameters, applied, encoding, secured, assembled⟩ := exists_of_prepare_eq_ok h
  obtain ⟨headers, -, assembled⟩ := exists_of_bind_eq_ok assembled
  obtain ⟨encoded, -, assembled⟩ := exists_of_bind_eq_ok assembled
  obtain ⟨url, -, assembled⟩ := exists_of_bind_eq_ok assembled
  obtain ⟨last, cookies, rfl⟩ := exists_of_map_eq_ok assembled
  exact ⟨_, carries_of_prepare (.inr rfl) encoding secured, cookie_of_setCookies cookies⟩

/-- What a server reads from the cookies of a request that is prepared are those that the call
carries, each parameter's in the order of declaration and then the keys of the alternative that the
session takes, exactly if none of them has a mark inside. -/
theorem cookies_of_prepare_iff
    (h : (session.prepare operation supplied payload).1 = .ok prepared) :
    ∃ pairs, session.Carries operation supplied .cookie pairs ∧ (pairs ≠ [] → ∃ octets,
      (prepared.request.headers.filter fun field => field.1 = "cookie") = [("cookie", octets)] ∧
        (readCookies (Utf8.decodeLossy octets) = pairs ↔ ∀ pair ∈ pairs, IsSeparable pair)) := by
  obtain ⟨pairs, carries, header⟩ := exists_cookies_of_prepare h
  refine ⟨pairs, carries, fun nonempty => ⟨_, header nonempty, ?_⟩⟩
  rw [Utf8.decodeLossy_encode]
  exact readCookies_cookieText_iff nonempty

/-- A description of items for which a cookie is sent, and a key behind it. -/
def basketDocument : Value :=
  let basket := Value.object [("name", .string "basket"), ("in", .string "cookie")]
  let key := Value.object
    [("type", .string "apiKey"), ("in", .string "cookie"), ("name", .string "key")]
  .object [
    ("openapi", .string "3.1.0"),
    ("servers", .array [.object [("url", .string "http://h")]]),
    ("paths", .object [("/items", .object [("get", .object [
      ("operationId", .string "get"),
      ("parameters", .array [basket]),
      ("responses", .object [])])])]),
    ("components", .object [("securitySchemes", .object [("key", key)])]),
    ("security", .array [.object [("key", .array [])]])]

/-- A session that has the key. -/
def basketSession (reading : Description.Reading) : Session :=
  { ofReading reading .default none with credentials := [("key", .secret "k")] }

/-- A request with a basket: the cookies that the call carries, and the header of the request. -/
structure BasketRequest (basket : String) (pairs : List (String × String)) (header : String)
    (reading : Description.Reading) (operation : Operation) (prepared : PreparedRequest) : Prop where
  declared : operation ∈ reading.description.operations
  carries : (basketSession reading).Carries operation [("basket", .string basket)] .cookie pairs
  preparing : ((basketSession reading).prepare operation [("basket", .string basket)] none).1 =
    .ok prepared
  header : (prepared.request.headers.filter fun field => field.1 = "cookie") =
    [("cookie", Utf8.encode header)]

/-- Whether computing shows such a request. -/
def showsBasket (basket : String) (own keys : List (String × String)) (header : String)
    (reading : Description.Reading) : Bool :=
  let session := basketSession reading
  let supplied := [("basket", Value.string basket)]
  reading.description.operations.any fun operation =>
    ((session.encodeSupplied operation supplied).toOption.any fun encoded => encoded.cookies = own) &&
      ((session.applySecurity operation).1.toOption.any fun applied => applied.cookies = keys) &&
      ((session.prepare operation supplied none).1.toOption.any fun prepared =>
        (prepared.request.headers.filter fun field => field.1 = "cookie") =
          [("cookie", Utf8.encode header)])

/-- The description is read, and computing shows both requests. -/
theorem exists_basketReading :
    ∃ reading, readAt Description.noLoader "http://h/openapi.json" basketDocument = .ok reading ∧
      showsBasket "1;b=2" [("basket", "1;b=2")] [("key", "k")] "basket=1;b=2; key=k" reading = true ∧
      showsBasket "1; b=2" [("basket", "1; b=2")] [("key", "k")] "basket=1; b=2; key=k" reading =
        true := by
  obtain ⟨reading, read, shown⟩ := @exists_of_any _ _
    (readAt Description.noLoader "http://h/openapi.json" basketDocument)
    (fun reading =>
      showsBasket "1;b=2" [("basket", "1;b=2")] [("key", "k")] "basket=1;b=2; key=k" reading &&
      showsBasket "1; b=2" [("basket", "1; b=2")] [("key", "k")] "basket=1; b=2; key=k" reading)
    (by decide +kernel)
  exact ⟨reading, read, Bool.and_eq_true_iff.mp shown⟩

theorem exists_basketRequest {basket header : String} {own keys : List (String × String)}
    {reading : Description.Reading} (shown : showsBasket basket own keys header reading = true) :
    ∃ operation prepared,
      BasketRequest basket (own ++ keys) header reading operation prepared := by
  obtain ⟨operation, declared, shown⟩ := List.any_eq_true.mp shown
  simp only [Bool.and_eq_true] at shown
  obtain ⟨⟨encoding, secured⟩, prepared⟩ := shown
  obtain ⟨encoded, encoding, written⟩ := exists_of_any _ encoding
  obtain ⟨applied, secured, added⟩ := exists_of_any _ secured
  obtain ⟨prepared, preparing, header⟩ := exists_of_any _ prepared
  have carries := carries_of_prepare (.inr rfl) encoding secured
  rw [EncodedParameters.pairsIn, AppliedSecurity.pairsIn, of_decide_eq_true written,
    of_decide_eq_true added] at carries
  exact ⟨operation, prepared, declared, carries, preparing, of_decide_eq_true header⟩

/-- A basket with semicolons and equals signs, but no mark, is read as it is. -/
theorem cookies_basketRequest :
    ∃ reading operation prepared octets,
      readAt Description.noLoader "http://h/openapi.json" basketDocument = .ok reading ∧
        BasketRequest "1;b=2" [("basket", "1;b=2"), ("key", "k")] "basket=1;b=2; key=k" reading
          operation prepared ∧
        (prepared.request.headers.filter fun field => field.1 = "cookie") = [("cookie", octets)] ∧
        readCookies (Utf8.decodeLossy octets) = [("basket", "1;b=2"), ("key", "k")] := by
  obtain ⟨reading, read, shown, -⟩ := exists_basketReading
  obtain ⟨operation, prepared, request⟩ := exists_basketRequest shown
  obtain ⟨pairs, carries, header⟩ := cookies_of_prepare_iff request.preparing
  obtain rfl := carries.unique request.carries
  obtain ⟨octets, header, read'⟩ := header (by simp)
  exact ⟨reading, operation, prepared, octets, read, request, header, read'.mpr (by decide)⟩

/-- A basket with a mark inside makes a cookie of its own. -/
theorem cookie_forged :
    ∃ reading operation prepared octets,
      readAt Description.noLoader "http://h/openapi.json" basketDocument = .ok reading ∧
        BasketRequest "1; b=2" [("basket", "1; b=2"), ("key", "k")] "basket=1; b=2; key=k" reading
          operation prepared ∧
        (prepared.request.headers.filter fun field => field.1 = "cookie") = [("cookie", octets)] ∧
        readCookies (Utf8.decodeLossy octets) = [("basket", "1"), ("b", "2"), ("key", "k")] ∧
        readCookies (Utf8.decodeLossy octets) ≠ [("basket", "1; b=2"), ("key", "k")] := by
  obtain ⟨reading, read, -, shown⟩ := exists_basketReading
  obtain ⟨operation, prepared, request⟩ := exists_basketRequest shown
  have forged : readCookies "basket=1; b=2; key=k" = [("basket", "1"), ("b", "2"), ("key", "k")] := by
    decide
  refine ⟨reading, operation, prepared, _, read, request, request.header, ?_⟩
  rw [Utf8.decodeLossy_encode, forged]
  exact ⟨rfl, by decide⟩

end Session

end ApiContract
