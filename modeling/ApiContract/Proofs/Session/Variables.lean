import ApiContract.Proofs.Parameter.Interleaving
import ApiContract.Proofs.Session.Admission
import ApiContract.Proofs.Description.WellFormed
/-!
# Values of server variables

The URL of a server is filled variable after variable, and what one of them leaves is what the next is
looked for in. That is as good as filling all placeholders at once, in whatever order the variables are
declared, if no brace comes up that is not one around a placeholder (`Session.Separates`,
`serverUrl_of_separates`). A value with the placeholder of another variable is filled again
(`value_filled_again`).
-/

namespace ApiContract

open Json (Value)
open Template (braced interleaved literals Unbraced)

namespace Session

/-! ### Replacing one placeholder -/

section Replacing

variable {mark : Char} {old new front rest : List Char} {m n : String}

theorem replaceFrom_length_append (old new front rest : List Char) :
    replaceFrom old new front.length (front ++ rest) = replaceFrom old new 0 rest := by
  induction front with
  | nil => rfl
  | cons c front ih => exact ih

/-- An occurrence is replaced. -/
theorem replaceFrom_append_self (mark : Char) (old new rest : List Char) :
    replaceFrom (mark :: old) new 0 (mark :: old ++ rest) =
      new ++ replaceFrom (mark :: old) new 0 rest := by
  rw [List.cons_append, replaceFrom, if_pos (by simp)]
  exact congrArg (new ++ ·) (replaceFrom_length_append _ new old rest)

/-- Nothing begins where the first character is another. -/
theorem replaceFrom_append_of_not_mem (free : mark ∉ front) :
    replaceFrom (mark :: old) new 0 (front ++ rest) =
      front ++ replaceFrom (mark :: old) new 0 rest := by
  induction front with
  | nil => rfl
  | cons c front ih =>
    obtain ⟨other, free⟩ := not_or.mp (List.mem_cons.not.mp free)
    rw [List.cons_append, replaceFrom, if_neg (by simp [List.isPrefixOf, other]), ih free,
      List.cons_append]

/-- No placeholder ends where no brace is closed. -/
theorem replaceFrom_of_unbraced {last : List Char} (h : Unbraced [last]) :
    replaceFrom (braced m) new 0 last = last := by
  induction last with
  | nil => rfl
  | cons c last ih =>
    have none : ¬ (braced m).isPrefixOf (c :: last) = true := by
      intro found
      obtain ⟨after, same⟩ := List.isPrefixOf_iff_prefix.mp found
      obtain ⟨rfl, rfl⟩ := List.cons.inj same
      exact h [] _ rfl (by simp)
    rw [replaceFrom, if_neg none, ih fun before after same => h (c :: before) after (by rw [same]; rfl)]

/-- Another placeholder is left alone. -/
theorem replaceFrom_braced_append (other : m ≠ n) (closes : '\x7d' ∉ m.toList)
    (free : '\x7b' ∉ n.toList ∧ '\x7d' ∉ n.toList) :
    replaceFrom (braced m) new 0 (braced n ++ rest) =
      braced n ++ replaceFrom (braced m) new 0 rest := by
  have none : ¬ (braced m).isPrefixOf (braced n ++ rest) = true := by
    intro found
    obtain ⟨after, same⟩ := List.isPrefixOf_iff_prefix.mp found
    simp only [braced, List.cons_append, List.append_assoc, List.cons.injEq, true_and] at same
    exact other (String.toList_inj.mp (Text.append_cons_inj closes free.2 same).1)
  have inside : '\x7b' ∉ n.toList ++ ['\x7d'] := by simp [free.1]
  unfold braced at none ⊢
  rw [List.cons_append] at none ⊢
  rw [replaceFrom, if_neg none, replaceFrom_append_of_not_mem inside]
  rfl

end Replacing

/-! ### Replacing one after the other -/

section Run

variable {texts : List (List Char)} {names done : List String} {value : String → String} {m : String}

/-- What stands for a name once some of the placeholders have been replaced. -/
def settled (value : String → String) (done : List String) (name : String) : List Char :=
  if name ∈ done then (value name).toList else braced name

theorem settled_nil (value : String → String) : settled value [] = braced := by
  funext name
  exact if_neg List.not_mem_nil

/-- One place: a text that has been inserted is left alone, and so are the placeholders of others. -/
theorem replaceFrom_settled_append {name : String} (done : List String)
    (closes : '\x7d' ∉ m.toList) (plain : '\x7b' ∉ name.toList ∧ '\x7d' ∉ name.toList)
    (free : '\x7b' ∉ (value name).toList) (rest : List Char) :
    replaceFrom (braced m) (value m).toList 0 (settled value done name ++ rest) =
      settled value (m :: done) name ++ replaceFrom (braced m) (value m).toList 0 rest := by
  unfold settled
  by_cases known : name ∈ done
  · rw [if_pos known, if_pos (List.mem_cons_of_mem _ known)]
    exact replaceFrom_append_of_not_mem free
  rw [if_neg known]
  by_cases same : m = name
  · subst same
    rw [if_pos List.mem_cons_self]
    exact replaceFrom_append_self _ _ _ rest
  · rw [if_neg (by simp [known, Ne.symm same])]
    exact replaceFrom_braced_append same closes plain

/-- Replacing the placeholders of one more name. -/
theorem replaceFrom_settled (done : List String) (unbraced : Unbraced texts)
    (length : texts.length = names.length + 1) (closes : '\x7d' ∉ m.toList)
    (plain : ∀ name ∈ names, '\x7b' ∉ name.toList ∧ '\x7d' ∉ name.toList)
    (free : ∀ name ∈ names, '\x7b' ∉ (value name).toList) :
    replaceFrom (braced m) (value m).toList 0 (interleaved texts (names.map (settled value done))) =
      interleaved texts (names.map (settled value (m :: done))) := by
  induction names generalizing texts with
  | nil =>
    obtain ⟨last, rfl⟩ := List.length_eq_one_iff.mp length
    exact replaceFrom_of_unbraced unbraced
  | cons name names ih =>
    obtain ⟨own, plain⟩ := List.forall_mem_cons.mp plain
    obtain ⟨here, free⟩ := List.forall_mem_cons.mp free
    match texts, unbraced with
    | first :: second :: others, ⟨before, after⟩ =>
      have later := ih after (by simpa using length) plain free
      simp only [List.map_cons, interleaved, List.append_assoc]
      rw [← later, ← replaceFrom_settled_append done closes own here]
      exact replaceFrom_append_of_not_mem before

variable {session : Session} {order : Entries ServerVariable}

/-- Once all variables have been gone through, each placeholder has its value. The invariant is that the
names of the variables that have been replaced are settled. -/
theorem fillServer_settled (unbraced : Unbraced texts) (length : texts.length = names.length + 1)
    (values : ∀ entry ∈ order, session.variableValue entry.1 entry.2 = .ok (value entry.1))
    (closes : ∀ entry ∈ order, '\x7d' ∉ entry.1.toList)
    (plain : ∀ name ∈ names, '\x7b' ∉ name.toList ∧ '\x7d' ∉ name.toList)
    (free : ∀ name ∈ names, '\x7b' ∉ (value name).toList)
    (known : ∀ name ∈ names, name ∈ done ∨ name ∈ order.keys) :
    session.fillServer order (interleaved texts (names.map (settled value done))) =
      .ok (interleaved texts (names.map fun name => (value name).toList)) := by
  induction order generalizing done with
  | nil =>
    have all : names.map (settled value done) = names.map fun name => (value name).toList :=
      List.map_congr_left fun name member =>
        if_pos ((known name member).resolve_right List.not_mem_nil)
    rw [fillServer, all]
  | cons entry rest ih =>
    obtain ⟨name, declared⟩ := entry
    obtain ⟨own, values⟩ := List.forall_mem_cons.mp values
    obtain ⟨closed, closes⟩ := List.forall_mem_cons.mp closes
    have step := replaceFrom_settled done unbraced length closed plain free
    unfold braced at step
    simp only at own
    simp only [fillServer, own]
    rw [step]
    refine ih values closes fun other member => ?_
    rcases known other member with before | own
    · exact .inl (List.mem_cons_of_mem _ before)
    rcases List.mem_cons.mp own with rfl | later
    · exact .inl List.mem_cons_self
    · exact .inr later

end Run

/-! ### The URL of a server -/

variable {session : Session} {server : Server} {name text : String}

/-- The text that a session has for a variable of a server: what has been set, or else the default. -/
inductive Gives (session : Session) (server : Server) (name : String) : String → Prop
  | own {text : String} (set : Entries.get? name session.serverVariables = some text) :
      Gives session server name text
  | default {declared : ServerVariable} {text : String}
      (unset : Entries.get? name session.serverVariables = none)
      (known : Entries.get? name server.placeholders = some declared)
      (default : declared.default = some text) : Gives session server name text

/-- It has no other. -/
theorem Gives.unique {other : String} (h : session.Gives server name text)
    (h' : session.Gives server name other) : text = other := by
  cases h with
  | own set =>
    cases h' with
    | own set' => exact Option.some.inj (set.symm.trans set')
    | default unset' => simp [set] at unset'
  | default unset known default =>
    cases h' with
    | own set' => simp [unset] at set'
    | default _ known' default' =>
      obtain rfl := Option.some.inj (known.symm.trans known')
      exact Option.some.inj (default.symm.trans default')

/-- No brace comes up in a server's URL that is not one around a placeholder, or is left open at the end:
none is opened in the name of a placeholder or in a value that takes its place, and none is closed in
the name of a variable. -/
structure Separates (session : Session) (server : Server) : Prop where
  placeholders : ∀ name ∈ Template.names server.url, '\x7b' ∉ name.toList
  declared : ∀ name ∈ server.placeholders.keys, '\x7d' ∉ name.toList
  values : ∀ name ∈ Template.names server.url, ∀ text, session.Gives server name text →
    '\x7b' ∉ text.toList

/-- The text of a placeholder. -/
def placeholderText (session : Session) (server : Server) (name : String) : String :=
  ((Entries.get? name server.placeholders).map (session.variableText name)).getD ""

theorem gives_placeholderText (complete : server.Complete)
    (placeholder : name ∈ Template.names server.url) :
    session.Gives server name (session.placeholderText server name) := by
  obtain ⟨declared, known, default⟩ := complete name placeholder
  obtain ⟨text, default⟩ := Option.isSome_iff_exists.mp default
  rw [placeholderText, known, Option.map_some, Option.getD_some, variableText]
  split
  · next set => exact .own set
  · next unset own =>
    rw [own] at default
    exact .default unset known own
  · next unset none =>
    rw [none] at default
    cases default

/-- The URL of a server is its text, filled and joined. -/
theorem serverUrl_of_fillServer {cs : List Char}
    (filled : session.fillServer server.placeholders server.url.toList = .ok cs) :
    session.serverUrl server =
      (session.description.base.join (String.ofList cs)).mapError
        (CallError.invalidUrl (String.ofList cs)) := by
  rw [serverUrl, filled, Except.bind]
  simp only
  split
  · next url joined =>
    rw [joined]
    rfl
  · next cause failed =>
    rw [failed]
    rfl

/-- Whatever the order of the variables is, the URL is filled with the texts of its placeholders. -/
theorem fillServer_of_separates (sound : server.Sound)
    (allowed : ∀ entry ∈ server.placeholders, entry.2.allowed ≠ [] →
      session.variableText entry.1 entry.2 ∈ entry.2.allowed)
    (separates : session.Separates server) {order : Entries ServerVariable}
    (perm : order.Perm server.placeholders) :
    session.fillServer order server.url.toList =
      .ok (interleaved (literals server.url)
        ((Template.names server.url).map fun name =>
          (session.placeholderText server name).toList)) := by
  have values : ∀ entry ∈ order, session.variableValue entry.1 entry.2 =
      .ok (session.placeholderText server entry.1) := by
    intro entry member
    have listed := perm.mem_iff.mp member
    rw [variableValue_eq, if_pos (or_iff_not_imp_left.mpr (allowed entry listed)), placeholderText,
      Entries.get?_of_mem sound.distinct listed]
    rfl
  have keys : order.keys.Perm server.placeholders.keys := perm.map Prod.fst
  have closes : ∀ entry ∈ order, '\x7d' ∉ entry.1.toList := by
    intro entry member
    exact separates.declared _ (keys.mem_iff.mp (List.mem_map_of_mem member))
  have known : ∀ name ∈ Template.names server.url, name ∈ order.keys := by
    intro name placeholder
    obtain ⟨declared, found, -⟩ := sound.complete name placeholder
    exact keys.mem_iff.mpr (Entries.get?_isSome_iff.mp (by rw [found]; rfl))
  have filled := @fillServer_settled _ _ [] _ session order
    (Template.unbraced_literalsIn server.url.toList) (Template.length_literalsIn _) values closes
    (fun name placeholder => ⟨separates.placeholders name placeholder,
      Template.not_mem_of_mem_namesIn placeholder⟩)
    (fun name placeholder =>
      separates.values name placeholder _ (gives_placeholderText sound.complete placeholder))
    (fun name placeholder => .inr (known name placeholder))
  rwa [settled_nil, Template.interleaved_braced] at filled

/-- For a server of a description that is read, all of whose variables have values that are allowed, the
text that is joined to the description's URL is the server's with each placeholder replaced once, by
what has been set for it or else its default, in whatever order the variables are declared. -/
theorem serverUrl_of_separates {loader : Loader} {base : String} {document : Value}
    {reading : Description.Reading} (read : readAt loader base document = .ok reading)
    (same : session.description = reading.description)
    (declared : server ∈ session.description.servers ∨
      ∃ operation ∈ session.description.operations, server ∈ operation.servers)
    (allowed : ∀ entry ∈ server.placeholders, entry.2.allowed ≠ [] →
      session.variableText entry.1 entry.2 ∈ entry.2.allowed)
    (separates : session.Separates server) :
    ∃ texts, List.Forall₂ (session.Gives server) (Template.names server.url) texts ∧
      interleaved (literals server.url) ((Template.names server.url).map braced) =
        server.url.toList ∧
      ∀ order, order.Perm server.placeholders →
        let text := String.ofList (interleaved (literals server.url) (texts.map String.toList))
        session.serverUrl { server with placeholders := order } =
          (session.description.base.join text).mapError (CallError.invalidUrl text) := by
  obtain ⟨url, -, read⟩ := exists_of_bind_eq_ok read
  have good := Description.sound_of_read read
  have sound : server.Sound := by
    rw [same] at declared
    rcases declared with member | ⟨operation, listed, member⟩
    · exact good.servers server member
    · exact (good.operations operation listed).2 server member
  have gives : ∀ name ∈ Template.names server.url,
      session.Gives server name (session.placeholderText server name) := fun name =>
    gives_placeholderText sound.complete
  refine ⟨(Template.names server.url).map (session.placeholderText server),
    List.forall₂_map_right_iff.mpr (List.forall₂_same.mpr gives), Template.interleaved_braced _,
    fun order perm => ?_⟩
  rw [List.map_map]
  exact serverUrl_of_fillServer (fillServer_of_separates sound allowed separates perm)

/-- A server with two variables. -/
def pairServer : Server :=
  ⟨"http://h/{a}/{b}", [("a", ⟨some "x", []⟩), ("b", ⟨some "y", []⟩)]⟩

/-- A description with that server alone. -/
def pairDocument : Value :=
  let first := Value.object [("default", .string "x")]
  let second := Value.object [("default", .string "y")]
  .object [
    ("openapi", .string "3.1.0"),
    ("servers", .array [.object [
      ("url", .string "http://h/{a}/{b}"),
      ("variables", .object [("a", first), ("b", second)])]]),
    ("paths", .object [])]

/-- A session in which the first variable is set. -/
def pairSession (reading : Description.Reading) (value : String) : Session :=
  (ofReading reading .default none).setServerVariables [("a", value)]

theorem names_pairServer : Template.names pairServer.url = ["a", "b"] := by decide +kernel

theorem gives_pairServer (reading : Description.Reading) (value : String) :
    (pairSession reading value).Gives pairServer "a" value ∧
      (pairSession reading value).Gives pairServer "b" "y" :=
  ⟨.own rfl, .default rfl rfl rfl⟩

/-- Whether computing shows what the two values of the first variable lead to. -/
def showsPair (reading : Description.Reading) : Bool :=
  decide (pairServer ∈ reading.description.servers ∧
    (reading.description.base.join "http://h/z/y").toOption.map Url.text = some "http://h/z/y") &&
  decide (
    (reading.description.base.join (String.ofList (interleaved (literals pairServer.url)
      (["{b}", "y"].map String.toList)))).toOption.map Url.text = some "http://h/%7Bb%7D/y" ∧
    ((pairSession reading "{b}").serverUrl pairServer).toOption.map Url.text =
      some "http://h/y/y" ∧
    ((pairSession reading "{b}").serverUrl
      { pairServer with placeholders := pairServer.placeholders.reverse }).toOption.map Url.text =
        some "http://h/%7Bb%7D/y")

/-- The description is read, and computing shows both values. -/
theorem exists_pairReading : ∃ reading,
    readAt Description.noLoader "http://h/openapi.json" pairDocument = .ok reading ∧
      showsPair reading = true :=
  exists_of_any showsPair (by decide +kernel)

/-- A plain value stands where its placeholder was, and so does the default of the other variable. -/
theorem serverUrl_pairServer : ∃ reading,
    readAt Description.noLoader "http://h/openapi.json" pairDocument = .ok reading ∧
      pairServer ∈ reading.description.servers ∧ (pairSession reading "z").Separates pairServer ∧
      ∀ order, order.Perm pairServer.placeholders →
        ((pairSession reading "z").serverUrl { pairServer with placeholders := order }).toOption.map
          Url.text = some "http://h/z/y" := by
  obtain ⟨reading, read, shown⟩ := exists_pairReading
  obtain ⟨declared, joined⟩ := of_decide_eq_true (Bool.and_eq_true_iff.mp shown).1
  obtain ⟨first, second⟩ := gives_pairServer reading "z"
  have separates : (pairSession reading "z").Separates pairServer := by
    refine ⟨?_, by decide, ?_⟩
    · rw [names_pairServer]
      decide
    · rw [names_pairServer]
      intro name placeholder text gives
      simp only [List.mem_cons, List.not_mem_nil, or_false] at placeholder
      rcases placeholder with rfl | rfl
      · rw [gives.unique first]
        decide
      · rw [gives.unique second]
        decide
  refine ⟨reading, read, declared, separates, fun order perm => ?_⟩
  obtain ⟨texts, gives, -, filled⟩ := @serverUrl_of_separates (pairSession reading "z") _ _ _ _ _
    read rfl (.inl declared) (by simp [pairServer]) separates
  rw [names_pairServer] at gives
  cases gives with
  | cons own gives =>
    cases gives with
    | cons own' gives =>
      cases gives
      obtain rfl := own.unique first
      obtain rfl := own'.unique second
      have text : String.ofList (interleaved (literals pairServer.url)
          (["z", "y"].map String.toList)) = "http://h/z/y" := by decide +kernel
      rw [filled order perm, text]
      show ((reading.description.base.join "http://h/z/y").mapError _).toOption.map Url.text = _
      rw [← joined]
      cases reading.description.base.join "http://h/z/y" <;> rfl

/-- A value with the placeholder of the other variable is filled again, unless that variable is declared
first. -/
theorem value_filled_again : ∃ reading,
    readAt Description.noLoader "http://h/openapi.json" pairDocument = .ok reading ∧
      pairServer ∈ reading.description.servers ∧
      List.Forall₂ ((pairSession reading "{b}").Gives pairServer) (Template.names pairServer.url)
        ["{b}", "y"] ∧
      (reading.description.base.join (String.ofList (interleaved (literals pairServer.url)
        (["{b}", "y"].map String.toList)))).toOption.map Url.text = some "http://h/%7Bb%7D/y" ∧
      ((pairSession reading "{b}").serverUrl pairServer).toOption.map Url.text =
        some "http://h/y/y" ∧
      ((pairSession reading "{b}").serverUrl
        { pairServer with placeholders := pairServer.placeholders.reverse }).toOption.map Url.text =
          some "http://h/%7Bb%7D/y" := by
  obtain ⟨reading, read, shown⟩ := exists_pairReading
  obtain ⟨plain, filled⟩ := Bool.and_eq_true_iff.mp shown
  obtain ⟨declared, -⟩ := of_decide_eq_true plain
  obtain ⟨first, second⟩ := gives_pairServer reading "{b}"
  refine ⟨reading, read, declared, ?_, of_decide_eq_true filled⟩
  rw [names_pairServer]
  exact .cons first (.cons second .nil)

end Session

end ApiContract
