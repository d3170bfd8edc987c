import ApiContract.Description.Basic
import ApiContract.Http.Header
import ApiContract.Schema.Composition
/-!
# Reading descriptions

`Description.read` follows every reference of a description, builds every schema it uses, and
refuses it at the first mistake. Components come first, then security and servers, then the
operations path by path, and last the checks that need the whole.
-/

namespace ApiContract

open Json (Value)

/-- The methods that may stand in a path item, in the order in which they are read. -/
def operationMethods : List String :=
  ["get", "put", "post", "delete", "options", "head", "patch", "trace"]

/-- Facts about a result that computing it shows. -/
theorem exists_of_any {ε α : Type} {result : Except ε α} (p : α → Bool)
    (h : result.toOption.any p = true) : ∃ a, result = .ok a ∧ p a = true := by
  cases result with
  | error e => cases h
  | ok a => exact ⟨a, rfl, h⟩

namespace Build

/-- The value of a computation, or its error. -/
def ofExcept {α : Type} (result : Except DefinitionError α) : Build α := fun state =>
  match result with
  | .ok value => .ok (value, state)
  | .error e => .error e

end Build

namespace Description

/-- The location of an object after references have been followed, and its members. -/
def objectAt (loader : Loader) (location : Location) : Build (Location × Entries Value) := do
  let location ← Build.dereference loader location
  return (location, ← Build.object location)

/-- The schema at the keyword `schema` of an object, if it is there. -/
def schemaOf (loader : Loader) (owner : Location) (members : Entries Value) :
    Build (Option SchemaId) :=
  if Entries.has "schema" members then
    return some (← buildSchema loader (owner.child "schema"))
  else return none

/-- What is said of a body in the media type at a location. -/
def readMediaType (loader : Loader) (location : Location) : Value → Build MediaType
  | .object members => return ⟨← schemaOf loader location members⟩
  | _ => return ⟨none⟩

/-- The media types of an object; of two that differ in case alone the later counts. -/
def readContent (loader : Loader) (owner : Location) (members : Entries Value) :
    Build (Entries MediaType) := do
  let declared := ((Entries.get? "content" members).bind Value.members?).getD []
  let read ← declared.mapM fun (mediaType, node) => do
    let media ← readMediaType loader ((owner.child "content").child mediaType) node
    return (Text.lowerAscii mediaType, media)
  return Entries.ofPairs read

/-- The texts of a list of strings. -/
def stringsOf (members : Entries Value) (name : String) : List String :=
  Schema.strings (Entries.get? name members)

/-- The text of a member that is a string. -/
def textOf? (members : Entries Value) (name : String) : Option String :=
  (Entries.get? name members).bind Value.text?

/-- A server variable. -/
def serverVariable (node : Value) : ServerVariable :=
  ⟨(node.member? "default").bind Value.text?, Schema.strings (node.member? "enum")⟩

/-- The server that a node declares; each placeholder of its URL needs a variable with a default. -/
def readServer (location : Location) (node : Value) : Except DefinitionError Server :=
  match (node.member? "url").bind Value.text? with
  | none => .error (.malformed location.text "server requires url")
  | some url =>
    let declared := ((node.member? "variables").bind Value.members?).getD []
    let placeholders :=
      Entries.ofPairs (declared.map fun (name, node) => (name, serverVariable node))
    let lacksDefault (name : String) : Bool :=
      ((Entries.get? name placeholders).bind ServerVariable.default).isNone
    let missing := (Template.names url).filter lacksDefault
    if missing.isEmpty then .ok ⟨url, placeholders⟩ else .error (.missingServerVariables url missing)

/-- The servers that an object declares; an empty list declares none. -/
def readServers (owner : Location) (members : Entries Value) :
    Except DefinitionError (Option (List Server)) :=
  let location := owner.child "servers"
  match Entries.get? "servers" members with
  | none => .ok none
  | some (.array []) => .ok none
  | some (.array nodes) => (nodes.mapM (readServer location)).map some
  | some _ => .error (.malformed location.text "servers must be a list")

/-- The style that a parameter declares, or that of its location. -/
def readStyle (location : Location) (parameterLocation : ParameterLocation) :
    Option String → Except DefinitionError ParameterStyle
  | none => .ok parameterLocation.defaultStyle
  | some name =>
    match ParameterStyle.ofName? name with
    | some style => .ok style
    | none => .error (.malformed location.text ("unknown style " ++ Text.quoted name))

/-- The name, location and style of a parameter. -/
def readParameterHead (location : Location) (members : Entries Value) :
    Except DefinitionError (String × ParameterLocation × ParameterStyle) :=
  match textOf? members "name", (textOf? members "in").bind ParameterLocation.ofName? with
  | none, _ => .error (.malformed location.text "parameter requires name")
  | some _, none =>
    .error (.malformed location.text "parameter requires in: path, query, header, or cookie")
  | some name, some parameterLocation =>
    (readStyle location parameterLocation (textOf? members "style")).bind fun style =>
      if parameterLocation.allows style then .ok (name, parameterLocation, style)
      else .error (.styleNotAllowed name style parameterLocation)

/-- The schema and the media type of a parameter. -/
def readParameterSchema (loader : Loader) (location : Location) (members : Entries Value) :
    Build (Option SchemaId × Option String) := do
  if Entries.has "content" members then
    match ← readContent loader location members with
    | (mediaType, media) :: _ => return (media.schema, some mediaType)
    | [] => return (none, none)
  else return (← schemaOf loader location members, none)

/-- The parameter at a location. -/
def readParameter (loader : Loader) (location : Location) : Build Parameter := do
  let (location, members) ← objectAt loader location
  let (name, parameterLocation, style) ← Build.ofExcept (readParameterHead location members)
  let explode := ((Entries.get? "explode" members).bind Value.bool?).getD style.explodesByDefault
  let (schema, mediaType) ← readParameterSchema loader location members
  return {
    name := name
    location := parameterLocation
    required := Schema.flag (Entries.get? "required" members)
    style := style
    explode := explode
    schema := schema
    mediaType := mediaType }

/-- Whether two parameters have the same name and location. -/
def sameParameter (p q : Parameter) : Bool := p.name == q.name && p.location == q.location

/-- Parameters at locations, after those that have been read. None may come twice. -/
def readParametersAt (loader : Loader) (label : String) :
    (read : List Parameter) → List Location → Build (List Parameter)
  | read, [] => pure read
  | read, location :: rest => do
    let parameter ← readParameter loader location
    if read.any (sameParameter parameter) then
      Build.fail (.duplicateParameter label parameter.name parameter.location)
    else readParametersAt loader label (read ++ [parameter]) rest

/-- The parameters that a path item or an operation declares. -/
def readParameters (loader : Loader) (owner : Location) (members : Entries Value) (label : String) :
    Build (List Parameter) :=
  let declared := ((Entries.get? "parameters" members).bind Value.items?).getD []
  readParametersAt loader label []
    ((List.range declared.length).map fun (i : Nat) =>
      (owner.child "parameters").child (Decimal.integerText i))

/-- The parameters of an operation: those of its path item, each in the operation's own form where
it has one, and then its other own ones. -/
def effectiveParameters (shared own : List Parameter) : List Parameter :=
  let inherited := shared.map fun p => (own.find? (sameParameter p)).getD p
  inherited ++ own.filter fun p => !inherited.any (sameParameter p)

/-- Whether a character may stand in the name of a path parameter. -/
def isPathNameChar (c : Char) : Bool := c.isAlphanum || "_.~-".toList.contains c

/-- Whether a parameter has a name that it can be sent under. -/
def hasUsableName (parameter : Parameter) : Bool :=
  parameter.name != "" &&
    match parameter.location with
    | .path => parameter.name.toList.all isPathNameChar
    | .header => Headers.isName parameter.name
    | .query | .cookie => true

/-- Check the names of an operation's parameters: they can be sent, and the path parameters are the
placeholders of the path. -/
def checkParameterNames (label path : String) (parameters : List Parameter) :
    Except DefinitionError Unit :=
  let unusable := (parameters.filter fun p => !hasUsableName p).map Parameter.name
  let inPath := (parameters.filter fun p => p.location == .path).map Parameter.name
  let placeholders := Template.names path
  if !unusable.isEmpty then .error (.invalidParameterNames label unusable)
  else
    match inPath.find? fun name => !placeholders.contains name with
    | some name => .error (.parameterNotInPath label name)
    | none =>
      match placeholders.find? fun name => !inPath.contains name with
      | some name => .error (.unboundPlaceholder label name)
      | none => .ok ()

/-- The body of a request at a location. -/
def readRequestBody (loader : Loader) (location : Location) : Build RequestBody := do
  let (location, members) ← objectAt loader location
  let content ← readContent loader location members
  return ⟨Schema.flag (Entries.get? "required" members), content⟩

/-- The header of a response at a location. -/
def readHeader (loader : Loader) (location : Location) : Build ResponseHeader := do
  let (location, members) ← objectAt loader location
  let (schema, _) ← readParameterSchema loader location members
  return {
    required := Schema.flag (Entries.get? "required" members)
    explode := Schema.flag (Entries.get? "explode" members)
    schema := schema }

/-- The link that an object declares. -/
def readLink (name : String) (members : Entries Value) : Except DefinitionError Link :=
  let withTarget (target : LinkTarget) : Link :=
    { target := target
      parameters := ((Entries.get? "parameters" members).bind Value.members?).getD []
      requestBody := Entries.get? "requestBody" members }
  match textOf? members "operationId", textOf? members "operationRef" with
  | some id, none => .ok (withTarget (.operationId id))
  | none, some reference => .ok (withTarget (.operationRef reference))
  | _, _ => .error (.linkTarget name)

/-- The names of the members of an object among the members of another. -/
def namesIn (members : Entries Value) (name : String) : List String :=
  Entries.keys (((Entries.get? name members).bind Value.members?).getD [])

/-- The response at a location. The type of its body is no header of its own. -/
def readResponse (loader : Loader) (location : Location) : Build Response := do
  let (location, members) ← objectAt loader location
  let headerNames :=
    (namesIn members "headers").filter fun name => Text.lowerAscii name != "content-type"
  let headers ← headerNames.mapM fun name => do
    return (name, ← readHeader loader ((location.child "headers").child name))
  let links ← (namesIn members "links").mapM fun name => do
    let (_, link) ← objectAt loader ((location.child "links").child name)
    return (name, ← Build.ofExcept (readLink name link))
  let content ← readContent loader location members
  return {
    description := (textOf? members "description").getD ""
    headers := headers
    content := content
    links := links }

/-- The requirements that an object declares. -/
def readSecurity (owner : Location) (members : Entries Value) :
    Except DefinitionError (Option (List SecurityRequirement)) :=
  match Entries.get? "security" members with
  | none => .ok none
  | some node => (SecurityRequirement.parseList (owner.child "security").text node).map some

/-- The operation at a location. -/
def readOperation (loader : Loader) (path method : String) (shared : List Parameter)
    (servers : List Server) (location : Location) : Build Operation := do
  let (location, members) ← objectAt loader location
  let method := Text.upperAscii method
  let operationId := textOf? members "operationId"
  let label := operationId.getD (method ++ " " ++ path)
  let own ← readParameters loader location members label
  let parameters := effectiveParameters shared own
  Build.ofExcept (checkParameterNames label path parameters)
  let requestBody ←
    if Entries.has "requestBody" members then
      some <$> readRequestBody loader (location.child "requestBody")
    else pure none
  let responses ← (namesIn members "responses").mapM fun code => do
    return (code, ← readResponse loader ((location.child "responses").child code))
  let security ← Build.ofExcept (readSecurity location members)
  let ownServers ← Build.ofExcept (readServers location members)
  return {
    operationId := operationId
    path := path
    method := method
    summary := textOf? members "summary"
    tags := stringsOf members "tags"
    parameters := parameters
    requestBody := requestBody
    responses := responses
    security := security
    servers := ownServers.getD servers }

/-- The operations of the path item at a location. -/
def readPathItem (loader : Loader) (servers : List Server) (path : String) (location : Location) :
    Build (List Operation) := do
  let (location, members) ← objectAt loader location
  let shared ← readParameters loader location members path
  let ownServers ← Build.ofExcept (readServers location members)
  (operationMethods.filter fun method => Entries.has method members).mapM fun method =>
    readOperation loader path method shared (ownServers.getD servers) (location.child method)

/-- The members of one kind of components. -/
def componentsOf (root : Entries Value) (kind : String) : Entries Value :=
  (((Entries.get? "components" root).bind (Value.member? kind)).bind Value.members?).getD []

/-- The first identifier that two operations share, where `seen` holds the identifiers before. -/
def sharedId? : (seen : List String) → List Operation → Option String
  | _, [] => none
  | seen, operation :: rest =>
    match operation.operationId with
    | none => sharedId? seen rest
    | some id => if seen.contains id then some id else sharedId? (id :: seen) rest

/-- The first scheme that a requirement names and the description does not declare. -/
def undefinedScheme? (description : Description) : Option String :=
  let required := description.operations.filterMap Operation.security ++ [description.security]
  (required.flatMap fun requirements => requirements.flatMap Entries.keys).find? fun name =>
    !Entries.has name description.securitySchemes

/-- The first link that leads to no operation. -/
def strayLink? (description : Description) : Option (String × Link) :=
  let responses := description.operations.flatMap fun operation => operation.responses.values
  (responses.flatMap Response.links).find? fun entry =>
    (description.linkTarget? entry.2).isNone

/-- Check what needs the whole description: identifiers, schemes and links. -/
def check (description : Description) : Except DefinitionError Unit :=
  match sharedId? [] description.operations with
  | some id => .error (.duplicateOperationId id)
  | none =>
    match description.undefinedScheme? with
    | some scheme => .error (.undefinedSecurityScheme scheme)
    | none =>
      match description.strayLink? with
      | some (name, link) => .error (.unknownLinkOperation name link.target.text)
      | none => .ok ()

/-- The description in the root document. -/
def readRoot (loader : Loader) (dialect : Dialect) (base : Url) : Build Description := do
  let root := Location.root base.withoutFragment
  let members ← Build.object root
  let components := root.child "components"
  let schemas ← (componentsOf members "schemas").keys.mapM fun name => do
    return (name, ← buildSchema loader ((components.child "schemas").child name))
  let securitySchemes ← (componentsOf members "securitySchemes").keys.mapM fun name => do
    let (_, node) ← objectAt loader ((components.child "securitySchemes").child name)
    return (name, ← Build.ofExcept (SecurityScheme.parse name node))
  let security ← Build.ofExcept (readSecurity root members)
  let ownServers ← Build.ofExcept (readServers root members)
  let servers := ownServers.getD [Server.root]
  let operations ← (namesIn members "paths").mapM fun path =>
    readPathItem loader servers path ((root.child "paths").child path)
  let description : Description :=
    { dialect := dialect
      base := base
      servers := servers
      operations := operations.flatten
      schemas := schemas
      securitySchemes := securitySchemes
      security := security.getD [] }
  Build.ofExcept description.check
  return description

/-- A description with its schemas and the documents it consists of. -/
structure Reading where
  description : Description
  catalog : Catalog
  library : Library

/-- The description that a document writes, where `base` is the document's URL. -/
def read (loader : Loader) (base : Url) (document : Value) : Except DefinitionError Reading :=
  let version := ((document.member? "openapi").bind Value.text?).getD ""
  match Dialect.ofVersion? version with
  | none => .error (.unsupportedVersion version)
  | some dialect =>
    match readRoot loader dialect base ⟨Library.ofRoot base document, .empty⟩ with
    | .error e => .error e
    | .ok (description, state) =>
      state.catalog.complete.map fun catalog => ⟨description, catalog, state.library⟩

theorem exists_of_any_read {loader : Loader} {base : Url} {document : Value} (p : Reading → Bool)
    (h : (read loader base document).toOption.any p = true) :
    ∃ reading, read loader base document = .ok reading ∧ p reading = true := exists_of_any p h

/-- What is read is what stands in the root document, with the last checks of its schemas passed. -/
theorem readRoot_of_read {loader : Loader} {base : Url} {document : Value} {reading : Reading}
    (h : read loader base document = .ok reading) :
    ∃ dialect state,
      readRoot loader dialect base ⟨Library.ofRoot base document, .empty⟩ =
        .ok (reading.description, state) ∧
      state.catalog.complete = .ok reading.catalog ∧ state.library = reading.library := by
  simp only [read] at h
  split at h
  · cases h
  · next dialect _ =>
    split at h
    · cases h
    · next description state root =>
      cases completed : state.catalog.complete with
      | error e => simp [completed, Except.map] at h
      | ok catalog =>
        rw [completed] at h
        cases h
        exact ⟨dialect, state, root, completed, rfl⟩

end Description

end ApiContract
