import ApiContract.Session.Basic
import ApiContract.Text.Base64
/-!
# Choosing and applying security

Of the alternatives that an operation offers, the first is taken for which there are all
credentials. Each of its schemes then adds to the request what proves the caller's identity.
-/

namespace ApiContract

/-- What the schemes of a requirement add to a request. -/
structure AppliedSecurity where
  headers : List (String × String)
  query : List (String × String)
  cookies : List (String × String)
  /-- The scheme by which a challenge of the server is to be answered. -/
  digest : Option String
deriving DecidableEq, Repr, Inhabited

namespace AppliedSecurity

/-- Nothing added. -/
def none : AppliedSecurity := ⟨[], [], [], Option.none⟩

/-- Add a header. -/
def addHeader (applied : AppliedSecurity) (name value : String) : AppliedSecurity :=
  { applied with headers := applied.headers ++ [(name, value)] }

/-- Add the value of an `Authorization` header. -/
def addAuthorization (applied : AppliedSecurity) (value : String) : AppliedSecurity :=
  applied.addHeader "authorization" value

/-- Add a key in its location. -/
def addKey (applied : AppliedSecurity) (name : String) (location : ParameterLocation)
    (value : String) : AppliedSecurity :=
  match location with
  | .query => { applied with query := applied.query ++ [(name, value)] }
  | .cookie => { applied with cookies := applied.cookies ++ [(name, value)] }
  | .header | .path => applied.addHeader name value

end AppliedSecurity

namespace Session

/-- Refuse credentials for schemes that neither the operation nor the description asks for. -/
def checkUnexpected (operation : String) (requirements global : List SecurityRequirement)
    (credentials : Credentials) : Except CallError Unit :=
  let requested (name : String) : Bool :=
    (requirements ++ global).any fun requirement => Entries.has name requirement
  let unexpected := credentials.keys.filter fun name => !requested name
  if unexpected.isEmpty then .ok () else .error (.unexpectedSecurity operation unexpected)

/-- The first alternative for which there are all credentials; none when there are no
alternatives. -/
def negotiate (requirements : List SecurityRequirement) (credentials : Credentials) :
    Except CallError (Option SecurityRequirement) :=
  if requirements.isEmpty then .ok none
  else
    let satisfied (requirement : SecurityRequirement) : Bool :=
      requirement.keys.all fun name => Entries.has name credentials
    match requirements.find? satisfied with
    | some requirement => .ok (some requirement)
    | none => .error (.noSecuritySatisfied (requirements.map Entries.keys) credentials.keys)

/-- The secret of a credential for a scheme that needs one. -/
def secretOf (schemeName : String) : Credential → Except CallError String
  | .secret text => .ok text
  | .userPassword _ _ => .error (.authentication schemeName "expects a single secret")

/-- The text of a credential in the basic scheme. -/
def basicText : Credential → String
  | .secret text => text
  | .userPassword user password => user ++ ":" ++ password

/-- The access token for a scheme: from the authenticator if there is one, else the secret. -/
def tokenOf (authenticator : Option Authenticator) (schemeName : String) (scheme : SecurityScheme)
    (credential : Credential) : Except CallError String × List Consultation :=
  match authenticator with
  | none => (secretOf schemeName credential, [])
  | some authenticator =>
    match authenticator.accessToken schemeName scheme with
    | .ok token => (.ok token, [.token schemeName scheme])
    | .error problem => (.error (.authentication schemeName problem), [.token schemeName scheme])

/-- What a scheme other than one with access tokens adds to a request. -/
def applyCredential (schemeName : String) (scheme : SecurityScheme) (credential : Credential)
    (applied : AppliedSecurity) : Except CallError AppliedSecurity :=
  match scheme with
  | .apiKey name location => (secretOf schemeName credential).map (applied.addKey name location)
  | .http .basic _ =>
    .ok (applied.addAuthorization
      ("Basic " ++ String.ofList (Text.Base64.encode (Text.Utf8.encode (basicText credential)))))
  | .http .bearer _ =>
    (secretOf schemeName credential).map fun secret =>
      applied.addAuthorization ("Bearer " ++ secret)
  | .http .digest _ => .ok { applied with digest := some schemeName }
  | .http (.other name) _ =>
    (secretOf schemeName credential).map fun secret =>
      applied.addAuthorization (name ++ " " ++ secret)
  | .oauth2 _ | .openIdConnect _ | .mutualTls => .ok applied

/-- What a scheme adds to a request. -/
def applyScheme (authenticator : Option Authenticator) (schemeName : String)
    (scheme : SecurityScheme) (credential : Credential) (applied : AppliedSecurity) :
    Except CallError AppliedSecurity × List Consultation :=
  match scheme with
  | .oauth2 _ | .openIdConnect _ =>
    let (token, asked) := tokenOf authenticator schemeName scheme credential
    (token.map fun token => applied.addAuthorization ("Bearer " ++ token), asked)
  | scheme => (applyCredential schemeName scheme credential applied, [])

/-- What several schemes add to a request, one after the other. -/
def applySchemes (session : Session) :
    List String → AppliedSecurity → Except CallError AppliedSecurity × List Consultation
  | [], applied => (.ok applied, [])
  | name :: rest, applied =>
    match Entries.get? name session.description.securitySchemes,
        Entries.get? name session.credentials with
    | some scheme, some credential =>
      match applyScheme session.authenticator name scheme credential applied with
      | (.error e, asked) => (.error e, asked)
      | (.ok applied, asked) =>
        let (result, more) := applySchemes session rest applied
        (result, asked ++ more)
    | _, _ => (.error (.unknownSecurityScheme name), [])

/-- What the security of an operation adds to a request. -/
def applySecurity (session : Session) (operation : Operation) :
    Except CallError AppliedSecurity × List Consultation :=
  let requirements := session.description.securityFor operation
  let chosen :=
    (checkUnexpected operation.label requirements session.description.security
      session.credentials).bind fun _ => negotiate requirements session.credentials
  match chosen with
  | .error e => (.error e, [])
  | .ok none => (.ok .none, [])
  | .ok (some requirement) => session.applySchemes requirement.keys .none

end Session

end ApiContract
