import ApiContract.Entries
import ApiContract.Http.Message
import ApiContract.Security.Scheme
/-!
# Credentials

What a caller proves its identity with, and the source of tokens and of answers to challenges.
-/

namespace ApiContract

/-- What a caller has for one scheme. -/
inductive Credential where
  | secret (text : String)
  | userPassword (user password : String)
deriving DecidableEq, Repr, Inhabited

/-- A description of a credential that hides what is secret. -/
def Credential.redacted : Credential → String
  | secret _ => "Secret(***)"
  | userPassword user _ =>
    "UserPassword \x7b user: " ++ Text.quoted user ++ ", password: \"***\" \x7d"

/-- The credentials of a session by the names of their schemes, in ascending order. -/
abbrev Credentials := Entries Credential

/-- A source of access tokens and of answers to challenges. -/
structure Authenticator where
  accessToken : (schemeName : String) → SecurityScheme → Except String String
  answerChallenge : (schemeName challenge : String) → HttpRequest → Credential → Except String String

namespace Authenticator

/-- The source that has nothing. -/
def empty : Authenticator where
  accessToken schemeName _ := .error ("no token source for " ++ schemeName)
  answerChallenge schemeName _ _ _ := .error ("no challenge handler for " ++ schemeName)

end Authenticator

/-- A question that an authenticator was asked. -/
inductive Consultation where
  | token (schemeName : String) (scheme : SecurityScheme)
  | challenge (schemeName challenge : String) (request : HttpRequest) (credential : Credential)
deriving Inhabited

end ApiContract
