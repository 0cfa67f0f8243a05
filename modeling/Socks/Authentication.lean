import Socks.Credentials
import Socks.Dialogue

/-!
# Authentication

The client offers methods, the server takes the first one that it supports, and a client that goes
by user name and password shows them. A server that knows no credentials supports only clients
without any.
-/

namespace Socks

/-- Whom a server lets in: everybody, or users with credentials and, unless these are required,
everybody else too. -/
inductive Authenticator where
  | anyone
  | credentials (store : CredentialStore) (required : Bool)

namespace Authenticator

/-- The methods a server supports. -/
def methods : Authenticator → List Method
  | .anyone => [.noAuth]
  | .credentials _ true => [.userPass]
  | .credentials _ false => [.noAuth, .userPass]

/-- Whether clients are let in without credentials. -/
def acceptsAnonymous (a : Authenticator) : Bool := a.methods.contains .noAuth

/-- The judgement on passwords; without credentials there is no good one. -/
def store : Authenticator → CredentialStore
  | .anyone => fun _ _ => false
  | .credentials s _ => s

/-- The first method offered that the server supports. -/
def select? (a : Authenticator) (offered : Bytes) : Option Method :=
  (offered.filterMap Method.ofByte?).find? fun m => a.methods.contains m

end Authenticator

namespace Authentication

/-- The byte that turns down every method. -/
def noneAcceptable : UInt8 := 0xFF

/-- The message that names the method to go by. -/
def choice (m? : Option Method) : Bytes := [5, (m?.map Method.byte).getD noneAcceptable]

/-- The message that lets a user in. -/
def welcome : Bytes := [1, 0]

/-- The message that turns a user away, whatever the reason. -/
def refusal : Bytes := [1, 1]

/-- Turns a user away. -/
def refuse (fault : AuthFault) : Dialogue String := do
  Dialogue.say refusal
  Dialogue.fail (.authentication fault)

/-- Reads a length and so many bytes. -/
def readField : Dialogue Bytes := do
  let length ← Dialogue.byte
  let field ← Dialogue.block length.toNat
  return field.bytes

/-- Judges a name and a password. -/
def check (store : CredentialStore) (name password : Bytes) : Dialogue String :=
  match Text.ofBytes? name, Text.ofBytes? password with
  | some name, some password =>
    if name = "" then refuse .emptyUsername
    else if store name password then do
      Dialogue.say welcome
      return name
    else refuse (.wrongCredentials name)
  | _, _ => refuse .malformedCredentials

/-- Hears a user name and a password; gives the name of the user who is let in. -/
def password (store : CredentialStore) : Dialogue String := do
  let version ← Dialogue.byte
  if version ≠ 1 then refuse (.unknownExchange version)
  else
    let name ← readField
    let password ← readField
    check store name password

/-- Goes on by the method that was chosen. -/
def proceed (a : Authenticator) (offered : Bytes) : Option Method → Dialogue Identity
  | some .noAuth => return .anonymous
  | some .userPass => return .user .userPass (← password a.store)
  | none => Dialogue.fail (.authentication (.noAcceptableMethod offered))

/-- Settles on a method with a client and goes through it; the version byte has been read. -/
def negotiate (a : Authenticator) : Dialogue Identity := do
  let count ← Dialogue.byte
  if count = 0 then
    Dialogue.say (choice none)
    Dialogue.fail (.authentication .noMethods)
  else
    let offered ← Dialogue.block count.toNat
    let chosen := a.select? offered.bytes
    Dialogue.say (choice chosen)
    proceed a offered.bytes chosen

end Authentication

end Socks
