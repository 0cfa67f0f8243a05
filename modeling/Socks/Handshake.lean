import Socks.Authentication
import Socks.Reply
import Socks.Request.Reader

/-!
# The handshake

From the first byte of a control connection to a complete request. A request that was read but is
not understood gets a reply; everything else that goes wrong ends the connection without one,
except that a SOCKS4 client is told that it cannot authenticate.
-/

namespace Socks.Handshake

/-- Tells a client what is wrong with its request, if there is a status for that. The failure
stays the same when the reply cannot be written. -/
def turnDown (version : Version) (f : Failure) : Dialogue Request :=
  match f.replyStatus? with
  | some status => do
    Dialogue.trySay (Reply.bare version status).bytes
    Dialogue.fail f
  | none => Dialogue.fail f

/-- Reads a request, and replies to one that is not understood. -/
def hear (version : Version) : Dialogue Request := do
  match ← (Request.read version).attempt with
  | .ok r => return r
  | .error f => turnDown version f

/-- A SOCKS4 client, which has no way to authenticate. -/
def greetV4 (a : Authenticator) : Dialogue Request := do
  let r ← hear .v4
  if a.acceptsAnonymous then return r
  else
    Dialogue.say (Reply.bare .v4 .ruleFailure).bytes
    Dialogue.fail (.authentication (.cannotAuthenticate .v4))

/-- A SOCKS5 client, which settles on a method first. -/
def greetV5 (a : Authenticator) : Dialogue Request := do
  let identity ← Authentication.negotiate a
  let r ← hear .v5
  return { r with identity := identity }

/-- A client of either version, from its first byte. -/
def greet (a : Authenticator) : Dialogue Request := do
  let b ← Dialogue.byte
  match Version.ofByte? b with
  | some .v4 => greetV4 a
  | some .v5 => greetV5 a
  | none => Dialogue.fail (.unsupportedVersion b)

/-- The failure of a handshake that takes too long. -/
def tooSlow (limit : UInt64) : Failure :=
  .transport ⟨.timedOut, "SOCKS handshake not completed within " ++ Clock.secondsText limit⟩

end Socks.Handshake
