import Socks.Config
import Socks.Host
import Socks.Session

/-!
# Servers

A server is made from a configuration that makes sense: where it listens, the options of its
connections, and how each of them is served.
-/

namespace Socks

/-- How the connections of a configuration are served. Without a complete user everybody is let in
anonymously. -/
def Service.ofConfig (c : Config.Protocol) : Service where
  authenticator :=
    match c.username?, c.password? with
    | some user, some password =>
      .credentials (Credentials.empty.add user password).accepts c.authRequired
    | _, _ => .anyone
  rules := Permissions.rules ⟨c.allowConnect, c.allowBind, c.allowDatagrams⟩
  requestLimit := c.requestLimit
  bindLimit := c.bindLimit

/-- A server. -/
structure Server where
  listenAddress : String
  options : SocketOptions
  dialer : Dialer
  service : Service

namespace Server

/-- The server of a configuration, unless that has a conflict. -/
def build (c : Config.Server) : Except Config.Conflict Server :=
  match c.protocol.conflict? with
  | some conflict => .error conflict
  | none =>
    let options := SocketOptions.ofConfig c.tcp
    .ok ⟨c.listenAddress, options, ⟨options, c.protocol.requestLimit⟩, .ofConfig c.protocol⟩

/-- The wording of a server that cannot listen. -/
def cannotListen (address : String) : String := "Failed to listen on " ++ address

end Server

end Socks
