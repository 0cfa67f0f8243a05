import Socks.Request

/-!
# Rules

Which requests may be carried out.
-/

namespace Socks

/-- A judgement on every request. -/
abbrev Rules := Request → Bool

namespace Rules

/-- Everything is allowed. -/
def everything : Rules := fun _ => true

/-- Nothing is allowed. -/
def nothing : Rules := fun _ => false

end Rules

/-- The commands that are switched on. -/
structure Permissions where
  connect : Bool
  bind : Bool
  associate : Bool
deriving DecidableEq

namespace Permissions

/-- A request is allowed when its command is switched on. -/
def rules (p : Permissions) : Rules := fun r =>
  match r.command with
  | .connect => p.connect
  | .bind => p.bind
  | .associate => p.associate

end Permissions

end Socks
