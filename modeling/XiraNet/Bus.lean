/-!
# Bus events

The events of `bus/mod.rs` that the nodes of a cluster exchange.
-/

namespace XiraNet

/-- An event on the channel `xira:bus`. -/
inductive BusEvent
  /-- Drop every session of the user from the local map. -/
  | sessionInvalidateUser (userId : String)
  /-- Drop one session from the local map. -/
  | sessionInvalidateToken (hashedToken : String)
  /-- A custom WAF rule was added by the admin API. -/
  | wafRuleAdded (id : Nat) (pattern label : String)
  /-- A custom WAF rule was removed. -/
  | wafRuleRemoved (id : Nat)
  deriving DecidableEq, Repr

end XiraNet
