import DrFrakeVpn.HappRouting

/-! # QUIC on the clients

Both clients put a rule in front that sends UDP to port 443 to an outbound of theirs, unless the
config has a rule that they take for such a one. -/
namespace QuicBlocking

open GoValues VipConfig PlatformRouting XrayMatching HappRouting

inductive Client where
  | desktop
  | android

/-- What the client takes for the rule; neither looks at the outbound. -/
def Client.isBlockRule : Client → Fields → Bool
  | .desktop => isUdp443BlockRule
  | .android => isUdp443Rule

def protocolOf (outbound : Json) : String := asString (lookup (asMap (some outbound)) "protocol")

variable {client : Client} {config : Fields}

end QuicBlocking
