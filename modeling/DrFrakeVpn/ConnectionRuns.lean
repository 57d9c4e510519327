import DrFrakeVpn.DesktopConnection

/-! # Runs of the connection object with any protocol

A protocol may emit its state or stop itself between the call of `start()` and the end of `stop()`,
and both may handle further events before they return. -/
namespace ConnectionRuns

open EventLoops DesktopConnection

inductive Call where
  | enterStart (i : ℕ)
  | leaveStart (i : ℕ)
  | enterStop (i : ℕ)
  | leaveStop (i : ℕ)
  deriving DecidableEq, Repr

def anyProtocol : Implementation Bool Call where
  start i := do
    .atom (.inner (.enterStart i)) fun s =>
      ((), s.updateObject i fun p => { p with active := true })
    .atom (.inner (.leaveStart i)) fun s => (s.rest, s)
  stop i := do
    .atom (.inner (.enterStop i)) fun s => ((), s.updateObject i fun p => { p with active := true })
    .atom (.inner (.leaveStop i)) fun s =>
      ((), s.updateObject i fun p => { p with active := false })

inductive ClientEvent where
  | connection (e : ConnectionEvent)
  | emits (i : ℕ) (st : ConnectionState)
  | stops (i : ℕ)
  deriving DecidableEq, Repr

abbrev Desktop := World Bool
abbrev DesktopLoop := Loop Desktop (Act Call)
abbrev DesktopProg := Client Bool Call Unit
abbrev DesktopMove := Move ClientEvent (Arrival Bool)

/-- The object whose `start()` or `stop()` returns with this action. -/
def returnOf : Act Call → Option ℕ
  | .inner (.leaveStart i) => some i
  | .inner (.leaveStop i) => some i
  | _ => none

def desktop : Machine Desktop (Act Call) ClientEvent (Arrival Bool) where
  handler
    | .connection e => e.handler anyProtocol
    | .emits i st => setProtocolState anyProtocol i st
    | .stops i => anyProtocol.stop i
  ready
    | .connection e, s => e.ready s
    | .emits i _, s | .stops i, s => (s.object? i).any Protocol.active && !s.crashed
  waits l := (returnOf l).isSome
  arrive a s := a.apply (fun b _ => b) s

def begin (e : ClientEvent) (n : ℕ) : List DesktopMove := .dispatch e :: .replicate n .work

def conclude (n : ℕ) : List DesktopMove := .replicate n .work ++ [.finish]

def handle (e : ClientEvent) (n : ℕ) : List DesktopMove := .dispatch e :: conclude n

def someRequest : ConnectRequest where
  serverIndex := 0
  credentialsHost := "vpn"
  supported := true
  xrayBased := false
  wireGuard := true
  managedRouting := true
  emptyConfiguration := false
  hostName := "vpn"
  killSwitchOption := some "true"
  dns1 := "9.9.9.9"
  dns2 := "1.1.1.1"
  allowedDnsServers := []

def started : Desktop := .start false 0 1000 0 0

def connects : List DesktopMove :=
  .arrive (.connect someRequest) :: begin (.connection .posted) 8 ++ conclude 2 ++
    handle (.emits 0 .connected) 1 ++ handle (.connection .posted) 1

end ConnectionRuns
