import DrFrakeVpn.BackendWorld
import DrFrakeVpn.AwgConfig
import DrFrakeVpn.XrayConfig

/-! # The commands that change a VPN server

A command that fails leaves what the ones before it did. A server without an SSH password is left
alone. -/
namespace VpnCommands

open SharedPrograms FaultyTransactions GoValues BackendModels BackendWorld

inductive RemoteError where
  | ssh
  | config (e : XrayConfig.ConfigError)
  deriving DecidableEq, Repr

def setPeer (server : ℕ) (publicKey : String) (r : Remote) : Remote :=
  { r with awgPeers := r.awgPeers.insert (server, publicKey) }

def deletePeer (server : ℕ) (publicKey : String) (r : Remote) : Remote :=
  { r with awgPeers := r.awgPeers.filter fun p => p ≠ (server, publicKey) }

def editAwgFile (server : ℕ) (edit : List Char → List Char) (r : Remote) : Remote :=
  { r with awgFiles := Function.update r.awgFiles server (edit (r.awgFiles server)) }

def writeXrayFile (server : ℕ) (file : Json) (r : Remote) : Remote :=
  { r with
    xrayFiles := Function.update r.xrayFiles server (some file)
    xrayWrites := Function.update r.xrayWrites server (r.xrayWrites server + 1) }

variable (cfg : Setup)

def sshExec {α : Type} (l : Stmt) (f : Remote → α × Remote) : Handler (Except RemoteError α) :=
  single cfg.faults .ssh l fun w => (.ok (f w.remote).1, { w with remote := (f w.remote).2 })

def addAWGPeer (site : PeerStep → Stmt) (server : VPNServer)
    (clientPublicKey presharedKey allowedIP : String) : Handler (Except RemoteError Unit) :=
  if server.sshPassword = "" then pure (.ok ())
  else do
    match ← sshExec cfg (site .wg) fun r => ((), setPeer server.id clientPublicKey r) with
    | .error e => pure (.error e)
    | .ok _ =>
      sshExec cfg (site .file) fun r => ((), editAwgFile server.id (fun text => text ++
        AwgConfig.peerBlock clientPublicKey.toList presharedKey.toList allowedIP.toList) r)

/-- A row whose server is gone carries an empty one, which has no password. The error of the
clean-up of the config file is dropped. -/
def removeAWGPeer (site : PeerStep → Stmt) (server : Option VPNServer) (clientPublicKey : String) :
    Handler (Except RemoteError Unit) :=
  match server with
  | none => pure (.ok ())
  | some server =>
    if server.sshPassword = "" then pure (.ok ())
    else do
      match ← sshExec cfg (site .wg) fun r => ((), deletePeer server.id clientPublicKey r) with
      | .error e => pure (.error e)
      | .ok _ =>
        let _ ← sshExec cfg (site .file) fun r =>
          ((), editAwgFile server.id (AwgConfig.cleanConfig clientPublicKey.toList) r)
        pure (.ok ())

def ensureXrayRuntimeReady (site : XrayStep → Stmt) (port : ℤ) :
    Handler (Except RemoteError Unit) :=
  if port ≤ 0 then pure (.ok ()) else sshExec cfg (site .ready) fun r => ((), r)

/-- What `addXrayClient` and `removeXrayClient` share: the file is read, changed here and
written back, with nothing that keeps others from writing it meanwhile. -/
def rewriteXrayConfig (site : XrayStep → Stmt) (server : VPNServer) (port : ℤ)
    (change : Option Json → Except XrayConfig.ConfigError (Option Json)) :
    Handler (Except RemoteError Unit) := do
  match ← sshExec cfg (site .read) fun r =>
      ((r.xrayFiles server.id, r.xrayWrites server.id), r) with
  | .error e => pure (.error e)
  | .ok (file, version) =>
    match change file with
    | .error e => pure (.error (.config e))
    | .ok none => pure (.ok ())
    | .ok (some updated) =>
      match ← sshExec cfg (site (.write version)) fun r =>
          ((), writeXrayFile server.id updated r) with
      | .error e => pure (.error e)
      | .ok _ => ensureXrayRuntimeReady cfg site port

def addXrayClient (site : XrayStep → Stmt) (server : VPNServer) (template : VLESSServerTemplate)
    (clientID : String) : Handler (Except RemoteError Unit) :=
  if server.sshPassword = "" then pure (.ok ())
  else rewriteXrayConfig cfg site server template.port (XrayConfig.addClient template clientID)

def removeXrayClient (site : XrayStep → Stmt) (server : Option VPNServer)
    (template : Option VLESSServerTemplate) (clientID : String) :
    Handler (Except RemoteError Unit) :=
  match server, template with
  | some server, some template =>
    if server.sshPassword = "" then pure (.ok ())
    else rewriteXrayConfig cfg site server template.port (XrayConfig.removeClient clientID)
  | _, _ => pure (.ok ())

section Steps

variable {cfg} {R : Stmt → World → World → Prop}

theorem does_sshExec {α : Type} {l} (h : ∀ w r, R l w { w with remote := r })
    (f : Remote → α × Remote) : (sshExec cfg l f).Does R := by
  refine Prog.does_atom fun w => ?_
  split
  · exact h w w.remote
  · exact h w _

theorem does_removeAWGPeer (h : ∀ step w r, R (site step) w { w with remote := r }) :
    (removeAWGPeer cfg site server publicKey).Does R := by
  unfold removeAWGPeer
  split
  · exact .done _
  split
  · exact .done _
  refine (does_sshExec (h _) _).bind ?_
  rintro (_ | _)
  · exact .done _
  · exact (does_sshExec (h _) _).bind fun _ => .done _

variable {site : XrayStep → Stmt}

theorem does_rewriteXrayConfig (h : ∀ step w r, R (site step) w { w with remote := r })
    (server : VPNServer) (port : ℤ)
    (change : Option Json → Except XrayConfig.ConfigError (Option Json)) :
    (rewriteXrayConfig cfg site server port change).Does R := by
  refine (does_sshExec (h _) _).bind ?_
  rintro (_ | _)
  · exact .done _
  dsimp only
  split
  · exact .done _
  · exact .done _
  refine (does_sshExec (h _) _).bind ?_
  rintro (_ | _)
  · exact .done _
  dsimp only [ensureXrayRuntimeReady]
  split
  · exact .done _
  · exact does_sshExec (h _) _

theorem does_removeXrayClient (h : ∀ step w r, R (site step) w { w with remote := r }) :
    (removeXrayClient cfg site server template clientID).Does R := by
  unfold removeXrayClient
  split
  · split
    · exact .done _
    · exact does_rewriteXrayConfig h _ _ _
  · exact .done _

end Steps

end VpnCommands
