import DrFrakeVpn.AccessCredentials
import DrFrakeVpn.RenewalScheduler
import DrFrakeVpn.RoutingProfiles

/-! # Handing out configs

Goroutines that a handler waits for work on different rows and are run one after the other; those
that it does not wait for are left to the world. -/
namespace ConfigDelivery

open SharedPrograms GoValues
open BackendModels BackendWorld VpnCommands AccessCredentials RoutingProfiles
open RenewalScheduler (activeKeysOf activeCredentialsOf keyRevoked credentialRevoked)

variable (cfg : Setup) (sv : Services)

inductive Protocol where
  | awg
  | vless
  deriving DecidableEq, Repr

def Protocol.name : Protocol → String
  | .awg => "awg"
  | .vless => "vless"

def PlanType.isVIP : PlanType → Bool
  | .vip | .vip3M => true
  | _ => false

/-- `buildSubscriptionCapabilities(sub).AllowedProtocols`. -/
def allowedProtocols (now : ℤ) (sub : Subscription) : List Protocol :=
  if !isSubscriptionEntitled now sub then []
  else match sub.plan with
    | .trial | .basic | .basic3M => [.awg]
    | .vip | .vip3M => [.vless]
    | .free => []

def isVIPSubscription (now : ℤ) (sub : Subscription) : Bool :=
  if sub.status ≠ .active ∨ sub.expiresAt < now then false else PlanType.isVIP sub.plan

/-- Active servers with their templates; those for VIP users only if asked for. -/
def activeServers (vip : Bool) (db : Db) : List (VPNServer × Option VLESSServerTemplate) :=
  (db.servers.select fun s => s.active && (vip || !s.vipOnly)).map fun s =>
    (s, db.templates.first? fun t => t.serverID = s.id)

/-- What a config logs in with: a key pair or a client id. -/
inductive Identity where
  | awg (publicKey : String)
  | vless (clientID : String)
  deriving DecidableEq, Repr

def Identity.protocol : Identity → Protocol
  | .awg _ => .awg
  | .vless _ => .vless

/-- One config of an answer. The identity is part of its text. -/
structure ConfigEntry where
  config : String
  serverID : ℕ
  server : String
  region : String
  countryCode : String
  isVIPOnly : Bool
  issuedAt : ℤ
  identity : Identity
  deriving DecidableEq, Repr

def entryFor (server : VPNServer) (config : String) (issuedAt : ℤ) (identity : Identity) :
    ConfigEntry :=
  ⟨config, server.id, server.name, server.region, server.countryCode, server.vipOnly, issuedAt,
    identity⟩

inductive ConfigReply where
  | failed (status : ℕ) (message : String)
  | configs (protocol : Protocol) (entries : List ConfigEntry)

def ConfigReply.response : ConfigReply → Response
  | .failed status message => respondError status message
  | .configs protocol entries => ⟨200, [
      ("config", .str ("\n".intercalate (entries.map ConfigEntry.config))),
      ("region", .str (((entries.map ConfigEntry.region).find? (· ≠ "")).getD "")),
      ("protocol", .str protocol.name),
      ("config_statuses", .arr (entries.map fun e => .obj [("server_id", .num e.serverID),
        ("server", .str e.server), ("region", .str e.region),
        ("country_code", .str e.countryCode), ("is_vip_only", .bool e.isVIPOnly)]))]⟩

def ConfigReply.entries : ConfigReply → List ConfigEntry
  | .configs _ entries => entries
  | _ => []

def keysRevoked (q : VPNKey → Bool) (now : ℤ) (db : Db) : Db :=
  { db with vpnKeys := db.vpnKeys.update q (keyRevoked now) }

def credentialsRevoked (q : VLESSCredential → Bool) (now : ℤ) (db : Db) : Db :=
  { db with vlessCredentials := db.vlessCredentials.update q (credentialRevoked now) }

def isOpenKeyOf (userID : ℕ) (k : VPNKey) : Bool := k.userID = userID && k.revokedAt = none

def isOpenCredentialOf (userID : ℕ) (c : VLESSCredential) : Bool :=
  c.userID = userID && c.revokedAt = none

/-- Old AWG keys of a VIP user: their rows are revoked while goroutines remove the peers. -/
def dropLegacyKeys (userID : ℕ) : Handler Unit := do
  match ← exec1 cfg (.config userID .openKeys) (readOf (activeKeysOf userID)) with
  | .error _ | .ok [] => pure ()
  | .ok keys =>
    let now ← readClock .clock
    Prog.each (fun (key, server) =>
      if key.publicKey ≠ "" then spawn (.removePeer key server) else pure ()) keys
    let _ ← exec1 cfg (.config userID .revokeKeys) (writeOf (keysRevoked (isOpenKeyOf userID) now))

def profilesOf (userID : ℕ) (db : Db) : List RoutingProfile :=
  db.routingProfiles.select fun p => p.userID = userID && p.deletedAt = none

def seedProfilesOf (userID : ℕ) (w : World) : Except DbError Unit × World :=
  (.ok (), { w with db := { w.db with
    routingProfiles := sv.seedRoutingProfiles userID w.now w.db.routingProfiles } })

def vlessEntry (userID : ℕ) (profiles : List RoutingProfile)
    (x : VPNServer × Option VLESSServerTemplate) : Handler (Option ConfigEntry) := do
  match ← ensureVLESSTemplate cfg sv x.1 x.2 with
  | .error _ | .ok none => pure none
  | .ok (some template) =>
    if template.publicKey = "" ∨ template.shortID = "" ∨ template.serverName = "" then pure none
    else
      let entry := fun clientID issuedAt => entryFor x.1
        (sv.vlessConfig clientID x.1 template profiles) issuedAt (.vless clientID)
      let clientID := trimSpace template.clientID
      let issuedAt ← readClock .clock
      if clientID ≠ "" then pure (some (entry clientID issuedAt))
      else
        match ← ensureVLESSCredential cfg sv userID x.1 template with
        | .error _ => pure none
        | .ok credential => pure (some (entry credential.clientID credential.createdAt))

def vlessConfigs (userID : ℕ) (servers : List (VPNServer × Option VLESSServerTemplate)) :
    Handler (Except ConfigReply (List ConfigEntry)) := do
  dropLegacyKeys cfg userID
  match ← exec1 cfg (.config userID .seedProfiles) (seedProfilesOf sv userID) with
  | .error _ => pure (.error (.failed 500 "failed to prepare routing profiles"))
  | .ok _ =>
    match ← exec1 cfg (.config userID .loadProfiles) (readOf (profilesOf userID)) with
    | .error _ => pure (.error (.failed 500 "failed to load routing profiles"))
    | .ok profiles =>
      let entries ← Prog.collect (vlessEntry cfg sv userID profiles) servers
      pure (.ok entries)

/-- Old VLESS credentials of a user without a VIP plan, treated alike. -/
def dropLegacyCredentials (userID : ℕ) : Handler Unit := do
  match ← exec1 cfg (.config userID .openCredentials) (readOf (activeCredentialsOf userID)) with
  | .error _ | .ok [] => pure ()
  | .ok creds =>
    let now ← readClock .clock
    Prog.each (fun (cred, server, template) => spawn (.removeClient cred server template)) creds
    let _ ← exec1 cfg (.config userID .revokeCredentials)
      (writeOf (credentialsRevoked (isOpenCredentialOf userID) now))

/-- The server of a row whose server is gone. -/
def noServer : VPNServer := ⟨0, "", "", "", "", false, false, 0, "", ""⟩

/-- A key on a server that became VIP-only is taken back, any other may be handed out again. -/
def keptKey (sub : Subscription) (x : VPNKey × Option VPNServer) :
    Handler (Option (VPNKey × VPNServer)) := do
  let server := x.2.getD noServer
  let now ← readClock .clock
  if server.vipOnly && !isVIPSubscription now sub then do
    let now ← readClock .clock
    if x.1.publicKey ≠ "" then
      let _ ← removeAWGPeer cfg (.removePeer x.1.id) x.2 x.1.publicKey
    let _ ← exec1 cfg (.revokeKey x.1.id) (writeOf (keysRevoked (fun k => k.id = x.1.id) now))
    pure none
  else pure (some (x.1, server))

/-- `fmt.Sprintf("10.8.%d.%d", (userID-1)/253+1, (userID-1)%253+2)` with the wrap-around of an
unsigned number. -/
def clientIP (userID : ℕ) : String :=
  let n := (userID + (2 ^ 64 - 1)) % 2 ^ 64
  "10.8." ++ toString (n / 253 + 1) ++ "." ++ toString (n % 253 + 2)

def endpointOf (server : VPNServer) : String :=
  if server.endpoint = "" then server.host ++ ":" ++ toString server.awgPort else server.endpoint

def createKeyOf (mk : ℕ → VPNKey) (w : World) : Except DbError Unit × World :=
  tryWriteOf (fun db => (db.vpnKeys.insert mk).map fun t => { db with vpnKeys := t }) w

/-- A peer is added before its row is stored; if it cannot be stored, a goroutine removes it. -/
def newKey (userID : ℕ) (server : VPNServer) : Handler (Option ConfigEntry) := do
  let pair ← draw
  let seed ← draw
  let publicKey := sv.publicKey pair
  let presharedKey := sv.presharedKey seed
  let config := sv.awgConfig (sv.privateKey pair) publicKey presharedKey (clientIP userID)
    (endpointOf server) server
  match ← addAWGPeer cfg (.addPeer server.id publicKey) server publicKey presharedKey
      (clientIP userID) with
  | .error _ => pure none
  | .ok _ =>
    let now ← readClock .clock
    match ← exec1 cfg (.config userID (.storeKey server.id)) (createKeyOf fun id =>
        ⟨id, userID, server.id, publicKey, presharedKey, config, now, none⟩) with
    | .ok _ => pure (some (entryFor server config now (.awg publicKey)))
    | .error _ =>
      spawn (.dropPeer server publicKey)
      pure none

/-- The key of the last row for a server, as a map that is filled row by row has it. -/
def keyMap (keys : List (VPNKey × VPNServer)) (serverID : ℕ) : Option (VPNKey × VPNServer) :=
  keys.reverse.find? fun x => x.1.serverID = serverID

def awgEntry (userID : ℕ) (keys : List (VPNKey × VPNServer))
    (x : VPNServer × Option VLESSServerTemplate) : Handler (Option ConfigEntry) :=
  match keyMap keys x.1.id with
  | some (key, server) => pure (some (entryFor server (sv.patchedConfig key.configText server)
      key.issuedAt (.awg key.publicKey)))
  | none => newKey cfg sv userID x.1

def awgConfigs (userID : ℕ) (sub : Subscription)
    (servers : List (VPNServer × Option VLESSServerTemplate)) : Handler (List ConfigEntry) := do
  dropLegacyCredentials cfg userID
  let existing :=
    match ← exec1 cfg (.config userID .existingKeys) (readOf (activeKeysOf userID)) with
    | .error _ => []
    | .ok keys => keys
  let keys ← Prog.collect (keptKey cfg sub) existing
  Prog.collect (awgEntry cfg sv userID keys) servers

def configsFor (userID : ℕ) (sub : Subscription)
    (servers : List (VPNServer × Option VLESSServerTemplate)) :
    Handler (Except ConfigReply (List ConfigEntry)) :=
  if PlanType.isVIP sub.plan then vlessConfigs cfg sv userID servers
  else do
    let entries ← awgConfigs cfg sv userID sub servers
    pure (.ok entries)

def getConfig (userID : ℕ) : Handler ConfigReply := do
  match ← ensureDefaultSubscription cfg userID with
  | .error _ => pure (.failed 500 "failed to load subscription")
  | .ok sub =>
    let now ← readClock .clock
    if sub.status ≠ .active then pure (.failed 403 "active subscription required")
    else if sub.expiresAt < now then pure (.failed 403 "subscription expired")
    else
      let now ← readClock .clock
      match allowedProtocols now sub with
      | [] => pure (.failed 403 "no protocol available for current subscription")
      | protocol :: _ =>
        let now ← readClock .clock
        match ← exec1 cfg (.config userID .servers)
            (readOf (activeServers (isVIPSubscription now sub))) with
        | .error _ | .ok [] => pure (.failed 503 "no available VPN servers")
        | .ok servers =>
          match ← configsFor cfg sv userID sub servers with
          | .error reply => pure reply
          | .ok [] => pure (.failed 500 "failed to generate any configs")
          | .ok entries => pure (.configs protocol entries)

end ConfigDelivery
