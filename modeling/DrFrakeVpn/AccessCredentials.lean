import DrFrakeVpn.VpnCommands

/-! # Server templates and client credentials

A template is read from the server and kept in the database for a day. A credential is the client
id that a user has on a server. -/
namespace AccessCredentials

open RecordTables GoValues
open BackendModels BackendWorld VpnCommands

/-- The key files beside the `server.json` of a server; `none` is a file that cannot be read. -/
structure XrayKeys where
  publicKey : Option String
  uuid : Option String
  shortID : Option String
  deriving DecidableEq, Repr

/-- What the handlers take from elsewhere: files and ports of the servers that no handler
changes, what is made of random bytes, the seed of the routing profiles and the texts of the
configs. -/
structure Services where
  xrayKeys : ℕ → XrayKeys
  xrayContainer : ℕ → String → String
  publishedPort : ℕ → ℤ → ℤ
  privateKey : ℕ → String
  publicKey : ℕ → String
  presharedKey : ℕ → String
  uuid : ℕ → String
  token : ℕ → String
  sha256 : String → String
  seedRoutingProfiles : ℕ → ℤ → Table RoutingProfile → Table RoutingProfile
  awgConfig : (privateKey publicKey presharedKey clientIP endpoint : String) → VPNServer → String
  patchedConfig : String → VPNServer → String
  vlessConfig : (clientID : String) → VPNServer → VLESSServerTemplate → List RoutingProfile → String
  happConfig : (clientID : String) → VPNServer → VLESSServerTemplate → List RoutingProfile → String

variable (cfg : Setup) (sv : Services)

def defaultXrayContainer : String := "amnezia-xray"

def defaultAddress (template : VLESSServerTemplate) (server : VPNServer) : String :=
  if template.address ≠ "" then template.address
  else
    let host := if server.endpoint ≠ "" then (split server.endpoint ':').headD "" else ""
    if host = "" then server.host else host

def xrayTemplateDefaults (template : VLESSServerTemplate) (server : VPNServer) :
    VLESSServerTemplate :=
  let network := if template.network = "" then "xhttp" else template.network
  { template with
    address := defaultAddress template server
    port := if template.port = 0 then 443 else template.port
    network := network
    flow := if network = "xhttp" then ""
      else if template.flow = "" ∧ network ≠ "grpc" then "xtls-rprx-vision" else template.flow
    hysteriaPort := if template.hysteriaPort ≤ 0 then 443 else template.hysteriaPort
    containerName := if template.containerName = "" then defaultXrayContainer
      else template.containerName }

def hasUsableVLESSTemplate : Option VLESSServerTemplate → Bool
  | none => false
  | some template => trimSpace template.address ≠ "" && 0 < template.port &&
    trimSpace template.serverName ≠ "" && trimSpace template.publicKey ≠ "" &&
    trimSpace template.shortID ≠ ""

def hasUsableHysteriaTemplate (template : VLESSServerTemplate) : Bool :=
  template.hysteriaEnabled && trimSpace template.hysteriaPassword ≠ "" && 0 < template.hysteriaPort

/-- The first inbound of the config that speaks vless. -/
def firstVless : List Json → Option (List (String × Json))
  | [] => none
  | .obj inbound :: rest =>
    if asString (lookup inbound "protocol") = "vless" then some inbound else firstVless rest
  | _ :: rest => firstVless rest

def inboundPort (inbound : List (String × Json)) (default : ℤ) : ℤ :=
  match lookup inbound "port" with
  | some (.num q) => if 0 < q then ⌊q⌋ else default
  | _ => default

def nonBlank (s default : String) : String := if trimSpace s ≠ "" then trimSpace s else default

def withInbound (template : VLESSServerTemplate) (inbound : List (String × Json)) :
    VLESSServerTemplate :=
  let template := { template with port := inboundPort inbound template.port }
  match asMap? (lookup inbound "streamSettings") with
  | none => template
  | some streamSettings =>
    let network := asString (lookup streamSettings "network")
    let tlsName := asString (lookup (asMap (lookup streamSettings "tlsSettings")) "serverName")
    let template := { template with
      network := if network ≠ "" then network else template.network
      serverName := nonBlank tlsName template.serverName }
    match asMap? (lookup streamSettings "realitySettings") with
    | none => template
    | some realitySettings =>
      let shortIDs := (asArr (lookup realitySettings "shortIds")).filterMap fun item =>
        match item with
        | .str sid => if trimSpace sid ≠ "" then some (trimSpace sid) else none
        | _ => none
      { template with
        serverName := match asArr (lookup realitySettings "serverNames") with
          | .str name :: _ => name
          | _ => template.serverName
        shortID := shortIDs.headD template.shortID }

/-- What the files of the server say. The commands that read them and start Xray if it is
down are one step. -/
def fetchVLESSTemplateFromServer (server : VPNServer) (existing : Option VLESSServerTemplate)
    (r : Remote) : Option VLESSServerTemplate := do
  let keys := sv.xrayKeys server.id
  let preferred := match existing with
    | some old => if old.containerName ≠ "" then old.containerName else defaultXrayContainer
    | none => defaultXrayContainer
  let publicKey ← keys.publicKey
  let shortID ← keys.shortID
  let parsed ← bindMap (r.xrayFiles server.id)
  let template : VLESSServerTemplate :=
    { id := (existing.map VLESSServerTemplate.id).getD 0
      updatedAt := 0
      serverID := (existing.map VLESSServerTemplate.serverID).getD 0
      clientID := trimSpace (keys.uuid.getD "")
      address := nonBlank ((existing.map VLESSServerTemplate.address).getD "")
        (trimSpace server.host)
      port := 443
      serverName := ""
      publicKey := trimSpace publicKey
      shortID := trimSpace shortID
      flow := match existing with
        | some old => if trimSpace old.flow ≠ "" then old.flow else "xtls-rprx-vision"
        | none => "xtls-rprx-vision"
      network := "tcp"
      hysteriaEnabled := false
      hysteriaPort := 0
      hysteriaPassword := ""
      containerName := sv.xrayContainer server.id preferred }
  let template := match firstVless (asArr (lookup parsed "inbounds")) with
    | none => template
    | some inbound => withInbound template inbound
  let published := sv.publishedPort server.id template.port
  let template := if 0 < published then { template with port := published } else template
  some (xrayTemplateDefaults template server)

/-- A column of `Assign(template)`: the zero value leaves the old one. -/
def assign {α : Type} [DecidableEq α] (zero new old : α) : α := if new = zero then old else new

def assigned (template : VLESSServerTemplate) (now : ℤ) : Table.Write VLESSServerTemplate where
  apply old :=
    { id := old.id
      updatedAt := now
      serverID := old.serverID
      clientID := assign "" template.clientID old.clientID
      address := assign "" template.address old.address
      port := assign 0 template.port old.port
      serverName := assign "" template.serverName old.serverName
      publicKey := assign "" template.publicKey old.publicKey
      shortID := assign "" template.shortID old.shortID
      flow := assign "" template.flow old.flow
      network := assign "" template.network old.network
      hysteriaEnabled := assign false template.hysteriaEnabled old.hysteriaEnabled
      hysteriaPort := assign 0 template.hysteriaPort old.hysteriaPort
      hysteriaPassword := assign "" template.hysteriaPassword old.hysteriaPassword
      containerName := assign "" template.containerName old.containerName }
  id_eq _ := rfl
  key_eq _ := rfl

/-- A row that is created has the defaults of the columns in place of zero values. -/
def created (template : VLESSServerTemplate) (now : ℤ) (id : ℕ) : VLESSServerTemplate :=
  { template with
    id := id
    updatedAt := now
    flow := assign "" template.flow "xtls-rprx-vision"
    hysteriaPort := assign 0 template.hysteriaPort 443
    containerName := assign "" template.containerName "amnezia-xray" }

/-- `db.Where("server_id = ?", id).Assign(template).FirstOrCreate(&template)`, which answers the
row as it is stored then. -/
def storeTemplateOf (template : VLESSServerTemplate) (w : World) :
    Except DbError VLESSServerTemplate × World :=
  match w.db.templates.first? fun t => t.serverID = template.serverID with
  | some old => (.ok ((assigned template w.now).apply old), { w with db := { w.db with
      templates := w.db.templates.updateId old.id (assigned template w.now) } })
  | none =>
    match w.db.templates.insert (created template w.now) with
    | some t => (.ok (created template w.now w.db.templates.seq),
        { w with db := { w.db with templates := t } })
    | none => (.error .constraint, w)

inductive TemplateError where
  | remote
  | db (e : DbError)
  deriving DecidableEq, Repr

/-- The template that was loaded with the server is taken as it is for a day. -/
def isFreshTemplate (now : ℤ) (cached : Option VLESSServerTemplate) : Bool :=
  match cached with
  | none => false
  | some template => hasUsableVLESSTemplate cached && 0 ≤ GoTime.sub now template.updatedAt &&
      GoTime.sub now template.updatedAt < 24 * GoTime.hour

def cachedTemplate (cached : Option VLESSServerTemplate) (otherwise : Except TemplateError
    (Option VLESSServerTemplate)) : Except TemplateError (Option VLESSServerTemplate) :=
  if hasUsableVLESSTemplate cached then .ok cached else otherwise

def ensureVLESSTemplate (server : VPNServer) (stored : Option VLESSServerTemplate) :
    Handler (Except TemplateError (Option VLESSServerTemplate)) := do
  let cached := stored.map fun template => xrayTemplateDefaults template server
  let now ← readClock .clock
  if isFreshTemplate now cached then pure (.ok cached)
  else if server.sshPassword ≠ "" then
    match ← sshExec cfg (.template server.id .fetch)
        fun r => (fetchVLESSTemplateFromServer sv server cached r, r) with
    | .ok (some template) =>
      match ← exec1 cfg (.template server.id .store)
          (storeTemplateOf (xrayTemplateDefaults
            { template with serverID := server.id } server)) with
      | .error e => pure (.error (.db e))
      | .ok template => pure (.ok (some template))
    | _ => pure (cachedTemplate cached (.error .remote))
  else pure (cachedTemplate cached (.ok none))

inductive CredentialError where
  | remote (e : RemoteError)
  | db (e : DbError)
  deriving DecidableEq, Repr

def credentialOf (db : Db) (userID serverID : ℕ) : Option VLESSCredential :=
  db.vlessCredentials.first? fun c => c.userID = userID && c.serverID = serverID

/-- `db.Save(&credential)`. -/
def saveCredentialOf (credential : VLESSCredential) (w : World) : Except DbError Unit × World :=
  tryWriteOf (fun db => (db.vlessCredentials.replace credential).map fun t =>
    { db with vlessCredentials := t }) w

def createCredentialOf (userID serverID : ℕ) (clientID : String) (w : World) :
    Except DbError VLESSCredential × World :=
  let row := fun id => ⟨id, w.now, userID, serverID, clientID, none⟩
  match w.db.vlessCredentials.insert row with
  | some t => (.ok (row w.db.vlessCredentials.seq),
      { w with db := { w.db with vlessCredentials := t } })
  | none => (.error .constraint, w)

/-- A revoked credential gets its client back before its row is opened again. -/
def reopenCredential (server : VPNServer) (template : VLESSServerTemplate)
    (credential : VLESSCredential) : Handler (Except CredentialError VLESSCredential) := do
  match ← addXrayClient cfg (.addClient server.id credential.clientID) server template
      credential.clientID with
  | .error e => pure (.error (.remote e))
  | .ok _ =>
    let credential := { credential with revokedAt := none }
    match ← exec1 cfg (.credential credential.userID server.id .save)
        (saveCredentialOf credential) with
    | .error e => pure (.error (.db e))
    | .ok _ => pure (.ok credential)

/-- A client that cannot be stored is taken off its server again. -/
def issueCredential (userID : ℕ) (server : VPNServer) (template : VLESSServerTemplate) :
    Handler (Except CredentialError VLESSCredential) := do
  let clientID := sv.uuid (← draw)
  match ← addXrayClient cfg (.addClient server.id clientID) server template clientID with
  | .error e => pure (.error (.remote e))
  | .ok _ =>
    match ← exec1 cfg (.credential userID server.id .create)
        (createCredentialOf userID server.id clientID) with
    | .ok credential => pure (.ok credential)
    | .error e =>
      let _ ← removeXrayClient cfg (.dropClient server.id clientID) (some server) (some template)
        clientID
      pure (.error (.db e))

def ensureVLESSCredential (userID : ℕ) (server : VPNServer) (template : VLESSServerTemplate) :
    Handler (Except CredentialError VLESSCredential) := do
  match ← exec1 cfg (.credential userID server.id .find)
      (readOf fun db => credentialOf db userID server.id) with
  | .error e => pure (.error (.db e))
  | .ok none => issueCredential cfg sv userID server template
  | .ok (some credential) =>
    if credential.revokedAt = none then pure (.ok credential)
    else reopenCredential cfg server template credential

/-- The letter `n + 1` times. -/
def tally (letter : Char) (n : ℕ) : String := String.ofList (List.replicate (n + 1) letter)

/-- Services whose identifiers tell their number, with no key files and no seed. -/
def Services.numbered : Services where
  xrayKeys _ := ⟨none, none, none⟩
  xrayContainer _ name := name
  publishedPort _ _ := 0
  privateKey := tally 'p'
  publicKey := tally 'k'
  presharedKey := tally 's'
  uuid := tally 'u'
  token := tally 't'
  sha256 text := text
  seedRoutingProfiles _ _ profiles := profiles
  awgConfig _ key _ _ _ _ := key
  patchedConfig text _ := text
  vlessConfig id _ _ _ := id
  happConfig id _ _ _ := id

end AccessCredentials
