import DrFrakeVpn.NodeFleet

/-! # Heartbeats, snapshots and the sync of the servers

A pushed snapshot, a fetched one and the sync at the start each write the whole row of the server
back. -/
namespace NodeAgents

open SharedPrograms RecordTables GoValues AccessCredentials NodeFleet Prog
open SignedRequests (SignedRequest PushCall verifyAgentPushSignature)

variable (cfg : FleetSetup)

abbrev Files := List (String × String)

/-- `files[name]`; a missing file is empty. -/
def fileText (files : Files) (name : String) : String :=
  match files.find? fun f => f.1 = name with
  | some (_, content) => content
  | none => ""

/-- `files[name] = content`. -/
def putFile (files : Files) (name content : String) : Files :=
  files.filter (fun f => f.1 ≠ name) ++ [(name, content)]

def readEntries : TarStream → Files → Except String Files
  | .eof, files => .ok files
  | .failed e, _ => .error e
  | .entry name isDir content rest, files =>
    if isDir then readEntries rest files
    else if contains name ".." || hasPrefix name "/" then
      .error ("unsafe snapshot path " ++ cfg.quote name)
    else match content with
      | .error e => .error e
      | .ok text => readEntries rest (putFile files name text)

def readSnapshotTarGz (body : String) : Except String Files :=
  match cfg.gunzip body with
  | .error e => .error e
  | .ok stream => readEntries cfg stream []

/-- Go ranges over a map in any order; `order` is the one of this run. -/
def firstSnapshotFile (order : Files → Files) (files : Files) (pre : String) : String :=
  match (order files).find? fun f => hasPrefix f.1 pre with
  | some (_, content) => trimSpace content
  | none => ""

structure NodeConfig where
  awg : Obfuscation
  port : ℤ
  deriving DecidableEq, Repr

def setParameter (acceptsPort : ℤ → Bool) (c : NodeConfig) (key val : String) : NodeConfig :=
  if key = "Jc" then { c with awg := { c.awg with jc := val } }
  else if key = "Jmin" then { c with awg := { c.awg with jmin := val } }
  else if key = "Jmax" then { c with awg := { c.awg with jmax := val } }
  else if key = "S1" then { c with awg := { c.awg with s1 := val } }
  else if key = "S2" then { c with awg := { c.awg with s2 := val } }
  else if key = "S3" then { c with awg := { c.awg with s3 := val } }
  else if key = "S4" then { c with awg := { c.awg with s4 := val } }
  else if key = "H1" then { c with awg := { c.awg with h1 := val } }
  else if key = "H2" then { c with awg := { c.awg with h2 := val } }
  else if key = "H3" then { c with awg := { c.awg with h3 := val } }
  else if key = "H4" then { c with awg := { c.awg with h4 := val } }
  else if key = "ListenPort" then
    match atoi? val with
    | some port => if acceptsPort port then { c with port := port } else c
    | none => c
  else c

/-- `strings.SplitN(line, "=", 2)` where it gives two parts. -/
def cutLine (line : String) : Option (String × String) :=
  match line.toList.span fun c => c ≠ '=' with
  | (key, _ :: val) => some (String.ofList key, String.ofList val)
  | (_, []) => none

def readLine (acceptsPort : ℤ → Bool) (c : NodeConfig) (line : String) : NodeConfig :=
  let line := trimSpace line
  if line = "" || hasPrefix line "#" then c
  else match cutLine line with
    | some (key, val) => setParameter acceptsPort c (trimSpace key) (trimSpace val)
    | none => c

def readConfig (acceptsPort : ℤ → Bool) (raw : String) (server : NodeServer) : NodeServer :=
  let c := (split raw '\n').foldl (readLine acceptsPort) ⟨server.awg, server.awgPort⟩
  { server with awg := c.awg, awgPort := c.port }

def applyAWGSnapshot (raw : String) (server : NodeServer) : NodeServer :=
  readConfig (fun port => 0 < port) raw server

/-- What the first vless inbound says about the template. -/
def withInbound (template : NodeTemplate) (inbound : List (String × Json)) : NodeTemplate :=
  let template := { template with port := inboundPort inbound template.port }
  match asMap? (lookup inbound "streamSettings") with
  | none => template
  | some streamSettings =>
    let network := asString (lookup streamSettings "network")
    let security := asString (lookup streamSettings "security")
    let template := { template with
      network := if network ≠ "" then network else template.network
      security := if security ≠ "" then security else template.security }
    match asMap? (lookup streamSettings "realitySettings") with
    | none => template
    | some realitySettings =>
      let collected := (asArr (lookup realitySettings "shortIds")).filterMap fun item =>
        match item with
        | .str sid => if trimSpace sid ≠ "" then some (trimSpace sid) else none
        | _ => none
      { template with
        serverName := match asArr (lookup realitySettings "serverNames") with
          | .str name :: _ => name
          | _ => template.serverName
        shortID := collected.headD template.shortID
        shortIDsJSON := if collected = [] then template.shortIDsJSON
          else cfg.marshalStrings collected
        mldsa65Verify := trimSpace (asString (lookup realitySettings "mldsa65Verify")) }

def withDefaults (template : NodeTemplate) (server : NodeServer) : NodeTemplate :=
  { template with
    toVLESSServerTemplate := xrayTemplateDefaults template.toVLESSServerTemplate server.toVPNServer
    security := if template.security = "" then "reality" else template.security }

def applyVLESSSnapshot (server : NodeServer) (template : NodeTemplate) (files : Files) :
    Except String NodeTemplate :=
  let serverConfigRaw := trimSpace (fileText files "xray/server.json")
  if serverConfigRaw = "" then .ok template
  else match cfg.unmarshalObject serverConfigRaw with
    | .error e => .error e
    | .ok parsed =>
      let template := { template with
        serverID := server.id
        address := if trimSpace template.address ≠ "" then template.address
          else if server.endpoint ≠ "" then (split server.endpoint ':').headD "" else server.host
        publicKey := trimSpace (fileText files "xray/xray_public.key")
        shortID := trimSpace (fileText files "xray/xray_short_id.key")
        clientID := trimSpace (fileText files "xray/xray_uuid.key")
        mldsa65Verify := ""
        containerName := "amnezia-xray" }
      let template := match firstVless (asArr (lookup parsed "inbounds")) with
        | none => template
        | some inbound => withInbound cfg template inbound
      .ok (withDefaults template server)

def storeSnapshot (server : NodeServer) (edits : List ServerEdit) (template : NodeTemplate) :
    FleetProgram (Except String NodeServer) := do
  match ← saveServer cfg .config server edits with
  | .error e => pure (.error e)
  | .ok _ =>
    if hasUsableVLESSTemplate (some template.toVLESSServerTemplate) then
      match ← saveTemplate cfg template with
      | .error e => pure (.error e)
      | .ok _ => pure (.ok server)
    else pure (.ok server)

def importFiles (server : NodeServer) (edits : List ServerEdit) (files : Files)
    (template : NodeTemplate) : FleetProgram (Except String NodeServer) :=
  match applyVLESSSnapshot cfg server template files with
  | .error e => pure (.error e)
  | .ok template => storeSnapshot cfg server edits template

/-- `awgRaw` is what `firstSnapshotFile(files, "awg/")` gives. An error leaves the row in memory
changed, but the caller then writes only columns of its own. -/
def applySnapshotToServer (awgRaw : String) (server : NodeServer) (edits : List ServerEdit)
    (files : Files) : FleetProgram (Except String NodeServer) := do
  let server := if awgRaw ≠ "" then applyAWGSnapshot awgRaw server else server
  let template ← firstOrInitTemplate cfg server.id
  importFiles cfg server edits files template

/-- `Updates` of the snapshot columns; its error is dropped. Without a hash the stored one
stays. -/
def snapshotWrite (now : ℤ) (hash : Option String) (status : String) :
    Table.Write NodeServer where
  apply row := { row with
    agentLastSnapshotAt := some now
    agentLastSnapshotHash := hash.getD row.agentLastSnapshotHash
    agentLastSnapshotStatus := status }
  id_eq _ := rfl
  key_eq _ := rfl

def updateSnapshotColumns (server : ℕ) (hash : Option String) (status : String) :
    FleetProgram Unit := do
  let now ← clock
  let _ ← statement cfg (.snapshotColumns server) (write fun s =>
    { s with servers := s.servers.updateId server (snapshotWrite now hash status) })
  pure ()

def replayCache (s : Fleet) : ReplayCache.Cache String PushCall := ⟨s.now, s.replay, s.accepted⟩

def withCache (c : ReplayCache.Cache String PushCall) (s : Fleet) : Fleet :=
  { s with now := c.now, replay := c.seen, accepted := c.accepted }

/-- The row of the node that signed the request, with its edits, or the answer. -/
def verifyAgentPush (request : SignedRequest) (nodeID : String) :
    FleetProgram (Except Response (NodeServer × List ServerEdit)) := do
  if nodeID = "" then pure (.error (respondError 400 "missing node id"))
  else
    match ← statement cfg (.findNode nodeID)
        (firstRow fun s => (s.servers.first? fun row => row.agentNodeID = nodeID).map s.seen) with
    | .error _ => pure (.error (respondError 401 "unknown node id"))
    | .ok (server, edits) =>
      if trimSpace server.agentPushPublicKey = "" then
        pure (.error (respondError 401 "agent push key is not configured"))
      else
        let call : PushCall := ⟨request, server.agentPushPublicKey, nodeID⟩
        match ← (verifyAgentPushSignature cfg.crypto call).within replayCache withCache .push with
        | .error e => pure (.error (respondError 401 e))
        | .ok _ => pure (.ok (server, edits))

theorem does_verifyAgentPush (hrefl : ∀ l s, R l s s)
    (hcache : ∀ l c s, R (.push l) s (withCache c s)) (request : SignedRequest) :
    (verifyAgentPush cfg request nodeID).Does R := by
  unfold verifyAgentPush
  split
  · exact does_pure _
  refine (does_firstRow (hrefl _)).bind ?_
  intro found
  cases found with
  | error e => exact does_pure _
  | ok seen =>
    dsimp only
    split
    · exact does_pure _
    · refine Prog.Does.bind (does_within (fun l s c => hcache l c s) _) ?_
      intro verified
      cases verified <;> exact Prog.does_pure _

/-- A body that cannot be read to its end is an error. -/
structure PushRequest where
  method : String
  path : String
  timestamp : String
  nonce : String
  signature : String
  nodeID : String
  snapshotHash : String
  body : Except String String

def PushRequest.signed (q : PushRequest) (body : String) : SignedRequest :=
  ⟨q.method, q.path, q.timestamp, q.nonce, q.signature, body⟩

def heartbeatWrite (payload : AgentPushHeartbeat) (now : ℤ) : Table.Write NodeServer where
  apply row := { row with
    agentNodeID := payload.nodeID
    agentLastHeartbeatAt := some now
    report :=
      { agentDockerAvailable := payload.dockerAvailable
        agentUptimeSeconds := payload.uptimeSeconds
        agentLastHealthStatus := "ok"
        agentLastVersion := payload.version
        agentLastCommit := payload.commit
        agentActiveDigest := payload.activeDigest
        agentPreviousDigest := payload.previousDigest
        agentLastUpdateStatus := payload.updateStatus
        agentLastUpdateError := payload.updateError } }
  id_eq _ := rfl
  key_eq _ := rfl

def agentPushHeartbeat (q : PushRequest) : FleetProgram Response := do
  match q.body with
  | .error e => pure (respondError 400 e)
  | .ok body =>
    match cfg.unmarshalHeartbeat body with
    | .error e => pure (respondError 400 e)
    | .ok payload =>
      match ← verifyAgentPush cfg (q.signed body) (trimSpace payload.nodeID) with
      | .error response => pure response
      | .ok (server, _) =>
        let now ← clock
        let _ ← statement cfg (.heartbeatColumns server.id) (write fun s =>
          { s with servers := s.servers.updateId server.id (heartbeatWrite payload now) })
        pure ⟨200, [("status", .str "ok")]⟩

/-- The hash that is stored: the header, or the hash of the body if the header is blank. -/
def contentHash (q : PushRequest) (body : String) : String :=
  let header := trimSpace q.snapshotHash
  if header = "" then SignedRequests.sha256Hex cfg.crypto body else header

def reportImport (hash : String) (server : ℕ) (edits : List ServerEdit) :
    Except String NodeServer → FleetProgram Response
  | .error e => do
    updateSnapshotColumns cfg server (some hash) ("push_parse_failed: " ++ e)
    pure (respondError 422 e)
  | .ok row => do
    let now ← clock
    let _ ← saveServer cfg .status { row with
      agentLastSnapshotHash := hash
      agentLastSnapshotAt := some now
      agentLastSnapshotStatus := "push_ok" } edits
    pure ⟨200, [("status", .str "ok"), ("snapshot_hash", .str hash)]⟩

def agentPushSnapshot (order : Files → Files) (q : PushRequest) : FleetProgram Response := do
  match q.body with
  | .error e => pure (respondError 400 e)
  | .ok body =>
    match ← verifyAgentPush cfg (q.signed body) (trimSpace q.nodeID) with
    | .error response => pure response
    | .ok (server, edits) =>
      match readSnapshotTarGz cfg body with
      | .error e =>
        updateSnapshotColumns cfg server.id none ("invalid_push_snapshot: " ++ e)
        pure (respondError 400 e)
      | .ok files =>
        let result ← applySnapshotToServer cfg (firstSnapshotFile order files "awg/") server edits
          files
        reportImport cfg (contentHash cfg q body) server.id edits result

def serverAgentMode (server : NodeServer) : String :=
  if trimSpace server.agentURL ≠ "" then "agent"
  else if trimSpace server.sshPassword ≠ "" then "ssh fallback"
  else "manual"

/-- The proxy is a port of this host, so its address is never wrong. -/
def newNodeAgentClientWithProxy (rawURL signingKey : String) : Except String Unit :=
  if trimSpace rawURL = "" then .error "agent_url is not configured"
  else if trimSpace signingKey = "" then .error "AGENT_SIGNING_PRIVATE_KEY is not configured"
  else match cfg.parseScheme rawURL with
    | .error e => .error e
    | .ok scheme =>
      if scheme ≠ "http" ∧ scheme ≠ "https" then .error "agent_url must be http or https"
      else cfg.parseAgentSigningKey signingKey

structure AgentAnswer where
  statusCode : ℕ
  status : String
  body : String
  snapshotHash : String

def snapshotOf : Except String AgentAnswer → Except String (String × Files)
  | .error e => .error e
  | .ok answer =>
    if answer.statusCode < 200 ∨ 300 ≤ answer.statusCode then
      .error ("agent snapshot returned " ++ answer.status ++ ": " ++ trimSpace answer.body)
    else match readSnapshotTarGz cfg answer.body with
      | .error e => .error e
      | .ok files => .ok (answer.snapshotHash, files)

def agentSnapshot (order : Files → Files) (answer : Except String AgentAnswer) (id : String) :
    FleetProgram Response := do
  match ← findServer cfg id with
  | .error _ => pure (respondError 404 "server not found")
  | .ok (server, edits) =>
    match newNodeAgentClientWithProxy cfg server.agentURL cfg.agentSigningPrivateKey with
    | .error e => pure ⟨400, [("error", .str e), ("agent_mode", .str (serverAgentMode server))]⟩
    | .ok _ =>
      match snapshotOf cfg answer with
      | .error e =>
        updateSnapshotColumns cfg server.id none ("failed: " ++ e)
        auditServerAction cfg "agent.snapshot" server.id "failed" e
        pure (respondError 502 e)
      | .ok (hash, files) =>
        match ← applySnapshotToServer cfg (firstSnapshotFile order files "awg/") server edits
            files with
        | .error e =>
          updateSnapshotColumns cfg server.id (some hash) ("parse_failed: " ++ e)
          auditServerAction cfg "agent.snapshot" server.id "failed" e
          pure (respondError 422 e)
        | .ok server =>
          let now ← clock
          let _ ← saveServer cfg .status { server with
            agentLastSnapshotHash := hash
            agentLastSnapshotAt := some now
            agentLastSnapshotStatus := "ok" } edits
          auditServerAction cfg "agent.snapshot" server.id "ok" hash
          pure ⟨200, [("message", .str "snapshot imported"), ("snapshot_hash", .str hash),
            ("agent_mode", .str (serverAgentMode server))]⟩

inductive SshCommand where
  | dockerPublicKey (container interface : String)
  | hostPublicKey (interface : String)
  | dockerConfig (container interface : String)
  | hostConfig (interface : String)
  deriving DecidableEq, Repr

/-- What the commands of one sync answer on a server. -/
abbrev SshAnswers := NodeServer → SshCommand → Option String

def containerOf (server : NodeServer) : String :=
  if server.awgContainer = "" then "amnezia-awg2" else server.awgContainer

def interfaceOf (server : NodeServer) : String :=
  if server.awgInterface = "" then "awg0" else server.awgInterface

def fetchServerPublicKey (ssh : SshAnswers) (server : NodeServer) : Option String :=
  if server.sshPassword = "" then none
  else
    let answer := (ssh server (.dockerPublicKey (containerOf server) (interfaceOf server))).or
      (ssh server (.hostPublicKey (interfaceOf server)))
    answer.map trimSpace

/-- Here a port that is not positive is taken too. -/
def fetchServerConfigHeaders (ssh : SshAnswers) (server : NodeServer) : Option NodeServer :=
  if server.sshPassword = "" then none
  else
    let answer := (ssh server (.dockerConfig (containerOf server) (interfaceOf server))).or
      (ssh server (.hostConfig (interfaceOf server)))
    answer.map fun out => readConfig (fun _ => true) out server

def syncedServer (ssh : SshAnswers) (server : NodeServer) : Option NodeServer :=
  match fetchServerPublicKey ssh server with
  | some pubKey =>
    if pubKey ≠ "" then fetchServerConfigHeaders ssh { server with publicKey := pubKey } else none
  | none => none

def syncServer (ssh : SshAnswers) (seen : NodeServer × List ServerEdit) : FleetProgram Unit := do
  match syncedServer ssh seen.1 with
  | none => pure ()
  | some server =>
    let _ ← saveServer cfg .sync server seen.2
    pure ()

def syncAllServers (ssh : SshAnswers) : FleetProgram Unit := do
  match ← statement cfg .findActive fun s =>
      (.ok ((s.servers.select fun row => row.active).map s.seen), s) with
  | .error _ => pure ()
  | .ok servers => Prog.each (syncServer cfg ssh) servers

end NodeAgents
