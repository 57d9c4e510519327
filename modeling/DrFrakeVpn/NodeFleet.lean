import DrFrakeVpn.AccountWorld
import DrFrakeVpn.AccessCredentials
import DrFrakeVpn.SignedRequests

/-! # What the node agents and the admin's server calls act on

The servers here carry the columns that the agents report and that are read from the config of
the node. -/
namespace NodeFleet

open SharedPrograms FaultyTransactions RecordTables GoValues BackendModels
open AccountWorld (AdminNotification)
open SignedRequests (Crypto PushCall)

structure Obfuscation where
  jc : String
  jmin : String
  jmax : String
  s1 : String
  s2 : String
  s3 : String
  s4 : String
  h1 : String
  h2 : String
  h3 : String
  h4 : String
  deriving DecidableEq, Repr

structure AgentReport where
  agentDockerAvailable : Bool
  agentUptimeSeconds : ℤ
  agentLastHealthStatus : String
  agentLastVersion : String
  agentLastCommit : String
  agentActiveDigest : String
  agentPreviousDigest : String
  agentLastUpdateStatus : String
  agentLastUpdateError : String
  deriving DecidableEq, Repr

structure NodeServer extends VPNServer where
  publicKey : String
  maxPeers : ℤ
  awg : Obfuscation
  awgContainer : String
  awgInterface : String
  agentURL : String
  agentNodeID : String
  agentPushPublicKey : String
  agentLocalPort : ℤ
  agentLastSnapshotHash : String
  agentLastSnapshotAt : Option ℤ
  agentLastSnapshotStatus : String
  agentLastHeartbeatAt : Option ℤ
  report : AgentReport
  deriving DecidableEq, Repr

structure NodeTemplate extends VLESSServerTemplate where
  security : String
  shortIDsJSON : String
  mldsa65Verify : String
  deriving DecidableEq, Repr

instance : Record NodeServer := ⟨ℕ, inferInstance, fun s => s.id, fun s => s.id⟩
instance : Record NodeTemplate := ⟨ℕ, inferInstance, fun t => t.id, fun t => t.serverID⟩

/-- A row of the audit log without the actor and the address. -/
structure AuditEntry where
  action : String
  entity : String
  entityID : String
  result : String
  message : String
  deriving DecidableEq, Repr

/-- The columns that an admin request sets; a column that it leaves alone is `none`. -/
structure ServerEdit where
  name : Option String
  region : Option String
  countryCode : Option String
  active : Option Bool
  vipOnly : Option Bool
  endpoint : Option String
  maxPeers : Option ℤ
  sshPassword : Option String
  awgPort : Option ℤ
  agentURL : Option String
  agentNodeID : Option String
  deriving DecidableEq, Repr

def ServerEdit.none : ServerEdit :=
  ⟨.none, .none, .none, .none, .none, .none, .none, .none, .none, .none, .none⟩

def ServerEdit.write (e : ServerEdit) : Table.Write NodeServer where
  apply row := { row with
    name := e.name.getD row.name
    region := e.region.getD row.region
    countryCode := e.countryCode.getD row.countryCode
    active := e.active.getD row.active
    vipOnly := e.vipOnly.getD row.vipOnly
    endpoint := e.endpoint.getD row.endpoint
    maxPeers := e.maxPeers.getD row.maxPeers
    sshPassword := e.sshPassword.getD row.sshPassword
    awgPort := e.awgPort.getD row.awgPort
    agentURL := e.agentURL.getD row.agentURL
    agentNodeID := e.agentNodeID.getD row.agentNodeID }
  id_eq _ := rfl
  key_eq _ := rfl

inductive SaveSite where
  | config
  | status
  | sync
  deriving DecidableEq, Repr

/-- A whole row that is written back comes with the admin's edits of it that were stored when it
was read. -/
inductive FleetStmt where
  | clock
  | push (l : ReplayCache.Label PushCall)
  | findNode (nodeID : String)
  | findServer (id : String)
  | findActive
  | findAll
  | findTemplate (server : ℕ)
  | saveServer (site : SaveSite) (server : ℕ) (edits : List ServerEdit)
  | saveTemplate (server : ℕ)
  | snapshotColumns (server : ℕ)
  | heartbeatColumns (server : ℕ)
  | updateServer (server : ℕ) (edit : ServerEdit)
  | toggleServer (server : ℕ)
  | audit (entry : AuditEntry)
  | findNotification (fingerprint : String)
  | updateNotification (id : ℕ)
  | reloadNotification (id : ℕ)
  | createNotification (fingerprint : String)
  | resolveNotification (fingerprint : String)
  | alert (fingerprint : String)
  deriving DecidableEq

/-- Three fields are records that no handler reads: the push requests that were accepted, the
admin's edits of each server in the order they were stored, and the alerts that were sent. -/
structure Fleet where
  now : ℤ
  servers : Table NodeServer
  templates : Table NodeTemplate
  auditLog : List AuditEntry
  notifications : Table AdminNotification
  replay : String → Option ℤ
  accepted : List PushCall
  edits : ℕ → List ServerEdit
  alerts : List AdminNotification

/-- Only time passes. -/
def Ticks (s t : Fleet) : Prop := ∃ now, s.now ≤ now ∧ t = { s with now := now }

theorem ticks_refl (s : Fleet) : Ticks s s := ⟨s.now, le_refl _, rfl⟩

/-- A tar archive as its reader meets it; an error is its text. -/
inductive TarStream where
  | eof
  | failed (error : String)
  | entry (name : String) (isDir : Bool) (content : Except String String) (rest : TarStream)

structure AgentPushHeartbeat where
  nodeID : String
  version : String
  commit : String
  uptimeSeconds : ℤ
  dockerAvailable : Bool
  activeDigest : String
  previousDigest : String
  updateStatus : String
  updateError : String
  deriving DecidableEq, Repr

/-- Parsers, printers and cryptography come from elsewhere. `whereServer` is the row that a
condition given as text picks. -/
structure FleetSetup where
  crypto : Crypto
  gunzip : String → Except String TarStream
  quote : String → String
  unmarshalObject : String → Except String (List (String × Json))
  unmarshalHeartbeat : String → Except String AgentPushHeartbeat
  marshalStrings : List String → String
  parseScheme : String → Except String String
  parseAgentSigningKey : String → Except String Unit
  formatTime : ℤ → String
  whereServer : String → Table NodeServer → Option ℕ
  agentSigningPrivateKey : String
  adminAlertsEnabled : Bool
  adminHeartbeatStaleSeconds : ℤ
  constraintError : String
  faults : FleetStmt → Bool
  failure : FleetStmt → String

def FleetSetup.Reliable (cfg : FleetSetup) : Prop := ∀ l, cfg.faults l = false

/-- Every statement works, every signature is right, and archives are empty. -/
def FleetSetup.standard : FleetSetup where
  crypto :=
    { parseTime := fun _ => .ok 0
      decodeBase64 := fun _ => .ok (List.replicate 32 0)
      verify := fun _ _ _ => true
      sum256 := id }
  gunzip _ := .ok .eof
  quote text := text
  unmarshalObject _ := .ok []
  unmarshalHeartbeat nodeID := .ok ⟨nodeID, "", "", 0, true, "", "", "", ""⟩
  marshalStrings _ := ""
  parseScheme _ := .ok "https"
  parseAgentSigningKey _ := .ok ()
  formatTime _ := ""
  whereServer _ _ := none
  agentSigningPrivateKey := "key"
  adminAlertsEnabled := true
  adminHeartbeatStaleSeconds := 0
  constraintError := "UNIQUE constraint failed"
  faults _ := false
  failure _ := ""

def NodeServer.plain (id : ℕ) (name nodeID : String) : NodeServer where
  id := id
  name := name
  host := "10.0.0.1"
  region := ""
  countryCode := ""
  active := true
  vipOnly := false
  awgPort := 51820
  endpoint := ""
  sshPassword := "secret"
  publicKey := ""
  maxPeers := 100
  awg := ⟨"4", "40", "70", "0", "0", "0", "0", "0", "0", "0", "0"⟩
  awgContainer := ""
  awgInterface := ""
  agentURL := "https://agent"
  agentNodeID := nodeID
  agentPushPublicKey := "key"
  agentLocalPort := 0
  agentLastSnapshotHash := ""
  agentLastSnapshotAt := none
  agentLastSnapshotStatus := ""
  agentLastHeartbeatAt := none
  report := ⟨false, 0, "", "", "", "", "", "", ""⟩

def Fleet.start (servers : Table NodeServer) (now : ℤ) : Fleet where
  now := now
  servers := servers
  templates := .empty
  auditLog := []
  notifications := .empty
  replay _ := none
  accepted := []
  edits _ := []
  alerts := []

def oneServer : Table NodeServer := ⟨[.plain 1 "first" "node"], 2, by decide⟩

abbrev FleetProgram := Prog Fleet FleetStmt

variable (cfg : FleetSetup)

def statement {α : Type} (l : FleetStmt) (f : Fleet → Except String α × Fleet) :
    FleetProgram (Except String α) :=
  single cfg.faults (cfg.failure l) l f

/-- `time.Now()`. -/
def clock : FleetProgram ℤ := .atom .clock fun s => (s.now, s)

def firstRow {α : Type} (find : Fleet → Option α) (s : Fleet) : Except String α × Fleet :=
  match find s with
  | some x => (.ok x, s)
  | none => (.error "record not found", s)

def write (f : Fleet → Fleet) (s : Fleet) : Except String Unit × Fleet := (.ok (), f s)

def Fleet.seen (s : Fleet) (row : NodeServer) : NodeServer × List ServerEdit :=
  (row, s.edits row.id)

/-- `First(&server, id)`. -/
def Fleet.server (s : Fleet) (id : String) : Option NodeServer :=
  match atoi? id with
  | some n => if 0 ≤ n then s.servers.byId n.toNat else none
  | none => (cfg.whereServer id s.servers).bind s.servers.byId

theorem server_mem {s : Fleet} {id row} (h : s.server cfg id = some row) :
    row ∈ s.servers.rows := by
  have hbyId : ∃ i, s.servers.byId i = some row := by
    unfold Fleet.server at h
    split at h
    · split at h
      · exact ⟨_, h⟩
      · cases h
    · obtain ⟨i, _, hi⟩ := Option.bind_eq_some_iff.mp h
      exact ⟨i, hi⟩
  obtain ⟨i, hi⟩ := hbyId
  exact (s.servers.byId_some_iff.mp hi).1

def findServer (id : String) : FleetProgram (Except String (NodeServer × List ServerEdit)) :=
  statement cfg (.findServer id) (firstRow fun s => (s.server cfg id).map s.seen)

/-- Every column of the row with its primary key. -/
def overwrite (row : NodeServer) : Table.Write NodeServer where
  apply old := if old.id = row.id then row else old
  id_eq old := by
    change (if old.id = row.id then row else old).id = old.id
    split
    · exact Eq.symm ‹_›
    · rfl
  key_eq old := by
    change (if old.id = row.id then row else old).id = old.id
    split
    · exact Eq.symm ‹_›
    · rfl

/-- `Save`: all columns are written. No run here deletes a server, so the row is there. -/
def Fleet.withServer (s : Fleet) (row : NodeServer) : Fleet :=
  { s with servers := s.servers.updateId row.id (overwrite row) }

theorem byId_withServer (s : Fleet) (row : NodeServer) (i : ℕ) : (s.withServer row).servers.byId i =
    if i = row.id then (s.servers.byId i).map fun _ => row else s.servers.byId i := by
  rw [Fleet.withServer, Table.byId_updateId]
  split
  · refine Option.map_congr ?_
    intro old hold
    have hid : old.id = i := (s.servers.byId_some_iff.mp hold).2
    exact if_pos (hid.trans ‹_›)
  · rfl

def saveServer (site : SaveSite) (row : NodeServer) (edits : List ServerEdit) :
    FleetProgram (Except String Unit) :=
  statement cfg (.saveServer site row.id edits) (write fun s => s.withServer row)

def blankTemplate (serverID : ℕ) : NodeTemplate where
  id := 0
  updatedAt := 0
  serverID := serverID
  clientID := ""
  address := ""
  port := 0
  serverName := ""
  publicKey := ""
  shortID := ""
  flow := ""
  network := ""
  hysteriaEnabled := false
  hysteriaPort := 0
  hysteriaPassword := ""
  containerName := ""
  security := ""
  shortIDsJSON := ""
  mldsa65Verify := ""

/-- `Where("server_id = ?", id).FirstOrInit(&template, VLESSServerTemplate{ServerID: id})`, whose
error nobody looks at. -/
def firstOrInitTemplate (server : ℕ) : FleetProgram NodeTemplate := do
  match ← statement cfg (.findTemplate server)
      (firstRow fun s => s.templates.first? fun t => t.serverID = server) with
  | .ok template => pure template
  | .error _ => pure (blankTemplate server)

def templatesWith (template : NodeTemplate) (s : Fleet) : Option (Table NodeTemplate) :=
  if template.id = 0 then
    s.templates.insert fun id => { template with id := id, updatedAt := s.now }
  else s.templates.replace { template with updatedAt := s.now }

def storeTemplate (template : NodeTemplate) (s : Fleet) : Except String Unit × Fleet :=
  match templatesWith template s with
  | some templates => (.ok (), { s with templates := templates })
  | none => (.error cfg.constraintError, s)

def saveTemplate (template : NodeTemplate) : FleetProgram (Except String Unit) :=
  statement cfg (.saveTemplate template.serverID) (storeTemplate cfg template)

/-- An audit entry that cannot be stored is dropped. -/
def auditServerAction (action : String) (server : ℕ) (result message : String) :
    FleetProgram Unit := do
  let entry : AuditEntry := ⟨action, "vpn_server", toString server,
    if result = "" then "ok" else result, message⟩
  let _ ← statement cfg (.audit entry) (write fun s => { s with auditLog := s.auditLog ++ [entry] })
  pure ()

variable {cfg} {α : Type}

theorem statement_run (hcfg : cfg.Reliable) : (statement cfg l f).run s = f s := by
  have hrun : (statement cfg l f).run s =
      if cfg.faults l then (.error (cfg.failure l), s) else f s :=
    rfl
  rw [hrun, hcfg l, if_neg Bool.false_ne_true]

variable {R : FleetStmt → Fleet → Fleet → Prop}

theorem does_statement {f : Fleet → Except String α × Fleet} (hrefl : ∀ s, R l s s)
    (h : ∀ s, R l s (f s).2) : (statement cfg l f).Does R := by
  refine Prog.does_atom ?_
  intro s
  split
  · exact hrefl s
  · exact h s

theorem firstRow_snd : (firstRow find s).2 = s := by
  unfold firstRow
  split <;> rfl

theorem does_firstRow {find : Fleet → Option α} (hrefl : ∀ s, R l s s) :
    (statement cfg l (firstRow find)).Does R :=
  does_statement hrefl fun s => by
    rw [firstRow_snd]
    exact hrefl s

theorem does_firstOrInitTemplate (hrefl : ∀ l s, R l s s) :
    (firstOrInitTemplate cfg server).Does R := by
  refine (does_firstRow (hrefl _)).bind ?_
  intro found
  cases found <;> exact Prog.does_pure _

end NodeFleet
