import DrFrakeVpn.NodeAgents

/-! # The admin's calls that change a server -/
namespace ServerAdmin

open GoValues NodeFleet NodeAgents

variable (cfg : FleetSetup)

def recordEdit (s : Fleet) (server : ℕ) (e : ServerEdit) : Fleet :=
  { s with edits := Function.update s.edits server (s.edits server ++ [e]) }

/-- The fields of the request for the template. -/
structure TemplateEdit where
  vlessAddress : String
  vlessPort : ℤ
  vlessServerName : String
  vlessPublicKey : String
  vlessShortID : String
  vlessFlow : String
  vlessNetwork : String
  vlessSecurity : String
  hysteriaEnabled : Option Bool
  hysteriaPort : ℤ
  hysteriaPassword : String
  vlessContainerName : String
  deriving DecidableEq, Repr

structure UpdateServerRequest where
  name : String
  region : String
  countryCode : String
  vipOnly : Option Bool
  endpoint : String
  maxPeers : ℤ
  sshPassword : String
  awgPort : ℤ
  agentURL : Option String
  agentNodeID : Option String
  template : TemplateEdit
  hysteriaSNI : String
  bootstrapSelfHostedXray : Bool
  bootstrapForceRegenerate : Bool
  bootstrapHysteria2 : Bool
  bootstrapHysteria2Force : Bool
  deriving DecidableEq, Repr

def nonEmpty (s : String) : Option String := if s ≠ "" then some s else none

def positive (n : ℤ) : Option ℤ := if 0 < n then some n else none

/-- The map of `UpdateServer`; the country code can be cleared, so it is always set. -/
def UpdateServerRequest.edit (req : UpdateServerRequest) : ServerEdit where
  name := nonEmpty req.name
  region := nonEmpty req.region
  countryCode := some req.countryCode
  active := none
  vipOnly := req.vipOnly
  endpoint := nonEmpty req.endpoint
  maxPeers := positive req.maxPeers
  sshPassword := nonEmpty req.sshPassword
  awgPort := positive req.awgPort
  agentURL := req.agentURL
  agentNodeID := req.agentNodeID

def bootstrapError (req : UpdateServerRequest) (server : NodeServer) : Option String :=
  if req.bootstrapSelfHostedXray ∧ req.sshPassword = "" ∧ server.sshPassword = "" then
    some "ssh_password is required for self-hosted XRay bootstrap"
  else if req.bootstrapSelfHostedXray ∧ trimSpace req.template.vlessServerName = "" then
    some "vless_server_name is required for self-hosted XRay bootstrap"
  else if req.bootstrapHysteria2 ∧ req.sshPassword = "" ∧ server.sshPassword = "" then
    some "ssh_password is required for self-hosted Hysteria2 bootstrap"
  else if req.bootstrapHysteria2 ∧ trimSpace req.hysteriaSNI = "" ∧
      trimSpace req.template.vlessServerName = "" then
    some "hysteria_sni or vless_server_name is required for self-hosted Hysteria2 bootstrap"
  else none

def editedTemplate (req : UpdateServerRequest) (template : NodeTemplate) : NodeTemplate :=
  let e := req.template
  let template := { template with
    address := (nonEmpty e.vlessAddress).getD template.address
    port := (positive e.vlessPort).getD template.port
    serverName := (nonEmpty e.vlessServerName).getD template.serverName
    publicKey := (nonEmpty e.vlessPublicKey).getD template.publicKey
    shortID := (nonEmpty e.vlessShortID).getD template.shortID
    flow := (nonEmpty e.vlessFlow).getD template.flow
    network := (nonEmpty e.vlessNetwork).getD template.network
    security := (nonEmpty e.vlessSecurity).getD template.security
    hysteriaEnabled := e.hysteriaEnabled.getD template.hysteriaEnabled
    hysteriaPort := (positive e.hysteriaPort).getD template.hysteriaPort
    hysteriaPassword := (nonEmpty e.hysteriaPassword).getD template.hysteriaPassword
    containerName := (nonEmpty e.vlessContainerName).getD template.containerName }
  if req.bootstrapSelfHostedXray then
    { template with network := "xhttp", security := "reality", flow := "" }
  else template

/-- What the deployments over SSH give: an error text, or the new template if there is one. The
last field is the template that is read from the files of the server. -/
structure Deployments where
  hysteria : NodeServer → NodeTemplate → (force : Bool) → Except String (Option NodeTemplate)
  xray : NodeServer → NodeTemplate → (force : Bool) → Except String (Option NodeTemplate)
  fetched : NodeServer → NodeTemplate → Option NodeTemplate

structure BootstrapResult where
  ran : Bool
  message : String
  error : String
  deriving DecidableEq, Repr

def BootstrapResult.json (r : BootstrapResult) : Json :=
  .obj <| ("ran", .bool r.ran) ::
    (if r.message ≠ "" then [("message", .str r.message)] else []) ++
    (if r.error ≠ "" then [("error", .str r.error)] else [])

def deployed (asked : Bool) (outcome : Except String (Option NodeTemplate))
    (message : NodeTemplate → String) (template : NodeTemplate) : NodeTemplate × BootstrapResult :=
  if asked then
    match outcome with
    | .error e => (template, ⟨true, "", e⟩)
    | .ok none => (template, ⟨true, "", ""⟩)
    | .ok (some new) => (new, ⟨true, message new, ""⟩)
  else (template, ⟨false, "", ""⟩)

def hysteriaMessage (template : NodeTemplate) : String :=
  "Self-hosted Hysteria2 deployed: " ++ template.address ++ ":" ++ toString template.hysteriaPort ++
    "/udp"

def xrayMessage (template : NodeTemplate) : String :=
  "Self-hosted XRay deployed: " ++ template.address ++ ":" ++ toString template.port ++ " (" ++
    template.containerName ++ ")"

def isComplete (template : NodeTemplate) : Bool :=
  template.publicKey ≠ "" && template.shortID ≠ "" && template.serverName ≠ ""

def newTemplate (deploy : Deployments) (req : UpdateServerRequest) (server : NodeServer)
    (template : NodeTemplate) : NodeTemplate × BootstrapResult × BootstrapResult :=
  let template := editedTemplate req template
  let (template, hysteria) := deployed req.bootstrapHysteria2
    (deploy.hysteria server template (req.bootstrapHysteria2Force || req.bootstrapForceRegenerate))
    hysteriaMessage template
  let template := withDefaults template server
  let (template, xray) := deployed req.bootstrapSelfHostedXray
    (deploy.xray server template req.bootstrapForceRegenerate) xrayMessage template
  let template := if !isComplete template && server.sshPassword ≠ ""
    then (deploy.fetched server template).getD template else template
  (withDefaults template server, xray, hysteria)

def storeEdit (server : ℕ) (e : ServerEdit) : FleetProgram (Except String Unit) :=
  statement cfg (.updateServer server e) (write fun s =>
    recordEdit { s with servers := s.servers.updateId server e.write } server e)

/-- `req` is the body as it is bound, or the error of the binding. -/
def updateServer (deploy : Deployments) (id : String) (req : Except String UpdateServerRequest) :
    FleetProgram Response := do
  match ← findServer cfg id with
  | .error _ => pure (respondError 404 "server not found")
  | .ok (server, _) =>
    match req with
    | .error e => pure (respondError 400 e)
    | .ok req =>
      match bootstrapError req server with
      | some message => pure (respondError 400 message)
      | none =>
        match ← storeEdit cfg server.id req.edit with
        | .error _ => pure (respondError 500 "failed to update server")
        | .ok _ =>
          let template ← firstOrInitTemplate cfg server.id
          let (template, xray, hysteria) :=
            newTemplate deploy req (req.edit.write.apply server) template
          if isComplete template || template.hysteriaEnabled then
            let _ ← saveTemplate cfg template
          pure ⟨200, [("message", .str "server updated"), ("bootstrap", xray.json),
            ("hysteria_bootstrap", hysteria.json)]⟩

/-- The one column that the call means to change. -/
def activeEdit (active : Bool) : ServerEdit := { ServerEdit.none with active := some active }

def storeToggled (row : NodeServer) : FleetProgram (Except String Unit) :=
  statement cfg (.toggleServer row.id) (write fun s =>
    recordEdit (s.withServer row) row.id (activeEdit row.active))

/-- The error of the save is dropped. -/
def toggleServer (id : String) : FleetProgram Response := do
  match ← findServer cfg id with
  | .error _ => pure (respondError 404 "server not found")
  | .ok (server, _) =>
    let row : NodeServer := { server with active := !server.active }
    let _ ← storeToggled cfg row
    auditServerAction cfg "server.toggle" row.id "ok" ("active=" ++ toString row.active)
    pure ⟨200, [("message", .str "server toggled"), ("active", .bool row.active)]⟩

end ServerAdmin
