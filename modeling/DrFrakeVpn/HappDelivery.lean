import DrFrakeVpn.ConfigDelivery

/-! # Happ links and the background generator

`ensureHappCredentials` prepares credentials behind `CreateLink` and `Subscription`, and
`generateMissingConfigs` does for everybody. -/
namespace HappDelivery

open SharedPrograms RecordTables GoValues
open BackendModels BackendWorld VpnCommands AccessCredentials RoutingProfiles ConfigDelivery

variable (cfg : Setup) (sv : Services)

def isActivePaidHappSubscription (now : ℤ) (sub : Subscription) : Bool :=
  if sub.status ≠ .active ∨ sub.expiresAt < now then false
  else match sub.plan with
    | .basic | .basic3M | .vip | .vip3M => true
    | .free | .trial => false

def happTokenHash (token : String) : String := sv.sha256 (trimSpace token)

def loadedTemplate (x : VPNServer × Option VLESSServerTemplate) : Option VLESSServerTemplate :=
  x.2.map fun template => xrayTemplateDefaults template x.1

/-- The error of one server, if it has one. -/
def happCredential (userID : ℕ) (isVIP : Bool) (x : VPNServer × Option VLESSServerTemplate) :
    Handler (Option CredentialError) :=
  match loadedTemplate x with
  | none => pure none
  | some template =>
    if !hasUsableVLESSTemplate (some template) then pure none
    else if isVIP && hasUsableHysteriaTemplate template then pure none
    else do
      match ← ensureVLESSCredential cfg sv userID x.1 template with
      | .error e => pure (some e)
      | .ok _ => pure none

def ensureHappCredentials (userID : ℕ) (sub : Subscription) :
    Handler (Except CredentialError Unit) := do
  let now ← readClock .clock
  let isVIP := isVIPSubscription now sub
  match ← exec1 cfg (.happ userID .prepare) (readOf (activeServers isVIP)) with
  | .error e => pure (.error (.db e))
  | .ok servers =>
    match ← Prog.collect (happCredential cfg sv userID isVIP) servers with
    | [] => pure (.ok ())
    | e :: _ => pure (.error e)

inductive HappReply where
  | failed (status : ℕ) (message : String)
  | link (token : String)
  | configs (entries : List ConfigEntry)

def HappReply.entries : HappReply → List ConfigEntry
  | .configs entries => entries
  | _ => []

def createTokenOf (userID : ℕ) (hash : String) (w : World) : Except DbError Unit × World :=
  tryWriteOf (fun db =>
    (db.happTokens.insert fun id => ⟨id, userID, hash, "iOS Happ", none, none⟩).map fun t =>
      { db with happTokens := t }) w

/-- The answer carries the token inside of the two links that the source builds from it. -/
def createLink (userID : ℕ) : Handler HappReply := do
  match ← ensureDefaultSubscription cfg userID with
  | .error _ => pure (.failed 500 "failed to load subscription")
  | .ok sub =>
    let now ← readClock .clock
    if !isActivePaidHappSubscription now sub then pure (.failed 403 "paid subscription required")
    else
      let token := sv.token (← draw)
      match ← exec1 cfg (.happ userID .storeToken)
          (createTokenOf userID (happTokenHash sv token)) with
      | .error _ => pure (.failed 500 "failed to store subscription token")
      | .ok _ =>
        spawn (.happCredentials userID sub)
        pure (.link token)

/-- The client id of the template, which every user of the server shares, or that of the
user's own credential. -/
def happClientID (userID : ℕ) (server : VPNServer) (template : VLESSServerTemplate) :
    Handler String :=
  if trimSpace template.clientID ≠ "" then pure (trimSpace template.clientID)
  else do
    match ← exec1 cfg (.happ userID (.credential server.id)) (readOf fun db =>
        db.vlessCredentials.first? fun c =>
          c.userID = userID && c.serverID = server.id && c.revokedAt = none) with
    | .error _ | .ok none => pure ""
    | .ok (some credential) => pure (trimSpace credential.clientID)

/-- The configs of this answer have no time of issue. -/
def happEntry (userID : ℕ) (profiles : List RoutingProfile)
    (x : VPNServer × Option VLESSServerTemplate) : Handler (Option ConfigEntry) :=
  match loadedTemplate x with
  | none => pure none
  | some template =>
    if !hasUsableVLESSTemplate (some template) then pure none
    else do
      let clientID ← happClientID cfg userID x.1 template
      if clientID = "" then pure none
      else pure (some (entryFor x.1 (sv.happConfig clientID x.1 template profiles) 0
        (.vless clientID)))

def happProfiles (userID : ℕ) (isVIP : Bool) : Handler (List RoutingProfile) :=
  if isVIP then do
    match ← exec1 cfg (.happ userID .seedProfiles) (seedProfilesOf sv userID) with
    | .error _ => pure []
    | .ok _ =>
      match ← exec1 cfg (.happ userID .loadProfiles) (readOf (profilesOf userID)) with
      | .error _ => pure []
      | .ok profiles => pure profiles
  else pure []

def happJSONConfigs (userID : ℕ) (sub : Subscription) :
    Handler (Except DbError (List ConfigEntry)) := do
  let now ← readClock .clock
  let isVIP := isVIPSubscription now sub
  match ← exec1 cfg (.happ userID .servers) (readOf (activeServers isVIP)) with
  | .error e => pure (.error e)
  | .ok servers =>
    let profiles ← happProfiles cfg sv userID isVIP
    let entries ← Prog.collect (happEntry cfg sv userID profiles) servers
    pure (.ok entries)

def usedAt (now : ℤ) : Table.Write HappSubscriptionToken where
  apply t := { t with lastUsedAt := some now }
  id_eq _ := rfl
  key_eq _ := rfl

def openToken (hash : String) (db : Db) : Option HappSubscriptionToken :=
  db.happTokens.first? fun t => t.tokenHash = hash && t.revokedAt = none

def subscription (param : String) : Handler HappReply :=
  let rawToken := trimSpace param
  if rawToken = "" then pure (.failed 404 "subscription not found")
  else do
    match ← exec1 cfg (.happToken (happTokenHash sv rawToken))
        (firstOf (openToken (happTokenHash sv rawToken))) with
    | .error _ => pure (.failed 404 "subscription not found")
    | .ok token =>
      match ← ensureDefaultSubscription cfg token.userID with
      | .error _ => pure (.failed 500 "failed to load subscription")
      | .ok sub =>
        let now ← readClock .clock
        if !isActivePaidHappSubscription now sub then
          pure (.failed 403 "paid subscription required")
        else
          match ← happJSONConfigs cfg sv token.userID sub with
          | .error _ => pure (.failed 500 "failed to build happ subscription")
          | .ok [] =>
            spawn (.happCredentials token.userID sub)
            pure (.failed 503 "happ configs are being prepared")
          | .ok entries =>
            let now ← readClock .clock
            let _ ← exec1 cfg (.happ token.userID .touchToken) (writeOf fun db =>
              { db with happTokens := db.happTokens.updateId token.id (usedAt now) })
            pure (.configs entries)

/-- The subscriptions that a pass is for; it does not ask for their plan. -/
def servedSubscriptions (now : ℤ) (db : Db) : List Subscription :=
  db.subscriptions.select fun s =>
    s.status = .active && now < s.expiresAt && (db.users.byId s.userID).isSome

def generateFor (server : VPNServer) (template : VLESSServerTemplate) (sub : Subscription) :
    Handler Unit := do
  let now ← readClock .clock
  if server.vipOnly && !isVIPSubscription now sub then pure ()
  else if trimSpace template.clientID ≠ "" then pure ()
  else
    let isIssued := match ← exec1 cfg (.generator (.credential sub.userID server.id))
        (readOf fun db => credentialOf db sub.userID server.id) with
      | .ok (some credential) => decide (credential.revokedAt = none)
      | _ => false
    if isIssued then pure ()
    else
      let _ ← ensureVLESSCredential cfg sv sub.userID server template

def generateOn (subscriptions : List Subscription)
    (x : VPNServer × Option VLESSServerTemplate) : Handler Unit := do
  match ← ensureVLESSTemplate cfg sv x.1 x.2 with
  | .error _ | .ok none => pure ()
  | .ok (some template) =>
    if hasUsableVLESSTemplate (some template) then
      Prog.each (generateFor cfg sv x.1 template) subscriptions
    else pure ()

def generateMissingConfigs : Handler Unit := do
  match ← exec1 cfg (.generator .servers) (readOf (activeServers true)) with
  | .error _ => pure ()
  | .ok servers =>
    let now ← readClock .clock
    match ← exec1 cfg (.generator .subscriptions) (readOf (servedSubscriptions now)) with
    | .error _ => pure ()
    | .ok subscriptions => Prog.each (generateOn cfg sv subscriptions) servers

def jobProgram : Job → Handler Unit
  | .removePeer key server => do
    let _ ← removeAWGPeer cfg (.removePeer key.id) server key.publicKey
  | .removeClient cred server template => do
    let _ ← removeXrayClient cfg (.removeClient cred.id) server template cred.clientID
  | .dropPeer server publicKey => do
    let _ ← removeAWGPeer cfg (.dropPeer server.id publicKey) (some server) publicKey
  | .happCredentials userID sub => do
    let _ ← ensureHappCredentials cfg sv userID sub

/-- The goroutines of the world have run to their end, one after the other in some order. -/
def Settles (w w' : World) : Prop :=
  ∃ jobs, jobs.Perm w.jobs ∧ w' = ((Prog.each (jobProgram cfg sv) jobs).run { w with jobs := [] }).2

def Completes {α : Type} (p : Handler α) (w w' : World) : Prop :=
  Settles cfg sv (p.run { w with jobs := [] }).2 w'

end HappDelivery
