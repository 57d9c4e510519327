import DrFrakeVpn.HappConfig

/-! # Refreshing the template of a server

The stored row keeps every column whose new value is the zero value of its type. -/
namespace TemplateRefresh

open GoValues BackendModels BackendWorld AccessCredentials VipConfig HappConfig

/-- The key file beside `server.json` that only this reading looks for, and `json.Marshal`. -/
structure NodeReader extends Services where
  verifyKey : ℕ → Option String
  marshalStrings : List String → String

variable (sv : NodeReader)

/-- The columns that the first vless inbound sets beside those of `withInbound`. -/
def withStream (template : ClientTemplate) (streamSettings : Fields) : ClientTemplate :=
  let security := asString (lookup streamSettings "security")
  let grpcSettings := asMap (lookup streamSettings "grpcSettings")
  let path := asString (lookup (asMap (lookup streamSettings "xhttpSettings")) "path")
  let template := { template with
    security := if security ≠ "" then security else template.security
    grpcServiceName := nonBlank path
      (nonBlank (asString (lookup grpcSettings "serviceName")) template.grpcServiceName)
    grpcAuthority := match lookup grpcSettings "authority" with
      | some (.str authority) => trimSpace authority
      | _ => template.grpcAuthority
    grpcMultiMode := match lookup grpcSettings "multiMode" with
      | some (.bool multiMode) => multiMode
      | _ => template.grpcMultiMode }
  match asMap? (lookup streamSettings "realitySettings") with
  | none => template
  | some realitySettings =>
    let collected := (asArr (lookup realitySettings "shortIds")).filterMap fun item =>
      match item with
      | .str sid => if trimSpace sid ≠ "" then some (trimSpace sid) else none
      | _ => none
    { template with
      shortIDsJSON := if collected = [] then template.shortIDsJSON else sv.marshalStrings collected
      mldsa65Verify := trimSpace (asString (lookup realitySettings "mldsa65Verify")) }

/-- `fetchVLESSTemplateFromServer` with all columns. -/
def fetchTemplate (server : VPNServer) (existing : Option ClientTemplate) (r : Remote) :
    Option ClientTemplate := do
  let known ← fetchVLESSTemplateFromServer sv.toServices server
    (existing.map fun old => old.toVLESSServerTemplate) r
  let parsed ← bindMap (r.xrayFiles server.id)
  let kept := fun (column : ClientTemplate → String) (default : String) =>
    match existing with
    | some old => if trimSpace (column old) ≠ "" then column old else default
    | none => default
  let template : ClientTemplate :=
    { toVLESSServerTemplate := known
      security := "reality"
      shortIDsJSON := ""
      mldsa65Verify := trimSpace ((sv.verifyKey server.id).getD "")
      fingerprint := kept ClientTemplate.fingerprint "chrome"
      spiderX := kept ClientTemplate.spiderX "/"
      grpcServiceName := defaultXrayGrpcServiceName
      grpcAuthority := ""
      grpcMultiMode := true }
  let stream := (firstVless (asArr (lookup parsed "inbounds"))).bind fun inbound =>
    asMap? (lookup inbound "streamSettings")
  let template := match stream with
    | none => template
    | some streamSettings => withStream sv template streamSettings
  some (clientTemplateDefaults template server)

theorem assign_eq_iff {α : Type} [DecidableEq α] {zero new old : α} :
    assign zero new old = new ↔ (new = zero → old = zero) := by
  unfold assign
  split
  · next hzero => simp [hzero]
  · next hzero => simp [hzero]

theorem assign_of_ne {α : Type} [DecidableEq α] {zero new old : α} (h : new ≠ zero) :
    assign zero new old = new :=
  if_neg h

def assignedTo (now : ℤ) (template old : ClientTemplate) : ClientTemplate where
  toVLESSServerTemplate :=
    (assigned template.toVLESSServerTemplate now).apply old.toVLESSServerTemplate
  security := assign "" template.security old.security
  shortIDsJSON := assign "" template.shortIDsJSON old.shortIDsJSON
  mldsa65Verify := assign "" template.mldsa65Verify old.mldsa65Verify
  fingerprint := assign "" template.fingerprint old.fingerprint
  spiderX := assign "" template.spiderX old.spiderX
  grpcServiceName := assign "" template.grpcServiceName old.grpcServiceName
  grpcAuthority := assign "" template.grpcAuthority old.grpcAuthority
  grpcMultiMode := assign false template.grpcMultiMode old.grpcMultiMode

/-- What can fail on the way, and the id of a row that has to be created. -/
structure Attempt where
  remoteFails : Bool
  storeFails : Bool
  newID : ℕ

def cachedFor (server : VPNServer) (loaded : Option ClientTemplate) : Option ClientTemplate :=
  loaded.map fun template => clientTemplateDefaults template server

def isFresh (now : ℤ) (cached : Option ClientTemplate) : Bool :=
  isFreshTemplate now (cached.map fun template => template.toVLESSServerTemplate)

/-- The server was loaded with the template `loaded`; `row` is the one that is stored now. -/
def ensureVLESSTemplate (now : ℤ) (server : VPNServer) (loaded : Option ClientTemplate)
    (attempt : Attempt) (r : Remote) (row : Option ClientTemplate) :
    Except TemplateError (Option ClientTemplate) × Option ClientTemplate :=
  let cached := cachedFor server loaded
  let known := cached.map fun template => template.toVLESSServerTemplate
  let fallback := fun otherwise => if hasUsableVLESSTemplate known then .ok cached else otherwise
  if isFresh now cached then (.ok cached, row)
  else if server.sshPassword = "" then (fallback (.ok none), row)
  else match if attempt.remoteFails then none else fetchTemplate sv server cached r with
    | none => (fallback (.error .remote), row)
    | some template =>
      let template := clientTemplateDefaults { template with serverID := server.id } server
      if attempt.storeFails then (.error (.db .failed), row)
      else
        let stored := match row with
          | some old => assignedTo now template old
          | none => { template with
              toVLESSServerTemplate := created template.toVLESSServerTemplate now attempt.newID
              grpcMultiMode := true }
        (.ok (some stored), some stored)

/-- The columns that come from the node. -/
def derived (t : ClientTemplate) :=
  (t.clientID, t.publicKey, t.shortID, t.shortIDsJSON, t.port, t.network, t.security, t.serverName,
    t.grpcServiceName, t.grpcAuthority, t.grpcMultiMode, t.mldsa65Verify)

/-- The answer and the row have what was read. -/
def Faithful (fetched : ClientTemplate)
    (out : Except TemplateError (Option ClientTemplate) × Option ClientTemplate) : Prop :=
  ∃ stored, out = (.ok (some stored), some stored) ∧ derived stored = derived fetched

/-- Where the node has a zero value now, the row has it already. -/
structure NothingCleared (fetched old : ClientTemplate) : Prop where
  clientID : fetched.clientID = "" → old.clientID = ""
  publicKey : fetched.publicKey = "" → old.publicKey = ""
  shortID : fetched.shortID = "" → old.shortID = ""
  shortIDsJSON : fetched.shortIDsJSON = "" → old.shortIDsJSON = ""
  serverName : fetched.serverName = "" → old.serverName = ""
  grpcAuthority : fetched.grpcAuthority = "" → old.grpcAuthority = ""
  grpcMultiMode : fetched.grpcMultiMode = false → old.grpcMultiMode = false
  mldsa65Verify : fetched.mldsa65Verify = "" → old.mldsa65Verify = ""

variable {sv} {now : ℤ} {server : VPNServer} {loaded : Option ClientTemplate} {r : Remote}
  {fetched old : ClientTemplate}

theorem fetchTemplate_filled (h : fetchTemplate sv server loaded r = some fetched) :
    FilledClient fetched server := by
  simp only [fetchTemplate, Option.bind_eq_bind, Option.bind_eq_some_iff, Option.some.injEq] at h
  obtain ⟨known, -, parsed, -, rfl⟩ := h
  exact filled_clientTemplateDefaults _ server

/-- The columns that always have a value are taken over as they are. -/
theorem derived_assignedTo_iff (h : FilledClient fetched server) :
    derived (assignedTo now fetched old) = derived fetched ↔ NothingCleared fetched old := by
  simp only [derived, assignedTo, assigned, Prod.mk.injEq, assign_of_ne h.port,
    assign_of_ne h.network, assign_of_ne h.security, assign_of_ne h.service, assign_eq_iff,
    true_and]
  constructor
  · rintro ⟨hid, hkey, hshort, hshorts, hname, hauthority, hmode, hverify⟩
    exact ⟨hid, hkey, hshort, hshorts, hname, hauthority, hmode, hverify⟩
  · rintro ⟨hid, hkey, hshort, hshorts, hname, hauthority, hmode, hverify⟩
    exact ⟨hid, hkey, hshort, hshorts, hname, hauthority, hmode, hverify⟩

variable (now old) in
theorem ensureVLESSTemplate_refreshes (n : ℕ)
    (hstale : isFresh now (cachedFor server loaded) = false)
    (hssh : server.sshPassword ≠ "")
    (hfetch : fetchTemplate sv server (cachedFor server loaded) r = some fetched) :
    ∃ stored, ensureVLESSTemplate sv now server loaded ⟨false, false, n⟩ r (some old) =
      (.ok (some stored), some stored) ∧
        (derived stored = derived fetched ↔ NothingCleared fetched old) := by
  have hfilled := fetchTemplate_filled hfetch
  have hagain : clientTemplateDefaults { fetched with serverID := server.id } server =
      { fetched with serverID := server.id } :=
    FilledClient.defaults { hfilled with }
  refine ⟨assignedTo now { fetched with serverID := server.id } old, ?_, ?_⟩
  · unfold ensureVLESSTemplate
    dsimp only
    rw [hstale, if_neg Bool.false_ne_true, if_neg hssh, if_neg Bool.false_ne_true, hfetch]
    dsimp only
    rw [if_neg Bool.false_ne_true, hagain]
  · exact derived_assignedTo_iff hfilled

theorem refresh_faithful_iff (n : ℕ) (hstale : isFresh now (cachedFor server loaded) = false)
    (hssh : server.sshPassword ≠ "")
    (hfetch : fetchTemplate sv server (cachedFor server loaded) r = some fetched) :
    Faithful fetched (ensureVLESSTemplate sv now server loaded ⟨false, false, n⟩ r (some old)) ↔
      NothingCleared fetched old := by
  obtain ⟨stored, hout, hiff⟩ := ensureVLESSTemplate_refreshes now old n hstale hssh hfetch
  rw [hout, ← hiff]
  constructor
  · rintro ⟨_, heq, hderived⟩
    cases heq
    exact hderived
  · exact fun hderived => ⟨stored, rfl, hderived⟩

def nodeFiles : NodeReader where
  toServices := { Services.numbered with xrayKeys := fun _ => ⟨some "pub", none, some "ab"⟩ }
  verifyKey _ := none
  marshalStrings _ := "[]"

def nodeServer : VPNServer := ⟨1, "nl", "192.0.2.1", "NL", "nl", true, false, 51820, "", "secret"⟩

def nodeRemote : Remote := { Remote.empty with xrayFiles := fun _ => some (.obj []) }

/-- The row of an earlier reading. -/
def storedRow (clientID : String) : ClientTemplate :=
  { (fetchTemplate nodeFiles nodeServer none nodeRemote).get (by decide +kernel) with
    serverID := 1, clientID := clientID }

abbrev reading (clientID : String) : Option ClientTemplate :=
  fetchTemplate nodeFiles nodeServer (cachedFor nodeServer (some (storedRow clientID))) nodeRemote

/-- A day later. -/
def refreshed (clientID : String) :=
  ensureVLESSTemplate nodeFiles (24 * GoTime.hour) nodeServer (some (storedRow clientID))
    ⟨false, false, 2⟩ nodeRemote (some (storedRow clientID))

theorem unchanged_node_faithful :
    reading "" = some (storedRow "") ∧ Faithful (storedRow "") (refreshed "") :=
  have hfetch : reading "" = some (storedRow "") := by decide +kernel
  ⟨hfetch, (refresh_faithful_iff 2 (by decide +kernel) (by decide) hfetch).mpr
    ⟨id, id, id, id, id, id, id, id⟩⟩

/-- The client id that was removed on the node stays in the row and in the answer. -/
theorem removed_client_kept :
    reading "old" = some (storedRow "") ∧ ¬Faithful (storedRow "") (refreshed "old") := by
  have hfetch : reading "old" = some (storedRow "") := by decide +kernel
  refine ⟨hfetch, ?_⟩
  obtain ⟨stored, hout, hiff⟩ := ensureVLESSTemplate_refreshes (24 * GoTime.hour) (storedRow "old")
    2 (by decide +kernel) (by decide) hfetch
  unfold refreshed
  rw [hout]
  rintro ⟨_, heq, hderived⟩
  cases heq
  have hcleared : "old" = "" := (hiff.mp hderived).clientID (by decide +kernel)
  exact absurd hcleared (by decide)

end TemplateRefresh
