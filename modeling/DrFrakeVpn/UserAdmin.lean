import DrFrakeVpn.AccountWorld
import DrFrakeVpn.VpnCommands

/-! # Admin calls for roles and for deleting users -/
namespace UserAdmin

open FaultyTransactions GoValues
open BackendModels BackendWorld VpnCommands AccountWorld

variable (cfg : AccountSetup)

/-- `First(&u, id)`: a number is a primary key, any other text is a condition. -/
def findUser (id : String) (a : Accounts) : Option Account :=
  match atoi? id with
  | some n => if 0 ≤ n then a.byID n.toNat else none
  | none => (cfg.whereUser id a).bind a.byID

def isUser (id : String) (userID : ℕ) : Bool :=
  match atoi? id with
  | some n => n = userID
  | none => cfg.textEquals id userID

def adminCount (a : Accounts) : ℕ := a.world.db.users.count fun u => a.role u.id = .admin

def storeRole (user : ℕ) (role : Role) (a : Accounts) : Accounts :=
  match a.world.db.users.byId user with
  | none => a
  | some _ => { a with role := Function.update a.role user role }

/-- The error of the update is dropped. -/
def assignRole (id : String) (role : Role) (counted : ℕ) : AccountHandler Response := do
  match ← exec cfg (.findForRole id) (firstRow (findUser cfg id)) with
  | .error _ => pure (respondError 404 "user not found")
  | .ok user =>
    let _ ← exec cfg (.setRole user.id role counted) (writeRow (storeRole user.id role))
    pure ⟨200, [("id", .num user.id), ("role", .str role.name)]⟩

/-- A body that cannot be bound is the message of its error. A count that failed is 0. -/
def setUserRole (id : String) (req : Except String Role) : AccountHandler Response := do
  match req with
  | .error message => pure (respondError 400 message)
  | .ok .admin => assignRole cfg id .admin 0
  | .ok .user =>
    match ← exec cfg (.countAdmins id) (fun a => (.ok (adminCount a), a)) with
    | .error _ => pure (respondError 409 "Нельзя снять роль с последнего администратора")
    | .ok counted =>
      if counted ≤ 1 then pure (respondError 409 "Нельзя снять роль с последнего администратора")
      else assignRole cfg id .user counted

/-- A list that cannot be read counts as empty. -/
def findRows {α : Type} (l : AccountStmt) (select : Accounts → List α) :
    AccountHandler (List α) := do
  match ← exec cfg l (fun a => (.ok (select a), a)) with
  | .error _ => pure []
  | .ok rows => pure rows

def keysOf (id : String) (a : Accounts) : List (VPNKey × Option VPNServer) :=
  (a.world.db.vpnKeys.select fun k => isUser cfg id k.userID).map fun k =>
    (k, a.world.db.servers.byId k.serverID)

def credentialsOf (id : String) (a : Accounts) :
    List (VLESSCredential × Option VPNServer × Option VLESSServerTemplate) :=
  (a.world.db.vlessCredentials.select fun c => isUser cfg id c.userID).map fun c =>
    (c, a.world.db.servers.byId c.serverID,
      a.world.db.templates.first? fun t => t.serverID = c.serverID)

def dropPeer (x : VPNKey × Option VPNServer) : AccountHandler Unit :=
  if x.1.revokedAt = none && x.1.publicKey ≠ "" then
    onBackend (removeAWGPeer cfg.backend (.removePeer x.1.id) x.2 x.1.publicKey).forget
  else pure ()

def dropClient (x : VLESSCredential × Option VPNServer × Option VLESSServerTemplate) :
    AccountHandler Unit :=
  if x.1.revokedAt = none then
    onBackend (removeXrayClient cfg.backend (.removeClient x.1.id) x.2.1 x.2.2 x.1.clientID).forget
  else pure ()

/-- The error of a delete is dropped. -/
def deleteRows (l : AccountStmt) (f : Db → Db) : AccountHandler Unit := do
  let _ ← exec cfg l (writeRow fun a =>
    { a with world := { a.world with db := f a.world.db } })

/-- The rows that a foreign key ties to the user. -/
def isReferenced (user : ℕ) (a : Accounts) : Bool :=
  a.world.db.subscriptions.rows.any (fun x => x.userID = user) ||
  a.world.db.vpnKeys.rows.any (fun x => x.userID = user) ||
  a.world.db.payments.rows.any (fun x => x.userID = user) ||
  a.tvLogins.rows.any (fun x => x.userID = some user) ||
  a.world.db.vlessCredentials.rows.any (fun x => x.userID = user) ||
  a.world.db.happTokens.rows.any (fun x => x.userID = user) ||
  a.world.db.routingProfiles.rows.any (fun x => x.userID = user)

def removeUser (user : ℕ) (a : Accounts) : Except AccountError Unit × Accounts :=
  if isReferenced user a then (.error .constraint, a)
  else (.ok (), { a with world := { a.world with db := { a.world.db with
    users := a.world.db.users.delete fun u => u.id = user } } })

def deletedReply : Response :=
  ⟨200, [("message", .str "user and all associated data deleted permanently")]⟩

/-- The rows that belong to the user, and then the user. -/
def deleteData (id : String) (user : ℕ) : AccountHandler Unit := do
  deleteRows cfg (.delete id .keys) fun db =>
    { db with vpnKeys := db.vpnKeys.delete fun x => isUser cfg id x.userID }
  deleteRows cfg (.delete id .credentials) fun db =>
    { db with vlessCredentials := db.vlessCredentials.delete fun x => isUser cfg id x.userID }
  deleteRows cfg (.delete id .profiles) fun db =>
    { db with routingProfiles := db.routingProfiles.delete fun x => isUser cfg id x.userID }
  deleteRows cfg (.delete id .subscriptions) fun db =>
    { db with subscriptions := db.subscriptions.delete fun x => isUser cfg id x.userID }
  deleteRows cfg (.delete id .payments) fun db =>
    { db with payments := db.payments.delete fun x => isUser cfg id x.userID }
  let _ ← exec cfg (.delete id (.user user)) (removeUser user)

def deleteUser (id : String) : AccountHandler Response := do
  match ← exec cfg (.delete id .findUser) (firstRow (findUser cfg id)) with
  | .error _ => pure (respondError 404 "user not found")
  | .ok user =>
    let keys ← findRows cfg (.delete id .selectKeys) (keysOf cfg id)
    let creds ← findRows cfg (.delete id .selectCredentials) (credentialsOf cfg id)
    .each (dropPeer cfg) keys
    .each (dropClient cfg) creds
    deleteData cfg id user.id
    pure deletedReply

/-- Nothing but the servers. -/
def OnlyRemote (_ : Stmt) (w w' : World) : Prop := w' = { w with remote := w'.remote }

def Remotely (l : AccountStmt) (a a' : Accounts) : Prop :=
  (∃ l', l = .backend l') ∧ ∃ r, a' = { a with world := { a.world with remote := r } }

theorem does_onBackend {α : Type} {p : Handler α} (h : p.Does OnlyRemote) :
    (onBackend p).Does Remotely := by
  induction h with
  | done x => exact .done x
  | @act _ l f next hR _ ih =>
    refine .act (fun a => ⟨⟨l, rfl⟩, (f a.world).2.remote, ?_⟩) ih
    rw [← hR a.world]

theorem does_dropPeer (x : VPNKey × Option VPNServer) : (dropPeer cfg x).Does Remotely := by
  unfold dropPeer
  split
  · exact does_onBackend (does_removeAWGPeer (fun _ _ _ => rfl)).forget
  · exact .done ()

theorem does_dropClient (x : VLESSCredential × Option VPNServer × Option VLESSServerTemplate) :
    (dropClient cfg x).Does Remotely := by
  unfold dropClient
  split
  · exact does_onBackend (does_removeXrayClient (fun _ _ _ => rfl)).forget
  · exact .done ()

end UserAdmin
