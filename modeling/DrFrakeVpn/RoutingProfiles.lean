import DrFrakeVpn.PaymentHandlers

/-! # Routing profiles of VIP users

A profile is looked up by the text of the request path and written by its primary key. -/
namespace RoutingProfiles

open RecordTables GoValues
open BackendModels BackendWorld SubscriptionActivation

/-- What the handlers take from their libraries: how the database answers a query whose condition
is a text, and the texts in which lists of strings are stored. -/
structure Storage where
  firstWhere : String → List ℕ → Db → Except DbError (Option RoutingProfile)
  encodeJSONStringArray : List String → String
  decodeJSONStringArray : String → List String

structure RoutingProfileRequest where
  name : String
  action : String
  enabled : Option Bool
  domains : List String
  domainSuffixes : List String
  cidrs : List String

inductive Reply where
  | failed (status : ℕ) (message : String)
  | profile (p : RoutingProfile)
  | deleted

variable (cfg : Setup) (st : Storage)

def normalizeRoutingProfileAction (raw : String) : RoutingProfileAction :=
  if raw = "proxy" then .proxy else .direct

def kindName : RoutingProfileKind → String
  | .system => "system"
  | .custom => "custom"

def actionName : RoutingProfileAction → String
  | .direct => "direct"
  | .proxy => "proxy"

def routingProfileToMap (p : RoutingProfile) : List (String × Json) :=
  let strings := fun raw => Json.arr ((st.decodeJSONStringArray raw).map Json.str)
  [("id", .num p.id), ("name", .str p.name), ("code", .str p.code),
    ("template_code", .str p.templateCode), ("kind", .str (kindName p.kind)),
    ("action", .str (actionName p.action)), ("enabled", .bool p.enabled),
    ("description", .str p.description), ("icon", .str p.icon), ("sort_order", .num p.sortOrder),
    ("editable", .bool (p.kind ≠ .system)), ("deletable", .bool (p.kind ≠ .system)),
    ("domains", strings p.domainsJSON), ("domain_suffixes", strings p.domainSuffixesJSON),
    ("cidrs", strings p.cidrsJSON), ("created_at", .num p.createdAt),
    ("updated_at", .num p.updatedAt)]

def Reply.response : Reply → Response
  | .failed status message => respondError status message
  | .profile p => ⟨200, [("profile", .obj (routingProfileToMap st p))]⟩
  | .deleted => ⟨200, [("message", .str "routing profile deleted")]⟩

def isSubscriptionEntitled (now : ℤ) (sub : Subscription) : Bool :=
  sub.status = .active && now < sub.expiresAt + 24 * GoTime.hour

def canManageVIPFeatures (now : ℤ) (sub : Subscription) : Bool :=
  isSubscriptionEntitled now sub && (sub.plan = .vip || sub.plan = .vip3M)

/-- The data migration that runs once per process. -/
def ensureSubscriptionSchema (w : World) : World :=
  if w.subscriptionSchemaReady then w
  else { w with
    subscriptionSchemaReady := true
    db := { w.db with
      subscriptions := w.db.subscriptions.update
        (fun s => s.plan = .free && s.paymentMethodID = "" && s.autoRenew)
        ⟨fun s => { s with autoRenew := false }, fun _ => rfl, fun _ => rfl⟩ } }

def defaultRow (now : ℤ) (userID : ℕ) (id : ℕ) : Subscription :=
  ⟨id, userID, .free, .active, GoTime.addDate now 1 0 0, false, ""⟩

def ensureDefaultSubscription (userID : ℕ) : Handler (Except DbError Subscription) := do
  match ← exec1 cfg .subscriptionSchema (fun w => (.ok (), ensureSubscriptionSchema w)) with
  | .error e => pure (.error e)
  | .ok _ =>
    match ← exec1 cfg (.defaultFind userID) (firstOf fun db => db.subscriptionOf userID) with
    | .ok sub => pure (.ok sub)
    | .error .recordNotFound =>
      let now ← readClock .clock
      exec1 cfg (.defaultCreate userID) fun w =>
        match createSubscription (defaultRow now userID) w.db with
        | some db => (.ok (defaultRow now userID w.db.subscriptions.seq), { w with db := db })
        | none => (.error .constraint, w)
    | .error e => pure (.error e)

/-- How the query builder puts a text into a condition: alone, or in one pair of
parentheses. -/
def conditionText (s : String) : String :=
  if contains s " OR " || contains s " AND " then "(" ++ s ++ ")" else s

def queryText (s : String) : String :=
  "user_id = ? AND " ++ conditionText s ++ " AND `routing_profiles`.`deleted_at` IS NULL"

/-- `db.Where("user_id = ?", userID).First(&profile, s)`: a number is compared with the
primary key, any other text becomes part of the query. -/
def findProfile (userID : ℕ) (s : String) (db : Db) : Except DbError (Option RoutingProfile) :=
  match atoi? s with
  | some n => .ok (db.routingProfiles.first? fun p =>
      p.userID = userID && (p.id : ℤ) = n && p.deletedAt = none)
  | none =>
    if s = "" then
      .ok (db.routingProfiles.first? fun p => p.userID = userID && p.deletedAt = none)
    else st.firstWhere (queryText s) [userID] db

def findProfileOf (userID : ℕ) (s : String) (w : World) : Except DbError RoutingProfile × World :=
  match findProfile st userID s w.db with
  | .error e => (.error e, w)
  | .ok none => (.error .recordNotFound, w)
  | .ok (some p) => (.ok p, w)

def writeProfiles (q : RoutingProfile → Bool) (f : ℤ → Table.Write RoutingProfile) (w : World) :
    Except DbError Unit × World :=
  (.ok (), { w with db := { w.db with
    routingProfiles :=
      w.db.routingProfiles.update (fun p => q p && p.deletedAt = none) (f w.now) } })

def enabledAs (enabled : Bool) (_ : ℤ) : Table.Write RoutingProfile :=
  ⟨fun p => { p with enabled := enabled }, fun _ => rfl, fun _ => rfl⟩

def updatedWith (req : RoutingProfileRequest) (now : ℤ) : Table.Write RoutingProfile where
  apply p := { p with
    enabled := req.enabled.getD p.enabled
    name := if req.name ≠ "" then req.name else p.name
    action := normalizeRoutingProfileAction req.action
    domainsJSON := st.encodeJSONStringArray req.domains
    domainSuffixesJSON := st.encodeJSONStringArray req.domainSuffixes
    cidrsJSON := st.encodeJSONStringArray req.cidrs
    updatedAt := now }
  id_eq _ := rfl
  key_eq _ := rfl

def deletedAt (now : ℤ) : Table.Write RoutingProfile :=
  ⟨fun p => { p with deletedAt := some now }, fun _ => rfl, fun _ => rfl⟩

def storedProfile (id : ℕ) (db : Db) : Option RoutingProfile :=
  db.routingProfiles.first? fun p => p.id = id && p.deletedAt = none

def withProfile (userID : ℕ) (s : String) (k : RoutingProfile → Handler Reply) : Handler Reply := do
  match ← exec1 cfg .routingSchema (readOf fun _ => ()) with
  | .error _ => pure (.failed 500 "failed to prepare routing profiles")
  | .ok _ =>
    match ← ensureDefaultSubscription cfg userID with
    | .error _ => pure (.failed 500 "failed to load subscription")
    | .ok sub =>
      let now ← readClock .clock
      if !canManageVIPFeatures now sub then pure (.failed 403 "VIP required")
      else
        match ← exec1 cfg (.profileFind userID) (findProfileOf st userID s) with
        | .error _ => pure (.failed 404 "routing profile not found")
        | .ok profile => k profile

def reloadProfile (userID : ℕ) (profile : RoutingProfile) : Handler Reply := do
  match ← exec1 cfg (.profileReload userID) (firstOf (storedProfile profile.id)) with
  | .error _ => pure (.failed 500 "failed to reload routing profile")
  | .ok p => pure (.profile p)

/-- What `UpdateRoutingProfile` does with the profile it found; a body that cannot be bound
is the message of its error. -/
def updateFound (userID : ℕ) (req : Except String RoutingProfileRequest)
    (profile : RoutingProfile) : Handler Reply :=
  match req with
  | .error message => pure (.failed 400 message)
  | .ok req =>
    match profile.kind, req.enabled with
    | .system, none => pure (.failed 400 "nothing to update")
    | .system, some enabled => do
      match ← exec1 cfg (.profileToggle userID) (writeProfiles
          (fun p => p.id = profile.id && p.userID = userID) (enabledAs enabled)) with
      | .error _ => pure (.failed 500 "failed to update routing profile")
      | .ok _ => reloadProfile cfg userID profile
    | .custom, _ => do
      match ← exec1 cfg (.profileUpdate userID) (writeProfiles (fun p => p.id = profile.id)
          (updatedWith st req)) with
      | .error _ => pure (.failed 500 "failed to update routing profile")
      | .ok _ => reloadProfile cfg userID profile

def updateRoutingProfile (userID : ℕ) (s : String) (req : Except String RoutingProfileRequest) :
    Handler Reply :=
  withProfile cfg st userID s (updateFound cfg st userID req)

end RoutingProfiles
