import DrFrakeVpn.ConfigSync
import DrFrakeVpn.ServerMetadata

/-! # Sessions of the client

The replies to the requests of `FBLinkController` arrive in any order, and their handlers work on
the settings as they are then. -/
namespace ClientSession

open ClientServers ConfigSync

/-- What is run after a refresh: the operation that was refused. Those that touch neither tokens
nor configs are `other`. -/
inductive Callback where
  | config
  | subscription
  | metadata
  | other
  deriving DecidableEq

/-- A request without a reply yet. `token` is the one in its header, `id` the number of the TV login
it belongs to. The replies to `login` and `verifyEmail` are handled alike. -/
inductive Request where
  | login (email : String)
  | refresh (refreshToken : String)
  | tvStart (id : ℕ)
  | tvPoll (id : ℕ) (deviceCode : String)
  | subscription (token : String) (allowRefreshRetry : Bool)
  | config (token : String) (allowRefreshRetry : Bool)
  | metadata (token : String) (allowRefreshRetry : Bool)
  deriving DecidableEq

/-- A call put off to the next turn of the event loop. -/
inductive Timer where
  | fetchConfig (allowRefreshRetry : Bool)
  | fetchSubscription (allowRefreshRetry : Bool)

/-- `ok` is `NoError`, `refused` an authentication error. -/
structure Reply where
  ok : Bool
  refused : Bool
  obj : QJsonObject
  /-- The end date in the reply is not over, by the clock at that moment. -/
  endDateAhead : Bool

inductive TvStatus where
  | none
  | starting
  | pending
  | approved
  | error
  deriving DecidableEq

/-- What has happened so far; no code reads it. -/
structure History where
  /-- A logout was the last of the logouts and the starts of logins. -/
  loggedOut : Bool
  tvStarted : ℕ
  /-- The TV logins with a smaller number were started before a cancellation. -/
  tvCancelled : ℕ
  /-- The access token of the last login. -/
  login : Option String
  /-- The TV logins that logged the user in, each with `tvCancelled` at that moment. -/
  tvLogins : List (ℕ × ℕ)
  /-- The tokens that configs which were stored were requested with, each with `login` at that
  moment. -/
  stored : List (String × Option String)

structure Controller where
  authToken : String
  refreshToken : String
  userEmail : String
  client : Client
  allowedProtocols : List String
  subscriptionPlan : String
  tvLoginDeviceCode : String
  tvLoginStatus : TvStatus
  /-- The number of the TV login the device code is of. -/
  tvLoginId : ℕ
  isRefreshing : Bool
  pendingRefreshCallbacks : List Callback
  isFetchingConfig : Bool
  pendingConfigFetch : Bool
  pendingConfigAllowRefreshRetry : Bool
  isFetchingSubscription : Bool
  pendingSubscriptionFetch : Bool
  pendingSubscriptionAllowRefreshRetry : Bool
  fetchConfigAfterSubscription : Bool
  requests : List Request
  timers : List Timer
  history : History

namespace Controller

variable (env : Env)

def send (request : Request) (s : Controller) : Controller :=
  { s with requests := s.requests ++ [request] }

def saveTokens (obj : QJsonObject) (s : Controller) : Controller :=
  { s with
    authToken := stringOf (obj "access_token")
    refreshToken :=
      if (obj "refresh_token").isSome then stringOf (obj "refresh_token") else s.refreshToken }

/-- The servers of the backend, from the last to the first. -/
def clearExistingFBLinkServers (s : Controller) : Controller :=
  { s with client := removeStale (existingFBLinkServerIndices s.client.servers) [] s.client }

def setUserEmail (email : String) (s : Controller) : Controller :=
  let normalized := env.qt.trimmed email
  if env.qt.same (env.qt.trimmed s.userEmail) normalized then s
  else clearExistingFBLinkServers
    { s with
      userEmail := normalized
      client := s.client.rememberSelected "" none }

def saveSubscriptionInfo (plan : String) (protocols : List String) (s : Controller) : Controller :=
  { s with subscriptionPlan := plan, allowedProtocols := protocols }

def clearTvLoginState (s : Controller) : Controller :=
  { s with tvLoginDeviceCode := "", tvLoginStatus := .none }

def logout (s : Controller) : Controller :=
  let s := clearTvLoginState { s with pendingRefreshCallbacks := [], isRefreshing := false }
  let s := setUserEmail env "" { s with authToken := "", refreshToken := "" }
  let s := saveSubscriptionInfo "" [] s
  { s with history := { s.history with loggedOut := true } }

def fetchSubscription (allowRefreshRetry : Bool) (s : Controller) : Controller :=
  if s.authToken = "" then s
  else if s.isFetchingSubscription then
    { s with
      pendingSubscriptionFetch := true
      pendingSubscriptionAllowRefreshRetry :=
        s.pendingSubscriptionAllowRefreshRetry || allowRefreshRetry }
  else send (.subscription s.authToken allowRefreshRetry) { s with isFetchingSubscription := true }

def fetchConfig (allowRefreshRetry : Bool) (s : Controller) : Controller :=
  if s.authToken = "" then s
  else if s.isFetchingConfig then
    { s with
      pendingConfigFetch := true
      pendingConfigAllowRefreshRetry := s.pendingConfigAllowRefreshRetry || allowRefreshRetry }
  else send (.config s.authToken allowRefreshRetry) { s with isFetchingConfig := true }

def fetchServerMetadata (allowRefreshRetry : Bool) (s : Controller) : Controller :=
  if s.authToken = "" then s else send (.metadata s.authToken allowRefreshRetry) s

def beginSessionSync (s : Controller) : Controller :=
  fetchSubscription true { s with fetchConfigAfterSubscription := true }

def refreshAccessToken (onSuccess : Callback) (s : Controller) : Controller :=
  let s := { s with pendingRefreshCallbacks := s.pendingRefreshCallbacks ++ [onSuccess] }
  if s.isRefreshing then s
  else if s.refreshToken = "" then logout env { s with pendingRefreshCallbacks := [] }
  else send (.refresh s.refreshToken) { s with isRefreshing := true }

def callback (s : Controller) : Callback → Controller
  | .config => fetchConfig false s
  | .subscription => fetchSubscription false s
  | .metadata => fetchServerMetadata false s
  | .other => s

def startSession (email : String) (s : Controller) : Controller :=
  beginSessionSync (saveSubscriptionInfo "" [] (setUserEmail env email
    { s with history := { s.history with login := some s.authToken } }))

def beginLogin (s : Controller) : Controller :=
  { s with history := { s.history with loggedOut := false } }

def login (email password : String) (s : Controller) : Controller :=
  if email = "" ∨ password = "" then s else send (.login email) (beginLogin s)

def verifyEmail (email : String) (s : Controller) : Controller := send (.login email) (beginLogin s)

def loginWithToken (token : String) (s : Controller) : Controller :=
  startSession env "" { beginLogin s with authToken := token }

def startTvLogin (s : Controller) : Controller :=
  let s := clearTvLoginState (beginLogin s)
  send (.tvStart s.history.tvStarted)
    { s with
      tvLoginStatus := .starting
      history := { s.history with tvStarted := s.history.tvStarted + 1 } }

def pollTvLogin (s : Controller) : Controller :=
  if s.tvLoginDeviceCode = "" ∨ s.tvLoginStatus = .approved then s
  else send (.tvPoll s.tvLoginId s.tvLoginDeviceCode) s

def cancelTvLogin (s : Controller) : Controller :=
  let s := clearTvLoginState s
  { s with history := { s.history with tvCancelled := s.history.tvStarted } }

def completeTokenLogin (obj : QJsonObject) (s : Controller) : Controller :=
  startSession env "" (clearTvLoginState (saveTokens obj s))

def loginReply (email : String) (reply : Reply) (s : Controller) : Controller :=
  if reply.ok && (reply.obj "access_token").isSome then
    startSession env email (saveTokens reply.obj s)
  else s

def refreshReply (reply : Reply) (s : Controller) : Controller :=
  let callbacks := s.pendingRefreshCallbacks
  let s := { s with isRefreshing := false, pendingRefreshCallbacks := [] }
  if reply.ok && (reply.obj "access_token").isSome then
    callbacks.foldl callback (saveTokens reply.obj s)
  else logout env s

def tvStartReply (id : ℕ) (reply : Reply) (s : Controller) : Controller :=
  if reply.ok then
    { s with
      tvLoginDeviceCode := stringOf (reply.obj "device_code")
      tvLoginStatus := .pending
      tvLoginId := id }
  else { s with tvLoginStatus := .error }

def tvPollReply (id : ℕ) (pending : Bool) (reply : Reply) (s : Controller) : Controller :=
  if reply.ok && (reply.obj "access_token").isSome then
    completeTokenLogin env reply.obj
      { s with
        tvLoginStatus := .approved
        history := { s.history with
          tvLogins := s.history.tvLogins ++ [(id, s.history.tvCancelled)] } }
  else if pending then { s with tvLoginStatus := .pending }
  else { s with tvLoginStatus := .error }

def retried (allowRefreshRetry : Bool) (reply : Reply) : Bool := allowRefreshRetry && reply.refused

def isSubscribed (reply : Reply) : Bool :=
  stringOf ((reply.obj "status").or (some (.str "inactive"))) = "active" &&
    stringOf (reply.obj "plan") ≠ "free" && stringOf (reply.obj "plan") ≠ "" && reply.endDateAhead

/-- The first of the places where a reply may carry the e-mail address. -/
def accountEmail (obj : QJsonObject) : String :=
  let texts := [stringOf (obj "email"), stringOf (obj "user_email"), stringOf (obj "account_email"),
    stringOf ((obj "user").bind fun user => objectOf user "email")]
  (texts.map env.qt.trimmed).find? (· ≠ "") |>.getD ""

def allowedProtocolsOf (obj : QJsonObject) : List String :=
  (arrayOf (obj "allowed_protocols")).map fun item => stringOf (some item)

def subscriptionReply (allowRefreshRetry : Bool) (reply : Reply) (s : Controller) : Controller :=
  let rerun := if s.pendingSubscriptionFetch
    then [Timer.fetchSubscription s.pendingSubscriptionAllowRefreshRetry] else []
  let s := { s with
    isFetchingSubscription := false
    pendingSubscriptionFetch := false
    pendingSubscriptionAllowRefreshRetry := true }
  if reply.ok then
    let email := accountEmail env reply.obj
    let s := if email ≠ "" then setUserEmail env email s else s
    let s := saveSubscriptionInfo (stringOf (reply.obj "plan")) (allowedProtocolsOf reply.obj) s
    let shouldFetchConfig := s.fetchConfigAfterSubscription
    let s := { s with fetchConfigAfterSubscription := false }
    let s := if shouldFetchConfig then
        (if isSubscribed reply then fetchConfig true s else clearExistingFBLinkServers s)
      else s
    { s with timers := s.timers ++ rerun }
  else if retried allowRefreshRetry reply then refreshAccessToken env .subscription s
  else { s with fetchConfigAfterSubscription := false, timers := s.timers ++ rerun }

def storeConfigs (token : String) (obj : QJsonObject) (s : Controller) : Controller :=
  { s with
    client := syncServers { env with
      allowedProtocols := s.allowedProtocols, subscriptionPlan := s.subscriptionPlan } obj s.client
    history := { s.history with stored := s.history.stored ++ [(token, s.history.login)] } }

def configReply (token : String) (allowRefreshRetry : Bool) (reply : Reply) (s : Controller) :
    Controller :=
  let rerun := if s.pendingConfigFetch
    then [Timer.fetchConfig s.pendingConfigAllowRefreshRetry] else []
  let s := { s with
    isFetchingConfig := false
    pendingConfigFetch := false
    pendingConfigAllowRefreshRetry := true }
  if reply.ok then
    let s := if (reply.obj "configs").isSome || (reply.obj "config").isSome then
        fetchServerMetadata true (storeConfigs env token reply.obj s)
      else s
    { s with timers := s.timers ++ rerun }
  else if retried allowRefreshRetry reply then refreshAccessToken env .config s
  else
    let s := if reply.refused then s else fetchServerMetadata true s
    { s with timers := s.timers ++ rerun }

def metadataReply (allowRefreshRetry : Bool) (reply : Reply) (s : Controller) : Controller :=
  if reply.ok then
    { s with
      client := ServerMetadata.mergeServerMetadata env.qt (arrayOf (reply.obj "servers")) s.client }
  else if retried allowRefreshRetry reply then refreshAccessToken env .metadata s
  else s

end Controller

/-- Calls from the pages and from other operations of the controller, which may come at any time,
timers, and replies to the `i`-th of the open requests; `pending` says whether the reply to a poll
asks to go on polling. -/
inductive Event where
  | login (email password : String)
  | verifyEmail (email : String)
  | loginWithToken (token : String)
  | startTvLogin
  | pollTvLogin
  | cancelTvLogin
  | logout
  | fetchSubscription (allowRefreshRetry : Bool)
  | fetchConfig (allowRefreshRetry : Bool)
  | syncAll
  | refreshAccessToken (onSuccess : Callback)
  | timer (i : ℕ)
  | reply (i : ℕ) (reply : Reply) (pending : Bool)

variable (env : Env)

open Controller in
def handleReply (request : Request) (reply : Reply) (pending : Bool)
    (s : Controller) : Controller :=
  match request with
  | .login email => loginReply env email reply s
  | .refresh _ => refreshReply env reply s
  | .tvStart id => tvStartReply id reply s
  | .tvPoll id _ => tvPollReply env id pending reply s
  | .subscription _ allowRefreshRetry => subscriptionReply env allowRefreshRetry reply s
  | .config token allowRefreshRetry => configReply env token allowRefreshRetry reply s
  | .metadata _ allowRefreshRetry => metadataReply env allowRefreshRetry reply s

open Controller in
def fire (timer : Timer) (s : Controller) : Controller :=
  match timer with
  | .fetchConfig allowRefreshRetry => fetchConfig allowRefreshRetry s
  | .fetchSubscription allowRefreshRetry => fetchSubscription allowRefreshRetry s

open Controller in
def step (s : Controller) : Event → Controller
  | .login email password => login email password s
  | .verifyEmail email => verifyEmail email s
  | .loginWithToken token => loginWithToken env token s
  | .startTvLogin => startTvLogin s
  | .pollTvLogin => pollTvLogin s
  | .cancelTvLogin => cancelTvLogin s
  | .logout => logout env s
  | .fetchSubscription allowRefreshRetry => fetchSubscription allowRefreshRetry s
  | .fetchConfig allowRefreshRetry => fetchConfig allowRefreshRetry s
  | .syncAll => if s.authToken = "" then s else beginSessionSync s
  | .refreshAccessToken onSuccess => refreshAccessToken env onSuccess s
  | .timer i =>
    match s.timers[i]? with
    | some timer => fire timer { s with timers := s.timers.eraseIdx i }
    | none => s
  | .reply i reply pending =>
    match s.requests[i]? with
    | some request =>
      handleReply env request reply pending { s with requests := s.requests.eraseIdx i }
    | none => s

structure Fresh (s : Controller) : Prop where
  requests : s.requests = []
  deviceCode : s.tvLoginDeviceCode = ""
  history : s.history = ⟨false, 0, 0, none, [], []⟩

end ClientSession
