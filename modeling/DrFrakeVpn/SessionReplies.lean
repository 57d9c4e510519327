import DrFrakeVpn.ClientSession
import DrFrakeVpn.SyncOutcome

/-! # Replies that come late

A reply to a request of an earlier session may log the user in again, or store the configs of
another account. -/
namespace SessionReplies

open GoValues ClientServers ConfigSync ClientSession List

def loginLike : Request → Bool
  | .login _ | .refresh _ | .tvStart _ | .tvPoll _ _ => true
  | _ => false

def tvOf : Request → Option ℕ
  | .tvStart id | .tvPoll id _ => some id
  | _ => none

def bearerOf : Request → Option String
  | .refresh token | .config token _ => some token
  | _ => none

def Quiet (requests : List Request) : Prop := ∀ r ∈ requests, loginLike r = false

instance (requests : List Request) : Decidable (Quiet requests) :=
  inferInstanceAs (Decidable (∀ r ∈ requests, loginLike r = false))

structure View where
  auth : String
  refresh : String
  device : String
  tvId : ℕ
  requests : List Request
  history : History

def view (s : Controller) : View :=
  ⟨s.authToken, s.refreshToken, s.tvLoginDeviceCode, s.tvLoginId, s.requests, s.history⟩

section

variable {α : Type} (owner : String → α)

/-- There is no token, or it is of the account of `t`. -/
def Belongs (t token : String) : Prop := token = "" ∨ owner token = owner t

/-- The tokens in use and those of the open requests are of the account that logged in last, the
TV logins still open are not cancelled ones, and after a logout nothing is open that could log
in. -/
structure Separate (v : View) : Prop where
  loggedOut : v.history.loggedOut = true →
    v.auth = "" ∧ v.refresh = "" ∧ v.device = "" ∧ Quiet v.requests
  started : v.history.tvCancelled ≤ v.history.tvStarted
  device : v.device ≠ "" → v.history.tvCancelled ≤ v.tvId
  tvRequests : ∀ r ∈ v.requests, ∀ id, tvOf r = some id → v.history.tvCancelled ≤ id
  account : ∀ t, v.history.login = some t → Belongs owner t v.auth ∧ Belongs owner t v.refresh ∧
    ∀ r ∈ v.requests, ∀ token, bearerOf r = some token → owner token = owner t
  tvLogins : ∀ p ∈ v.history.tvLogins, p.2 ≤ p.1
  stored : ∀ p ∈ v.history.stored, ∀ t, p.2 = some t → owner p.1 = owner t

end

def Harmless (auth : String) (r : Request) : Prop :=
  loginLike r = false ∧ tvOf r = none ∧ ∀ token, bearerOf r = some token → token = auth ∧ auth ≠ ""

def Fetched (v v' : View) : Prop :=
  ∃ rs, v' = { v with requests := v.requests ++ rs } ∧ ∀ r ∈ rs, Harmless v.auth r

theorem Fetched.refl (v : View) : Fetched v v :=
  ⟨[], by rw [append_nil], nofun⟩

theorem Fetched.trans (h : Fetched v v') (h' : Fetched v' v'') : Fetched v v'' := by
  obtain ⟨rs, rfl, hrs⟩ := h
  obtain ⟨rs', rfl, hrs'⟩ := h'
  refine ⟨rs ++ rs', by rw [← append_assoc], fun r hr => ?_⟩
  rcases mem_append.mp hr with hr | hr
  · exact hrs r hr
  · exact hrs' r hr

theorem fetched_send {s r} (h : Harmless s.authToken r) : Fetched (view s) (view (s.send r)) :=
  ⟨[r], rfl, fun _ hr => mem_singleton.mp hr ▸ h⟩

variable {α : Type} {owner : String → α}

theorem Separate.fetched (h : Separate owner v) (hf : Fetched v v') : Separate owner v' := by
  obtain ⟨rs, rfl, hrs⟩ := hf
  refine ⟨fun hout => ?_, h.started, h.device, fun r hr id hid => ?_, fun t ht => ?_, h.tvLogins,
    h.stored⟩
  · obtain ⟨hauth, hrefresh, hdevice, hquiet⟩ := h.loggedOut hout
    refine ⟨hauth, hrefresh, hdevice, fun r hr => ?_⟩
    rcases mem_append.mp hr with hr | hr
    · exact hquiet r hr
    · exact (hrs r hr).1
  · rcases mem_append.mp hr with hr | hr
    · exact h.tvRequests r hr id hid
    · rw [(hrs r hr).2.1] at hid
      cases hid
  · obtain ⟨hauth, hrefresh, hrequests⟩ := h.account t ht
    refine ⟨hauth, hrefresh, fun r hr token htoken => ?_⟩
    rcases mem_append.mp hr with hr | hr
    · exact hrequests r hr token htoken
    · obtain ⟨rfl, hne⟩ := (hrs r hr).2.2 token htoken
      rcases hauth with hempty | howner
      · exact absurd hempty hne
      · exact howner

variable (allow : Bool)

theorem fetchSubscription_fetched (s : Controller) :
    Fetched (view s) (view (s.fetchSubscription allow)) := by
  unfold Controller.fetchSubscription
  split
  · exact .refl _
  · split
    · exact .refl _
    · exact ⟨[_], rfl, fun r hr => mem_singleton.mp hr ▸ ⟨rfl, rfl, nofun⟩⟩

theorem fetchConfig_fetched (s : Controller) : Fetched (view s) (view (s.fetchConfig allow)) := by
  unfold Controller.fetchConfig
  split
  · exact .refl _
  · rename_i hauth
    split
    · exact .refl _
    · exact ⟨[_], rfl, fun r hr => mem_singleton.mp hr ▸
        ⟨rfl, rfl, fun token htoken => ⟨(Option.some.inj htoken).symm, hauth⟩⟩⟩

theorem fetchServerMetadata_fetched (s : Controller) :
    Fetched (view s) (view (s.fetchServerMetadata allow)) := by
  unfold Controller.fetchServerMetadata
  split
  · exact .refl _
  · exact fetched_send ⟨rfl, rfl, nofun⟩

variable (s : Controller)

theorem beginSessionSync_fetched : Fetched (view s) (view s.beginSessionSync) :=
  fetchSubscription_fetched true { s with fetchConfigAfterSubscription := true }

theorem callback_fetched (callback : Callback) : Fetched (view s) (view (s.callback callback)) := by
  cases callback with
  | config => exact fetchConfig_fetched false s
  | subscription => exact fetchSubscription_fetched false s
  | metadata => exact fetchServerMetadata_fetched false s
  | other => exact .refl _

theorem callbacks_fetched (callbacks : List Callback) (s : Controller) :
    Fetched (view s) (view (callbacks.foldl Controller.callback s)) := by
  induction callbacks generalizing s with
  | nil => exact .refl _
  | cons callback callbacks ih => exact (callback_fetched s callback).trans (ih _)

theorem fire_fetched (timer : Timer) (s : Controller) : Fetched (view s) (view (fire timer s)) := by
  cases timer with
  | fetchConfig allow => exact fetchConfig_fetched allow s
  | fetchSubscription allow => exact fetchSubscription_fetched allow s

section Rules

variable {v : View}

theorem Separate.answered (h : Separate owner v) (i : ℕ) :
    Separate owner { v with requests := v.requests.eraseIdx i } := by
  have hmem : ∀ r ∈ v.requests.eraseIdx i, r ∈ v.requests := fun _ => mem_of_mem_eraseIdx
  refine ⟨fun hout => ?_, h.started, h.device, fun r hr => h.tvRequests r (hmem r hr),
    fun t ht => ?_, h.tvLogins, h.stored⟩
  · obtain ⟨hauth, hrefresh, hdevice, hquiet⟩ := h.loggedOut hout
    exact ⟨hauth, hrefresh, hdevice, fun r hr => hquiet r (hmem r hr)⟩
  · obtain ⟨hauth, hrefresh, hrequests⟩ := h.account t ht
    exact ⟨hauth, hrefresh, fun r hr => hrequests r (hmem r hr)⟩

theorem Separate.ended (h : Separate owner v) (hquiet : Quiet v.requests) :
    Separate owner { v with
      auth := "", refresh := "", device := ""
      history := { v.history with loggedOut := true } } := by
  refine ⟨fun _ => ⟨rfl, rfl, rfl, hquiet⟩, h.started, fun hne => absurd rfl hne, h.tvRequests,
    fun t ht => ?_, h.tvLogins, h.stored⟩
  exact ⟨.inl rfl, .inl rfl, (h.account t ht).2.2⟩

theorem Separate.begun (h : Separate owner v) :
    Separate owner { v with history := { v.history with loggedOut := false } } :=
  ⟨nofun, h.started, h.device, h.tvRequests, h.account, h.tvLogins, h.stored⟩

theorem Separate.deviceCleared (h : Separate owner v) : Separate owner { v with device := "" } := by
  refine ⟨fun hout => ?_, h.started, fun hne => absurd rfl hne, h.tvRequests, h.account, h.tvLogins,
    h.stored⟩
  obtain ⟨hauth, hrefresh, -, hquiet⟩ := h.loggedOut hout
  exact ⟨hauth, hrefresh, rfl, hquiet⟩

variable (owner) in
def SameAccount (t refreshToken : String) (requests : List Request) : Prop :=
  Belongs owner t refreshToken ∧
    ∀ r ∈ requests, ∀ token, bearerOf r = some token → owner token = owner t

theorem Separate.loggedIn (h : Separate owner v) (hin : v.history.loggedOut = false) {t rt}
    (hsame : SameAccount owner t rt v.requests) :
    Separate owner { v with
      auth := t, refresh := rt, history := { v.history with login := some t } } := by
  refine ⟨fun hout => absurd (hin.symm.trans hout) Bool.false_ne_true, h.started, h.device,
    h.tvRequests, fun t' ht' => ?_, h.tvLogins, h.stored⟩
  obtain rfl := Option.some.inj ht'
  exact ⟨.inr rfl, hsame.1, hsame.2⟩

theorem Separate.sent (h : Separate owner v) (hin : v.history.loggedOut = false) {r}
    (htv : ∀ id, tvOf r = some id → v.history.tvCancelled ≤ id) (hbearer : ∀ t, v.history.login =
      some t → ∀ token, bearerOf r = some token → owner token = owner t) :
    Separate owner { v with requests := v.requests ++ [r] } := by
  refine ⟨fun hout => absurd (hin.symm.trans hout) Bool.false_ne_true, h.started, h.device,
    fun r' hr' => ?_, fun t ht => ?_, h.tvLogins, h.stored⟩
  · rcases mem_append.mp hr' with hr' | hr'
    · exact h.tvRequests r' hr'
    · exact mem_singleton.mp hr' ▸ htv
  · obtain ⟨hauth, hrefresh, hrequests⟩ := h.account t ht
    refine ⟨hauth, hrefresh, fun r' hr' => ?_⟩
    rcases mem_append.mp hr' with hr' | hr'
    · exact hrequests r' hr'
    · exact mem_singleton.mp hr' ▸ hbearer t ht

end Rules

section Operations

variable {env : Env} {s : Controller}

theorem view_setUserEmail (env : Env) (email : String) (s : Controller) :
    view (s.setUserEmail env email) = view s := by
  unfold Controller.setUserEmail
  dsimp only
  split <;> rfl

theorem view_logout (env : Env) (s : Controller) : view (s.logout env) =
    { view s with
      auth := "", refresh := "", device := ""
      history := { s.history with loggedOut := true } } := by
  have hemail := view_setUserEmail env ""
    { s with
      pendingRefreshCallbacks := [], isRefreshing := false, tvLoginDeviceCode := ""
      tvLoginStatus := .none, authToken := "", refreshToken := "" }
  exact congrArg (fun v : View => { v with history := { v.history with loggedOut := true } }) hemail

theorem separate_logout (h : Separate owner (view s)) (hquiet : Quiet s.requests) :
    Separate owner (view (s.logout env)) := by
  rw [view_logout]
  exact h.ended hquiet

theorem separate_refresh (h : Separate owner (view s)) {callback}
    (hquiet : s.isRefreshing = false ∧ s.refreshToken = "" → Quiet s.requests) :
    Separate owner (view (s.refreshAccessToken env callback)) := by
  unfold Controller.refreshAccessToken
  dsimp only
  split
  · exact h
  · rename_i hidle
    split
    · rename_i hempty
      exact separate_logout h
        (hquiet ⟨Bool.not_eq_true _ ▸ hidle, hempty⟩)
    · rename_i htoken
      have hin : s.history.loggedOut = false := by
        cases hout : s.history.loggedOut with
        | false => rfl
        | true => exact absurd (h.loggedOut hout).2.1 htoken
      refine Separate.sent h hin nofun fun t ht token hbearer => ?_
      obtain rfl := Option.some.inj hbearer
      rcases (h.account t ht).2.1 with hempty | howner
      · exact absurd hempty htoken
      · exact howner

theorem startSession_fetched (env : Env) (email : String) (s : Controller) :
    Fetched { view s with history := { s.history with login := some s.authToken } }
      (view (s.startSession env email)) := by
  have hemail := view_setUserEmail env email
    { s with history := { s.history with login := some s.authToken } }
  have hsync := beginSessionSync_fetched
    (Controller.saveSubscriptionInfo "" [] (Controller.setUserEmail env
      email { s with history := { s.history with login := some s.authToken } }))
  have hsave : view (Controller.saveSubscriptionInfo "" [] (Controller.setUserEmail env email
      { s with history := { s.history with login := some s.authToken } })) = _ := hemail
  rw [hsave] at hsync
  exact hsync

end Operations

def grants (reply : Reply) : Bool := reply.ok && (reply.obj "access_token").isSome

def refreshTokenAfter (s : Controller) (reply : Reply) : String :=
  if (reply.obj "refresh_token").isSome then stringOf (reply.obj "refresh_token")
  else s.refreshToken

def endsBy (s : Controller) (allowRefreshRetry : Bool) (reply : Reply) : Bool :=
  !reply.ok && Controller.retried allowRefreshRetry reply && !s.isRefreshing && s.refreshToken = ""

section Condition

variable (owner)

/-- A login finds open only requests of its own account, and leaves a refresh token of its own. A
refresh gives tokens of the account of its refresh token. Where a session ends, nothing is open
that could log in. -/
def ReplyGuard (s : Controller) (others : List Request) (reply : Reply) : Request → Prop
  | .login _ | .tvPoll _ _ => grants reply = true →
    SameAccount owner (stringOf (reply.obj "access_token")) (refreshTokenAfter s reply) others
  | .refresh token =>
    if grants reply = true then
      Belongs owner token (stringOf (reply.obj "access_token")) ∧
        Belongs owner token (stringOf (reply.obj "refresh_token"))
    else Quiet others
  | .subscription _ allow | .config _ allow | .metadata _ allow =>
    endsBy s allow reply = true → Quiet others
  | .tvStart _ => True

def Guard (s : Controller) : Event → Prop
  | .logout => Quiet s.requests
  | .refreshAccessToken _ => s.isRefreshing = false ∧ s.refreshToken = "" → Quiet s.requests
  | .cancelTvLogin => ∀ r ∈ s.requests, tvOf r = none
  | .loginWithToken token => SameAccount owner token s.refreshToken s.requests
  | .reply i reply _ =>
    match s.requests[i]? with
    | some request => ReplyGuard owner s (s.requests.eraseIdx i) reply request
    | none => True
  | _ => True

instance [DecidableEq α] (t token : String) : Decidable (Belongs owner t token) :=
  inferInstanceAs (Decidable (_ ∨ _))

instance [DecidableEq α] (t refreshToken : String) (requests : List Request) :
    Decidable (SameAccount owner t refreshToken requests) :=
  have : ∀ r : Request, Decidable (∀ token, bearerOf r = some token → owner token = owner t) :=
    fun r => inferInstanceAs (Decidable (∀ token ∈ bearerOf r, owner token = owner t))
  inferInstanceAs (Decidable (_ ∧ _))

instance [DecidableEq α] (s : Controller) (others : List Request) (reply : Reply)
    (request : Request) : Decidable (ReplyGuard owner s others reply request) :=
  match request with
  | .login _ | .tvPoll _ _ => inferInstanceAs (Decidable (_ → _))
  | .refresh token =>
    if h : grants reply = true then
      decidable_of_iff (Belongs owner token (stringOf (reply.obj "access_token")) ∧
        Belongs owner token (stringOf (reply.obj "refresh_token"))) (by simp [ReplyGuard, h])
    else decidable_of_iff (Quiet others) (by simp [ReplyGuard, h])
  | .subscription _ _ | .config _ _ | .metadata _ _ => inferInstanceAs (Decidable (_ → _))
  | .tvStart _ => isTrue trivial

instance [DecidableEq α] (s : Controller) (e : Event) : Decidable (Guard owner s e) :=
  match e with
  | .logout => inferInstanceAs (Decidable (Quiet _))
  | .refreshAccessToken _ => inferInstanceAs (Decidable (_ → _))
  | .cancelTvLogin => inferInstanceAs (Decidable (∀ r ∈ s.requests, tvOf r = none))
  | .loginWithToken _ => inferInstanceAs (Decidable (SameAccount owner _ _ _))
  | .reply i reply _ =>
    have guarded : ∀ request? : Option Request, Decidable (match request? with
        | some request => ReplyGuard owner s (s.requests.eraseIdx i) reply request
        | none => True)
      | some request => inferInstanceAs (Decidable (ReplyGuard owner s _ reply request))
      | none => isTrue trivial
    guarded s.requests[i]?
  | .login _ _ | .verifyEmail _ | .startTvLogin | .pollTvLogin | .fetchSubscription _
  | .fetchConfig _ | .syncAll | .timer _ => isTrue trivial

variable (env : Env)

def Guarded (s : Controller) : List Event → Prop
  | [] => True
  | e :: es => Guard owner s e ∧ Guarded (step env s e) es

def decGuarded [DecidableEq α] (s : Controller) :
    (es : List Event) → Decidable (Guarded owner env s es)
  | [] => isTrue trivial
  | e :: es =>
    have := decGuarded (step env s e) es
    inferInstanceAs (Decidable (_ ∧ _))

instance [DecidableEq α] (s : Controller) (es : List Event) : Decidable (Guarded owner env s es) :=
  decGuarded owner env s es

end Condition

variable {reply : Reply}

section Replies

variable {env : Env} {s : Controller} {token : String} {allow : Bool}

theorem endsBy_of (hfail : ¬reply.ok) (hretried : Controller.retried allow reply)
    (hends : s.isRefreshing = false ∧ s.refreshToken = "") : endsBy s allow reply := by
  have hok : reply.ok = false := Bool.not_eq_true _ ▸ hfail
  unfold endsBy
  rw [hretried, hends.1, hends.2, hok]
  rfl

variable (h : Separate owner (view s))
include h

theorem loggedOut_false {i : ℕ} {r} (hr : s.requests[i]? = some r)
    (hlogin : loginLike r) : s.history.loggedOut = false := by
  cases hout : s.history.loggedOut with
  | false => rfl
  | true =>
    have hquiet := (h.loggedOut hout).2.2.2 r (mem_of_getElem? hr)
    exact absurd (hlogin.symm.trans hquiet) Bool.noConfusion

theorem separate_metadata
    (hguard : endsBy s allow reply → Quiet s.requests) :
    Separate owner (view (s.metadataReply env allow reply)) := by
  unfold Controller.metadataReply
  split
  · exact h
  · rename_i hfail
    split
    · rename_i hretried
      exact separate_refresh h fun hends => hguard (endsBy_of hfail hretried hends)
    · exact h

theorem separate_subscription
    (hguard : endsBy s allow reply → Quiet s.requests) :
    Separate owner (view (s.subscriptionReply env allow reply)) := by
  unfold Controller.subscriptionReply
  dsimp only
  split
  · -- whatever becomes of the list, tokens and requests change by a fetch at most
    suffices hfetched : ∀ u : Controller, view u = view s → Fetched (view s)
        (view (if u.fetchConfigAfterSubscription then
          (if Controller.isSubscribed reply then
            Controller.fetchConfig true { u with fetchConfigAfterSubscription := false }
          else Controller.clearExistingFBLinkServers
            { u with fetchConfigAfterSubscription := false })
        else { u with fetchConfigAfterSubscription := false })) by
      refine h.fetched (hfetched _ ?_)
      show view (if _ then _ else _) = view s
      split
      · exact view_setUserEmail env _ _
      · rfl
    intro u hu
    rw [← hu]
    split
    · split
      · exact fetchConfig_fetched true { u with fetchConfigAfterSubscription := false }
      · exact .refl _
    · exact .refl _
  · rename_i hfail
    split
    · rename_i hretried
      refine separate_refresh ?_ fun hends => hguard (endsBy_of hfail hretried hends)
      exact h
    · exact h

theorem separate_config
    (htoken : ∀ t, s.history.login = some t → owner token = owner t)
    (hguard : endsBy s allow reply → Quiet s.requests) :
    Separate owner (view (s.configReply env token allow reply)) := by
  have hstored : Separate owner { view s with
      history := { s.history with stored := s.history.stored ++ [(token, s.history.login)] } } := by
    refine ⟨h.loggedOut, h.started, h.device, h.tvRequests, h.account, h.tvLogins,
      fun p hp t ht => ?_⟩
    rcases mem_append.mp hp with hp | hp
    · exact h.stored p hp t ht
    · rw [mem_singleton.mp hp] at ht ⊢
      exact htoken t ht
  unfold Controller.configReply
  dsimp only
  split
  · split
    · exact hstored.fetched (fetchServerMetadata_fetched true
        (Controller.storeConfigs env token reply.obj
          { s with isFetchingConfig := false, pendingConfigFetch := false,
                   pendingConfigAllowRefreshRetry := true }))
    · exact h
  · rename_i hfail
    split
    · rename_i hretried
      refine separate_refresh ?_ fun hends => hguard (endsBy_of hfail hretried hends)
      exact h
    · split
      · exact h
      · exact h.fetched (fetchServerMetadata_fetched true
          { s with isFetchingConfig := false, pendingConfigFetch := false,
                   pendingConfigAllowRefreshRetry := true })

variable (hin : s.history.loggedOut = false)
include hin

theorem separate_login {email} (hguard : grants reply → SameAccount owner
      (stringOf (reply.obj "access_token")) (refreshTokenAfter s reply) s.requests) :
    Separate owner (view (s.loginReply env email reply)) := by
  unfold Controller.loginReply
  split
  · rename_i hgrants
    have hsession := h.loggedIn hin (hguard hgrants)
    exact hsession.fetched (startSession_fetched env email (s.saveTokens reply.obj))
  · exact h

theorem separate_tvPoll {id} (hid : s.history.tvCancelled ≤ id) {pending}
    (hguard : grants reply → SameAccount owner (stringOf (reply.obj "access_token"))
      (refreshTokenAfter s reply) s.requests) :
    Separate owner (view (s.tvPollReply env id pending reply)) := by
  unfold Controller.tvPollReply
  split
  · rename_i hgrants
    have hsession := (h.loggedIn hin (hguard hgrants)).deviceCleared
    have hrecorded : Separate owner { view s with
        auth := stringOf (reply.obj "access_token"), refresh := refreshTokenAfter s reply
        device := ""
        history := { s.history with
          login := some (stringOf (reply.obj "access_token"))
          tvLogins := s.history.tvLogins ++ [(id, s.history.tvCancelled)] } } := by
      refine ⟨hsession.loggedOut, hsession.started, hsession.device, hsession.tvRequests,
        hsession.account, fun p hp => ?_, hsession.stored⟩
      rcases mem_append.mp hp with hp | hp
      · exact hsession.tvLogins p hp
      · rw [mem_singleton.mp hp]
        exact hid
    exact hrecorded.fetched (startSession_fetched env "" _)
  · split <;> exact h

theorem separate_refreshReply
    (htoken : ∀ t, s.history.login = some t → owner token = owner t) (hguard : if grants reply =
      true then Belongs owner token (stringOf (reply.obj "access_token")) ∧ Belongs owner token
      (stringOf (reply.obj "refresh_token")) else Quiet s.requests) :
    Separate owner (view (s.refreshReply env reply)) := by
  unfold Controller.refreshReply
  split
  · rename_i hgrants
    rw [if_pos (show grants reply from hgrants)] at hguard
    refine Separate.fetched ?_ (callbacks_fetched _ _)
    -- the tokens are those of the account the refresh token was of
    refine ⟨fun hout => absurd (hin.symm.trans hout) Bool.false_ne_true, h.started, h.device,
      h.tvRequests, fun t ht => ?_, h.tvLogins, h.stored⟩
    have hown := htoken t ht
    refine ⟨?_, ?_, (h.account t ht).2.2⟩
    · exact hguard.1.imp id fun heq => heq.trans hown
    show Belongs owner t (refreshTokenAfter s reply)
    unfold refreshTokenAfter
    split
    · exact hguard.2.imp id fun heq => heq.trans hown
    · exact (h.account t ht).2.1
  · rename_i hgrants
    rw [if_neg (show ¬grants reply from hgrants)] at hguard
    exact separate_logout h hguard

theorem separate_tvStart {id} (hid : s.history.tvCancelled ≤ id) :
    Separate owner (view (s.tvStartReply id reply)) := by
  unfold Controller.tvStartReply
  split
  · exact ⟨fun hout => absurd (hin.symm.trans hout) Bool.false_ne_true, h.started, fun _ => hid,
      h.tvRequests, h.account, h.tvLogins, h.stored⟩
  · exact h

end Replies

section Runs

variable {env : Env} {s : Controller}

theorem separate_reply (h : Separate owner (view s)) {i request}
    (hr : s.requests[i]? = some request) {pending}
    (hguard : ReplyGuard owner s (s.requests.eraseIdx i) reply request) :
    Separate owner
      (view (handleReply env request reply pending
        { s with requests := s.requests.eraseIdx i })) := by
  have hmem := mem_of_getElem? hr
  have hanswered : Separate owner (view { s with requests := s.requests.eraseIdx i }) :=
    h.answered i
  have hin := loggedOut_false h hr
  cases request with
  | login email => exact separate_login hanswered (hin rfl) hguard
  | refresh token =>
    exact separate_refreshReply hanswered (hin rfl)
      (fun t ht => (h.account t ht).2.2 _ hmem token rfl) hguard
  | tvStart id =>
    exact separate_tvStart hanswered (hin rfl) (h.tvRequests _ hmem id rfl)
  | tvPoll id code =>
    exact separate_tvPoll hanswered (hin rfl) (h.tvRequests _ hmem id rfl) hguard
  | subscription token allow => exact separate_subscription hanswered hguard
  | config token allow =>
    exact separate_config hanswered (fun t ht => (h.account t ht).2.2 _ hmem token rfl) hguard
  | metadata token allow => exact separate_metadata hanswered hguard

theorem separate_step (h : Separate owner (view s)) {e} (hguard : Guard owner s e) :
    Separate owner (view (step env s e)) := by
  cases e with
  | login email password =>
    show Separate owner (view (Controller.login email password s))
    unfold Controller.login
    split
    · exact h
    · exact Separate.sent h.begun rfl nofun nofun
  | verifyEmail email => exact Separate.sent h.begun rfl nofun nofun
  | loginWithToken token =>
    exact (h.begun.loggedIn rfl hguard).fetched
      (startSession_fetched env "" { s.beginLogin with authToken := token })
  | startTvLogin =>
    have hbegun := h.begun.deviceCleared
    have hcounted : Separate owner { view s with
        device := ""
        history := { s.history with loggedOut := false, tvStarted := s.history.tvStarted + 1 } } :=
      ⟨nofun, hbegun.started.trans (Nat.le_succ _), hbegun.device, hbegun.tvRequests,
        hbegun.account, hbegun.tvLogins, hbegun.stored⟩
    refine Separate.sent hcounted rfl (fun id hid => ?_) nofun
    obtain rfl := Option.some.inj hid
    exact h.started
  | pollTvLogin =>
    show Separate owner (view (Controller.pollTvLogin s))
    unfold Controller.pollTvLogin
    split
    · exact h
    · rename_i hpoll
      have hdevice : s.tvLoginDeviceCode ≠ "" := fun hempty => hpoll (.inl hempty)
      have hin : s.history.loggedOut = false := by
        cases hout : s.history.loggedOut with
        | false => rfl
        | true => exact absurd (h.loggedOut hout).2.2.1 hdevice
      refine Separate.sent h hin (fun id hid => ?_) nofun
      obtain rfl := Option.some.inj hid
      exact h.device hdevice
  | cancelTvLogin =>
    have hcleared := h.deviceCleared
    refine ⟨hcleared.loggedOut, Nat.le_refl _, fun hne => absurd rfl hne, fun r hr id hid => ?_,
      hcleared.account, hcleared.tvLogins, hcleared.stored⟩
    rw [hguard r hr] at hid
    cases hid
  | logout => exact separate_logout h hguard
  | fetchSubscription allow => exact h.fetched (fetchSubscription_fetched allow s)
  | fetchConfig allow => exact h.fetched (fetchConfig_fetched allow s)
  | syncAll =>
    show Separate owner (view (if s.authToken = "" then s else s.beginSessionSync))
    split
    · exact h
    · exact h.fetched (beginSessionSync_fetched s)
  | refreshAccessToken callback => exact separate_refresh h hguard
  | timer i =>
    dsimp only [step]
    split
    · rename_i timer _
      exact h.fetched (fire_fetched timer { s with timers := s.timers.eraseIdx i })
    · exact h
  | reply i reply pending =>
    dsimp only [step, Guard] at hguard ⊢
    cases hr : s.requests[i]? with
    | none => exact h
    | some request =>
      rw [hr] at hguard
      exact separate_reply h hr hguard

theorem separate_run (es : List Event) (h : Separate owner (view s))
    (hguarded : Guarded owner env s es) : Separate owner (view (es.foldl (step env) s)) := by
  induction es generalizing s with
  | nil => exact h
  | cons e es ih => exact ih (separate_step h hguarded.1) hguarded.2

variable (owner) in
theorem separate_fresh (h : Fresh s) : Separate owner (view s) := by
  have hhistory : (view s).history = ⟨false, 0, 0, none, [], []⟩ := h.history
  refine ⟨?_, ?_, fun hne => absurd h.deviceCode hne, ?_, ?_, ?_, ?_⟩
  · rw [hhistory]
    exact nofun
  · rw [hhistory]
  · intro r hr
    rw [show (view s).requests = [] from h.requests] at hr
    cases hr
  · rw [hhistory]
    exact nofun
  · rw [hhistory]
    exact nofun
  · rw [hhistory]
    exact nofun

/-- In every run whose steps meet the condition: after a logout, until a login starts, there are no
tokens; no TV login from before a cancellation logs in; and the configs that are stored after a
login were requested with a token of its account. -/
theorem late_replies_stay_in_session {es : List Event} (hfresh : Fresh s)
    (hguarded : Guarded owner env s es) :
    ((es.foldl (step env) s).history.loggedOut = true →
      (es.foldl (step env) s).authToken = "" ∧ (es.foldl (step env) s).refreshToken = "") ∧
    (∀ p ∈ (es.foldl (step env) s).history.tvLogins, p.2 ≤ p.1) ∧
    (∀ p ∈ (es.foldl (step env) s).history.stored, ∀ t, p.2 = some t → owner p.1 = owner t) := by
  have h := separate_run es (separate_fresh owner hfresh) hguarded
  refine ⟨fun hout => ?_, h.tvLogins, h.stored⟩
  obtain ⟨hauth, hrefresh, -⟩ := h.loggedOut hout
  exact ⟨hauth, hrefresh⟩

end Runs

/-! The tokens of the accounts are their names. -/

def idle (authToken refreshToken : String) : Controller where
  authToken := authToken
  refreshToken := refreshToken
  userEmail := ""
  client := ⟨[], -1, -1, "", none⟩
  allowedProtocols := []
  subscriptionPlan := ""
  tvLoginDeviceCode := ""
  tvLoginStatus := .none
  tvLoginId := 0
  isRefreshing := false
  pendingRefreshCallbacks := []
  isFetchingConfig := false
  pendingConfigFetch := false
  pendingConfigAllowRefreshRetry := true
  isFetchingSubscription := false
  pendingSubscriptionFetch := false
  pendingSubscriptionAllowRefreshRetry := true
  fetchConfigAfterSubscription := false
  requests := []
  timers := []
  history := ⟨false, 0, 0, none, [], []⟩

def answer (fields : List (String × Json)) : Event :=
  .reply 0 ⟨true, false, objectOf (.obj fields), true⟩ false

def tokensOf (account : String) : Event :=
  answer [("access_token", .str account), ("refresh_token", .str account)]

def subscribed : Event := answer [("status", .str "active"), ("plan", .str "basic")]

def configs : Event := answer [("configs", .arr [.str "nl"])]

def session (account : String) : List Event :=
  [.login account "secret", tokensOf account, subscribed, configs, answer []]

theorem sessions_one_after_the_other :
    ((session "a" ++ .logout :: session "b").foldl (step SyncOutcome.plainEnv)
      (idle "" "")).history.stored = [("a", some "a"), ("b", some "b")] ∧
    ∀ p ∈ ((session "a" ++ .logout :: session "b").foldl (step SyncOutcome.plainEnv)
      (idle "" "")).history.stored, ∀ t, p.2 = some t → p.1 = t := by
  have hguarded : Guarded id SyncOutcome.plainEnv (idle "" "")
      (session "a" ++ .logout :: session "b") := by decide +kernel
  exact ⟨by decide +kernel, (late_replies_stay_in_session ⟨rfl, rfl, rfl⟩ hguarded).2.2⟩

/-- A refresh that is answered after a logout logs in again; a poll that is answered after the TV
login was cancelled logs in; and the configs of the first account are stored after the second one
has logged in. -/
theorem late_replies_cross_sessions :
    (([.refreshAccessToken .other, .logout, tokensOf "a"].foldl (step SyncOutcome.plainEnv)
      (idle "a" "a")).history.loggedOut = true ∧
    ([.refreshAccessToken .other, .logout, tokensOf "a"].foldl (step SyncOutcome.plainEnv)
      (idle "a" "a")).authToken = "a") ∧
    ([.startTvLogin, answer [("device_code", .str "code")], .pollTvLogin, .cancelTvLogin,
      tokensOf "a"].foldl (step SyncOutcome.plainEnv) (idle "" "")).history.tvLogins = [(0, 1)] ∧
    ([.fetchConfig true, .logout, .login "b" "secret",
      .reply 1 ⟨true, false, objectOf (.obj [("access_token", .str "b")]), true⟩ false,
      configs].foldl (step SyncOutcome.plainEnv) (idle "a" "a")).history.stored =
        [("a", some "b")] := by
  decide +kernel

end SessionReplies
