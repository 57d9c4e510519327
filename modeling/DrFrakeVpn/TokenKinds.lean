import DrFrakeVpn.AccountWorld

/-! # Access tokens and refresh tokens

The middleware of the API routes takes the first kind and `Refresh` the second; both check the
signature and the time, and nothing else. -/
namespace TokenKinds

open SharedPrograms FaultyTransactions AccountWorld Prog

variable (cfg : AccountSetup)

/-- The `Authorization` header, cut at its first blank. -/
inductive AuthHeader where
  | missing
  | word (text : String)
  | parts (scheme : String) (token : Token)
  deriving DecidableEq, Repr

def bearer (token : Token) : AuthHeader := .parts "Bearer" token

/-- The claims are what the handlers behind the middleware get. -/
def authRequired (header : AuthHeader) : AccountHandler (Except AuthReply Claims) :=
  match header with
  | .missing => pure (.error (.error 401 "authorization header required"))
  | .word _ => pure (.error (.error 401 "invalid authorization format"))
  | .parts scheme token =>
    if scheme ≠ "Bearer" then pure (.error (.error 401 "invalid authorization format"))
    else do
      let now ← clock .clock
      match parseWithClaims cfg.jwtSecret now token with
      | none => pure (.error (.error 401 "invalid or expired token"))
      | some claims => pure (.ok claims)

/-- A body that cannot be bound is the message of its error. -/
def refresh (body : Except String Token) : AccountHandler AuthReply :=
  match body with
  | .error message => pure (.error 400 message)
  | .ok token => do
    let now ← clock .clock
    match parseWithClaims cfg.jwtSecret now token with
    | none => pure (.error 401 "invalid refresh token")
    | some claims =>
      match ← exec cfg (.refreshUser claims.userID) (firstRow fun a => a.byID claims.userID) with
      | .error e => pure (lookupError (.error 401 "user not found") "failed to load user" e)
      | .ok user =>
        let pair ← generateTokens cfg (.refreshToken user.id) user
        pure (.tokens 200 pair)

/-- Time passes, and whatever else happens in between. -/
def Passing (a a' : Accounts) : Prop := a.world.now ≤ a'.world.now

theorem Passing.refl (a : Accounts) : Passing a a := le_refl a.world.now

/-- Neither token of the pair does the work of the other from here on. -/
structure Separate (pair : TokenPair) (a : Accounts) : Prop where
  refreshRefused : ∀ claims a',
    ¬ (authRequired cfg (bearer pair.refreshToken)).Yields Passing a (.ok claims) a'
  accessRefused : ∀ status pair' a',
    ¬ (refresh cfg (.ok pair.accessToken)).Yields Passing a (.tokens status pair') a'

variable {cfg} {site : TokenStep → AccountStmt} {user : Account} {pair : TokenPair}
  {a a' b : Accounts}

theorem generateTokens_yields (h : (generateTokens cfg site user).Yields Passing a pair a') :
    ∃ accessTime refreshTime, a.world.now ≤ accessTime ∧ accessTime ≤ refreshTime ∧
      refreshTime = a'.world.now ∧
      pair = ⟨.signed cfg.jwtSecret ⟨user.id, user.role, numericDate (accessTime + GoTime.hour)⟩,
        .signed cfg.jwtSecret
          ⟨user.id, user.role, numericDate (refreshTime + 30 * 24 * GoTime.hour)⟩⟩ := by
  obtain ⟨a₁, h₁, h⟩ := yields_act.mp h
  obtain ⟨a₂, h₂, h⟩ := yields_act.mp h
  obtain ⟨hpair, ha'⟩ := Prog.yields_done.mp h
  exact ⟨a₁.world.now, a₂.world.now, h₁, h₂, by rw [ha'], hpair⟩

theorem numericDate_mono (h : t ≤ u) : numericDate t ≤ numericDate u := by
  unfold numericDate
  omega

variable {claims : Claims}

theorem parse_signed (h : now < claims.expiresAt) :
    parseWithClaims cfg.jwtSecret now (.signed cfg.jwtSecret claims) = some claims :=
  if_pos ⟨rfl, h⟩

variable {secret : String}

theorem parse_late (h : claims.expiresAt ≤ now) :
    parseWithClaims cfg.jwtSecret now (.signed secret claims) = none :=
  if_neg fun ⟨_, hnow⟩ => absurd hnow (not_lt.mpr h)

theorem authRequired_accepts (h : a.world.now < claims.expiresAt) :
    (authRequired cfg (bearer (.signed cfg.jwtSecret claims))).Yields Passing a (.ok claims) a := by
  refine yields_act.mpr ⟨a, .refl a, ?_⟩
  rw [Prog.done_bind, parse_signed h]
  exact .done _ _

theorem authRequired_late (h : claims.expiresAt ≤ a.world.now) :
    ¬ (authRequired cfg (bearer (.signed secret claims))).Yields Passing a (.ok claims') a' := by
  intro hy
  obtain ⟨a₁, h₁, hy⟩ := yields_act.mp hy
  rw [done_bind, parse_late (h.trans h₁)] at hy
  cases (Prog.yields_done.mp hy).1

theorem refresh_late (h : claims.expiresAt ≤ a.world.now) :
    ¬ (refresh cfg (.ok (.signed secret claims))).Yields Passing a (.tokens status pair) a' := by
  intro hy
  obtain ⟨a₁, h₁, hy⟩ := yields_act.mp hy
  rw [done_bind, parse_late (h.trans h₁)] at hy
  cases (Prog.yields_done.mp hy).1

/-- `a'` is the state in which the pair was made. The kinds of its tokens are told apart only
when both have run out. -/
theorem kinds_separate_iff (h : (generateTokens cfg site user).Yields Passing a pair a')
    (b : Accounts) : Separate cfg pair b ↔
      numericDate (a'.world.now + 30 * 24 * GoTime.hour) ≤ b.world.now := by
  obtain ⟨accessTime, refreshTime, _, hle, rfl, rfl⟩ := generateTokens_yields h
  constructor
  · intro hsep
    by_contra hearly
    exact hsep.refreshRefused _ _ (authRequired_accepts (not_le.mp hearly))
  · intro hlate
    have haccess : numericDate (accessTime + GoTime.hour) ≤
        numericDate (a'.world.now + 30 * 24 * GoTime.hour) := by
      apply numericDate_mono
      unfold GoTime.hour
      omega
    exact ⟨fun _ _ => authRequired_late hlate, fun _ _ _ => refresh_late (haccess.trans hlate)⟩

def oneUser : Accounts := Accounts.start ⟨[⟨7, "seven@example.org"⟩], 8, by decide⟩ 0

def userSeven : Account := ⟨7, "seven@example.org", "", .user⟩

def freshPair : TokenPair := ((generateTokens .standard (.refreshToken 7) userSeven).run oneUser).1

theorem freshPair_yields :
    (generateTokens .standard (.refreshToken 7) userSeven).Yields Passing oneUser
      freshPair oneUser :=
  Prog.yields_run Passing.refl _ _

/-- After 30 days both tokens are refused. -/
theorem old_pair_separate :
    Separate .standard freshPair
      { oneUser with world := { oneUser.world with now := 30 * 24 * GoTime.hour } } :=
  (kinds_separate_iff freshPair_yields _).mpr (by decide)

/-- The refresh token opens the API routes, and the access token mints a new pair. -/
theorem fresh_tokens_interchanged :
    (authRequired .standard (bearer freshPair.refreshToken)).run oneUser =
        (.ok ⟨7, .user, 30 * 24 * GoTime.hour⟩, oneUser) ∧
      (refresh .standard (.ok freshPair.accessToken)).run oneUser =
        (.tokens 200 freshPair, oneUser) :=
  ⟨rfl, rfl⟩

end TokenKinds
