import DrFrakeVpn.UnpaidCredentials

/-! # How long a Happ link works

`GetConfig` of a plan without VIP takes all credentials back as remains of an earlier plan, and
the next pass of the generator reopens them. -/
namespace HappLifetime

open SharedPrograms GoValues List Prog
open BackendModels BackendWorld AccessCredentials ConfigDelivery HappDelivery
open RemoteRemoval AccessRevocation CredentialEffects DeliveryEffects
open DeliveryEntitlement
open RenewalScheduler (activeCredentialsOf)

variable {cfg : Setup} (sv : Services)

def Closed (userID : ℕ) (w : World) : Prop :=
  ∀ c ∈ w.db.vlessCredentials.rows, c.userID = userID → c.revokedAt ≠ none

variable {w : World} {userID : ℕ}

theorem Closed.hands (h : Closed userID v) (hands : Hands (fun _ _ => False) v w) :
    Closed userID w := by
  intro c hc hu hopen
  rcases hands.opened c hc hopen with hold | hnever
  · exact h c hold hu hopen
  · exact hnever

theorem closed_credentialsRevoked (userID : ℕ) (now : ℤ) (w : World) :
    Closed userID { w with db := credentialsRevoked (isOpenCredentialOf userID) now w.db } := by
  intro c hc hu hopen
  obtain ⟨b, hb, rfl⟩ := w.db.vlessCredentials.mem_update.mp hc
  split at hopen
  · cases hopen
  · next hq =>
    rw [if_neg hq] at hu
    exact hq (by simp [isOpenCredentialOf, hu, hopen])

theorem dropLegacyCredentials_closes (hcfg : cfg.Reliable) (userID : ℕ) :
    (dropLegacyCredentials cfg userID).Triple (fun _ => True) fun _ => Closed userID := by
  refine .bind (triple_read _) ?_
  rintro (e | _ | ⟨x, creds⟩)
  · intro v hv
    have hfault := hv.2.2 e rfl
    rw [hcfg] at hfault
    cases hfault
  · -- nothing was open
    refine .done fun v hv c hc hu hopen => ?_
    have hmem : (c, serverOf v.db c.serverID, templateOf v.db c.serverID) ∈
        activeCredentialsOf userID v.db := mem_activeCredentialsOf.mpr ⟨hc, hu, hopen, rfl⟩
    rw [← hv.2.1 [] rfl] at hmem
    cases hmem
  refine .bind (Q := fun _ _ => True) (.atom fun _ _ => trivial) fun now => ?_
  refine .bind (Q := fun _ _ => True) (fun _ _ => trivial) fun _ => ?_
  refine .bind
    (triple_exec1 (fun hfault => ?_) fun v _ => closed_credentialsRevoked userID now v)
    fun _ => .done fun _ h => h
  rw [hcfg] at hfault
  cases hfault

theorem awgConfigs_closes (hcfg : cfg.Reliable) (userID : ℕ) (sub : Subscription)
    (servers : List (VPNServer × Option VLESSServerTemplate)) :
    (awgConfigs cfg sv userID sub servers).Triple (fun _ => True) fun _ => Closed userID := by
  refine .bind (dropLegacyCredentials_closes hcfg userID) fun _ => ?_
  refine .bind (triple_read _) fun r => ?_
  intro v hv
  have hrest : ∀ existing : List (VPNKey × Option VPNServer),
      (∀ x ∈ existing, x.2 = serverOf v.db x.1.serverID) → (do
        let keys ← collect (keptKey cfg sub) existing
        Prog.collect (awgEntry cfg sv userID keys) servers).Keeps
          (Hands (fun _ _ => False) v) fun _ => True := by
    intro existing hexisting
    refine .bind (.collect fun x hx => keptKey_hands cfg sub (hexisting x hx)) fun keys _ => ?_
    refine .any (.collect (Q := fun _ => True) fun x _ => ?_)
    unfold awgEntry
    split
    · exact .done fun _ _ => trivial
    · exact (newKey_hands cfg sv x.1).post fun _ _ h => ⟨h.1, fun _ _ => trivial⟩
  rcases r with e | keys
  · exact hv.1.hands (hrest [] (forall_mem_nil _) v (.refl v)).1
  · refine hv.1.hands (hrest keys (fun x hx => ?_) v (.refl v)).1
    rw [hv.2.1 keys rfl] at hx
    exact (mem_activeKeysOf.mp hx).2.2.2

variable {sub : Subscription}

theorem getConfig_closes (hcfg : cfg.Reliable) {w'} (hsub : Granted w userID sub)
    (hplan : PlanType.isVIP sub.plan = false) (hservers : serversFor sub w.db ≠ [])
    (h : Completes cfg sv (getConfig cfg sv userID) w w') : Closed userID w' := by
  have hdb : DatabaseWorks cfg := fun l hl => by
    rw [hcfg] at hl
    cases hl
  have hgranted : Granted { w with jobs := [] } userID sub :=
    ⟨hsub.stored, hsub.user, hsub.active, hsub.unexpired, hsub.paid⟩
  have hjobs : ∀ j ∈ ((getConfig cfg sv userID).run { w with jobs := [] }).2.jobs,
      isRemoval j := by
    intro j hj
    rcases (getConfig_hands cfg sv userID { w with jobs := [] }).1.jobs j hj with hold | hremoval
    · cases hold
    · exact hremoval
  have hclosed : Closed userID ((getConfig cfg sv userID).run { w with jobs := [] }).2 := by
    cases getConfig_fetched cfg sv userID { w with jobs := [] } with
    | refused _ _ hwhy => exact absurd (hwhy hdb sub hgranted) hservers
    | @served sub' v _ hsub' _ hrun _ =>
      obtain rfl : sub' = sub := hsub'.unique hgranted
      rw [hrun, configsFor, if_neg (by simp [hplan])]
      simp only [bind_eq, run_bind, pure_eq, Prog.run_done]
      exact awgConfigs_closes sv hcfg userID sub' _ v trivial
  have hsame := (settles_removes cfg sv hjobs h).db
  intro c hc
  rw [hsame] at hc
  exact hclosed c hc

inductive Event where
  | getConfig
  | generateMissingConfigs
  | wait (d : ℕ)
  deriving DecidableEq, Repr

variable (cfg) in
def Happens (userID : ℕ) : Event → World → World → Prop
  | .getConfig, w, w' => Completes cfg sv (ConfigDelivery.getConfig cfg sv userID) w w'
  | .generateMissingConfigs, w, w' =>
    Completes cfg sv (HappDelivery.generateMissingConfigs cfg sv) w w'
  | .wait d, w, w' => w' = { w with now := w.now + d }

variable (cfg) in
inductive History (userID : ℕ) : World → List (Event × World) → Prop where
  | nil (w : World) : History userID w []
  | cons {w v : World} {e : Event} {rest : List (Event × World)} (h : Happens cfg sv userID e w v)
      (hrest : History userID v rest) : History userID w ((e, v) :: rest)

structure Stays (w : World) (c : VLESSCredential) (w' : World) : Prop where
  stored : c ∈ w'.db.vlessCredentials.rows
  client : HasClient w c.serverID c.clientID → HasClient w' c.serverID c.clientID

structure Carries (w : World) (userID : ℕ) (e : ConfigEntry) (c : VLESSCredential) : Prop where
  stored : c ∈ w.db.vlessCredentials.rows
  opened : c.revokedAt = none
  user : c.userID = userID
  server : c.serverID = e.serverID
  client : e.identity = .vless (trimSpace c.clientID)

structure Lives (w₀ : World) (userID : ℕ) (sub : Subscription) (c : VLESSCredential) (w : World) :
    Prop where
  stays : Stays w₀ c w
  stored : sub ∈ w.db.subscriptions.rows
  servers : w.db.servers = w₀.db.servers

theorem serversFor_ne_nil (h : Serves db (PlanType.isVIP sub.plan) i) :
    serversFor sub db ≠ [] := by
  obtain ⟨s, hs, -, hactive, hvip⟩ := h
  have hmem : (s, db.templates.first? fun t => t.serverID = s.id) ∈ serversFor sub db :=
    mem_activeServers.mpr ⟨hs, hactive, hvip, rfl⟩
  exact ne_nil_of_mem hmem

variable {c : VLESSCredential}

theorem Lives.generate (hcfg : cfg.Reliable) {w₀ w'} (hopen : c.revokedAt = none)
    (hw : Lives w₀ userID sub c w) (h : Completes cfg sv (generateMissingConfigs cfg sv) w w') :
    Lives w₀ userID sub c w' := by
  have hp := generateMissingConfigs_prepares cfg sv { w with jobs := [] }
  obtain ⟨jobs, hperm, rfl⟩ := h
  rw [show ((generateMissingConfigs cfg sv).run { w with jobs := [] }).2.jobs = [] from hp.jobs,
    perm_nil] at hperm
  subst hperm
  refine ⟨⟨hp.kept c hw.stays.stored hopen, fun hc => ?_⟩, ?_, ?_⟩
  · exact hp.clients hcfg _ _ (hw.stays.client hc)
  · exact hp.subscriptions ▸ hw.stored
  · exact hp.servers.trans hw.servers

theorem Lives.wait (hw : Lives w₀ userID sub c w) (now : ℤ) :
    Lives w₀ userID sub c { w with now := now } :=
  ⟨⟨hw.stays.stored, hw.stays.client⟩, hw.stored, hw.servers⟩

section history

variable {w₀ : World} {userID : ℕ} {sub : Subscription} {c : VLESSCredential}

/-- A subscription of a plan that Happ links are for and AWG configs are delivered to. -/
structure Basic (userID : ℕ) (sub : Subscription) : Prop where
  user : sub.userID = userID
  active : sub.status = .active
  plan : sub.plan = .basic ∨ sub.plan = .basic3M

theorem Basic.isVIP (h : Basic userID sub) : PlanType.isVIP sub.plan = false := by
  rcases h.plan with hp | hp <;> rw [hp] <;> rfl

theorem Lives.fetch (hcfg : cfg.Reliable) (hsub : Basic userID sub)
    (hserves : Serves w₀.db false c.serverID) (hopen : c.revokedAt = none) (hc : c.userID = userID)
    {w'} (hw : Lives w₀ userID sub c w) (hnow : w.now ≤ sub.expiresAt)
    (h : Completes cfg sv (getConfig cfg sv userID) w w') : ¬ Stays w₀ c w' := by
  have hgranted : Granted w userID sub :=
    ⟨hw.stored, hsub.user, hsub.active, hnow, by rcases hsub.plan with hp | hp <;> simp [hp]⟩
  have hlist : serversFor sub w.db ≠ [] := by
    refine serversFor_ne_nil (i := c.serverID) ?_
    rwa [hsub.isVIP, Serves, hw.servers]
  intro hstays
  exact getConfig_closes sv hcfg hgranted hsub.isVIP hlist h c hstays.stored hc hopen

/-- From a state with the credential: it is there after every event exactly if none of them is
a fetch. -/
theorem Lives.history (hcfg : cfg.Reliable) (hsub : Basic userID sub)
    (hserves : Serves w₀.db false c.serverID) (hopen : c.revokedAt = none) (hc : c.userID = userID)
    (hw : Lives w₀ userID sub c w) (hnow : w.now ≤ sub.expiresAt) {history}
    (hrun : History cfg sv userID w history) (hactive : ∀ x ∈ history, x.2.now ≤ sub.expiresAt) :
    (∀ x ∈ history, Stays w₀ c x.2) ↔ ∀ x ∈ history, x.1 ≠ .getConfig := by
  induction hrun with
  | nil => simp
  | @cons w v e rest h hrest ih =>
    have hv : v.now ≤ sub.expiresAt := hactive _ mem_cons_self
    have htail : ∀ x ∈ rest, x.2.now ≤ sub.expiresAt :=
      fun x hx => hactive x (mem_cons_of_mem _ hx)
    -- every event but a fetch leads to a state of the same kind
    have hkeeps : Lives w₀ userID sub c v → e ≠ .getConfig →
        ((∀ x ∈ (e, v) :: rest, Stays w₀ c x.2) ↔ ∀ x ∈ (e, v) :: rest, x.1 ≠ .getConfig) := by
      intro hlives hne
      simp only [forall_mem_cons, ih hlives hv htail]
      simp [hlives.stays, hne]
    cases e with
    | getConfig =>
      have hgone := hw.fetch sv hcfg hsub hserves hopen hc hnow h
      simp [hgone]
    | generateMissingConfigs => exact hkeeps (hw.generate sv hcfg hopen h) nofun
    | wait d =>
      obtain rfl : v = { w with now := w.now + d } := h
      exact hkeeps (hw.wait _) nofun

end history

variable (cfg) in
def answered (param : String) (w : World) : World := ((subscription cfg sv param).run w).2

theorem tokenUser_unique (h : TokenUser sv db param u)
    (h' : TokenUser sv db param u') : u = u' := by
  obtain ⟨t, ht, rfl⟩ := h
  obtain ⟨t', ht', rfl⟩ := h'
  rw [ht] at ht'
  cases ht'
  rfl

/-- A credential that a Happ answer delivered to a user with a basic plan stays open, and on its
server, through every sequence of fetches and passes of the generator exactly if no fetch is
among them. -/
theorem happ_credential_stays_iff (hcfg : cfg.Reliable) {w : World} {userID : ℕ} {param : String}
    {sub : Subscription} {e : ConfigEntry} {c : VLESSCredential}
    (htoken : TokenUser sv w.db param userID) (hsub : Granted w userID sub)
    (hplan : sub.plan = .basic ∨ sub.plan = .basic3M)
    (he : e ∈ ((subscription cfg sv param).run w).1.entries) (hc : Carries w userID e c)
    {history : List (Event × World)}
    (hrun : History cfg sv userID (answered cfg sv param w) history)
    (hactive : ∀ x ∈ history, x.2.now ≤ sub.expiresAt) :
    (∀ x ∈ history, Stays (answered cfg sv param w) c x.2) ↔ ∀ x ∈ history, x.1 ≠ .getConfig := by
  have hbasic : Basic userID sub := ⟨hsub.user, hsub.active, hplan⟩
  have hlinked := subscription_linked cfg sv param w w rfl
  obtain ⟨u, sub', htoken', hgranted, x, hx, -, -, hid, -⟩ := hlinked.entries e he
  obtain rfl : u = userID := tokenUser_unique sv htoken' htoken
  obtain rfl : sub' = sub := hgranted.1.unique hsub
  rw [hbasic.isVIP] at hx
  have hanswered : Answered w (answered cfg sv param w) := hlinked.answered
  generalize answered cfg sv param w = v at hanswered hrun ⊢
  have hserves : Serves v.db false c.serverID := by
    rw [Serves, hanswered.servers, hc.server, hid]
    exact serves_of_mem hx
  have hlives : Lives v u sub' c v := by
    refine ⟨⟨?_, id⟩, (hanswered.paid sub' hsub.paid).mpr hsub.stored, rfl⟩
    rw [hanswered.credentials]
    exact hc.stored
  refine hlives.history sv hcfg hbasic hserves hc.opened hc.user ?_ hrun hactive
  rw [hanswered.now]
  exact hsub.unexpired

/-- A customer with a basic plan, a credential that a pass of the generator made, and a link. -/
def linkedWorld : World :=
  let w := ((generateMissingConfigs (.standard "") .numbered).run UnpaidCredentials.customerWorld).2
  { w with db := { w.db with happTokens := ⟨[⟨1, 7, "t", "iOS Happ", none, none⟩], 2, by decide⟩ } }

def customerPlan : Subscription := ⟨1, 7, .basic, .active, 200, false, ""⟩

def linkCredential : VLESSCredential := ⟨1, 100, 7, 1, "u", none⟩

def linkEntry : ConfigEntry := ⟨"u", 1, "nl", "NL", "nl", false, 0, .vless "u"⟩

def openedWorld : World := answered (.standard "") .numbered "t" linkedWorld

def afterPass : World :=
  ((generateMissingConfigs (.standard "") .numbered).run { openedWorld with jobs := [] }).2

def fetched : World :=
  ((getConfig (.standard "") .numbered 7).run { openedWorld with jobs := [] }).2

def afterFetch : World :=
  ((Prog.each (jobProgram (.standard "") .numbered) fetched.jobs).run { fetched with jobs := [] }).2

theorem link_delivers : TokenUser .numbered linkedWorld.db "t" 7 ∧
    Granted linkedWorld 7 customerPlan ∧
    linkEntry ∈ ((subscription (.standard "") .numbered "t").run linkedWorld).1.entries ∧
    Carries linkedWorld 7 linkEntry linkCredential := by
  refine ⟨⟨⟨1, 7, "t", "iOS Happ", none, none⟩, by decide +kernel, rfl⟩,
    ⟨by decide +kernel, rfl, rfl, by decide +kernel, nofun⟩, by decide +kernel,
    ⟨by decide +kernel, rfl, rfl, rfl, by decide +kernel⟩⟩

/-- One fetch of the customer revokes the credential behind the link and shuts its client
out. -/
theorem fetch_breaks_link :
    TokenUser .numbered linkedWorld.db "t" 7 ∧ Granted linkedWorld 7 customerPlan ∧
      linkEntry ∈ ((subscription (.standard "") .numbered "t").run linkedWorld).1.entries ∧
      Carries linkedWorld 7 linkEntry linkCredential ∧
      HasClient openedWorld 1 "u" ∧
      History (.standard "") .numbered 7 openedWorld [(.getConfig, afterFetch)] ∧
      afterFetch.now ≤ customerPlan.expiresAt ∧
      { linkCredential with revokedAt := some 100 } ∈ afterFetch.db.vlessCredentials.rows ∧
      ¬ HasClient afterFetch 1 "u" ∧ ¬ Stays openedWorld linkCredential afterFetch := by
  obtain ⟨htoken, hgranted, hentry, hcarries⟩ := link_delivers
  have hgone : linkCredential ∉ afterFetch.db.vlessCredentials.rows := by decide +kernel
  exact ⟨htoken, hgranted, hentry, hcarries, by decide +kernel, .cons ⟨_, .refl _, rfl⟩ (.nil _),
    by decide +kernel, by decide +kernel, by decide +kernel, fun h => hgone h.stored⟩

/-- Passes of the generator leave the link alone. -/
theorem pass_keeps_link :
    History (.standard "") .numbered 7 openedWorld
        [(.generateMissingConfigs, { afterPass with jobs := [] })] ∧
      Stays openedWorld linkCredential { afterPass with jobs := [] } := by
  obtain ⟨htoken, hgranted, hentry, hcarries⟩ := link_delivers
  have hrun : History (.standard "") .numbered 7 openedWorld
      [(.generateMissingConfigs, { afterPass with jobs := [] })] :=
    .cons ⟨[], by decide +kernel, rfl⟩ (.nil _)
  refine ⟨hrun, ?_⟩
  have hstays := (happ_credential_stays_iff .numbered (Setup.standard_reliable "") htoken hgranted
    (.inl rfl) hentry hcarries hrun (by decide +kernel)).mpr (by simp)
  exact hstays _ mem_cons_self

end HappLifetime
