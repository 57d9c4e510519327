import DrFrakeVpn.RemoteRemoval
import DrFrakeVpn.RenewalScheduler

/-! # Taking access away

Peers and clients are removed from their servers, then the rows are marked. What came of every row
is stated once, as the outcome of the whole revocation. -/
namespace AccessRevocation

open SharedPrograms FaultyTransactions RecordTables List Prog
open BackendModels BackendWorld RenewalScheduler VpnCommands RemoteRemoval

/-- The commands that go to a VPN server. -/
def isRemote : Stmt → Bool
  | .removePeer _ _ | .removeClient _ _ | .addPeer _ _ _ | .dropPeer _ _ _ | .addClient _ _ _
  | .dropClient _ _ _ | .template _ .fetch => true
  | _ => false

/-- Only commands to the servers fail, no database statement does. -/
def DatabaseWorks (cfg : Setup) : Prop := ∀ l, cfg.faults l = true → isRemote l = true

theorem DatabaseWorks.no_fault {cfg} (h : DatabaseWorks cfg) {l} (hl : isRemote l = false) :
    cfg.faults l = false := by
  cases hf : cfg.faults l with
  | false => rfl
  | true =>
    have hr := h l hf
    rw [hl] at hr
    cases hr

variable {α : Type}

theorem DatabaseWorks.run {cfg} (h : DatabaseWorks cfg) {l} (hl : isRemote l = false)
    (f : World → Except DbError α × World) (w : World) : (exec1 cfg l f).run w = f w := by
  rw [exec1, single_run, h.no_fault hl]
  rfl

/-- What keys, credentials and tokens have in common. -/
class Access (α : Type) extends Record α where
  userID : α → ℕ
  revokedAt : α → Option ℤ
  revoke : ℤ → Table.Write α
  revokedAt_revoke : ∀ now a, revokedAt ((revoke now).apply a) = some now

instance : Access VPNKey where
  userID := VPNKey.userID
  revokedAt := VPNKey.revokedAt
  revoke := keyRevoked
  revokedAt_revoke _ _ := rfl

instance : Access VLESSCredential where
  userID := VLESSCredential.userID
  revokedAt := VLESSCredential.revokedAt
  revoke := credentialRevoked
  revokedAt_revoke _ _ := rfl

instance : Access HappSubscriptionToken where
  userID := HappSubscriptionToken.userID
  revokedAt := HappSubscriptionToken.revokedAt
  revoke := tokenRevoked
  revokedAt_revoke _ _ := rfl

theorem forall₂_source {β : Type} {R} {xs : List α} {ys : List β} (h : List.Forall₂ R xs ys) {b : β}
    (hb : b ∈ ys) : ∃ a ∈ xs, R a b := by
  induction h with
  | nil => cases hb
  | @cons x y xs ys hxy _ ih =>
    rcases mem_cons.mp hb with rfl | hb
    · exact ⟨x, mem_cons_self, hxy⟩
    · obtain ⟨a, ha, hab⟩ := ih hb
      exact ⟨a, mem_cons_of_mem x ha, hab⟩

section outcome

variable {α : Type} [Access α] {users users' : ℕ → Prop} {now : ℤ}
  {failed gone failed' gone' : α → Prop}

/-- What a revocation for some users did to a row: it was left as it was, for a failure if
the revocation was meant for it, or it was open, was meant and is now revoked. -/
inductive Outcome (users : ℕ → Prop) (now : ℤ) (failed gone : α → Prop) (a : α) : α → Prop where
  | kept (h : users (Access.userID a) → Access.revokedAt a = none → failed a) :
      Outcome users now failed gone a a
  | revoked (hopen : Access.revokedAt a = none) (hu : users (Access.userID a)) (hg : gone a) :
      Outcome users now failed gone a ((Access.revoke now).apply a)

def Outcomes (users : ℕ → Prop) (now : ℤ) (failed gone : α → Prop) (t t' : Table α) : Prop :=
  List.Forall₂ (Outcome users now failed gone) t.rows t'.rows

theorem Outcome.trans {a b c} (h : Outcome users now failed gone a b)
    (h' : Outcome users' now failed' gone' b c) {failedAll goneAll}
    (hf : ∀ a, failed a → failedAll a) (hf' : ∀ a, failed' a → failedAll a)
    (hg : ∀ a, gone a → goneAll a) (hg' : ∀ a, gone' a → goneAll a) :
    Outcome (fun u => users u ∨ users' u) now failedAll goneAll a c := by
  cases h with
  | kept h =>
    cases h' with
    | kept h' =>
      refine .kept fun hu hopen => ?_
      rcases hu with hu | hu
      · exact hf a (h hu hopen)
      · exact hf' a (h' hu hopen)
    | revoked hopen hu hgone => exact .revoked hopen (.inr hu) (hg' a hgone)
  | revoked hopen hu hgone =>
    -- a revoked row is not taken up again
    have hrev := Access.revokedAt_revoke now a
    cases h' with
    | kept => exact .revoked hopen (.inl hu) (hg a hgone)
    | revoked hopen' =>
      rw [hrev] at hopen'
      cases hopen'

variable {t t' : Table α}

theorem Outcomes.trans {t''} (h : Outcomes users now failed gone t t')
    (h' : Outcomes users' now failed' gone' t' t'') {failedAll goneAll}
    (hf : ∀ a, failed a → failedAll a) (hf' : ∀ a, failed' a → failedAll a)
    (hg : ∀ a, gone a → goneAll a) (hg' : ∀ a, gone' a → goneAll a) :
    Outcomes (fun u => users u ∨ users' u) now failedAll goneAll t t'' := by
  unfold Outcomes at h h' ⊢
  revert h h'
  generalize t.rows = xs, t'.rows = ys, t''.rows = zs
  intro h h'
  induction h generalizing zs with
  | nil =>
    cases h'
    exact .nil
  | cons hxy _ ih =>
    cases h' with
    | cons hyz hrest => exact .cons (hxy.trans hyz hf hf' hg hg') (ih _ hrest)

theorem Outcomes.imp (h : Outcomes users now failed gone t t') (hf : ∀ a, failed a → failed' a)
    (hg : ∀ a, gone a → gone' a) : Outcomes users now failed' gone' t t' := by
  refine List.Forall₂.imp ?_ h
  intro a b hab
  cases hab with
  | kept hkept => exact .kept fun hu hopen => hf a (hkept hu hopen)
  | revoked hopen hu hgone => exact .revoked hopen hu (hg a hgone)

theorem Outcomes.refl
    (h : ∀ a ∈ t.rows, users (Access.userID a) → Access.revokedAt a = none → failed a) :
    Outcomes users now failed gone t t :=
  forall₂_same.mpr fun a ha => .kept (h a ha)

theorem Outcomes.update (q : α → Bool)
    (hq : ∀ a ∈ t.rows, q a → Access.revokedAt a = none ∧ users (Access.userID a) ∧ gone a)
    (hnot : ∀ a ∈ t.rows, q a = false → users (Access.userID a) → Access.revokedAt a = none →
      failed a) : Outcomes users now failed gone t (t.update q (Access.revoke now)) := by
  unfold Outcomes
  rw [Table.update_rows, forall₂_map_right_iff, forall₂_same]
  intro a ha
  cases hqa : q a with
  | true =>
    obtain ⟨hopen, hu, hg⟩ := hq a ha hqa
    exact .revoked hopen hu hg
  | false => exact .kept (hnot a ha hqa)

theorem Outcomes.source (h : Outcomes users now failed gone t t') {b : α} (hb : b ∈ t'.rows) :
    ∃ a ∈ t.rows, Outcome users now failed gone a b :=
  forall₂_source h hb

theorem Outcomes.target (h : Outcomes users now failed gone t t') {a : α} (ha : a ∈ t.rows) :
    ∃ b ∈ t'.rows, Outcome users now failed gone a b :=
  forall₂_source h.flip ha

theorem Outcomes.of_open (h : Outcomes users now failed gone t t') {b} (hb : b ∈ t'.rows)
    (hopen : Access.revokedAt b = none) : b ∈ t.rows ∧ (users (Access.userID b) → failed b) := by
  obtain ⟨a, ha, hab⟩ := h.source hb
  cases hab with
  | kept hkept => exact ⟨ha, fun hu => hkept hu hopen⟩
  | revoked =>
    rw [Access.revokedAt_revoke] at hopen
    cases hopen

end outcome

def serverOf (db : Db) (i : ℕ) : Option VPNServer := db.servers.byId i

def templateOf (db : Db) (i : ℕ) : Option VLESSServerTemplate :=
  db.templates.first? fun t => t.serverID = i

structure Clears (w w' : World) : Prop where
  servers : w'.db.servers = w.db.servers
  templates : w'.db.templates = w.db.templates
  peers : ∀ i k, HasPeer w' i k → HasPeer w i k
  clients : ∀ i c, HasClient w' i c → HasClient w i c
  unreached : ∀ i k, ¬ Reachable (serverOf w.db i) → HasPeer w i k → HasPeer w' i k
  unconfigured : ∀ i c, ¬ Configured (serverOf w.db i) (templateOf w.db i) → HasClient w i c →
    HasClient w' i c

theorem Clears.refl (w : World) : Clears w w :=
  ⟨rfl, rfl, fun _ _ h => h, fun _ _ h => h, fun _ _ _ h => h, fun _ _ _ h => h⟩

theorem Clears.trans (h : Clears a b) (h' : Clears b c) : Clears a c where
  servers := h'.servers.trans h.servers
  templates := h'.templates.trans h.templates
  peers i k hk := h.peers i k (h'.peers i k hk)
  clients i x hx := h.clients i x (h'.clients i x hx)
  unreached i k hr hk := by
    refine h'.unreached i k ?_ (h.unreached i k hr hk)
    rwa [serverOf, h.servers]
  unconfigured i x hr hx := by
    refine h'.unconfigured i x ?_ (h.unconfigured i x hr hx)
    rwa [serverOf, templateOf, h.servers, h.templates]

variable {w w' : World}

theorem Clears.of_db (hr : w'.remote = w.remote) (hs : w'.db.servers = w.db.servers)
    (ht : w'.db.templates = w.db.templates) : Clears w w' where
  servers := hs
  templates := ht
  peers i k h := by rwa [HasPeer, hr] at h
  clients i c h := by rwa [HasClient, hr] at h
  unreached i k _ h := by rwa [HasPeer, hr]
  unconfigured i c _ h := by rwa [HasClient, hr]

variable (cfg : Setup) {i : ℕ}

theorem serverOf_id (h : serverOf db i = some s) : s.id = i :=
  (db.servers.byId_some_iff.mp h).2

theorem clears_removeAWGPeer (site : PeerStep → Stmt) (w : World) (i : ℕ) (publicKey : String) :
    Clears w ((removeAWGPeer cfg site (serverOf w.db i) publicKey).run w).2 := by
  have h := removeAWGPeer_removes cfg site publicKey w (serverOf w.db i)
  refine ⟨by rw [h.db], by rw [h.db], h.peers, h.clients, fun j k hr hk => ?_, fun j c _ hc => ?_⟩
  · refine (hasPeer_removed cfg site publicKey w _ j k).mpr ⟨hk, ?_⟩
    intro hgo
    obtain ⟨s, hs, hpw⟩ := hgo.1.1
    have hj : s.id = j := by simpa [hs] using hgo.2.1
    refine hr ⟨s, ?_, hpw⟩
    rwa [← hj, serverOf_id hs]
  · rwa [HasClient, (removeAWGPeer_frame cfg site publicKey w _).2]

theorem clears_removeXrayClient (site : XrayStep → Stmt) (w : World) (i : ℕ) (clientID : String) :
    Clears w ((removeXrayClient cfg site (serverOf w.db i) (templateOf w.db i)
      clientID).run w).2 := by
  have h := removeXrayClient_removes cfg site clientID w (serverOf w.db i) (templateOf w.db i)
  refine ⟨by rw [h.db], by rw [h.db], h.peers, h.clients, fun j k hr hk => ?_, fun j c hr hc => ?_⟩
  · rwa [HasPeer, (removeXrayClient_frame cfg site clientID w _ _).2]
  · refine (hasClient_removed cfg site clientID w _ _ j c).mpr ⟨hc, ?_⟩
    intro hgo
    obtain ⟨s, hs, hpw⟩ := hgo.1.1.1
    have hj : i = j := by
      rw [← serverOf_id hs]
      simpa [hs] using hgo.2.1
    exact hr (hj ▸ hgo.1.1)

theorem removeAWGPeer_shuts
    (h : ((removeAWGPeer cfg site (serverOf w.db i) publicKey).run w).1 = .ok ())
    (hr : Reachable
      (serverOf ((removeAWGPeer cfg site (serverOf w.db i) publicKey).run w).2.db i)) :
    ¬ HasPeer ((removeAWGPeer cfg site (serverOf w.db i) publicKey).run w).2 i publicKey := by
  rw [(removeAWGPeer_removes cfg site publicKey w _).db] at hr
  obtain ⟨s, hs, hpw⟩ := hr
  obtain rfl : s.id = i := serverOf_id hs
  rw [hs] at h ⊢
  exact removeAWGPeer_ok cfg site publicKey w ⟨s, rfl, hpw⟩ h

theorem removeXrayClient_shuts
    (h : ((removeXrayClient cfg site (serverOf w.db i) (templateOf w.db i) clientID).run w).1 =
      .ok ())
    (hconf : Configured
      (serverOf
        ((removeXrayClient cfg site (serverOf w.db i) (templateOf w.db i) clientID).run w).2.db i)
      (templateOf
        ((removeXrayClient cfg site (serverOf w.db i) (templateOf w.db i) clientID).run w).2.db
        i)) :
    ¬ HasClient ((removeXrayClient cfg site (serverOf w.db i) (templateOf w.db i) clientID).run w).2
      i clientID := by
  rw [(removeXrayClient_removes cfg site clientID w _ _).db] at hconf
  obtain ⟨s, hs, hpw⟩ := hconf.1
  obtain rfl : s.id = i := serverOf_id hs
  rw [hs] at h hconf ⊢
  exact removeXrayClient_ok cfg site clientID w hconf h

def peerRemoval (x : VPNKey × Option VPNServer) : Handler (Except RemoteError Unit) :=
  if x.1.publicKey ≠ "" then removeAWGPeer cfg (.removePeer x.1.id) x.2 x.1.publicKey
  else pure (.ok ())

def clientRemoval (x : VLESSCredential × Option VPNServer × Option VLESSServerTemplate) :
    Handler (Except RemoteError Unit) :=
  removeXrayClient cfg (.removeClient x.1.id) x.2.1 x.2.2 x.1.clientID

theorem removePeers_eq (keys : List (VPNKey × Option VPNServer)) : removePeers cfg keys =
    (succeeding (peerRemoval cfg) keys).bind fun done => .done (done.map fun x => x.1.id) := by
  induction keys with
  | nil => rfl
  | cons x keys ih =>
    simp only [removePeers, succeeding, peerRemoval, bind_eq, pure_eq, ih]
    split
    · simp only [bind_assoc, done_bind]
      refine congrArg (bind _) (funext fun r => ?_)
      cases r <;> simp [bind_assoc]
    · simp [Prog.bind_assoc]

theorem removeClients_eq
    (creds : List (VLESSCredential × Option VPNServer × Option VLESSServerTemplate)) :
    removeClients cfg creds = (succeeding (clientRemoval cfg) creds).bind fun done =>
      .done (done.map fun x => x.1.id) := by
  induction creds with
  | nil => rfl
  | cons x creds ih =>
    simp only [removeClients, succeeding, clientRemoval, bind_eq, pure_eq, ih]
    simp only [bind_assoc, done_bind]
    refine congrArg (bind _) (funext fun r => ?_)
    cases r <;> simp [Prog.bind_assoc]

/-- Some command of the run started a removal of this key that then failed. -/
def PeerRemovalFailed (tr : List (Stmt × World)) (k : VPNKey) : Prop :=
  ∃ v, (.removePeer k.id .wg, v) ∈ tr ∧ ((removeAWGPeer cfg (.removePeer k.id)
    (serverOf v.db k.serverID) k.publicKey).run v).1 ≠ .ok ()

theorem PeerRemovalFailed.mono {tr tr'} (hsub : tr ⊆ tr') {k} (h : PeerRemovalFailed cfg tr k) :
    PeerRemovalFailed cfg tr' k := by
  obtain ⟨v, hv, hfail⟩ := h
  exact ⟨v, hsub hv, hfail⟩

def ClientRemovalFailed (tr : List (Stmt × World)) (c : VLESSCredential) : Prop :=
  ∃ v, (.removeClient c.id .read, v) ∈ tr ∧ ((removeXrayClient cfg (.removeClient c.id)
    (serverOf v.db c.serverID) (templateOf v.db c.serverID) c.clientID).run v).1 ≠ .ok ()

variable {c : VLESSCredential}

theorem ClientRemovalFailed.mono (hsub : tr ⊆ tr') (h : ClientRemovalFailed cfg tr c) :
    ClientRemovalFailed cfg tr' c := by
  obtain ⟨v, hv, hfail⟩ := h
  exact ⟨v, hsub hv, hfail⟩

/-- The peer of the row is shut out, if it has one on a server that can be reached. -/
def PeerGone (w : World) (k : VPNKey) : Prop :=
  k.publicKey ≠ "" → Reachable (serverOf w.db k.serverID) → ¬ HasPeer w k.serverID k.publicKey

def ClientGone (w : World) (c : VLESSCredential) : Prop :=
  Configured (serverOf w.db c.serverID) (templateOf w.db c.serverID) →
    ¬ HasClient w c.serverID c.clientID

theorem PeerGone.later (h : Clears w w') {k} (hk : PeerGone w k) : PeerGone w' k := by
  intro hne hr hp
  rw [serverOf, h.servers] at hr
  exact hk hne hr (h.peers _ _ hp)

theorem ClientGone.later (h : Clears w w') (hc : ClientGone w c) : ClientGone w' c := by
  intro hconf hp
  rw [serverOf, templateOf, h.servers, h.templates] at hconf
  exact hc hconf (h.clients _ _ hp)

structure Strips (w w' : World) : Prop where
  frame : w' = { w with remote := w'.remote }
  clears : Clears w w'

theorem Strips.refl (w : World) : Strips w w := ⟨rfl, .refl w⟩

theorem Strips.trans {a b c} (h : Strips a b) (h' : Strips b c) : Strips a c where
  frame := by
    rw [h'.frame, h.frame]
  clears := h.clears.trans h'.clears

theorem Strips.db (h : Strips w w') : w'.db = w.db := by rw [h.frame]

/-- What a loop of removals leaves: the ids it answers are those of rows whose access is
gone, and every other row it was given had a removal that failed. -/
structure Stripped {α : Type} [Access α] (userID : ℕ) (t : Table α) (w w' : World)
    (ids : List ℕ) (failed gone : α → Prop) : Prop where
  strips : Strips w w'
  listed : ∀ a ∈ t.rows, Record.id a ∈ ids →
    Access.userID a = userID ∧ Access.revokedAt a = none ∧ gone a
  unlisted : ∀ a ∈ t.rows, Record.id a ∉ ids → Access.userID a = userID →
    Access.revokedAt a = none → failed a

variable {userID : ℕ}

theorem mem_activeOf {β : Type} [Access α] {t : Table α} {f : α → β} {x} :
    x ∈ (t.select fun a => Access.userID a = userID && Access.revokedAt a = none).map
        (fun a => (a, f a)) ↔
      x.1 ∈ t.rows ∧ Access.userID x.1 = userID ∧ Access.revokedAt x.1 = none ∧ x.2 = f x.1 := by
  obtain ⟨a, extra⟩ := x
  simp only [Table.select, mem_map, mem_filter, Bool.and_eq_true, decide_eq_true_eq,
    Prod.mk.injEq]
  constructor
  · rintro ⟨a', ⟨ha, hu, hr⟩, rfl, rfl⟩
    exact ⟨ha, hu, hr, rfl⟩
  · rintro ⟨ha, hu, hr, rfl⟩
    exact ⟨a, ⟨ha, hu, hr⟩, rfl, rfl⟩

theorem mem_activeKeysOf :
    x ∈ activeKeysOf userID db ↔ x.1 ∈ db.vpnKeys.rows ∧ x.1.userID = userID ∧
      x.1.revokedAt = none ∧ x.2 = serverOf db x.1.serverID :=
  mem_activeOf

theorem mem_activeCredentialsOf :
    x ∈ activeCredentialsOf userID db ↔ x.1 ∈ db.vlessCredentials.rows ∧ x.1.userID = userID ∧
      x.1.revokedAt = none ∧ x.2 = (serverOf db x.1.serverID, templateOf db x.1.serverID) :=
  mem_activeOf

/-- The rows come with data `extra` of the database, which no attempt changes. -/
theorem succeeding_strips {β : Type} [Access α] {t}
    {attempt : α × β → Handler (Except RemoteError Unit)} (extra : Db → α → β) {items}
    {failed : List (Stmt × World) → α → Prop} {gone : World → α → Prop}
    (hitems : ∀ x, x ∈ items ↔ x.1 ∈ t.rows ∧ Access.userID x.1 = userID ∧
      Access.revokedAt x.1 = none ∧ x.2 = extra w.db x.1)
    (hmono : ∀ tr tr' a, tr ⊆ tr' → failed tr a → failed tr' a)
    (hlater : ∀ v v' a, Clears v v' → gone v a → gone v' a)
    (hstrips : ∀ a v, Strips v ((attempt (a, extra v.db a)).run v).2)
    (hok : ∀ a v, ((attempt (a, extra v.db a)).run v).1 = .ok () →
      gone ((attempt (a, extra v.db a)).run v).2 a)
    (herror : ∀ a v, ((attempt (a, extra v.db a)).run v).1 ≠ .ok () →
      failed ((attempt (a, extra v.db a)).trace v) a) :
    Stripped userID t w ((succeeding attempt items).run w).2
      (((succeeding attempt items).run w).1.map fun x => Record.id x.1)
      (failed ((succeeding attempt items).trace w))
      (gone ((succeeding attempt items).run w).2) := by
  have hextra : ∀ {x}, x ∈ items → ∀ {v}, Strips w v → (x.1, extra v.db x.1) = x := by
    intro x hx v hv
    rw [hv.db, ← ((hitems x).mp hx).2.2.2]
  obtain ⟨hall, hgood, hbad⟩ := succeeding_run Strips.refl Strips.trans fun x hx v hv =>
    hextra hx hv ▸ hstrips x.1 v
  refine ⟨hall, fun a ha hid => ?_, fun a ha hid hu hopen => ?_⟩
  · obtain ⟨x, hx, hxid⟩ := mem_map.mp hid
    obtain ⟨hmem, v, hwv, hvw, _, hout⟩ := hgood x hx
    obtain ⟨hrows, hu, hopen, _⟩ := (hitems x).mp hmem
    obtain rfl : x.1 = a := t.id_injective hrows ha hxid
    obtain ⟨_, hans⟩ := hout.mpr trivial
    rw [← hextra hmem hwv] at hans hvw
    exact ⟨hu, hopen, hlater _ _ _ hvw.clears (hok x.1 v hans)⟩
  · have hx := (hitems (a, extra w.db a)).mpr ⟨ha, hu, hopen, rfl⟩
    obtain ⟨v, hwv, _, htr, hout⟩ := hbad _ hx fun h => hid (mem_map.mpr ⟨_, h, rfl⟩)
    rw [← hextra hx hwv] at htr hout
    exact hmono _ _ _ htr (herror a v fun h => hout.mp ⟨(), h⟩)

theorem removePeers_strips (userID : ℕ) (w : World) :
    Stripped userID w.db.vpnKeys w ((removePeers cfg (activeKeysOf userID w.db)).run w).2
      ((removePeers cfg (activeKeysOf userID w.db)).run w).1
      (PeerRemovalFailed cfg ((removePeers cfg (activeKeysOf userID w.db)).trace w))
      (PeerGone ((removePeers cfg (activeKeysOf userID w.db)).run w).2) := by
  rw [removePeers_eq]
  simp only [run_bind, run_done, trace_bind, Prog.trace, append_nil]
  refine succeeding_strips (fun db k => serverOf db k.serverID) (fun _ => mem_activeKeysOf)
    (fun _ _ _ hsub h => h.mono cfg hsub) (fun _ _ _ h hk => hk.later h) ?_ ?_ ?_
  · intro k v
    unfold peerRemoval
    split
    · exact ⟨(removeAWGPeer_removes cfg _ _ v _).frame, clears_removeAWGPeer cfg _ v _ _⟩
    · exact .refl v
  · intro k v hok hne hreach
    rw [peerRemoval, if_pos hne] at hok hreach ⊢
    exact removeAWGPeer_shuts cfg hok hreach
  · intro k v hfail
    unfold peerRemoval at hfail ⊢
    split at hfail
    · next hne =>
      rw [if_pos hne]
      exact ⟨v, removeAWGPeer_trace cfg _ _ v hfail, hfail⟩
    · exact absurd rfl hfail

theorem removeClients_strips (userID : ℕ) (w : World) :
    Stripped userID w.db.vlessCredentials w
      ((removeClients cfg (activeCredentialsOf userID w.db)).run w).2
      ((removeClients cfg (activeCredentialsOf userID w.db)).run w).1
      (ClientRemovalFailed cfg ((removeClients cfg (activeCredentialsOf userID w.db)).trace w))
      (ClientGone ((removeClients cfg (activeCredentialsOf userID w.db)).run w).2) := by
  rw [removeClients_eq]
  simp only [run_bind, run_done, trace_bind, Prog.trace, append_nil]
  refine succeeding_strips (fun db c => (serverOf db c.serverID, templateOf db c.serverID))
    (fun _ => mem_activeCredentialsOf) (fun _ _ _ hsub h => h.mono cfg hsub)
    (fun _ _ _ h hc => hc.later h) ?_ ?_ ?_
  · intro c v
    exact ⟨(removeXrayClient_removes cfg _ _ v _ _).frame, clears_removeXrayClient cfg _ v _ _⟩
  · intro c v hok hconf
    exact removeXrayClient_shuts cfg hok hconf
  · intro c v hfail
    exact ⟨v, removeXrayClient_trace cfg _ _ v hfail, hfail⟩

/-- What a revocation did by its end, for the users whose keys, credentials and tokens it
was meant for, given the commands of its run. -/
structure Withdraws (keysOf credentialsOf tokensOf : ℕ → Prop) (now : ℤ) (w w' : World)
    (tr : List (Stmt × World)) : Prop where
  frame : w' = { w with
    remote := w'.remote
    db := { w.db with
      vpnKeys := w'.db.vpnKeys
      vlessCredentials := w'.db.vlessCredentials
      happTokens := w'.db.happTokens } }
  clears : Clears w w'
  keys : Outcomes keysOf now (PeerRemovalFailed cfg tr) (PeerGone w') w.db.vpnKeys w'.db.vpnKeys
  credentials : Outcomes credentialsOf now (ClientRemovalFailed cfg tr) (ClientGone w')
    w.db.vlessCredentials w'.db.vlessCredentials
  tokens : Outcomes tokensOf now (fun _ => False) (fun _ => True) w.db.happTokens w'.db.happTokens

variable {cfg} {k₁ k₂ c₁ c₂ t₁ t₂ : ℕ → Prop} {now : ℤ}

theorem Withdraws.trans (h : Withdraws cfg k₁ c₁ t₁ now w v tr)
    (h' : Withdraws cfg k₂ c₂ t₂ now v w' tr') :
    Withdraws cfg (fun u => k₁ u ∨ k₂ u) (fun u => c₁ u ∨ c₂ u) (fun u => t₁ u ∨ t₂ u) now w w'
      (tr ++ tr') where
  frame := by
    rw [h'.frame, h.frame]
  clears := h.clears.trans h'.clears
  keys := by
    refine h.keys.trans h'.keys ?_ ?_ (fun k hk => hk.later h'.clears) fun _ hk => hk
    · exact fun k hk => hk.mono cfg (subset_append_left _ _)
    · exact fun k hk => hk.mono cfg (subset_append_right _ _)
  credentials := by
    refine h.credentials.trans h'.credentials ?_ ?_ (fun c hc => hc.later h'.clears) fun _ hc => hc
    · exact fun c hc => hc.mono cfg (subset_append_left _ _)
    · exact fun c hc => hc.mono cfg (subset_append_right _ _)
  tokens := h.tokens.trans h'.tokens (fun _ h => h) (fun _ h => h) (fun _ h => h) fun _ h => h

/-- Nothing was meant for anybody. -/
def nobody : ℕ → Prop := fun _ => False

theorem Outcomes.nobody [Access α] {failed gone : α → Prop} (t : Table α) :
    Outcomes nobody now failed gone t t :=
  .refl fun _ _ h => h.elim

theorem Withdraws.refl (w : World) (tr : List (Stmt × World)) :
    Withdraws cfg nobody nobody nobody now w w tr :=
  ⟨rfl, .refl w, .nobody _, .nobody _, .nobody _⟩

theorem revokeHappTokens_withdraws (hdb : DatabaseWorks cfg) (userID : ℕ) (now : ℤ) (w : World) :
    Withdraws cfg nobody nobody (· = userID) now w ((revokeHappTokens cfg userID now).run w).2
      ((revokeHappTokens cfg userID now).trace w) := by
  rw [revokeHappTokens, hdb.run rfl]
  refine ⟨rfl, .of_db rfl rfl rfl, .nobody _, .nobody _, ?_⟩
  refine Outcomes.update _ (fun t _ hq => ?_) fun t _ hq hu hopen => ?_
  · obtain ⟨hu, hopen⟩ := Bool.and_eq_true_iff.mp hq
    exact ⟨of_decide_eq_true hopen, of_decide_eq_true hu, trivial⟩
  · have : (decide (t.userID = userID) && decide (t.revokedAt = none)) :=
      Bool.and_eq_true_iff.mpr ⟨decide_eq_true hu, decide_eq_true hopen⟩
    rw [this] at hq
    cases hq

theorem Stripped.outcomes [Access α] {t v ids} {failed gone : α → Prop}
    (h : Stripped userID t w v ids failed gone) :
    Outcomes (· = userID) now failed gone t
      (t.update (fun a => Record.id a ∈ ids && Access.revokedAt a = none) (Access.revoke now)) := by
  refine Outcomes.update _ (fun a ha hq => ?_) fun a ha hq hu hopen => ?_
  · obtain ⟨hid, hopen⟩ := Bool.and_eq_true_iff.mp hq
    obtain ⟨hu, _, hgone⟩ := h.listed a ha (of_decide_eq_true hid)
    exact ⟨of_decide_eq_true hopen, hu, hgone⟩
  · refine h.unlisted a ha (fun hid => ?_) hu hopen
    simp [hid, hopen] at hq

def withKeysRevoked (ids : List ℕ) (now : ℤ) (w : World) : World :=
  { w with db := { w.db with
      vpnKeys := w.db.vpnKeys.update (fun k => k.id ∈ ids && k.revokedAt = none)
        (Access.revoke now) } }

def withCredentialsRevoked (ids : List ℕ) (now : ℤ) (w : World) : World :=
  { w with db := { w.db with
      vlessCredentials := w.db.vlessCredentials.update (fun c => c.id ∈ ids && c.revokedAt = none)
        (Access.revoke now) } }

variable (hdb : DatabaseWorks cfg)
include hdb

theorem revokeKeys_run (userID : ℕ) :
    ((revokeKeys cfg userID now).run w).2 =
      withKeysRevoked ((removePeers cfg (activeKeysOf userID w.db)).run w).1 now
        ((removePeers cfg (activeKeysOf userID w.db)).run w).2 := by
  simp only [revokeKeys, bind_eq, run_bind, hdb.run (l := .selectKeys userID) rfl, readOf]
  split
  · next hnone =>
    rw [hnone, withKeysRevoked, Table.update_eq_self _ (by simp)]
    rfl
  · simp only [Prog.run_bind, hdb.run (l := .revokeKeys userID) rfl, writeOf]
    rfl

theorem revokeCredentials_run (userID : ℕ) :
    ((revokeCredentials cfg userID now).run w).2 =
      withCredentialsRevoked ((removeClients cfg (activeCredentialsOf userID w.db)).run w).1 now
        ((removeClients cfg (activeCredentialsOf userID w.db)).run w).2 := by
  simp only [revokeCredentials, bind_eq, run_bind,
    hdb.run (l := .selectCredentials userID) rfl, readOf]
  split
  · next hnone =>
    rw [hnone, withCredentialsRevoked, Table.update_eq_self _ (by simp)]
    rfl
  · simp only [Prog.run_bind, hdb.run (l := .revokeCredentials userID) rfl, writeOf]
    rfl

theorem removePeers_trace_subset (userID : ℕ) (now : ℤ) (w : World) :
    (removePeers cfg (activeKeysOf userID w.db)).trace w ⊆
      (revokeKeys cfg userID now).trace w := by
  simp only [revokeKeys, bind_eq, Prog.trace_bind, hdb.run (l := .selectKeys userID) rfl,
    readOf]
  exact fun x hx => mem_append_right _ (mem_append_left _ hx)

theorem removeClients_trace_subset (userID : ℕ) (now : ℤ) (w : World) :
    (removeClients cfg (activeCredentialsOf userID w.db)).trace w ⊆
      (revokeCredentials cfg userID now).trace w := by
  simp only [revokeCredentials, bind_eq, Prog.trace_bind,
    hdb.run (l := .selectCredentials userID) rfl, readOf]
  exact fun x hx => mem_append_right _ (mem_append_left _ hx)

theorem revokeKeys_withdraws (userID : ℕ) (now : ℤ) (w : World) :
    Withdraws cfg (· = userID) nobody nobody now w ((revokeKeys cfg userID now).run w).2
      ((revokeKeys cfg userID now).trace w) := by
  have hs := removePeers_strips cfg userID w
  have htr := removePeers_trace_subset hdb userID now w
  rw [revokeKeys_run hdb]
  obtain ⟨r, hr⟩ : ∃ r, ((removePeers cfg (activeKeysOf userID w.db)).run w).2 =
    { w with remote := r } := ⟨_, hs.strips.frame⟩
  rw [hr] at hs ⊢
  have hdone : Clears { w with remote := r } (withKeysRevoked
    ((removePeers cfg (activeKeysOf userID w.db)).run w).1 now { w with remote := r }) :=
    .of_db rfl rfl rfl
  refine ⟨rfl, hs.strips.clears.trans hdone, ?_, .nobody _, .nobody _⟩
  exact hs.outcomes.imp (fun k hk => hk.mono cfg htr) fun k hk => hk.later hdone

theorem revokeCredentials_withdraws (userID : ℕ) (now : ℤ) (w : World) :
    Withdraws cfg nobody (· = userID) nobody now w ((revokeCredentials cfg userID now).run w).2
      ((revokeCredentials cfg userID now).trace w) := by
  have hs := removeClients_strips cfg userID w
  have htr := removeClients_trace_subset hdb userID now w
  rw [revokeCredentials_run hdb]
  obtain ⟨r, hr⟩ : ∃ r, ((removeClients cfg (activeCredentialsOf userID w.db)).run w).2 =
    { w with remote := r } := ⟨_, hs.strips.frame⟩
  rw [hr] at hs ⊢
  have hdone : Clears { w with remote := r } (withCredentialsRevoked
    ((removeClients cfg (activeCredentialsOf userID w.db)).run w).1 now { w with remote := r }) :=
    .of_db rfl rfl rfl
  refine ⟨rfl, hs.strips.clears.trans hdone, .nobody _, ?_, .nobody _⟩
  exact hs.outcomes.imp (fun c hc => hc.mono cfg htr) fun c hc => hc.later hdone

theorem revokeEach_withdraws (now : ℤ) (subs : List Subscription) (w : World) :
    Withdraws cfg (fun u => ∃ s ∈ subs, s.userID = u) (fun u => ∃ s ∈ subs, s.userID = u)
      (fun u => ∃ s ∈ subs, s.userID = u) now w ((revokeEach cfg now subs).run w).2
      ((revokeEach cfg now subs).trace w) := by
  induction subs generalizing w with
  | nil =>
    simp only [not_mem_nil, false_and, exists_false]
    exact .refl w _
  | cons s subs ih =>
    have hall := ((revokeHappTokens_withdraws hdb s.userID now w).trans
      ((revokeKeys_withdraws hdb s.userID now _).trans
        ((revokeCredentials_withdraws hdb s.userID now _).trans (ih _))))
    simp only [revokeEach, bind_eq, run_bind, Prog.trace_bind]
    convert hall using 1 <;> funext u <;>
      simp [nobody, eq_comm]

end AccessRevocation
