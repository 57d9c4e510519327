import DrFrakeVpn.CredentialEffects
import DrFrakeVpn.XrayClients

/-! # A credential that could not be issued

The client is let in on the server before its row is stored. -/
namespace FailedIssuing

open SharedPrograms FaultyTransactions GoValues Prog
open BackendModels BackendWorld VpnCommands XrayConfig AccessCredentials RemoteRemoval
open RemoteAddition XrayClients

section addition

variable (cfg : Setup) (server : VPNServer) (template : VLESSServerTemplate)
  (clientID : String) (w : World)

/-- `addXrayClient` for a credential. -/
def addition : Handler (Except RemoteError Unit) :=
  addXrayClient cfg (.addClient server.id clientID) server template clientID

/-- The addition gets as far as writing a file that lets a new client in. -/
def LetsIn : Prop :=
  server.sshPassword ≠ "" ∧ WriteGoes cfg (.addClient server.id clientID) server w ∧
    acceptance (w.remote.xrayFiles server.id) clientID ≠ [] ∧ ¬ HasClient w server.id clientID

variable {cfg server clientID w}

theorem LetsIn.updates (h : LetsIn cfg server clientID w) :
    ∃ updated, addClient template clientID (w.remote.xrayFiles server.id) = .ok (some updated) := by
  obtain ⟨_, _, hinbound, hnew⟩ := h
  cases hc : addClient template clientID (w.remote.xrayFiles server.id) with
  | error e =>
    refine absurd ?_ hinbound
    rw [acceptance, inboundsOf_of_error hc]
    rfl
  | ok updated =>
    cases updated with
    | some updated => exact ⟨updated, rfl⟩
    | none =>
      have hold := (accepts_added hc clientID).mpr (.inr ⟨rfl, hinbound⟩)
      exact absurd hold hnew

theorem LetsIn.addition_result (h : LetsIn cfg server clientID w) :
    ((addition cfg server template clientID).run w).1 =
      if 0 < template.port ∧ cfg.faults (.addClient server.id clientID .ready)
      then .error .ssh else .ok () := by
  obtain ⟨updated, hc⟩ := h.updates template
  obtain ⟨hssh, ⟨hread, hwrite⟩, _⟩ := h
  rw [addition, addXrayClient_reachable cfg _ server template clientID hssh]
  simp [rewriteXrayConfig, Prog.run_bind, sshExec_run, hread, hc, hwrite, ready_run]

theorem hasClient_added (x : String) :
    HasClient ((addition cfg server template clientID).run w).2 server.id x ↔
      HasClient w server.id x ∨ (LetsIn cfg server clientID w ∧ x = clientID) := by
  constructor
  · intro h
    by_cases hold : HasClient w server.id x
    · exact .inl hold
    have hssh : server.sshPassword ≠ "" := by
      intro hs
      rw [addition, addXrayClient_unreachable cfg _ server template clientID hs] at h
      exact hold h
    rw [addition, addXrayClient_reachable cfg _ server template clientID hssh, HasClient,
      rewriteXrayConfig_run] at h
    split at h
    · next updated hc =>
      split at h
      · next hgoes =>
        have hfile : accepts (some updated) x := by simpa [writeXrayFile] using h
        obtain hkept | ⟨rfl, hinbound⟩ := (accepts_added hc x).mp hfile
        · exact absurd hkept hold
        · exact .inr ⟨⟨hssh, hgoes, hinbound, hold⟩, rfl⟩
      · exact absurd h hold
    · exact absurd h hold
  · rintro (h | ⟨hlets, rfl⟩)
    · exact hasClient_kept cfg _ server template clientID w h
    obtain ⟨updated, hc⟩ := hlets.updates template
    obtain ⟨hssh, hgoes, hinbound, _⟩ := hlets
    have hfile := (accepts_added hc x).mpr (.inr ⟨rfl, hinbound⟩)
    rw [addition, addXrayClient_reachable cfg _ server template x hssh, HasClient,
      rewriteXrayConfig_run, hc]
    simpa [hgoes, writeXrayFile] using hfile

theorem same_clients_iff :
    (∀ x, HasClient ((addition cfg server template clientID).run w).2 server.id x ↔
      HasClient w server.id x) ↔ ¬ LetsIn cfg server clientID w := by
  constructor
  · intro hsame hlets
    have hnow := (hasClient_added template clientID).mpr (.inr ⟨hlets, rfl⟩)
    exact hlets.2.2.2 ((hsame clientID).mp hnow)
  · intro hnot x
    rw [hasClient_added]
    exact ⟨fun h => h.resolve_right fun hnew => hnot hnew.1, .inl⟩

theorem addition_db : ((addition cfg server template clientID).run w).2.db = w.db := by
  rw [addition, (addXrayClient_frame cfg _ server template clientID w).1]

end addition

variable (cfg : Setup) (sv : Services) (userID : ℕ) (server : VPNServer)
  (template : VLESSServerTemplate) (w : World)

def cleanUp (clientID : String) : Handler (Except RemoteError Unit) :=
  removeXrayClient cfg (.dropClient server.id clientID) (some server) (some template) clientID

theorem exec1_refused {α : Type} {l} {f : World → Except DbError α × World} {e}
    (hf : (f w).1 = .error e → (f w).2 = w) (h : ((exec1 cfg l f).run w).1 = .error e) :
    ((exec1 cfg l f).run w).2 = w := by
  rw [exec1, single_run] at h ⊢
  split at h
  · next hl => rw [if_pos hl]
  · next hl =>
    rw [if_neg hl]
    exact hf h

variable {e : CredentialError}

theorem reopenCredential_failed
    (h : ((reopenCredential cfg server template credential).run w).1 = .error e) :
    ((reopenCredential cfg server template credential).run w).2 =
      ((addition cfg server template credential.clientID).run w).2 := by
  unfold addition
  rw [reopenCredential, bind_eq, run_bind] at h ⊢
  generalize (addXrayClient cfg (.addClient server.id credential.clientID) server template
    credential.clientID).run w = v at h ⊢
  obtain ⟨_ | _, v⟩ := v
  · rfl
  rw [bind_eq, Prog.run_bind] at h ⊢
  have hsame := fun e => exec1_refused cfg v
    (l := .credential credential.userID server.id .save) (e := e)
    (f := saveCredentialOf { credential with revokedAt := none }) fun hrefused => by
      unfold saveCredentialOf tryWriteOf at hrefused ⊢
      split at hrefused
      · cases hrefused
      · rfl
  cases hsave : ((exec1 cfg (.credential credential.userID server.id .save)
      (saveCredentialOf { credential with revokedAt := none })).run v).1 with
  | error e =>
    exact hsame e hsave
  | ok u =>
    rw [hsave] at h
    cases h

theorem issueCredential_failed
    (h : ((issueCredential cfg sv userID server template).run w).1 = .error e) :
    let added := (addition cfg server template (sv.uuid w.random)).run
      { w with random := w.random + 1 }
    ((issueCredential cfg sv userID server template).run w).2 =
      if added.1 = .ok () then ((cleanUp cfg server template (sv.uuid w.random)).run added.2).2
      else added.2 := by
  unfold addition cleanUp
  rw [issueCredential, bind_eq, run_bind] at h ⊢
  dsimp only [draw, atom, run_act, run_done] at h ⊢
  rw [bind_eq, run_bind] at h ⊢
  generalize (addXrayClient cfg (.addClient server.id (sv.uuid w.random)) server template
    (sv.uuid w.random)).run _ = v at h ⊢
  obtain ⟨_ | _, v⟩ := v
  · rfl
  rw [bind_eq, run_bind] at h ⊢
  have hsame := fun e => exec1_refused cfg v
    (l := .credential userID server.id .create) (e := e)
    (f := createCredentialOf userID server.id (sv.uuid w.random)) fun hrefused => by
      unfold createCredentialOf at hrefused ⊢
      dsimp only at hrefused ⊢
      split at hrefused
      · cases hrefused
      · rfl
  cases hcreate : ((exec1 cfg (.credential userID server.id .create)
      (createCredentialOf userID server.id (sv.uuid w.random))).run v).1 with
  | ok credential =>
    rw [hcreate] at h
    cases h
  | error e =>
    rw [hsame e hcreate, if_pos rfl]
    dsimp only
    rw [bind_eq, Prog.run_bind]
    rfl

/-- The clean-up succeeds where it is tried: a new client was let in and its row refused. -/
def CleanUpWorks : Prop :=
  let added := (addition cfg server template (sv.uuid w.random)).run
    { w with random := w.random + 1 }
  cfg.faults (.credential userID server.id .find) = false →
    credentialOf w.db userID server.id = none → added.1 = .ok () →
      ((cleanUp cfg server template (sv.uuid w.random)).run added.2).1 = .ok ()

/-- A failed call lets a client in. With a stored credential nothing undoes the addition; without
one, it is not undone when Xray does not come up with the new file. -/
def LeavesClient : Prop :=
  cfg.faults (.credential userID server.id .find) = false ∧
    match credentialOf w.db userID server.id with
    | some credential => LetsIn cfg server credential.clientID w
    | none => LetsIn cfg server (sv.uuid w.random) w ∧ 0 < template.port ∧
        cfg.faults (.addClient server.id (sv.uuid w.random) .ready) = true

/-- The server accepts the clients it accepted before, and every credential is as it was. -/
def NoTrace (w w' : World) : Prop :=
  (∀ x, HasClient w' server.id x ↔ HasClient w server.id x) ∧
    ∀ c ∈ w'.db.vlessCredentials.rows, c ∈ w.db.vlessCredentials.rows

variable {server w}

theorem noTrace_iff (hdb : w'.db = w.db) :
    NoTrace server w w' ↔ ∀ x, HasClient w' server.id x ↔ HasClient w server.id x := by
  rw [NoTrace, hdb]
  exact and_iff_left fun c hc => hc

variable {cfg sv userID template}

theorem cleaned_up_iff {v clientID} (hfresh : ¬ HasClient w server.id clientID)
    (hremote : v.remote = w.remote)
    (hok : ((cleanUp cfg server template clientID).run
      ((addition cfg server template clientID).run v).2).1 = .ok ()) (x : String) :
    HasClient ((cleanUp cfg server template clientID).run
      ((addition cfg server template clientID).run v).2).2 server.id x ↔
        HasClient w server.id x := by
  have hsame : ∀ y, HasClient v server.id y ↔ HasClient w server.id y := by
    intro y
    rw [HasClient, hremote]
    rfl
  have hadded : ∀ y, HasClient ((addition cfg server template clientID).run v).2 server.id y ↔
      HasClient v server.id y ∨ (LetsIn cfg server clientID v ∧ y = clientID) :=
    hasClient_added template
  by_cases hx : x = clientID
  · subst hx
    refine iff_of_false (fun hin => ?_) hfresh
    by_cases hssh : server.sshPassword = ""
    · have hbefore := ((hasClient_removed cfg _ x _ _ _ server.id x).mp hin).1
      rcases (hadded x).mp hbefore with hold | ⟨hlets, _⟩
      · exact hfresh ((hsame x).mp hold)
      · exact hlets.1 hssh
    · exact removeXrayClient_ok cfg _ x _ ⟨⟨server, rfl, hssh⟩, Option.some_ne_none _⟩ hok hin
  · rw [cleanUp, hasClient_removed, hadded, hsame]
    simp [hx]

theorem failed_issuing_iff {e : CredentialError}
    (herror : ((ensureVLESSCredential cfg sv userID server template).run w).1 = .error e)
    (hclean : CleanUpWorks cfg sv userID server template w)
    (hfresh : ¬ HasClient w server.id (sv.uuid w.random)) :
    NoTrace server w ((ensureVLESSCredential cfg sv userID server template).run w).2 ↔
      ¬ LeavesClient cfg sv userID server template w := by
  rw [ensureVLESSCredential, bind_eq, Prog.run_bind, exec1, single_run] at herror ⊢
  unfold LeavesClient
  by_cases hfind : cfg.faults (.credential userID server.id .find) = true
  · rw [if_pos hfind]
    simp [NoTrace, hfind]
  rw [if_neg hfind] at herror ⊢
  replace hfind := Bool.eq_false_iff.mpr hfind
  cases hc : credentialOf w.db userID server.id with
  | some credential =>
    simp only [readOf, hc, hfind, true_and] at herror ⊢
    split at herror
    · cases herror
    · next hrevoked =>
      rw [if_neg hrevoked, reopenCredential_failed cfg server template w herror,
        noTrace_iff (addition_db template), same_clients_iff]
  | none =>
    simp only [readOf, hc, hfind, true_and] at herror ⊢
    have hafter := issueCredential_failed cfg sv userID server template w herror
    have hdb : ((issueCredential cfg sv userID server template).run w).2.db = w.db := by
      rw [hafter]
      split
      · rw [cleanUp, (removeXrayClient_frame cfg _ _ _ _ _).1]
        exact addition_db template
      · exact addition_db template
    rw [noTrace_iff hdb, hafter]
    split
    · next hadded =>
      -- the row was refused and the client taken back
      refine iff_of_true (cleaned_up_iff hfresh rfl (hclean hfind hc hadded)) ?_
      rintro ⟨hlets, hready⟩
      have hresult := LetsIn.addition_result template (w := { w with random := w.random + 1 }) hlets
      rw [hadded, if_pos hready] at hresult
      cases hresult
    · next hadded =>
      refine (same_clients_iff template).trans (not_congr ⟨fun hlets => ⟨hlets, ?_⟩, And.left⟩)
      by_contra hready
      have hresult := hlets.addition_result template
      exact hadded (hresult.trans (if_neg hready))

def failing (site : CredentialSite) : Setup :=
  { Setup.standard "" with faults := fun l => l = .credential 7 1 site }

def issuing (site : CredentialSite) : Handler (Except CredentialError VLESSCredential) :=
  ensureVLESSCredential (failing site) .numbered 7 xrayServer realityTemplate

theorem refused_row_is_undone :
    ((issuing .create).run xrayWorld).1 = .error (.db .failed) ∧
      NoTrace xrayServer xrayWorld ((issuing .create).run xrayWorld).2 := by
  have herror : ((issuing .create).run xrayWorld).1 = .error (.db .failed) := by decide
  refine ⟨herror, (failed_issuing_iff herror (fun _ _ _ => by decide) (by decide)).mpr ?_⟩
  rintro ⟨_, _, _, hready⟩
  exact absurd hready (by decide)

def revokedWorld : World := { xrayWorld with
  db := { xrayWorld.db with
    vlessCredentials := ⟨[⟨1, 0, 7, 1, "alice", some 5⟩], 2, by decide⟩ } }

/-- The client of a revoked credential is let in again and its row stays revoked. -/
theorem unsaved_row_keeps_client :
    ((issuing .save).run revokedWorld).1 = .error (.db .failed) ∧
      CleanUpWorks (failing .save) .numbered 7 xrayServer realityTemplate revokedWorld ∧
      ¬ HasClient revokedWorld 1 (Services.numbered.uuid 0) ∧ ¬ HasClient revokedWorld 1 "alice" ∧
      HasClient ((issuing .save).run revokedWorld).2 1 "alice" :=
  ⟨by decide, fun _ hnone => absurd hnone (by decide), by decide, by decide, by decide⟩

end FailedIssuing
