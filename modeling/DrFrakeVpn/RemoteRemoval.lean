import DrFrakeVpn.VpnCommands

/-! # What a removal on a server does

Nothing is let in that was not let in before, and a call that returns nil on a server that it can
reach has shut its peer or client out. -/
namespace RemoteRemoval

open SharedPrograms FaultyTransactions GoValues Prog
open BackendModels BackendWorld VpnCommands XrayConfig

/-- The peer is accepted by the running interface of the server. -/
def HasPeer (w : World) (server : ℕ) (publicKey : String) : Prop :=
  (server, publicKey) ∈ w.remote.awgPeers

/-- The client is accepted by an inbound of the server. -/
def HasClient (w : World) (server : ℕ) (clientID : String) : Prop :=
  accepts (w.remote.xrayFiles server) clientID = true

instance (w : World) (server : ℕ) (publicKey : String) : Decidable (HasPeer w server publicKey) :=
  inferInstanceAs (Decidable ((server, publicKey) ∈ w.remote.awgPeers))

instance (w : World) (server : ℕ) (clientID : String) : Decidable (HasClient w server clientID) :=
  inferInstanceAs (Decidable (accepts (w.remote.xrayFiles server) clientID = true))

/-- Only the servers change, and they let in nobody new. -/
structure Removes (w w' : World) : Prop where
  frame : w' = { w with remote := w'.remote }
  peers : ∀ s k, HasPeer w' s k → HasPeer w s k
  clients : ∀ s c, HasClient w' s c → HasClient w s c

theorem Removes.refl (w : World) : Removes w w := ⟨rfl, fun _ _ h => h, fun _ _ h => h⟩

theorem Removes.trans (h : Removes a b) (h' : Removes b c) : Removes a c where
  frame := by
    rw [h'.frame, h.frame]
  peers s k hk := h.peers s k (h'.peers s k hk)
  clients s x hx := h.clients s x (h'.clients s x hx)

theorem Removes.db (h : Removes w w') : w'.db = w.db := by rw [h.frame]

def Reachable (server : Option VPNServer) : Prop :=
  ∃ s, server = some s ∧ s.sshPassword ≠ ""

variable (cfg : Setup)

theorem sshExec_run {α : Type} (l : Stmt) (f : Remote → α × Remote) (w : World) :
    (sshExec cfg l f).run w = if cfg.faults l then (.error .ssh, w)
      else (.ok (f w.remote).1, { w with remote := (f w.remote).2 }) := by
  unfold sshExec single Prog.atom
  split <;> rfl

def PeerGoes (site : PeerStep → Stmt) (server : Option VPNServer) : Prop :=
  Reachable server ∧ cfg.faults (site .wg) = false

variable {server : Option VPNServer}

section peers

variable (site : PeerStep → Stmt) (publicKey : String) (w : World)

theorem removeAWGPeer_unreachable (h : ¬ Reachable server) :
    removeAWGPeer cfg site server publicKey = .done (.ok ()) := by
  cases server with
  | none => rfl
  | some s =>
    have hpw : s.sshPassword = "" := by
      by_contra hne
      exact h ⟨s, rfl, hne⟩
    simp [removeAWGPeer, hpw]

theorem removeAWGPeer_run (hs : s.sshPassword ≠ "") :
    (removeAWGPeer cfg site (some s) publicKey).run w =
      if cfg.faults (site .wg) then (.error .ssh, w)
      else
        let w₁ := { w with remote := deletePeer s.id publicKey w.remote }
        (.ok (), if cfg.faults (site .file) then w₁ else
          { w₁ with remote :=
              editAwgFile s.id (AwgConfig.cleanConfig publicKey.toList) w₁.remote }) := by
  simp only [removeAWGPeer, hs, if_false, bind_eq, run_bind, sshExec_run]
  by_cases hwg : cfg.faults (site .wg)
  · simp [hwg]
  · by_cases hfile : cfg.faults (site .file) <;>
      simp [hwg, hfile, Prog.run_bind, sshExec_run]

theorem removeAWGPeer_frame (server : Option VPNServer) :
    ((removeAWGPeer cfg site server publicKey).run w).2 =
        { w with remote := ((removeAWGPeer cfg site server publicKey).run w).2.remote } ∧
      ((removeAWGPeer cfg site server publicKey).run w).2.remote.xrayFiles =
        w.remote.xrayFiles := by
  by_cases h : Reachable server
  · obtain ⟨s, rfl, hs⟩ := h
    rw [removeAWGPeer_run cfg site publicKey w hs]
    split
    · exact ⟨rfl, rfl⟩
    · dsimp only
      split <;> exact ⟨rfl, rfl⟩
  · rw [removeAWGPeer_unreachable cfg site publicKey h]
    exact ⟨rfl, rfl⟩

theorem removeAWGPeer_ok_iff (server : Option VPNServer) :
    ((removeAWGPeer cfg site server publicKey).run w).1 = .ok () ↔
      ¬ (Reachable server ∧ cfg.faults (site .wg)) := by
  by_cases h : Reachable server
  · obtain ⟨s, rfl, hs⟩ := h
    rw [removeAWGPeer_run cfg site publicKey w hs]
    have hreach : Reachable (some s) := ⟨s, rfl, hs⟩
    by_cases hwg : cfg.faults (site .wg) <;> simp [hwg, hreach]
  · rw [removeAWGPeer_unreachable cfg site publicKey h]
    simp [h]

theorem hasPeer_removed (server : Option VPNServer) (i : ℕ) (k : String) :
    HasPeer ((removeAWGPeer cfg site server publicKey).run w).2 i k ↔ HasPeer w i k ∧
      ¬ (PeerGoes cfg site server ∧ server.map VPNServer.id = some i ∧ k = publicKey) := by
  by_cases h : Reachable server
  · obtain ⟨s, rfl, hs⟩ := h
    have hreach : Reachable (some s) := ⟨s, rfl, hs⟩
    rw [removeAWGPeer_run cfg site publicKey w hs]
    by_cases hwg : cfg.faults (site .wg)
    · simp [hwg, PeerGoes]
    have hpeers : ∀ v : World, v.remote.awgPeers =
        (deletePeer s.id publicKey w.remote).awgPeers →
        (HasPeer v i k ↔ HasPeer w i k ∧ ¬ (s.id = i ∧ k = publicKey)) := by
      intro v hv
      simp only [HasPeer, hv, deletePeer, List.mem_filter, ne_eq, decide_eq_true_eq,
        Prod.mk.injEq]
      rw [eq_comm]
    have hgoes : PeerGoes cfg site (some s) := ⟨hreach, by simpa using hwg⟩
    simp only [hwg, Bool.false_eq_true, if_false, hgoes, true_and, Option.map_some,
      Option.some.injEq]
    refine hpeers _ ?_
    split <;> rfl
  · rw [removeAWGPeer_unreachable cfg site publicKey h]
    simp [PeerGoes, h]

theorem removeAWGPeer_ok (hr : Reachable (some s))
    (h : ((removeAWGPeer cfg site (some s) publicKey).run w).1 = .ok ()) :
    ¬ HasPeer ((removeAWGPeer cfg site (some s) publicKey).run w).2 s.id publicKey := by
  have hwg : cfg.faults (site .wg) = false := by
    by_contra hne
    exact (removeAWGPeer_ok_iff cfg site publicKey w (some s)).mp h ⟨hr, by simpa using hne⟩
  intro hp
  exact ((hasPeer_removed cfg site publicKey w (some s) s.id publicKey).mp hp).2
    ⟨⟨hr, hwg⟩, rfl, rfl⟩

theorem removeAWGPeer_trace (h : ((removeAWGPeer cfg site server publicKey).run w).1 ≠ .ok ()) :
    (site .wg, w) ∈ (removeAWGPeer cfg site server publicKey).trace w := by
  by_cases hr : Reachable server
  · obtain ⟨s, rfl, hs⟩ := hr
    simp only [removeAWGPeer, hs, if_false, bind_eq, Prog.trace_bind]
    exact List.mem_append_left _ List.mem_cons_self
  · rw [removeAWGPeer_unreachable cfg site publicKey hr] at h
    exact absurd rfl h

theorem removeAWGPeer_removes (server : Option VPNServer) :
    Removes w ((removeAWGPeer cfg site server publicKey).run w).2 where
  frame := (removeAWGPeer_frame cfg site publicKey w server).1
  peers i k h := ((hasPeer_removed cfg site publicKey w server i k).mp h).1
  clients i c h := by
    rwa [HasClient, (removeAWGPeer_frame cfg site publicKey w server).2] at h

end peers

section rewrite

variable (site : XrayStep → Stmt) (s : VPNServer) (port : ℤ) (w : World)
  (change : Option Json → Except ConfigError (Option Json))

/-- The write of this file by a call that read it now goes through. -/
def WriteGoes : Prop :=
  cfg.faults (site .read) = false ∧
    cfg.faults (site (.write (w.remote.xrayWrites s.id))) = false

instance : Decidable (WriteGoes cfg site s w) :=
  inferInstanceAs (Decidable (_ ∧ _))

theorem ready_run : (ensureXrayRuntimeReady cfg site port).run w =
    (if 0 < port ∧ cfg.faults (site .ready) then .error .ssh else .ok (), w) := by
  unfold ensureXrayRuntimeReady
  by_cases hp : port ≤ 0
  · simp [hp]
  · by_cases hf : cfg.faults (site .ready) <;> simp [hp, sshExec_run, hf]

theorem rewriteXrayConfig_run : ((rewriteXrayConfig cfg site s port change).run w).2 =
    match change (w.remote.xrayFiles s.id) with
    | .ok (some updated) =>
      if WriteGoes cfg site s w then { w with remote := writeXrayFile s.id updated w.remote } else w
    | _ => w := by
  simp only [rewriteXrayConfig, bind_eq, run_bind, sshExec_run, WriteGoes]
  by_cases hread : cfg.faults (site .read)
  · cases change (w.remote.xrayFiles s.id) with
    | error e => simp [hread]
    | ok u => cases u <;> simp [hread]
  · cases hc : change (w.remote.xrayFiles s.id) with
    | error e => simp [hread, hc]
    | ok u =>
      cases u with
      | none => simp [hread, hc]
      | some updated =>
        by_cases hwrite : cfg.faults (site (.write (w.remote.xrayWrites s.id))) <;>
          simp [hread, hc, hwrite, Prog.run_bind, sshExec_run, ready_run]

theorem rewriteXrayConfig_ok
    (h : ((rewriteXrayConfig cfg site s port change).run w).1 = .ok ()) :
    ∃ updated, change (w.remote.xrayFiles s.id) = .ok updated ∧
      (updated ≠ none → WriteGoes cfg site s w) := by
  simp only [rewriteXrayConfig, bind_eq, run_bind, sshExec_run] at h
  by_cases hread : cfg.faults (site .read)
  · simp [hread] at h
  · cases hc : change (w.remote.xrayFiles s.id) with
    | error e => simp [hread, hc] at h
    | ok u =>
      refine ⟨u, rfl, fun hu => ?_⟩
      cases u with
      | none => exact absurd rfl hu
      | some updated =>
        by_cases hwrite : cfg.faults (site (.write (w.remote.xrayWrites s.id)))
        · simp [hread, hc, hwrite, Prog.run_bind, sshExec_run] at h
        · exact ⟨by simpa using hread, by simpa using hwrite⟩

theorem rewriteXrayConfig_frame :
    ((rewriteXrayConfig cfg site s port change).run w).2 =
        { w with remote := ((rewriteXrayConfig cfg site s port change).run w).2.remote } ∧
      ((rewriteXrayConfig cfg site s port change).run w).2.remote.awgPeers = w.remote.awgPeers := by
  rw [rewriteXrayConfig_run]
  split
  · split <;> exact ⟨rfl, rfl⟩
  · exact ⟨rfl, rfl⟩

theorem rewriteXrayConfig_other (hi : i ≠ s.id) :
    ((rewriteXrayConfig cfg site s port change).run w).2.remote.xrayFiles i =
      w.remote.xrayFiles i := by
  rw [rewriteXrayConfig_run]
  split
  · split
    · simp [writeXrayFile, hi]
    · rfl
  · rfl

theorem rewriteXrayConfig_trace :
    (site .read, w) ∈ (rewriteXrayConfig cfg site s port change).trace w := by
  simp only [rewriteXrayConfig, bind_eq, Prog.trace_bind]
  exact List.mem_append_left _ List.mem_cons_self

end rewrite

section clients

variable (site : XrayStep → Stmt) (clientID : String) (w : World)

/-- The backend can log in to the server and knows where its Xray is. -/
def Configured (server : Option VPNServer) (template : Option VLESSServerTemplate) : Prop :=
  Reachable server ∧ template ≠ none

def ClientGoes (server : Option VPNServer) (template : Option VLESSServerTemplate) : Prop :=
  Configured server template ∧ ∀ s, server = some s → WriteGoes cfg site s w

variable {template : Option VLESSServerTemplate}

theorem removeXrayClient_unconfigured (h : ¬ Configured server template) :
    removeXrayClient cfg site server template clientID = .done (.ok ()) := by
  cases server with
  | none => rfl
  | some s =>
    cases template with
    | none => rfl
    | some t =>
      have hpw : s.sshPassword = "" := by
        by_contra hne
        exact h ⟨⟨s, rfl, hne⟩, by simp⟩
      simp [removeXrayClient, hpw]

theorem removeXrayClient_configured (hs : s.sshPassword ≠ "") (t : VLESSServerTemplate) :
    removeXrayClient cfg site (some s) (some t) clientID =
      rewriteXrayConfig cfg site s t.port (removeClient clientID) := by
  simp [removeXrayClient, hs]

theorem hasClient_removed (server : Option VPNServer) (template : Option VLESSServerTemplate)
    (i : ℕ) (c : String) :
    HasClient ((removeXrayClient cfg site server template clientID).run w).2 i c ↔
      HasClient w i c ∧ ¬ (ClientGoes cfg site w server template ∧
        server.map VPNServer.id = some i ∧ c = clientID) := by
  by_cases hconf : Configured server template
  · obtain ⟨⟨s, rfl, hs⟩, ht⟩ := hconf
    obtain ⟨t, rfl⟩ := Option.ne_none_iff_exists'.mp ht
    have hgoes : ClientGoes cfg site w (some s) (some t) ↔ WriteGoes cfg site s w :=
      ⟨fun h => h.2 s rfl, fun h => ⟨⟨⟨s, rfl, hs⟩, ht⟩, fun s' hs' => by cases hs'; exact h⟩⟩
    rw [removeXrayClient_configured cfg site clientID hs, hgoes]
    by_cases hi : i = s.id
    · subst hi
      simp only [Option.map_some, true_and]
      cases hc : removeClient clientID (w.remote.xrayFiles s.id) with
      | error e =>
        have hnobody : ¬ HasClient w s.id c := by
          simp [HasClient, accepts_of_error hc c]
        simp [rewriteXrayConfig_run, hc, hnobody]
      | ok updated =>
        have hacc := accepts_removed hc c
        cases updated with
        | none =>
          have habsent : HasClient w s.id c → c ≠ clientID := by
            intro h
            rw [HasClient, ← Option.none_or (o := w.remote.xrayFiles s.id), hacc] at h
            simpa using (Bool.and_eq_true_iff.mp h).1
          simp only [rewriteXrayConfig_run, hc]
          exact ⟨fun h => ⟨h, fun h' => habsent h h'.2⟩, fun h => h.1⟩
        | some updated =>
          simp only [rewriteXrayConfig_run, hc]
          by_cases hw : WriteGoes cfg site s w
          · rw [if_pos hw]
            simp only [HasClient, writeXrayFile, Function.update_self]
            rw [show some updated = (some updated).or (w.remote.xrayFiles s.id) from rfl, hacc]
            simp [hw, and_comm]
          · rw [if_neg hw]
            simp [hw]
    · rw [HasClient, rewriteXrayConfig_other cfg site s _ w _ hi, HasClient]
      simp [Ne.symm hi]
  · rw [removeXrayClient_unconfigured cfg site clientID hconf]
    simp [ClientGoes, hconf]

theorem removeXrayClient_ok (hconf : Configured (some s) template)
    (h : ((removeXrayClient cfg site (some s) template clientID).run w).1 = .ok ()) :
    ¬ HasClient ((removeXrayClient cfg site (some s) template clientID).run w).2 s.id clientID := by
  obtain ⟨⟨s', hs', hs⟩, ht⟩ := hconf
  cases hs'
  obtain ⟨t, rfl⟩ := Option.ne_none_iff_exists'.mp ht
  rw [removeXrayClient_configured cfg site clientID hs] at h
  obtain ⟨updated, hc, hgoes⟩ := rewriteXrayConfig_ok cfg site s t.port w _ h
  have hacc := accepts_removed hc clientID
  rw [removeXrayClient_configured cfg site clientID hs, HasClient, rewriteXrayConfig_run, hc]
  cases updated with
  | none => simpa using hacc
  | some updated =>
    dsimp only
    rw [if_pos (hgoes (by simp))]
    simpa [writeXrayFile] using hacc

theorem removeXrayClient_trace
    (h : ((removeXrayClient cfg site server template clientID).run w).1 ≠ .ok ()) :
    (site .read, w) ∈ (removeXrayClient cfg site server template clientID).trace w := by
  by_cases hconf : Configured server template
  · obtain ⟨⟨s, rfl, hs⟩, ht⟩ := hconf
    obtain ⟨t, rfl⟩ := Option.ne_none_iff_exists'.mp ht
    rw [removeXrayClient_configured cfg site clientID hs]
    exact rewriteXrayConfig_trace cfg site s t.port w _
  · rw [removeXrayClient_unconfigured cfg site clientID hconf] at h
    exact absurd rfl h

theorem removeXrayClient_frame (server : Option VPNServer)
    (template : Option VLESSServerTemplate) :
    ((removeXrayClient cfg site server template clientID).run w).2 =
        { w with remote := ((removeXrayClient cfg site server template clientID).run w).2.remote } ∧
      ((removeXrayClient cfg site server template clientID).run w).2.remote.awgPeers =
        w.remote.awgPeers := by
  by_cases hconf : Configured server template
  · obtain ⟨⟨s, rfl, hs⟩, ht⟩ := hconf
    obtain ⟨t, rfl⟩ := Option.ne_none_iff_exists'.mp ht
    rw [removeXrayClient_configured cfg site clientID hs]
    exact rewriteXrayConfig_frame cfg site s t.port w (removeClient clientID)
  · rw [removeXrayClient_unconfigured cfg site clientID hconf]
    exact ⟨rfl, rfl⟩

theorem removeXrayClient_removes (server : Option VPNServer)
    (template : Option VLESSServerTemplate) :
    Removes w ((removeXrayClient cfg site server template clientID).run w).2 where
  frame := (removeXrayClient_frame cfg site clientID w server template).1
  peers i k h := by
    rwa [HasPeer, (removeXrayClient_frame cfg site clientID w server template).2] at h
  clients i c h := ((hasClient_removed cfg site clientID w server template i c).mp h).1

end clients

end RemoteRemoval
