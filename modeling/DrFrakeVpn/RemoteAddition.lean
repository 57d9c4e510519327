import DrFrakeVpn.RemoteRemoval

/-! # What an addition on a server does

The commands that let a peer or a client in: nobody is shut out by them, and nobody else is
let in. -/
namespace RemoteAddition

open SharedPrograms GoValues
open BackendModels BackendWorld VpnCommands XrayConfig RemoteRemoval

variable (cfg : Setup)

section peers

variable (site : PeerStep → Stmt) (server : VPNServer) (publicKey psk ip : String) (w : World)

theorem addAWGPeer_unreachable (h : server.sshPassword = "") :
    addAWGPeer cfg site server publicKey psk ip = .done (.ok ()) := by
  simp [addAWGPeer, h]

theorem addAWGPeer_run (hs : server.sshPassword ≠ "") :
    (addAWGPeer cfg site server publicKey psk ip).run w =
      if cfg.faults (site .wg) then (.error .ssh, w)
      else
        let w₁ := { w with remote := setPeer server.id publicKey w.remote }
        if cfg.faults (site .file) then (.error .ssh, w₁)
        else (.ok (), { w₁ with remote := editAwgFile server.id (fun text => text ++
          AwgConfig.peerBlock publicKey.toList psk.toList ip.toList) w₁.remote }) := by
  simp only [addAWGPeer, hs, if_false, Prog.bind_eq, Prog.run_bind, sshExec_run]
  by_cases hwg : cfg.faults (site .wg)
  · simp [hwg]
  · by_cases hfile : cfg.faults (site .file) <;> simp [hwg, sshExec_run]

theorem addAWGPeer_frame :
    ((addAWGPeer cfg site server publicKey psk ip).run w).2 =
        { w with remote := ((addAWGPeer cfg site server publicKey psk ip).run w).2.remote } ∧
      ((addAWGPeer cfg site server publicKey psk ip).run w).2.remote.xrayFiles =
        w.remote.xrayFiles ∧
      ((addAWGPeer cfg site server publicKey psk ip).run w).2.remote.xrayWrites =
        w.remote.xrayWrites := by
  by_cases hs : server.sshPassword = ""
  · rw [addAWGPeer_unreachable cfg site server publicKey psk ip hs]
    exact ⟨rfl, rfl, rfl⟩
  · rw [addAWGPeer_run cfg site server publicKey psk ip w hs]
    split
    · exact ⟨rfl, rfl, rfl⟩
    · dsimp only
      split <;> exact ⟨rfl, rfl, rfl⟩

end peers

section clients

variable (site : XrayStep → Stmt) (server : VPNServer) (template : VLESSServerTemplate)
  (clientID : String) (w : World)

theorem addXrayClient_unreachable (h : server.sshPassword = "") :
    addXrayClient cfg site server template clientID = .done (.ok ()) := by
  simp [addXrayClient, h]

theorem addXrayClient_reachable (h : server.sshPassword ≠ "") :
    addXrayClient cfg site server template clientID =
      rewriteXrayConfig cfg site server template.port (addClient template clientID) := by
  simp [addXrayClient, h]

theorem addXrayClient_frame :
    ((addXrayClient cfg site server template clientID).run w).2 =
        { w with remote := ((addXrayClient cfg site server template clientID).run w).2.remote } ∧
      ((addXrayClient cfg site server template clientID).run w).2.remote.awgPeers =
        w.remote.awgPeers := by
  by_cases hs : server.sshPassword = ""
  · rw [addXrayClient_unreachable cfg site server template clientID hs]
    exact ⟨rfl, rfl⟩
  · rw [addXrayClient_reachable cfg site server template clientID hs]
    exact rewriteXrayConfig_frame cfg site server template.port w _

theorem addXrayClient_file :
    ((addXrayClient cfg site server template clientID).run w).2.remote.xrayFiles i =
        w.remote.xrayFiles i ∨
      (i = server.id ∧ ∃ updated, addClient template clientID (w.remote.xrayFiles i) =
        .ok (some updated) ∧
        ((addXrayClient cfg site server template clientID).run w).2.remote.xrayFiles i =
          some updated) := by
  by_cases hs : server.sshPassword = ""
  · rw [addXrayClient_unreachable cfg site server template clientID hs]
    exact .inl rfl
  · rw [addXrayClient_reachable cfg site server template clientID hs]
    by_cases hi : i = server.id
    · subst hi
      rw [rewriteXrayConfig_run]
      split
      · next updated hc =>
        split
        · exact .inr ⟨rfl, updated, hc, by simp [writeXrayFile]⟩
        · exact .inl rfl
      · exact .inl rfl
    · exact .inl (rewriteXrayConfig_other cfg site server _ w _ hi)

theorem hasClient_kept (h : HasClient w i x) :
    HasClient ((addXrayClient cfg site server template clientID).run w).2 i x := by
  rcases addXrayClient_file cfg site server template clientID w with hsame | ⟨_, updated, hc, hfile⟩
  · rwa [HasClient, hsame]
  · rw [HasClient, hfile]
    exact (accepts_added hc x).mpr (.inl h)

end clients

end RemoteAddition
