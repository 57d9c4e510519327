import DrFrakeVpn.VpnCommands

/-! # Xray clients under concurrent calls

Calls of `addXrayClient` and `removeXrayClient` on one server run side by side. Each reads
`server.json`, changes what it read and writes it back. -/
namespace XrayClients

open SharedPrograms GoValues List
open BackendModels BackendWorld VpnCommands XrayConfig

inductive ClientCall where
  | add (template : VLESSServerTemplate) (clientID : String)
  | remove (template : Option VLESSServerTemplate) (clientID : String)
  deriving DecidableEq

def ClientCall.clientID : ClientCall → String
  | .add _ id | .remove _ id => id

def ClientCall.adds : ClientCall → Bool
  | .add _ _ => true
  | .remove _ _ => false

variable (cfg : Setup) (server : VPNServer)

def ClientCall.program : ClientCall → Handler (Except RemoteError Unit)
  | .add template id => addXrayClient cfg (.addClient server.id id) server template id
  | .remove template id => removeXrayClient cfg (.dropClient server.id id) (some server) template id

/-- The calls that returned nil. -/
def ClientCall.note (call : ClientCall) :
    Except RemoteError Unit → List ClientCall → List ClientCall
  | .ok _, returned => returned ++ [call]
  | .error _, returned => returned

def ClientCall.thread (call : ClientCall) : Prog (World × List ClientCall) Stmt Unit :=
  (call.program cfg server).recorded .returned call.note

def callPool (calls : List ClientCall) (w : World) : Config (World × List ClientCall) Stmt :=
  ⟨calls.map (ClientCall.thread cfg server), (w, [])⟩

/-- Time passes between the steps of the calls. -/
def Meanwhile (s s' : World × List ClientCall) : Prop := Passes s.1 s'.1 ∧ s'.2 = s.2

def fileOf (w : World) : Option Json := w.remote.xrayFiles server.id

/-- What a call is there for: the client is let in everywhere, or nowhere. -/
def ClientCall.Settled (call : ClientCall) (w : World) : Prop :=
  match call with
  | .add _ id => acceptsEverywhere (fileOf server w) id = true
  | .remove _ id => accepts (fileOf server w) id = false

instance (call : ClientCall) (w : World) : Decidable (call.Settled server w) :=
  match call with
  | .add _ id => inferInstanceAs (Decidable (acceptsEverywhere (fileOf server w) id = true))
  | .remove _ id => inferInstanceAs (Decidable (accepts (fileOf server w) id = false))

def writeVersion : Stmt → Option ℕ
  | .addClient i _ (.write version) | .dropClient i _ (.write version) =>
    if i = server.id then some version else none
  | _ => none

def FreshWrite (l : Stmt) (w : World) : Prop :=
  ∀ version ∈ writeVersion server l, w.remote.xrayWrites server.id = version

/-- The file is written only as long as nobody wrote it since the call read it. -/
def Unstale : Guard (World × List ClientCall) Stmt := fun l _ s => FreshWrite server l s.1

instance (l : Stmt) (ls : List (Option Stmt)) (s : World × List ClientCall) :
    Decidable (Unstale server l ls s) :=
  inferInstanceAs (Decidable (∀ version ∈ writeVersion server l,
    s.1.remote.xrayWrites server.id = version))

variable {cfg} {server}

structure Steady (server : VPNServer) (w w' : World) : Prop where
  writes : w.remote.xrayWrites server.id ≤ w'.remote.xrayWrites server.id
  file : w'.remote.xrayWrites server.id = w.remote.xrayWrites server.id →
    fileOf server w' = fileOf server w

def Spared (server : VPNServer) (id : String) (w w' : World) : Prop :=
  Steady server w w' ∧ acceptance (fileOf server w') id = acceptance (fileOf server w) id

def Confined (server : VPNServer) (id : String) (w : World) (_ : Stmt) (w' : World)
    (_ : Option Stmt) : Prop :=
  Steady server w w' ∧
    ∀ x, x ≠ id → acceptance (fileOf server w') x = acceptance (fileOf server w) x

variable (w : World)

theorem Steady.refl : Steady server w w := ⟨le_refl _, fun _ => rfl⟩

theorem Steady.trans {a b c} (h : Steady server a b) (h' : Steady server b c) :
    Steady server a c where
  writes := h.writes.trans h'.writes
  file hac := by
    have hab := le_antisymm (h'.writes.trans_eq hac) h.writes
    rw [h'.file (hac.trans hab.symm), h.file hab]

theorem Spared.refl (id : String) (w : World) : Spared server id w w := ⟨.refl w, rfl⟩

variable {id : String}

theorem Spared.trans {a b c} (h : Spared server id a b) (h' : Spared server id b c) :
    Spared server id a c :=
  ⟨h.1.trans h'.1, h'.2.trans h.2⟩

theorem Spared.of_remote {w w'} (h : w'.remote = w.remote) : Spared server id w w' := by
  refine ⟨⟨by rw [h], fun _ => by rw [fileOf, h, fileOf]⟩, by rw [fileOf, h, fileOf]⟩

theorem Confined.refl (id : String) (w : World) (l : Stmt) (n : Option Stmt) :
    Confined server id w l w n := ⟨.refl w, fun _ _ => rfl⟩

def Says (server : VPNServer) (id : String) (b : Bool) (r : Except RemoteError Unit) (w : World) :
    Prop := r = .ok () → ∀ a ∈ acceptance (fileOf server w) id, a = b

variable {b : Bool}

theorem Says.spared {r w w'} (h : Says server id b r w) (hs : Spared server id w w') :
    Says server id b r w' := by
  intro hr a ha
  rw [hs.2] at ha
  exact h hr a ha

theorem acceptance_write :
    acceptance (fileOf server { w with remote := writeXrayFile server.id updated w.remote }) x =
      acceptance (some updated) x := by
  simp [fileOf, writeXrayFile]

theorem steady_write (updated : Json) :
    Steady server w { w with remote := writeXrayFile server.id updated w.remote } where
  writes := by simp [writeXrayFile]
  file h := by simp [writeXrayFile] at h

theorem sshExec_ensures {α : Type} {l f} {Q : Except RemoteError α → World → Prop} {w : World}
    (herror : ∀ s, Spared server id w s → Q (.error .ssh) s) (hok : ∀ s, Spared server id w s →
      FreshWrite server l s → (∀ n, Confined server id s l { s with remote := (f s.remote).2 } n) ∧
      Q (.ok (f s.remote).1) { s with remote := (f s.remote).2 }) :
    (sshExec cfg l f).Ensures (Spared server id) (FreshWrite server) (Confined server id) Q w := by
  refine .atom fun s hs hp => ?_
  by_cases hf : cfg.faults l
  · simp only [hf, if_true]
    exact ⟨fun n => .refl id s l n, herror s hs⟩
  · simp only [hf, Bool.false_eq_true, if_false]
    exact hok s hs hp

theorem ready_ensures (site : XrayStep → Stmt) (port : ℤ) {w : World}
    (h : Says server id b (.ok ()) w) :
    (ensureXrayRuntimeReady cfg site port).Ensures (Spared server id) (FreshWrite server)
      (Confined server id) (Says server id b) w := by
  unfold ensureXrayRuntimeReady
  split
  · exact .done h
  · refine sshExec_ensures (fun s _ he => by cases he) fun s hs _ => ?_
    exact ⟨fun n => .refl id s _ n, h.spared hs⟩

theorem rewrite_ensures {change : ℕ → Json → Json × Bool} (hc : SetsClient id b change)
    {site : XrayStep → Stmt} (hsite : ∀ v, writeVersion server (site (.write v)) = some v)
    (w : World) :
    (rewriteXrayConfig cfg site server port (rewriteInbounds change)).Ensures (Spared server id)
      (FreshWrite server) (Confined server id) (Says server id b) w := by
  have hread : (sshExec cfg (site .read) fun r =>
      ((r.xrayFiles server.id, r.xrayWrites server.id), r)).Ensures (Spared server id)
      (FreshWrite server) (Confined server id) (fun r s => ∀ file version,
        r = .ok (file, version) → file = fileOf server s ∧
          version = s.remote.xrayWrites server.id) w := by
    refine sshExec_ensures (fun s _ _ _ he => by cases he) fun s _ _ => ?_
    exact ⟨fun n => .refl id s _ n, fun _ _ he => by cases he; exact ⟨rfl, rfl⟩⟩
  refine hread.bind ?_
  intro r s hr
  rcases r with e | ⟨file, version⟩
  · exact .done fun he => by cases he
  obtain ⟨hfile, hversion⟩ := hr file version rfl
  dsimp only
  cases hch : rewriteInbounds change file with
  | error e => exact .done fun he => by cases he
  | ok updated =>
    have hview := acceptance_rewritten hc hch
    cases updated with
    | none =>
      refine .done fun _ a ha => ?_
      rw [← hfile, ← Option.none_or (o := file), hview] at ha
      obtain ⟨_, _, rfl⟩ := mem_map.mp ha
      simp
    | some updated =>
      have hwrite : (sshExec cfg (site (.write version)) fun r =>
          ((), writeXrayFile server.id updated r)).Ensures (Spared server id)
          (FreshWrite server) (Confined server id) (Says server id b) s := by
        refine sshExec_ensures (fun _ _ he => by cases he) fun t ht hp => ?_
        -- nobody wrote since the read, so the new text is based on the present one
        have hsame : fileOf server t = file := by
          rw [hfile]
          refine ht.1.file ?_
          rw [hp version (hsite version), hversion]
        refine ⟨fun n => ⟨steady_write t updated, fun x hx => ?_⟩, fun _ a ha => ?_⟩
        · rw [acceptance_write, ← Option.some_or, hview, hsame]
          simp [hx]
        · rw [acceptance_write, ← Option.some_or, hview] at ha
          obtain ⟨_, _, rfl⟩ := mem_map.mp ha
          simp
      refine hwrite.bind ?_
      intro r t hr
      rcases r with e | u
      · exact .done fun he => by cases he
      · exact ready_ensures site port hr

theorem call_ensures (hssh : server.sshPassword ≠ "") {call : ClientCall}
    (htemplate : ∀ id, call ≠ .remove none id) (w : World) :
    (call.program cfg server).Ensures (Spared server call.clientID) (FreshWrite server)
      (Confined server call.clientID) (Says server call.clientID call.adds) w := by
  cases call with
  | add template id =>
    simp only [ClientCall.program, addXrayClient, hssh, if_false]
    exact rewrite_ensures (addToInbound_sets template id) (fun v => by simp [writeVersion]) w
  | remove template id =>
    cases template with
    | none => exact absurd rfl (htemplate id)
    | some template =>
      simp only [ClientCall.program, removeXrayClient, hssh, if_false]
      exact rewrite_ensures (removeFromInbound_sets id) (fun v => by simp [writeVersion]) w

theorem settled_iff (call : ClientCall) (w : World) : call.Settled server w ↔
    ∀ a ∈ acceptance (fileOf server w) call.clientID, a = call.adds := by
  cases call with
  | add template id =>
    simp only [ClientCall.Settled, ClientCall.clientID, ClientCall.adds, acceptsEverywhere,
      decide_eq_true_eq]
    exact ⟨fun h a ha => by cases a; exacts [absurd ha h, rfl], fun h hf => by cases h _ hf⟩
  | remove template id =>
    simp only [ClientCall.Settled, ClientCall.clientID, ClientCall.adds, accepts,
      decide_eq_false_iff_not]
    exact ⟨fun h a ha => by cases a; exacts [rfl, absurd ha h], fun h ht => by cases h _ ht⟩

section pool

variable {calls : List ClientCall}

def ThreadStep (server : VPNServer) (call : ClientCall) (s : World × List ClientCall) (l : Stmt)
    (s' : World × List ClientCall) (n : Option Stmt) : Prop :=
  (s'.2 = s.2 ∧ Confined server call.clientID s.1 l s'.1 n) ∨
    (s'.1 = s.1 ∧ n = none ∧ (s'.2 = s.2 ∨ (s'.2 = s.2 ++ [call] ∧ call.Settled server s.1)))

variable {n : Option Stmt}

theorem ThreadStep.spares {call other : ClientCall} (hne : other.clientID ≠ call.clientID) {s s' l}
    (h : ThreadStep server call s l s' n) : Spared server other.clientID s.1 s'.1 := by
  rcases h with ⟨_, hc⟩ | ⟨hw, _⟩
  · exact ⟨hc.1, hc.2 other.clientID hne⟩
  · rw [hw]
    exact .refl other.clientID s.1

theorem clientID_ne (hids : (calls.map ClientCall.clientID).Nodup) {i j : ℕ} (hij : i ≠ j) {a b}
    (ha : calls[i]? = some a) (hb : calls[j]? = some b) : b.clientID ≠ a.clientID := by
  intro heq
  refine hij ?_
  have hi : (calls.map ClientCall.clientID)[i]? = some a.clientID := by simp [ha]
  have hj : (calls.map ClientCall.clientID)[j]? = some a.clientID := by simp [hb, heq]
  obtain ⟨hlt, _⟩ := List.getElem?_eq_some_iff.mp hi
  exact (getElem?_inj hlt hids).mp (hi.trans hj.symm)

def discipline (server : VPNServer) (calls : List ClientCall)
    (hids : (calls.map ClientCall.clientID).Nodup) : Discipline Meanwhile (Unstale server) where
  rely i s s' := ∀ call, calls[i]? = some call → Spared server call.clientID s.1 s'.1
  perm l s := FreshWrite server l s.1
  G i s l s' n := ∃ call, calls[i]? = some call ∧ ThreadStep server call s l s' n
  rely_refl i s call _ := .refl call.clientID s.1
  rely_trans i _ _ _ h h' call hc := (h call hc).trans (h' call hc)
  perm_of_allow l ls s h := h
  env_rely i s s' h call _ := .of_remote h.1.remote
  step_rely i j s l s' n hij h other ho := by
    obtain ⟨call, hc, hstep⟩ := h
    exact hstep.spares (clientID_ne hids hij hc ho)

theorem callPool_obeys (hssh : server.sshPassword ≠ "")
    (htemplate : ∀ id, .remove none id ∉ calls)
    (hids : (calls.map ClientCall.clientID).Nodup) (w : World) :
    (discipline server calls hids).Pool (callPool cfg server calls w) := by
  intro i p hp
  rw [callPool, getElem?_map] at hp
  obtain ⟨call, hc, rfl⟩ := Option.map_eq_some_iff.mp hp
  have hne : ∀ id, call ≠ .remove none id := by
    rintro id rfl
    exact htemplate id (mem_of_getElem? hc)
  have hstable : ∀ r s s', Says server call.clientID call.adds r s →
      Spared server call.clientID s s' → Says server call.clientID call.adds r s' :=
    fun r s s' h hs => h.spared hs
  refine Prog.Obeys.mono ?_ ?_ ?_ (Prog.Ensures.recorded hstable (call_ensures hssh hne w))
  · exact fun s t h => h call hc
  · exact fun l s h => h
  intro s l s' n h
  refine ⟨call, hc, ?_⟩
  rcases h with ⟨h2, hG⟩ | ⟨h1, hn, r, hQ, h2⟩
  · exact .inl ⟨h2, hG n⟩
  · refine .inr ⟨h1, hn, ?_⟩
    rcases r with e | u
    · exact .inl h2
    · exact .inr ⟨h2, (settled_iff call s.1).mpr (hQ rfl)⟩

structure Booked (server : VPNServer) (calls : List ClientCall) (ls : List (Option Stmt))
    (s : World × List ClientCall) : Prop where
  settled : ∀ call ∈ s.2, call.Settled server s.1
  going_on : ∀ (i : ℕ) (l : Stmt) (call : ClientCall), ls[i]? = some (some l) →
    calls[i]? = some call → ∀ c ∈ s.2, c.clientID ≠ call.clientID

theorem settled_spared {call : ClientCall} {w w'} (h : call.Settled server w)
    (hs : Spared server call.clientID w w') : call.Settled server w' := by
  rw [settled_iff] at h ⊢
  rwa [hs.2]

theorem booked_step (hids : (calls.map ClientCall.clientID).Nodup) {ls i s l s'}
    (h : Booked server calls ls s) (hl : ls[i]? = some (some l))
    (hG : ∃ call, calls[i]? = some call ∧ ThreadStep server call s l s' n) :
    Booked server calls (ls.set i n) s' := by
  obtain ⟨call, hc, hstep⟩ := hG
  have hold : ∀ c ∈ s.2, c.Settled server s'.1 := fun c hmem =>
    settled_spared (h.settled c hmem) (hstep.spares (h.going_on i l call hl hc c hmem))
  -- a thread that goes on after the step went on before it, and is another one if this one ended
  have hbefore : ∀ (j : ℕ) (l' : Stmt), (ls.set i n)[j]? = some (some l') →
      (i = j ∧ n = some l') ∨ (i ≠ j ∧ ls[j]? = some (some l')) := by
    intro j l' hj
    by_cases hij : i = j
    · subst hij
      rw [getElem?_set_self (List.getElem?_eq_some_iff.mp hl).1] at hj
      exact .inl ⟨rfl, Option.some.inj hj⟩
    · rw [getElem?_set_ne hij] at hj
      exact .inr ⟨hij, hj⟩
  have hnotes : s'.2 = s.2 ∨ (s'.1 = s.1 ∧ n = none ∧ s'.2 = s.2 ++ [call] ∧
      call.Settled server s.1) := by
    rcases hstep with ⟨h2, _⟩ | ⟨h1, hn, h2 | ⟨h2, hset⟩⟩
    · exact .inl h2
    · exact .inl h2
    · exact .inr ⟨h1, hn, h2, hset⟩
  rcases hnotes with h2 | ⟨h1, hn, h2, hset⟩
  · refine ⟨by rwa [h2], fun j l' other hj ho c hmem => ?_⟩
    rw [h2] at hmem
    rcases hbefore j l' hj with ⟨rfl, _⟩ | ⟨_, hj⟩
    · exact h.going_on i l other hl ho c hmem
    · exact h.going_on j l' other hj ho c hmem
  · refine ⟨fun c hmem => ?_, fun j l' other hj ho c hmem => ?_⟩
    · rw [h2] at hmem
      rcases mem_append.mp hmem with hmem | hmem
      · exact hold c hmem
      · rw [mem_singleton.mp hmem, h1]
        exact hset
    · rw [h2] at hmem
      rcases hbefore j l' hj with ⟨_, hn'⟩ | ⟨hij, hj⟩
      · rw [hn] at hn'
        cases hn'
      · rcases mem_append.mp hmem with hmem | hmem
        · exact h.going_on j l' other hj ho c hmem
        · rw [mem_singleton.mp hmem]
          exact (clientID_ne hids hij hc ho).symm

end pool

/-- In every interleaving in which no call writes over a file that changed since it read it,
every call that returned nil is settled. -/
theorem no_client_is_lost (hssh : server.sshPassword ≠ "") {calls : List ClientCall}
    (hids : (calls.map ClientCall.clientID).Nodup) (htemplate : ∀ id, .remove none id ∉ calls)
    {w : World} {c : Config (World × List ClientCall) Stmt}
    (h : Execution Meanwhile (Unstale server) (callPool cfg server calls w) c) :
    ∀ call ∈ c.shared.2, call.Settled server c.shared.1 := by
  have hstart : Booked server calls (callPool cfg server calls w).labels (w, []) :=
    ⟨fun _ hmem => (not_mem_nil hmem).elim, fun _ _ _ _ _ _ hmem => (not_mem_nil hmem).elim⟩
  have henv : ∀ ls s s', Booked server calls ls s → Meanwhile s s' → Booked server calls ls s' := by
    intro ls s s' hb hm
    refine ⟨fun call hmem => ?_, fun i l call hl hc => ?_⟩
    · rw [hm.2] at hmem
      exact settled_spared (hb.settled call hmem) (.of_remote hm.1.remote)
    · rw [hm.2]
      exact hb.going_on i l call hl hc
  have hend := (discipline server calls hids).execution_invariant
    (fun ls i s l s' n hb hl _ hG => booked_step hids hb hl hG) henv
    (callPool_obeys hssh htemplate hids w) hstart h
  exact hend.2.settled

def xrayServer : VPNServer := ⟨1, "nl", "192.0.2.1", "NL", "nl", true, false, 51820, "", "secret"⟩

def realityTemplate : VLESSServerTemplate :=
  ⟨1, 0, 1, "", "192.0.2.1", 443, "example.org", "pub", "ab", "", "xhttp", false, 443, "",
    "amnezia-xray"⟩

def emptyXrayFile : Json :=
  .obj [("inbounds", .arr [.obj [("protocol", .str "vless"),
    ("settings", .obj [("clients", .arr [])])]])]

def xrayWorld : World :=
  { World.start .empty 0 (.answering (fun _ => none) []) with
    remote := { Remote.empty with xrayFiles := fun _ => some emptyXrayFile } }

def addAlice : ClientCall := .add realityTemplate "alice"
def addBob : ClientCall := .add realityTemplate "bob"

def twoAdds : Config (World × List ClientCall) Stmt :=
  callPool (.standard "") xrayServer [addAlice, addBob] xrayWorld

/-- Both calls read the empty file; the second write drops the first client. -/
theorem second_write_drops_client :
    (acceptance (fileOf xrayServer xrayWorld) "alice").length = 1 ∧
      Execution Meanwhile Unguarded twoAdds (twoAdds.runSchedule [0, 1, 0, 1, 0, 1, 0, 1]) ∧
      (twoAdds.runSchedule [0, 1, 0, 1, 0, 1, 0, 1]).shared.2 = [addAlice, addBob] ∧
      ¬ addAlice.Settled xrayServer (twoAdds.runSchedule [0, 1, 0, 1, 0, 1, 0, 1]).shared.1 :=
  ⟨by decide, runSchedule_execution _ _ (schedule_unguarded _ _), by decide, by decide⟩

theorem separate_writes_keep_clients :
    (twoAdds.runSchedule [0, 0, 0, 0, 1, 1, 1, 1]).shared.2 = [addAlice, addBob] ∧
      addAlice.Settled xrayServer (twoAdds.runSchedule [0, 0, 0, 0, 1, 1, 1, 1]).shared.1 ∧
      addBob.Settled xrayServer (twoAdds.runSchedule [0, 0, 0, 0, 1, 1, 1, 1]).shared.1 := by
  have hrun : Execution Meanwhile (Unstale xrayServer) twoAdds
      (twoAdds.runSchedule [0, 0, 0, 0, 1, 1, 1, 1]) :=
    runSchedule_execution _ _ (by decide)
  have hsettled := no_client_is_lost (by decide) (by decide)
    (fun id h => by simp [addAlice, addBob] at h) hrun
  exact ⟨by decide, hsettled addAlice (by decide), hsettled addBob (by decide)⟩

end XrayClients
