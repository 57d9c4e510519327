import DrFrakeVpn.AwgPeerFile

/-! # The AWG config file mirrors the peers -/
namespace AwgPeerHistory

open SharedPrograms FaultyTransactions List
open BackendModels BackendWorld AwgConfig VpnCommands AwgPeerFile

inductive PeerCall where
  | add (p : Peer)
  | remove (k : Key)

variable (cfg : Setup) (server : VPNServer)

def PeerCall.program : PeerCall → Handler (Except RemoteError Unit)
  | .add p =>
    addAWGPeer cfg (.addPeer server.id (String.ofList p.publicKey.text)) server
      (String.ofList p.publicKey.text) (String.ofList p.presharedKey.text)
      (String.ofList p.address.text)
  | .remove k =>
    removeAWGPeer cfg (.dropPeer server.id (String.ofList k.text)) (some server)
      (String.ofList k.text)

def runCalls : List PeerCall → Handler Unit
  | [] => pure ()
  | c :: cs => do
    let _ ← c.program cfg server
    runCalls cs

def PeerCall.edit : PeerCall → List Char → List Char
  | .add p, file => file ++ peerBlock p.publicKey.text p.presharedKey.text p.address.text
  | .remove k, file => cleanConfig k.text file

def PeerCall.update : List Peer → PeerCall → List Peer
  | live, .add p => live ++ [p]
  | live, .remove k => live.filter fun p => p.publicKey.text ≠ k.text

def livePeers (calls : List PeerCall) : List Peer := calls.foldl PeerCall.update []

variable {cfg} {server}

theorem program_file (h : cfg.Reliable) (hssh : server.sshPassword ≠ "") (c : PeerCall)
    (w : World) : ((c.program cfg server).run w).2.remote.awgFiles server.id =
      c.edit (w.remote.awgFiles server.id) := by
  cases c with
  | add p =>
    simp [PeerCall.program, addAWGPeer, hssh, sshExec, single, h _, PeerCall.edit, setPeer,
      editAwgFile, Prog.atom]
  | remove k =>
    simp [PeerCall.program, removeAWGPeer, hssh, sshExec, single, h _, PeerCall.edit, deletePeer,
      editAwgFile]

theorem runCalls_file (h : cfg.Reliable) (hssh : server.sshPassword ≠ "") :
    ((runCalls cfg server calls).run w).2.remote.awgFiles server.id =
      calls.foldl (fun file c => c.edit file) (w.remote.awgFiles server.id) := by
  induction calls generalizing w with
  | nil => rfl
  | cons c cs ih =>
    rw [runCalls, Prog.bind_eq, Prog.run_bind, ih, program_file h hssh, foldl_cons]

def blockStart (k : List Char) : List Char := peerHeader ++ '\n' :: keyLine k

/-- A call that the file is ready for. A key is added once. A removed key has no `+`, which
the pattern reads as a repetition, the file has no carriage return, which Python rewrites, and
the block to remove has a blank line before it, unless it is the last one. -/
def Ready (file : List Char) : PeerCall → Prop
  | .add p => ∀ t ∈ file.tails, ¬ blockStart p.publicKey.text <+: t
  | .remove k => '+' ∉ k.text ∧ '\r' ∉ file ∧ ∀ t ∈ file.tails,
      blockStart k.text <+: t → '\n' :: '\n' :: t <:+ file ∨ '[' ∉ t.tail

instance (file : List Char) (c : PeerCall) : Decidable (Ready file c) :=
  match c with
  | .add p => inferInstanceAs
      (Decidable (∀ t ∈ file.tails, ¬ blockStart p.publicKey.text <+: t))
  | .remove k => inferInstanceAs
      (Decidable ('+' ∉ k.text ∧ '\r' ∉ file ∧ ∀ t ∈ file.tails,
        blockStart k.text <+: t → '\n' :: '\n' :: t <:+ file ∨ '[' ∉ t.tail))

def ReadyThroughout : List Char → List PeerCall → Prop
  | _, [] => True
  | file, c :: cs => Ready file c ∧ ReadyThroughout (c.edit file) cs

instance : (file : List Char) → (calls : List PeerCall) → Decidable (ReadyThroughout file calls)
  | _, [] => isTrue trivial
  | file, c :: cs =>
    have : Decidable (ReadyThroughout (c.edit file) cs) :=
      instDecidableReadyThroughout (c.edit file) cs
    inferInstanceAs (Decidable (Ready file c ∧ ReadyThroughout (c.edit file) cs))

/-- A base config without its last line ends. -/
structure Core (core : List Char) : Prop where
  no_peer : peerHeader ∉ linesOf core
  ends : core.getLast? ≠ some '\n'

/-- The file is the base config followed by one block for each of these peers. -/
def Mirrors (core file : List Char) (live : List Peer) : Prop :=
  ∃ es tail, file = core ++ peersText es tail ∧ es.map Prod.snd = live ∧
    (live.map fun p => p.publicKey.text).Nodup

def textBefore (es : List (ℕ × Peer)) : List Char :=
  es.flatMap fun e => newlines (e.1 + 1) ++ e.2.block

theorem peersText_append (pre : List (ℕ × Peer)) (es : List (ℕ × Peer)) (tail : ℕ) :
    peersText (pre ++ es) tail = textBefore pre ++ peersText es tail := by
  induction pre with
  | nil => rfl
  | cons e pre ih => simp [peersText, ih, textBefore, flatMap_cons]

theorem blockStart_of_block (p : Peer) (s : List Char) :
    blockStart p.publicKey.text <+: p.block ++ s := by
  refine ⟨p.pskText ++ '\n' :: (p.ipText ++ s), ?_⟩
  simp [blockStart, keyLine, Peer.block, Peer.keyText, cons_append]

theorem block_at (core : List Char) (pre : List (ℕ × Peer)) (n : ℕ) (p : Peer)
    (post : List (ℕ × Peer)) (tail : ℕ) :
    core ++ peersText (pre ++ (n, p) :: post) tail =
      (core ++ textBefore pre ++ newlines (n + 1)) ++ (p.block ++ peersText post tail) := by
  rw [peersText_append, peersText]
  simp only [append_assoc]

variable {core : List Char}

theorem textBefore_ends (hcore : Core core) (pre : List (ℕ × Peer)) :
    (core ++ textBefore pre).getLast? ≠ some '\n' := by
  rcases eq_nil_or_concat pre with rfl | ⟨pre, e, rfl⟩
  · simpa [textBefore] using hcore.ends
  · have hmask : hostMask.getLast? = some '2' := by decide +kernel
    simp [textBefore, Peer.block, Peer.ipText,
      getLast?_cons, hmask]

theorem keepsLines_of_ready (hcore : Core core) {es tail k}
    (h : Ready (core ++ peersText es tail) (.remove k)) : KeepsLines k.text es := by
  intro pre n p post hes hp
  obtain ⟨_, _, hblocks⟩ := h
  rw [hes, block_at] at hblocks
  have hat := hblocks (p.block ++ peersText post tail) ((mem_tails _ _).mpr ⟨_, rfl⟩)
  rw [← hp] at hat
  rcases hat (blockStart_of_block p _) with ⟨u, hu⟩ | hlast
  · -- a blank line before the block is one of its own
    left
    refine Nat.pos_of_ne_zero ?_
    rintro rfl
    refine textBefore_ends hcore pre ?_
    have hcut : (u ++ ['\n']) ++ '\n' :: (p.block ++ peersText post tail) =
        (core ++ textBefore pre) ++ '\n' :: (p.block ++ peersText post tail) := by
      simpa [newlines] using hu
    rw [← append_cancel_right hcut]
    simp
  · -- a block behind it would have a bracket
    right
    cases post with
    | nil => rfl
    | cons e post =>
      refine absurd ?_ hlast
      obtain ⟨rest, hrest⟩ := peerHeader_eq
      simp [peersText, Peer.block, hrest]

theorem mirrors_start (n : ℕ) : Mirrors core (core ++ newlines n) [] :=
  ⟨[], n, rfl, rfl, by simp⟩

variable {live : List Peer} {file : List Char}

theorem mirrors_add (h : Mirrors core file live) {p} (hready : Ready file (.add p)) :
    Mirrors core (PeerCall.edit (.add p) file) (PeerCall.update live (.add p)) := by
  obtain ⟨es, tail, rfl, rfl, hnodup⟩ := h
  refine ⟨es ++ [(tail, p)], 1, ?_, by simp [PeerCall.update], ?_⟩
  · -- the line ends that closed the file become the blank lines of the new block
    have htext : ∀ es' : List (ℕ × Peer), peersText es' tail ++ '\n' :: (p.block ++ ['\n']) =
        peersText (es' ++ [(tail, p)]) 1 := by
      intro es'
      induction es' with
      | nil => simp only [peersText, nil_append, newlines_succ_append]; rfl
      | cons e es' ih => simp [peersText, ih]
    rw [PeerCall.edit, Peer.peerBlock_eq, append_assoc, htext]
  · rw [PeerCall.update, map_append, nodup_append]
    refine ⟨hnodup, by simp, ?_⟩
    intro k hk k' hk' heq
    obtain ⟨q, hq, rfl⟩ := mem_map.mp hk
    obtain ⟨e, he, rfl⟩ := mem_map.mp hq
    obtain ⟨pre, post, rfl⟩ := append_of_mem he
    rw [map_singleton, mem_singleton] at hk'
    refine hready (e.2.block ++ peersText post tail) ((mem_tails _ _).mpr ?_) ?_
    · rw [block_at]
      exact suffix_append _ _
    · rw [← hk', ← heq]
      exact blockStart_of_block e.2 _

theorem map_dropPeer (k : List Char) (es : List (ℕ × Peer)) (tail : ℕ)
    (h : (es.map fun e => e.2.publicKey.text).Nodup) :
    (dropPeer k es tail).1.map Prod.snd =
      (es.map Prod.snd).filter fun p => p.publicKey.text ≠ k := by
  induction es with
  | nil => rfl
  | cons e es ih =>
    obtain ⟨n, p⟩ := e
    rw [map_cons, nodup_cons] at h
    by_cases hp : p.publicKey.text = k
    · have hall : (es.map Prod.snd).filter (fun q => q.publicKey.text ≠ k) = es.map Prod.snd := by
        refine filter_eq_self.mpr fun q hq => ?_
        obtain ⟨e, he, rfl⟩ := mem_map.mp hq
        refine decide_eq_true fun heq => h.1 ?_
        rw [hp, ← heq]
        exact mem_map_of_mem he
      cases es with
      | nil => simp [dropPeer, hp]
      | cons e' es => simpa [dropPeer, hp] using hall.symm
    · simp [dropPeer, hp, ih h.2]

theorem mirrors_remove (hcore : Core core) (h : Mirrors core file live) {k}
    (hready : Ready file (.remove k)) :
    Mirrors core (PeerCall.edit (.remove k) file) (PeerCall.update live (.remove k)) := by
  obtain ⟨es, tail, rfl, rfl, hnodup⟩ := h
  have hk : '\n' ∉ k.text := fun hmem => (k.inline _ hmem).1 rfl
  rw [map_map] at hnodup
  have hkeeps := keepsLines_of_ready hcore hready
  have hcore' : peerHeader ∉ (linesOf core).tail :=
    fun hmem => hcore.no_peer (mem_of_mem_tail hmem)
  refine ⟨(dropPeer k.text es tail).1, (dropPeer k.text es tail).2, ?_,
    map_dropPeer k.text es tail hnodup, ?_⟩
  · rw [PeerCall.edit, cleanConfig_plain hready.1 hready.2.1,
      deleteAll_lines hcore' (endsLine_peersText es tail),
      deleteAll_peersText hk hnodup hkeeps]
  · rw [PeerCall.update]
    refine List.Nodup.sublist (List.Sublist.map _ filter_sublist) ?_
    rwa [map_map]

theorem mirrors_run (hcore : Core core) (calls : List PeerCall) (h : Mirrors core file live)
    (hready : ReadyThroughout file calls) :
    Mirrors core (calls.foldl (fun file c => c.edit file) file)
      (calls.foldl PeerCall.update live) := by
  induction calls generalizing file live with
  | nil => exact h
  | cons c cs ih =>
    refine ih ?_ hready.2
    cases c with
    | add p => exact mirrors_add h hready.1
    | remove k => exact mirrors_remove hcore h hready.1

theorem exists_core (hpeer : peerHeader ∉ linesOf base) :
    ∃ core n, base = core ++ newlines n ∧ Core core := by
  induction base using reverseRecOn with
  | nil => exact ⟨[], 0, rfl, hpeer, by simp⟩
  | append_singleton base c ih =>
    by_cases hc : c = '\n'
    · subst hc
      rw [linesOf_append] at hpeer
      obtain ⟨core, n, rfl, hcore⟩ := ih fun hmem => hpeer (mem_append_left _ hmem)
      exact ⟨core, n + 1, by rw [newlines, newlines, replicate_succ', append_assoc], hcore⟩
    · exact ⟨base ++ [c], 0, by simp [newlines], hpeer, by simpa using hc⟩

/-- Every history of calls that the file is ready for leaves the base section and one section
for each live peer. -/
theorem config_mirrors_peers (hcfg : cfg.Reliable) (hssh : server.sshPassword ≠ "")
    {base : List Char} (hpeer : peerHeader ∉ linesOf base)
    (calls : List PeerCall) (hready : ReadyThroughout base calls) (w : World)
    (hw : w.remote.awgFiles server.id = base) :
    sections (((runCalls cfg server calls).run w).2.remote.awgFiles server.id) =
      ((sections base).1, (livePeers calls).map Peer.lines) := by
  obtain ⟨core, n, rfl, hcore⟩ := exists_core hpeer
  obtain ⟨es, tail, hfile, hlive, _⟩ := mirrors_run hcore calls (mirrors_start n) hready
  have hbase := sections_peersText hcore.no_peer [] n
  rw [peersText] at hbase
  rw [runCalls_file hcfg hssh, hw, hfile, sections_peersText hcore.no_peer, hbase, livePeers,
    ← hlive, map_map]
  rfl

def repeatedKey (c : Char) (h : isBase64 c = true) : Key where
  digits := replicate 42 c
  last := 'A'
  length_eq := length_replicate
  base64 d hd := by rwa [eq_of_mem_replicate hd]
  last_digit := by decide

def peerOf (c : Char) (h : isBase64 c = true) (y : ℕ) : Peer :=
  ⟨repeatedKey c h, repeatedKey c h, ⟨1, y⟩⟩

def firstPeer : Peer := peerOf 'a' rfl 2
def secondPeer : Peer := peerOf 'b' rfl 3
def thirdPeer : Peer := peerOf 'c' rfl 4

def interfaceText : List Char := "[Interface]\nListenPort = 51820\n".toList

def awgServer : VPNServer := ⟨1, "nl", "192.0.2.1", "NL", "nl", true, false, 51820, "", "secret"⟩

def awgWorld : World :=
  { World.start .empty 0 (.answering (fun _ => none) []) with
    remote := { Remote.empty with awgFiles := fun _ => interfaceText } }

def addThree : List PeerCall := [.add firstPeer, .add secondPeer, .add thirdPeer]

/-- Removing the first peer and then the second one joins the header of the third to the last
line of the base config. -/
theorem second_removal_joins_header :
    interfaceText.getLast? = some '\n' ∧ peerHeader ∉ linesOf interfaceText ∧
      sections (((runCalls (.standard "") awgServer (addThree ++
        [.remove firstPeer.publicKey, .remove secondPeer.publicKey])).run
          awgWorld).2.remote.awgFiles awgServer.id) ≠
        ((sections interfaceText).1, [thirdPeer.lines]) := by
  decide +kernel

theorem first_removal_keeps_sections :
    sections (((runCalls (.standard "") awgServer
        [.add firstPeer, .add secondPeer, .remove firstPeer.publicKey]).run
          awgWorld).2.remote.awgFiles awgServer.id) =
      ((sections interfaceText).1, [secondPeer.lines]) :=
  config_mirrors_peers (Setup.standard_reliable "") (by decide) (by decide +kernel) _
    (by decide +kernel) awgWorld rfl

end AwgPeerHistory
