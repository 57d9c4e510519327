import DrFrakeVpn.CanonicalRequests
import DrFrakeVpn.GoTime
import DrFrakeVpn.ReplayCache

/-! # Signed requests between the backend and its nodes

Both sides refuse a nonce that they remember, and forget nonces by a clock that they read later
than the one for the age of the request. -/
namespace SignedRequests

open SharedPrograms ReplayCache CanonicalRequests List

structure SignedRequest where
  method : String
  path : String
  timestamp : String
  nonce : String
  signature : String
  body : String
  deriving DecidableEq, Repr

structure Message where
  method : String
  path : String
  timestamp : String
  nonce : String
  body : String
  deriving DecidableEq, Repr

def SignedRequest.message (r : SignedRequest) : Message :=
  ⟨r.method, r.path, r.timestamp, r.nonce, r.body⟩

/-- Parsers and cryptography come from elsewhere; an error is its text. -/
structure Crypto where
  parseTime : String → Except String ℤ
  decodeBase64 : String → Except String (List UInt8)
  verify : (publicKey : List UInt8) → (message : Bytes) → (signature : List UInt8) → Bool
  sum256 : Bytes → Bytes

variable (crypto : Crypto)

def bytes (s : String) : Bytes := s.toUTF8.data.toList

def sha256Hex (body : String) : String :=
  .ofList ((encodeToString (crypto.sum256 (bytes body))).map fun b => .ofNat b.toNat)

/-- What is signed, as the side that verifies it builds it. -/
def signed (canonical : (Bytes → Bytes) → Bytes → Bytes → Bytes → Bytes → Bytes → Bytes)
    (r : SignedRequest) : Bytes :=
  canonical crypto.sum256 (bytes r.method) (bytes r.path) (bytes r.timestamp) (bytes r.nonce)
    (bytes r.body)

def timeOf (r : SignedRequest) : ℤ :=
  match crypto.parseTime r.timestamp with
  | .ok t => t
  | .error _ => 0

def lacksHeaders (r : SignedRequest) : Bool :=
  r.timestamp = "" || r.nonce = "" || r.signature = ""

def isSkewed (maxSkew now : ℤ) (r : SignedRequest) : Bool :=
  let skew := GoTime.sub now (timeOf crypto r)
  maxSkew < skew || skew < -maxSkew

structure Verifier where
  publicKey : List UInt8
  maxSkew : ℤ
  deriving DecidableEq, Repr

def checkSigned (v : Verifier) (r : SignedRequest) (now : ℤ) : Except String Unit :=
  if isSkewed crypto v.maxSkew now r then .error "signature timestamp outside allowed skew"
  else match crypto.decodeBase64 r.signature with
    | .error e => .error ("invalid signature encoding: " ++ e)
    | .ok signature =>
      if crypto.verify v.publicKey (signed crypto canonicalRequest r) signature then .ok ()
      else .error "signature verification failed"

def nodeScheme (v : Verifier) : Scheme String SignedRequest String where
  key r := r.nonce
  time := timeOf crypto
  window := v.maxSkew
  check := checkSigned crypto v
  replayed := "replayed nonce"

abbrev NodeProgram := Prog (Cache String SignedRequest) (Label SignedRequest)

def verify (v : Option Verifier) (r : SignedRequest) : NodeProgram (Except String Unit) :=
  match v with
  | none => pure (.error "request verifier is not configured")
  | some v =>
    if lacksHeaders r then pure (.error "missing signature headers")
    else match crypto.parseTime r.timestamp with
      | .error e => pure (.error ("invalid timestamp: " ++ e))
      | .ok _ => accept (nodeScheme crypto v) r

def verifyPool (v : Verifier) (requests : List SignedRequest) (c : Cache String SignedRequest) :
    Config (Cache String SignedRequest) (Label SignedRequest) :=
  ⟨requests.map fun r => (verify crypto (some v) r).forget, c⟩

structure PushCall where
  request : SignedRequest
  publicKeyRaw : String
  nodeID : String
  deriving DecidableEq, Repr

def fiveMinutes : ℤ := 300000000000

def checkPush (x : PushCall) (now : ℤ) : Except String Unit :=
  if isSkewed crypto fiveMinutes now x.request then
    .error "signature timestamp outside allowed skew"
  else match crypto.decodeBase64 x.publicKeyRaw with
    | .error _ => .error "invalid agent push public key"
    | .ok publicKey =>
      if publicKey.length ≠ 32 then .error "invalid agent push public key size"
      else match crypto.decodeBase64 x.request.signature with
        | .error _ => .error "invalid signature encoding"
        | .ok signature =>
          if crypto.verify publicKey (signed crypto agentCanonicalRequest x.request) signature
          then .ok ()
          else .error "signature verification failed"

def pushScheme : Scheme String PushCall String where
  key x := x.nodeID ++ ":" ++ x.request.nonce
  time x := timeOf crypto x.request
  window := fiveMinutes
  check := checkPush crypto
  replayed := "replayed nonce"

abbrev PushProgram := Prog (Cache String PushCall) (Label PushCall)

def verifyAgentPushSignature (x : PushCall) : PushProgram (Except String Unit) :=
  if lacksHeaders x.request then pure (.error "missing signature headers")
  else match crypto.parseTime x.request.timestamp with
    | .error e => pure (.error ("invalid timestamp: " ++ e))
    | .ok _ => accept (pushScheme crypto) x

def pushPool (calls : List PushCall) (c : Cache String PushCall) :
    Config (Cache String PushCall) (Label PushCall) :=
  ⟨calls.map fun x => (verifyAgentPushSignature crypto x).forget, c⟩

/-- A signed request comes with one node id; the node id itself is not signed. -/
def OneNode (calls : List PushCall) : Prop :=
  ∀ x ∈ calls, ∀ y ∈ calls, x.request.message = y.request.message → x.nodeID = y.nodeID

variable {crypto}

theorem countP_le_one {α : Type} {xs : List α} {q}
    (h : xs.Pairwise fun x y => ¬ (q x ∧ q y)) : xs.countP q ≤ 1 := by
  induction xs with
  | nil => exact Nat.zero_le 1
  | cons x xs ih =>
    obtain ⟨hx, hxs⟩ := pairwise_cons.mp h
    by_cases hq : q x
    · have hnone : xs.countP q = 0 := countP_eq_zero.mpr fun y hy hqy => hx y hy ⟨hq, hqy⟩
      simp [hnone, hq]
    · simpa [hq] using ih hxs

theorem timeOf_message (h : r.message = r'.message) :
    timeOf crypto r = timeOf crypto r' := by
  have ht : r.timestamp = r'.timestamp := congrArg Message.timestamp h
  rw [timeOf, timeOf, ht]

variable (v : Verifier)

theorem verify_obeys (r : SignedRequest) (c : Cache String SignedRequest) :
    (verify crypto (some v) r).Obeys (fun _ _ => True) (fun _ _ => True)
      (Effect (nodeScheme crypto v)) c := by
  unfold verify
  dsimp only
  split
  · trivial
  · split
    · trivial
    · exact accept_obeys r c

theorem verify_outside (r : SignedRequest) :
    inside (verify crypto (some v) r).forget.label? = false := by
  unfold verify
  dsimp only
  split
  · rfl
  · split <;> rfl

variable (x : PushCall)

theorem verifyAgentPushSignature_obeys (c : Cache String PushCall) :
    (verifyAgentPushSignature crypto x).Obeys (fun _ _ => True) (fun _ _ => True)
      (Effect (pushScheme crypto)) c := by
  unfold verifyAgentPushSignature
  split
  · trivial
  · split
    · trivial
    · exact accept_obeys x c

theorem verifyAgentPushSignature_outside :
    inside (verifyAgentPushSignature crypto x).forget.label? = false := by
  unfold verifyAgentPushSignature
  split
  · rfl
  · split <;> rfl

theorem verifyAgentPushSignature_does : (verifyAgentPushSignature crypto x).Does
    fun _ c c' => ∀ y ∈ c'.accepted, y ∈ c.accepted ∨ y = x := by
  unfold verifyAgentPushSignature
  split
  · exact .done _
  · split
    · exact .done _
    · exact accept_does x

theorem verify_once (requests : List SignedRequest) {c} (hempty : c.accepted = []) {c'}
    (h : Execution Passes (Permitted (nodeScheme crypto v)) (verifyPool crypto v requests c) c')
    (m : Message) : (c'.shared.accepted.countP fun r => r.message = m) ≤ 1 := by
  have honce := accepted_once (fun p hp => ?_) (fun n hn => ?_) hempty h
  · apply countP_le_one
    apply honce.imp
    intro r r' hne hmsg
    have hr : r.message = m := of_decide_eq_true hmsg.1
    have hr' : r'.message = m := of_decide_eq_true hmsg.2
    have hsame := hr.trans hr'.symm
    exact hne (congrArg Message.nonce hsame) (timeOf_message hsame)
  · obtain ⟨r, _, rfl⟩ := mem_map.mp hp
    exact (verify_obeys v r _).forget
  · simp only [verifyPool, Config.labels, map_map, mem_map, Function.comp_apply] at hn
    obtain ⟨r, _, rfl⟩ := hn
    exact verify_outside v r

variable {c' : Config (Cache String PushCall) (Label PushCall)} {c : Cache String PushCall}

theorem accepted_calls (hempty : c.accepted = [])
    (h : Execution Passes (Permitted (pushScheme crypto)) (pushPool crypto calls c) c') :
    ∀ x ∈ c'.shared.accepted, x ∈ calls := by
  refine Prog.Does.execution
    (R := fun _ c c' => ∀ y ∈ c'.accepted, y ∈ c.accepted ∨ y ∈ calls)
    (J := fun c => ∀ x ∈ c.accepted, x ∈ calls) ?_ ?_ ?_ ?_ h
  · intro l ls s s' _ hstep hs x hx
    rcases hstep x hx with hold | hnew
    · exact hs x hold
    · exact hnew
  · intro s s' hp hs x hx
    rw [hp.accepted] at hx
    exact hs x hx
  · intro p hp
    obtain ⟨x, hx, rfl⟩ := mem_map.mp hp
    refine (verifyAgentPushSignature_does x).forget.mono fun _ s s' hstep y hy => ?_
    rcases hstep y hy with hold | rfl
    · exact .inl hold
    · exact .inr hx
  · rw [pushPool, hempty]
    nofun

theorem verifyAgentPushSignature_once (calls : List PushCall) (hnode : OneNode calls)
    (hempty : c.accepted = [])
    (h : Execution Passes (Permitted (pushScheme crypto)) (pushPool crypto calls c) c')
    (m : Message) : (c'.shared.accepted.countP fun x => x.request.message = m) ≤ 1 := by
  have hcalls := accepted_calls hempty h
  have honce := accepted_once (fun p hp => ?_) (fun n hn => ?_) hempty h
  · apply countP_le_one
    apply honce.imp_of_mem
    intro x y hx hy hne hmsg
    have hxm : x.request.message = m := of_decide_eq_true hmsg.1
    have hym : y.request.message = m := of_decide_eq_true hmsg.2
    have hsame := hxm.trans hym.symm
    have hkey : x.nodeID ++ ":" ++ x.request.nonce = y.nodeID ++ ":" ++ y.request.nonce := by
      rw [hnode x (hcalls x hx) y (hcalls y hy) hsame,
        show x.request.nonce = y.request.nonce from congrArg Message.nonce hsame]
    exact hne hkey (timeOf_message hsame)
  · obtain ⟨x, _, rfl⟩ := mem_map.mp hp
    exact (verifyAgentPushSignature_obeys x _).forget
  · simp only [pushPool, Config.labels, map_map, mem_map, Function.comp_apply] at hn
    obtain ⟨x, _, rfl⟩ := hn
    exact verifyAgentPushSignature_outside x

/-- Provided that the second reading of each call still finds the request in its window, and on
the backend that a request comes with one node id, every message is accepted once at most. -/
theorem signed_requests_once (crypto : Crypto) :
    (∀ (v : Verifier) (requests : List SignedRequest) (c : Cache String SignedRequest)
        (c' : Config (Cache String SignedRequest) (Label SignedRequest)), c.accepted = [] →
      Execution Passes (Permitted (nodeScheme crypto v)) (verifyPool crypto v requests c) c' →
      ∀ m : Message, (c'.shared.accepted.countP fun r => r.message = m) ≤ 1) ∧
    ∀ (calls : List PushCall) (c : Cache String PushCall)
        (c' : Config (Cache String PushCall) (Label PushCall)), OneNode calls → c.accepted = [] →
      Execution Passes (Permitted (pushScheme crypto)) (pushPool crypto calls c) c' →
      ∀ m : Message, (c'.shared.accepted.countP fun x => x.request.message = m) ≤ 1 :=
  ⟨fun v requests _ _ hempty h => verify_once v requests hempty h,
    fun calls _ _ hnode hempty h => verifyAgentPushSignature_once calls hnode hempty h⟩

/-- Every timestamp is time 0, and every signature is right. -/
def lenient : Crypto where
  parseTime _ := .ok 0
  decodeBase64 _ := .ok (replicate 32 0)
  verify _ _ _ := true
  sum256 body := body

def tenTicks : Verifier := ⟨[], 10⟩

def command : SignedRequest := ⟨"POST", "/apply", "1970-01-01T00:00:00Z", "nonce", "c2ln", "body"⟩

def emptyCache (ρ : Type) (now : ℤ) : Cache String ρ := ⟨now, fun _ => none, []⟩

def sentTwice : Config (Cache String SignedRequest) (Label SignedRequest) :=
  verifyPool lenient tenTicks [command, command] (emptyCache SignedRequest 5)

/-- Both calls at one time: the second is refused. -/
theorem second_call_refused :
    ((sentTwice.runSchedule [0, 0, 0, 0, 1, 1, 1, 1]).shared.accepted.countP
      fun r => r.message = command.message) ≤ 1 :=
  (signed_requests_once lenient).1 tenTicks _ _ _ rfl
    (runSchedule_execution sentTwice [0, 0, 0, 0, 1, 1, 1, 1] (by decide +kernel)) _

/-- The first call is over and the second has checked the age of the request. -/
def checked : Config (Cache String SignedRequest) (Label SignedRequest) :=
  sentTwice.runSchedule [0, 0, 0, 0, 1]

def delayed : Config (Cache String SignedRequest) (Label SignedRequest) :=
  ⟨checked.threads, { checked.shared with now := 11 }⟩

def replayed : Config (Cache String SignedRequest) (Label SignedRequest) :=
  delayed.runSchedule [1, 1, 1]

def twoNodes : Config (Cache String PushCall) (Label PushCall) :=
  pushPool lenient [⟨command, "", "a"⟩, ⟨command, "", "b"⟩] (emptyCache PushCall 5)

theorem command_accepted_twice :
    Execution Passes Locked sentTwice replayed ∧
      (replayed.shared.accepted.countP fun r => r.message = command.message) = 2 ∧
      Execution Passes Locked twoNodes (twoNodes.runSchedule [0, 0, 0, 0, 1, 1, 1, 1]) ∧
      ((twoNodes.runSchedule [0, 0, 0, 0, 1, 1, 1, 1]).shared.accepted.countP
        fun x => x.request.message = command.message) = 2 := by
  have hchecked : Execution Passes Locked sentTwice checked :=
    runSchedule_execution _ _ (by decide +kernel)
  have hdelayed : Execution Passes Locked checked delayed :=
    environment_execution _ ⟨by decide +kernel, rfl, rfl⟩
  have hreplayed : Execution Passes Locked delayed replayed :=
    runSchedule_execution _ _ (by decide +kernel)
  exact ⟨(hchecked.trans hdelayed).trans hreplayed, by decide +kernel,
    runSchedule_execution _ _ (by decide +kernel), by decide +kernel⟩

end SignedRequests
