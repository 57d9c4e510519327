import DrFrakeVpn.CodeHandlers

/-! # The latest code wins

For one address and purpose it is followed which codes are stored and sent, and which of them are
accepted. -/
namespace VerificationCodes

open SharedPrograms FaultyTransactions RecordTables GoValues List Prog
open AccountWorld CodeHandlers

inductive CodeRequest where
  | register (req : Except String RegisterRequest)
  | verifyEmail (req : Except String VerifyRequest)
  | forgotPassword (req : Except String String)
  | resetPassword (req : Except String ResetPasswordRequest)
  | cleanUp

variable (cfg : AccountSetup)

def CodeRequest.program : CodeRequest → AccountHandler Unit
  | .register req => (CodeHandlers.register cfg req).forget
  | .verifyEmail req => (CodeHandlers.verifyEmail cfg req).forget
  | .forgotPassword req => (CodeHandlers.forgotPassword cfg req).forget
  | .resetPassword req => (CodeHandlers.resetPassword cfg req).forget
  | .cleanUp => (cleanUpCodes cfg).forget

def inTurn : List CodeRequest → AccountHandler Unit
  | [] => pure ()
  | request :: rest => do
    request.program cfg
    inTurn rest

/-- Time passes and users change, but codes are stored and sent by these requests only. -/
structure Meanwhile (a a' : Accounts) : Prop where
  now : a.world.now ≤ a'.world.now
  codes : a'.codes = a.codes
  mails : a'.mails = a.mails

section pair

variable (email : String) (purpose : Purpose)

def pairCodes (a : Accounts) : List VerificationCode := a.codes.rows.filter (ofPair email purpose)

def liveCodes (a : Accounts) : List VerificationCode :=
  (pairCodes email purpose a).filter (isLive a.world.now)

/-- The code as it is sent; `Register` stores it together with the hash of the password. -/
def plainCode (c : VerificationCode) : Option String :=
  match c.purpose with
  | .verify => (splitBar c.code).map Prod.fst
  | .reset => some c.code

def generated (a : Accounts) : List (Option String) := (pairCodes email purpose a).map plainCode

def sent (a : Accounts) : List String :=
  (a.mails.filter fun m => m.1 = email && m.2.1 = purpose).map fun m => m.2.2

def present (code password : String) : AccountHandler AuthReply :=
  match purpose with
  | .verify => CodeHandlers.verifyEmail cfg (.ok ⟨email, code⟩)
  | .reset => CodeHandlers.resetPassword cfg (.ok ⟨email, code, password⟩)

def Rejected (a : Accounts) (code : String) : Prop :=
  ∀ password, (present cfg email purpose code password).run a = (invalidCode, a)

/-- The code is right, and it is not live any more. -/
def Accepted (a : Accounts) (code : String) : Prop :=
  ∀ password, ((present cfg email purpose code password).run a).1 ≠ invalidCode ∧
    ∀ c ∈ liveCodes email purpose ((present cfg email purpose code password).run a).2,
      plainCode c ≠ some code

structure LatestWins (a : Accounts) : Prop where
  alone : (liveCodes email purpose a).length ≤ 1
  latest : ∀ code, (sent email purpose a).getLast? = some code →
    (∃ c ∈ liveCodes email purpose a, plainCode c = some code) → Accepted cfg email purpose a code
  earlier : ∀ code ∈ (sent email purpose a).dropLast, Rejected cfg email purpose a code
  used : ∀ c ∈ pairCodes email purpose a, c.used = true → ∀ code, plainCode c = some code →
    Rejected cfg email purpose a code

/-- A code of the pair is stored only when no other is live. -/
def StoresAlone : Guard Accounts AccountStmt := fun l _ a =>
  l = .code email purpose .create → liveCodes email purpose a = []

instance (l : AccountStmt) (ls : List (Option AccountStmt)) (a : Accounts) :
    Decidable (StoresAlone email purpose l ls a) :=
  inferInstanceAs (Decidable (_ → _))

/-- `pending` is the code that is stored and not sent yet. Only the last code can be live. -/
structure Orderly (pending : List String) (a : Accounts) : Prop where
  recorded : generated email purpose a = (sent email purpose a ++ pending).map some
  older : ∀ c ∈ (pairCodes email purpose a).dropLast, isLive a.world.now c = false

end pair

variable {cfg} {email : String} {purpose : Purpose} {pending : List String} {a a' : Accounts}
  {c : VerificationCode}

theorem ofPair_iff : ofPair email purpose c ↔ c.email = email ∧ c.purpose = purpose := by
  simp [ofPair]

theorem isLive_later (h : t ≤ t') (hd : isLive t c = false) : isLive t' c = false := by
  unfold isLive at *
  grind

theorem Orderly.meanwhile (h : Orderly email purpose pending a) (hm : Meanwhile a a') :
    Orderly email purpose pending a' := by
  have hpair : pairCodes email purpose a' = pairCodes email purpose a := by
    rw [pairCodes, hm.codes, pairCodes]
  refine ⟨?_, fun c hc => ?_⟩
  · rw [generated, hpair, sent, hm.mails]
    exact h.recorded
  · rw [hpair] at hc
    exact isLive_later hm.now (h.older c hc)

theorem Orderly.congr (h : Orderly email purpose pending a) (hnow : a'.world.now = a.world.now)
    (hcodes : a'.codes = a.codes) (hmails : a'.mails = a.mails) :
    Orderly email purpose pending a' :=
  h.meanwhile ⟨hnow.ge, hcodes, hmails⟩

structure Ages (f : Table.Write VerificationCode) : Prop where
  pair : ∀ email purpose c, ofPair email purpose (f.apply c) = ofPair email purpose c
  plain : ∀ c, plainCode (f.apply c) = plainCode c
  live : ∀ t c, isLive t c = false → isLive t (f.apply c) = false

theorem ages_usedUp : Ages usedUp where
  pair _ _ _ := rfl
  plain _ := rfl
  live _ _ _ := rfl

theorem ages_deleted (now : ℤ) : Ages (deletedCode now) where
  pair _ _ _ := rfl
  plain _ := rfl
  live t c _ := by simp [isLive, deletedCode]

variable {f : Table.Write VerificationCode}

theorem pairCodes_update (hf : Ages f) :
    pairCodes email purpose { a with codes := a.codes.update q f } =
      (pairCodes email purpose a).map fun c => if q c then f.apply c else c := by
  simp only [pairCodes, Table.update, filter_map]
  congr 1
  apply filter_congr
  intro c _
  simp only [Function.comp_apply]
  split
  · exact hf.pair email purpose c
  · rfl

theorem Orderly.update (h : Orderly email purpose pending a) (hf : Ages f)
    (q : VerificationCode → Bool) :
    Orderly email purpose pending { a with codes := a.codes.update q f } := by
  refine ⟨?_, fun c hc => ?_⟩
  · rw [generated, pairCodes_update hf, map_map]
    refine Eq.trans (map_congr_left fun c _ => ?_) h.recorded
    simp only [Function.comp_apply]
    split
    · exact hf.plain c
    · rfl
  · rw [pairCodes_update hf, ← map_dropLast] at hc
    obtain ⟨d, hd, rfl⟩ := mem_map.mp hc
    split
    · exact hf.live _ d (h.older d hd)
    · exact h.older d hd

variable {mk : ℕ → VerificationCode} {t : Table VerificationCode}

theorem pairCodes_insert (ht : a.codes.insert mk = some t) :
    pairCodes email purpose { a with codes := t } =
      pairCodes email purpose a ++ [mk a.codes.seq].filter (ofPair email purpose) := by
  rw [pairCodes, (a.codes.insert_some ht).1, filter_append]
  rfl

variable {code : String}

theorem Orderly.store (h : Orderly email purpose [] a) (hlive : liveCodes email purpose a = [])
    (ht : a.codes.insert mk = some t) (hpair : ofPair email purpose (mk a.codes.seq))
    (hplain : plainCode (mk a.codes.seq) = some code) :
    Orderly email purpose [code] { a with codes := t } := by
  have hcodes : pairCodes email purpose { a with codes := t } =
      pairCodes email purpose a ++ [mk a.codes.seq] := by
    rw [pairCodes_insert ht, filter_cons_of_pos hpair, filter_nil]
  refine ⟨?_, fun c hc => ?_⟩
  · have hrec := h.recorded
    rw [append_nil] at hrec
    rw [generated, hcodes, map_append, map_append, ← generated, hrec, map_singleton,
      hplain]
    rfl
  · rw [hcodes, dropLast_concat] at hc
    have hnone := filter_eq_nil_iff.mp hlive c hc
    simpa using hnone

theorem Orderly.store_other (h : Orderly email purpose pending a) (ht : a.codes.insert mk = some t)
    (hpair : ofPair email purpose (mk a.codes.seq) = false) :
    Orderly email purpose pending { a with codes := t } := by
  have hcodes : pairCodes email purpose { a with codes := t } = pairCodes email purpose a := by
    rw [pairCodes_insert ht, filter_cons_of_neg (by simp [hpair]), filter_nil,
      append_nil]
  refine ⟨?_, fun c hc => ?_⟩
  · rw [generated, hcodes]
    exact h.recorded
  · rw [hcodes] at hc
    exact h.older c hc

theorem Orderly.send (h : Orderly email purpose [code] a) :
    Orderly email purpose [] { a with mails := a.mails ++ [(email, purpose, code)] } := by
  refine ⟨?_, h.older⟩
  refine Eq.trans h.recorded ?_
  simp [sent]

theorem Orderly.send_other (h : Orderly email purpose pending a)
    (hpair : ¬ (email' = email ∧ purpose' = purpose)) :
    Orderly email purpose pending { a with mails := a.mails ++ [(email', purpose', code)] } := by
  refine ⟨Eq.trans h.recorded ?_, h.older⟩
  have hsent : sent email purpose { a with mails := a.mails ++ [(email', purpose', code)] } =
      sent email purpose a := by
    rw [sent, filter_append, filter_cons_of_neg (by simpa using hpair), filter_nil,
      append_nil, sent]
  rw [hsent]

/-- The program keeps the codes in order as long as it stores a code of the pair only when none
is live, and every code that it has stored is sent at its end. -/
def Keeps (email : String) (purpose : Purpose) {α : Type} (p : AccountHandler α) : Prop :=
  p.Maintains (fun l a => StoresAlone email purpose l [] a) (Orderly email purpose)
    (fun pending _ => pending = []) []

section programs

variable {α β : Type} {l : AccountStmt}

theorem keeps_pure (x : α) : Keeps email purpose (pure x) := rfl

variable {p : AccountHandler α}

theorem Keeps.bind {k : α → AccountHandler β} (hp : Keeps email purpose p)
    (hk : ∀ x, Keeps email purpose (k x)) : Keeps email purpose (p >>= k) :=
  Prog.Maintains.bind hp fun j x (hj : j = []) => by
    subst hj
    exact hk x

theorem Keeps.forget (hp : Keeps email purpose p) : Keeps email purpose p.forget :=
  hp.bind fun _ => keeps_pure ()

theorem keeps_atom {f : Accounts → α × Accounts}
    (h : ∀ a, Orderly email purpose [] a → Orderly email purpose [] (f a).2) :
    Keeps email purpose (.atom l f) :=
  Prog.maintains_atom fun a ha _ => ⟨[], h a ha, rfl⟩

theorem keeps_exec {f : Accounts → Except AccountError α × Accounts}
    (h : ∀ a, Orderly email purpose [] a → Orderly email purpose [] (f a).2) :
    Keeps email purpose (exec cfg l f) := by
  refine keeps_atom fun a ha => ?_
  split
  · exact ha
  · exact h a ha

theorem keeps_first {find : Accounts → Option α} :
    Keeps email purpose (exec cfg l (firstRow find)) := by
  refine keeps_exec fun a ha => ?_
  unfold firstRow
  split <;> exact ha

theorem keeps_clock : Keeps email purpose (clock l) := keeps_atom fun _ ha => ha

theorem keeps_draw : Keeps email purpose drawNumber := keeps_atom fun _ ha => ha.congr rfl rfl rfl

variable (e : String)

theorem keeps_sentRecently (q : Purpose) : Keeps email purpose (sentRecently cfg e q) := by
  refine keeps_clock.bind fun now => keeps_first.bind fun r => ?_
  cases r <;> exact keeps_pure _

theorem keeps_invalidateCodes (q : Purpose) : Keeps email purpose (invalidateCodes cfg e q) :=
  (keeps_exec fun _ ha => ha).bind fun _ => keeps_pure ()

theorem keeps_markUsed (c : VerificationCode) (e : String) (q : Purpose) :
    Keeps email purpose (markUsed cfg c e q) :=
  (keeps_exec fun _ ha => ha.update ages_usedUp _).bind fun _ => keeps_pure ()

theorem keeps_cleanUpCodes : Keeps email purpose (cleanUpCodes cfg) :=
  keeps_clock.bind fun now =>
    (keeps_exec fun _ ha => ha.update (ages_deleted now) _).bind fun _ => keeps_pure ()

theorem keeps_generateTokens : Keeps email purpose (generateTokens cfg site user) :=
  keeps_clock.bind fun _ => keeps_clock.bind fun _ => keeps_pure _

theorem codes_insert (a : Accounts) (e : String) (q : Purpose) (text : String) (t₁ t₂ : ℤ) :
    ∃ t, a.codes.insert (codeRow e q text t₁ t₂) = some t :=
  a.codes.insert_isSome rfl fun c hc => Nat.ne_of_lt (a.codes.valid.2.1 c hc)

theorem keeps_sendCode (hcfg : cfg.Reliable) (e : String) (q : Purpose) (htext : ∀ v t₁ t₂
      id, plainCode (codeRow e q (text (generateCode v)) t₁ t₂ id) = some (generateCode v)) :
    Keeps email purpose (sendCode cfg e q text) := by
  refine keeps_draw.bind fun n => keeps_clock.bind fun now => ?_
  intro a ha hstore
  obtain ⟨t, ht⟩ := codes_insert a e q (text (generateCode (cfg.codeValue n))) a.world.now
    (now + 10 * minute)
  simp only [hcfg _, Bool.false_eq_true, if_false, ht]
  by_cases hpair : e = email ∧ q = purpose
  · obtain ⟨rfl, rfl⟩ := hpair
    refine ⟨[generateCode (cfg.codeValue n)], ?_, ?_⟩
    · exact ha.store (hstore rfl) ht (ofPair_iff.mpr ⟨rfl, rfl⟩) (htext ..)
    · exact Prog.maintains_atom fun b hb _ => ⟨[], hb.send, rfl⟩
  · refine ⟨[], ?_, ?_⟩
    · exact ha.store_other ht (Bool.eq_false_iff.mpr (mt ofPair_iff.mp hpair))
    · exact keeps_atom fun b hb => hb.send_other hpair

theorem bar_notMem_generateCode (v : Fin 900000) : '|' ∉ (generateCode v).toList := by
  intro h
  rw [generateCode, Nat.toString_eq_repr, Nat.toList_repr] at h
  have hdigit := Nat.isDigit_of_mem_toDigits (by decide) (by decide) h
  exact absurd hdigit (by decide)

theorem splitBar_append (h : '|' ∉ code.toList) (hash : String) :
    splitBar (code ++ "|" ++ hash) = some (code, hash) := by
  have hlist : (code ++ "|" ++ hash).toList = code.toList ++ '|' :: hash.toList := by simp
  have hall : ∀ x ∈ code.toList, decide (x ≠ '|') := fun x hx =>
    decide_eq_true fun hbar => h (hbar ▸ hx)
  rw [splitBar, hlist, dropWhile_append_of_pos hall, takeWhile_append_of_pos hall]
  simp

theorem keeps_register (hcfg : cfg.Reliable) (req : Except String RegisterRequest) :
    Keeps email purpose (CodeHandlers.register cfg req) := by
  cases req with
  | error message => exact keeps_pure _
  | ok req =>
    refine keeps_first.bind fun r => ?_
    cases r with
    | ok user => exact keeps_pure _
    | error e =>
      cases e with
      | recordNotFound =>
        refine (keeps_sentRecently _ _).bind fun recent => ?_
        split
        · exact keeps_pure _
        refine (keeps_invalidateCodes _ _).bind fun _ => keeps_draw.bind fun n => ?_
        split
        · exact keeps_pure _
        · next hash _ =>
          refine (keeps_sendCode hcfg _ _ fun v t₁ t₂ id => ?_).bind fun _ => keeps_pure _
          simp [plainCode, codeRow, splitBar_append (bar_notMem_generateCode v)]
      | _ => exact keeps_pure _

theorem keeps_createAccount (hash : String) : Keeps email purpose (createAccount cfg e hash) := by
  refine Keeps.bind (keeps_exec fun a ha => ?_) fun r => ?_
  · unfold storeUser
    split
    · exact ha
    · exact ha.congr rfl rfl rfl
  · cases r with
    | error _ => exact keeps_pure _
    | ok user =>
      refine keeps_clock.bind fun now => Keeps.bind (keeps_exec fun a ha => ?_) fun _ =>
        keeps_generateTokens.bind fun _ => keeps_pure _
      unfold storeFreeSubscription
      split
      · exact ha
      · exact ha.congr rfl rfl rfl

theorem keeps_verifyEmail (req : Except String VerifyRequest) :
    Keeps email purpose (CodeHandlers.verifyEmail cfg req) := by
  cases req with
  | error message => exact keeps_pure _
  | ok req =>
    refine keeps_clock.bind fun now => keeps_first.bind fun r => ?_
    cases r with
    | error _ => exact keeps_pure _
    | ok vc =>
      dsimp only
      unfold checkCode
      split
      · exact keeps_pure _
      · split
        · exact keeps_pure _
        · exact (keeps_markUsed _ _ _).bind fun _ => keeps_createAccount _ _

theorem keeps_forgotPassword (hcfg : cfg.Reliable) (req : Except String String) :
    Keeps email purpose (CodeHandlers.forgotPassword cfg req) := by
  cases req with
  | error message => exact keeps_pure _
  | ok e =>
    refine keeps_first.bind fun r => ?_
    cases r with
    | error _ => exact keeps_pure _
    | ok user =>
      refine (keeps_sentRecently _ _).bind fun recent => ?_
      split
      · exact keeps_pure _
      · refine (keeps_invalidateCodes _ _).bind fun _ => ?_
        exact (keeps_sendCode hcfg _ _ fun _ _ _ _ => rfl).bind fun _ => keeps_pure _

theorem keeps_updatePassword (password : String) :
    Keeps email purpose (updatePassword cfg e password) := by
  refine keeps_draw.bind fun n => ?_
  split
  · exact keeps_pure _
  refine Keeps.bind (keeps_exec fun a ha => ?_) fun r => ?_
  · unfold storePassword
    split
    · exact ha
    · exact ha.congr rfl rfl rfl
  · split <;> exact keeps_pure _

theorem keeps_resetPassword (req : Except String ResetPasswordRequest) :
    Keeps email purpose (CodeHandlers.resetPassword cfg req) := by
  cases req with
  | error message => exact keeps_pure _
  | ok req =>
    refine keeps_clock.bind fun now => keeps_first.bind fun r => ?_
    cases r with
    | error _ => exact keeps_pure _
    | ok vc => exact (keeps_markUsed _ _ _).bind fun _ => keeps_updatePassword _ _

theorem keeps_request (hcfg : cfg.Reliable) (request : CodeRequest) :
    Keeps email purpose (request.program cfg) := by
  cases request with
  | register req => exact (keeps_register hcfg req).forget
  | verifyEmail req => exact (keeps_verifyEmail req).forget
  | forgotPassword req => exact (keeps_forgotPassword hcfg req).forget
  | resetPassword req => exact (keeps_resetPassword req).forget
  | cleanUp => exact keeps_cleanUpCodes.forget

theorem keeps_inTurn (hcfg : cfg.Reliable) (requests : List CodeRequest) :
    Keeps email purpose (inTurn cfg requests) := by
  induction requests with
  | nil => exact keeps_pure ()
  | cons request rest ih => exact (keeps_request hcfg request).bind fun _ => ih

end programs

theorem Orderly.live (h : Orderly email purpose pending a) :
    liveCodes email purpose a = [] ∨ ∃ c, liveCodes email purpose a = [c] := by
  rcases eq_nil_or_concat (pairCodes email purpose a) with hnil | ⟨older, c, hc⟩
  · exact .inl (by rw [liveCodes, hnil, filter_nil])
  rw [concat_eq_append] at hc
  have hdead : older.filter (isLive a.world.now) = [] := by
    apply filter_eq_nil_iff.mpr
    intro d hd
    have hmem : d ∈ (pairCodes email purpose a).dropLast := by
      rwa [hc, dropLast_concat]
    rw [h.older d hmem]
    exact Bool.false_ne_true
  rw [liveCodes, hc, filter_append, hdead, nil_append]
  by_cases hlive : isLive a.world.now c
  · exact .inr ⟨c, by rw [filter_cons_of_pos hlive, filter_nil]⟩
  · exact .inl (by rw [filter_cons_of_neg hlive, filter_nil])

theorem first_live :
    a.codes.first? (fun c => ofPair email purpose c && isLive a.world.now c) =
      (liveCodes email purpose a).head? := by
  rw [liveCodes, pairCodes, filter_filter, head?_filter]
  exact congrArg (find? · a.codes.rows) (funext fun c => Bool.and_comm ..)

theorem verifyEmail_run (hcfg : cfg.Reliable) :
    (CodeHandlers.verifyEmail cfg (.ok req)).run a =
      match (liveCodes req.email .verify a).head? with
      | none => (invalidCode, a)
      | some vc => (checkCode cfg req vc).run a := by
  simp only [CodeHandlers.verifyEmail, clock, bind_eq, atom_bind, run_act,
    Prog.run_bind, exec_run hcfg, firstRow, first_live]
  cases (liveCodes req.email .verify a).head? <;> rfl

theorem resetPassword_run (hcfg : cfg.Reliable) :
    (CodeHandlers.resetPassword cfg (.ok req)).run a =
      match (liveCodes req.email .reset a).find? fun c => c.code = req.code with
      | none => (invalidCode, a)
      | some vc => (do
          markUsed cfg vc req.email .reset
          updatePassword cfg req.email req.password : AccountHandler AuthReply).run a := by
  have hfind : (a.codes.first? fun c => ofPair req.email .reset c && c.code = req.code &&
      isLive a.world.now c) = (liveCodes req.email .reset a).find? fun c => c.code = req.code := by
    rw [liveCodes, pairCodes, ← head?_filter, filter_filter, filter_filter,
      head?_filter]
    refine congrArg (find? · a.codes.rows) (funext fun c => ?_)
    grind
  simp only [CodeHandlers.resetPassword, clock, bind_eq, atom_bind, run_act,
    Prog.run_bind, exec_run hcfg, firstRow, hfind]
  cases (liveCodes req.email .reset a).find? fun c => c.code = req.code <;> rfl

theorem mem_liveCodes : c ∈ liveCodes email purpose a ↔
    c ∈ a.codes.rows ∧ (c.email = email ∧ c.purpose = purpose) ∧ isLive a.world.now c := by
  rw [liveCodes, pairCodes, mem_filter, mem_filter, ofPair_iff, and_assoc]

theorem rejected_of_not_live (hcfg : cfg.Reliable)
    (h : ∀ c ∈ liveCodes email purpose a, plainCode c ≠ some code) :
    Rejected cfg email purpose a code := by
  intro password
  cases purpose with
  | verify =>
    rw [present, verifyEmail_run hcfg]
    cases hhead : (liveCodes email .verify a).head? with
    | none => rfl
    | some vc =>
      have hmem := mem_of_mem_head? hhead
      have hplain : (splitBar vc.code).map Prod.fst ≠ some code := by
        have hne := h vc hmem
        rwa [plainCode, (mem_liveCodes.mp hmem).2.1.2] at hne
      dsimp only
      rw [checkCode]
      cases hsplit : splitBar vc.code with
      | none => rfl
      | some parts =>
        have hcode : parts.1 ≠ code := fun hc => hplain (by rw [hsplit, Option.map_some, hc])
        dsimp only
        rw [if_pos hcode]
        rfl
  | reset =>
    have hnone : (liveCodes email .reset a).find? (fun c => c.code = code) = none := by
      apply find?_eq_none.mpr
      intro c hc hcode
      apply h c hc
      rw [plainCode, (mem_liveCodes.mp hc).2.1.2, of_decide_eq_true hcode]
    rw [present, resetPassword_run hcfg, hnone]

def Moves (p : AccountHandler AuthReply) : Prop :=
  ∀ t now, p.Triple (fun a => a.codes = t ∧ a.world.now = now) fun reply a =>
    reply ≠ invalidCode ∧ a.codes = t ∧ a.world.now = now

theorem moves_createAccount (e hash : String) : Moves (createAccount cfg e hash) := by
  intro t now
  refine .bind (Q := fun _ a => a.codes = t ∧ a.world.now = now)
    (triple_single (fun _ h => h) fun a h => ?_) fun r => ?_
  · unfold storeUser
    split <;> exact h
  · cases r with
    | error _ => exact .done fun a h => ⟨by simp [invalidCode], h⟩
    | ok user =>
      refine .bind (Q := fun _ a => a.codes = t ∧ a.world.now = now)
        (.atom fun _ h => h) fun time => ?_
      refine .bind (Q := fun _ a => a.codes = t ∧ a.world.now = now)
        (triple_single (fun _ h => h) fun a h => ?_) fun _ => ?_
      · unfold storeFreeSubscription
        split <;> exact h
      · exact fun a h => ⟨nofun, h⟩

theorem moves_updatePassword (e password : String) : Moves (updatePassword cfg e password) := by
  intro t now
  refine .bind (Q := fun _ a => a.codes = t ∧ a.world.now = now)
    (.atom fun _ h => h) fun n => ?_
  split
  · exact .done fun a h => ⟨by simp [invalidCode], h⟩
  refine .bind (Q := fun _ a => a.codes = t ∧ a.world.now = now)
    (triple_single (fun _ h => h) fun a h => ?_) fun r => ?_
  · unfold storePassword
    split <;> exact h
  · split <;> exact .done fun a h => ⟨by simp [invalidCode], h⟩

variable {vc : VerificationCode}

theorem marked_run (hcfg : cfg.Reliable) (hlive : liveCodes email purpose a = [vc])
    (hp : Moves p) :
    ((do
      markUsed cfg vc email purpose
      p : AccountHandler AuthReply).run a).1 ≠ invalidCode ∧
    liveCodes email purpose ((do
      markUsed cfg vc email purpose
      p : AccountHandler AuthReply).run a).2 = [] := by
  have hmem : vc ∈ liveCodes email purpose a := by rw [hlive]; exact mem_singleton_self vc
  obtain ⟨hreply, hcodes, hnow⟩ := hp _ _ ((markUsed cfg vc email purpose).run a).2 ⟨rfl, rfl⟩
  simp only [markUsed, bind_eq, run_bind, exec_run hcfg, writeRow, pure_eq,
    Prog.run_done] at hreply hcodes hnow ⊢
  refine ⟨hreply, filter_eq_nil_iff.mpr fun c hc => ?_⟩
  rw [hnow]
  rw [pairCodes, hcodes] at hc
  have hc' : c ∈ pairCodes email purpose { a with
      codes := a.codes.update (fun d => d.id = vc.id && d.deletedAt = none) usedUp } := hc
  rw [pairCodes_update ages_usedUp] at hc'
  obtain ⟨d, hd, rfl⟩ := mem_map.mp hc'
  split
  · simp [isLive, usedUp]
  · next hother =>
    intro hdlive
    have hd' : d ∈ liveCodes email purpose a := mem_filter.mpr ⟨hd, hdlive⟩
    rw [hlive, mem_singleton] at hd'
    subst hd'
    simp [isLive] at hdlive
    simp [hdlive] at hother

theorem accepted_of_live (hcfg : cfg.Reliable) (hlive : liveCodes email purpose a = [vc])
    (hplain : plainCode vc = some code) : Accepted cfg email purpose a code := by
  intro password
  have hmem : vc ∈ liveCodes email purpose a := by rw [hlive]; exact mem_singleton_self vc
  have hpurpose := (mem_liveCodes.mp hmem).2.1.2
  cases purpose with
  | verify =>
    rw [plainCode, hpurpose] at hplain
    obtain ⟨⟨code, hash⟩, hsplit, rfl⟩ := Option.map_eq_some_iff.mp hplain
    have hrun : (present cfg email .verify code password).run a = (do
        markUsed cfg vc email .verify
        createAccount cfg email hash : AccountHandler AuthReply).run a := by
      rw [present, verifyEmail_run hcfg, hlive]
      dsimp only [head?_cons]
      rw [checkCode, hsplit]
      dsimp only
      rw [if_neg (not_not_intro rfl)]
    obtain ⟨hreply, hnone⟩ := marked_run hcfg hlive (moves_createAccount email hash)
    rw [hrun]
    exact ⟨hreply, fun c hc => by rw [hnone] at hc; cases hc⟩
  | reset =>
    rw [plainCode, hpurpose] at hplain
    have hcode : vc.code = code := Option.some.inj hplain
    have hrun : (present cfg email .reset code password).run a = (do
        markUsed cfg vc email .reset
        updatePassword cfg email password : AccountHandler AuthReply).run a := by
      have hfind : [vc].find? (fun c => c.code = code) = some vc :=
        find?_cons_of_pos (decide_eq_true hcode)
      rw [present, resetPassword_run hcfg, hlive, hfind]
    obtain ⟨hreply, hnone⟩ := marked_run hcfg hlive (moves_updatePassword email password)
    rw [hrun]
    exact ⟨hreply, fun c hc => by rw [hnone] at hc; cases hc⟩

theorem row_of_plain (hdistinct : (generated email purpose a).Nodup)
    (hc : c ∈ pairCodes email purpose a) (hd : d ∈ pairCodes email purpose a)
    (h : plainCode c = plainCode d) : c = d :=
  inj_on_of_nodup_map hdistinct hc hd h

theorem Orderly.latestWins (hcfg : cfg.Reliable) (h : Orderly email purpose pending a)
    (hdistinct : (generated email purpose a).Nodup) : LatestWins cfg email purpose a where
  alone := by
    rcases h.live with hnil | ⟨c, hc⟩
    · rw [hnil]
      exact Nat.zero_le 1
    · rw [hc]
      exact le_refl 1
  latest code _ hlive := by
    obtain ⟨c, hc, hplain⟩ := hlive
    rcases h.live with hnil | ⟨d, hd⟩
    · rw [hnil] at hc
      cases hc
    · rw [hd, mem_singleton] at hc
      exact accepted_of_live hcfg hd (hc ▸ hplain)
  earlier code hcode := by
    apply rejected_of_not_live hcfg
    intro c hc hplain
    -- the code was generated before the last one, and so its row is not live any more
    have hold : some code ∈ (generated email purpose a).dropLast := by
      rw [h.recorded, ← map_dropLast]
      refine mem_map_of_mem ?_
      cases pending with
      | nil => rwa [append_nil]
      | cons x rest =>
        rw [dropLast_append_of_ne_nil (cons_ne_nil x rest)]
        exact mem_append_left _ (mem_of_mem_dropLast hcode)
    rw [generated, ← map_dropLast] at hold
    obtain ⟨d, hd, hdplain⟩ := mem_map.mp hold
    have hcd : c = d := row_of_plain hdistinct (mem_of_mem_filter hc)
      (mem_of_mem_dropLast hd) (hplain.trans hdplain.symm)
    have hlive := (mem_liveCodes.mp hc).2.2
    rw [hcd, h.older d hd] at hlive
    cases hlive
  used c hc hused code hplain := by
    apply rejected_of_not_live hcfg
    intro d hd hdplain
    obtain rfl : d = c := row_of_plain hdistinct (mem_of_mem_filter hd) hc
      (hdplain.trans hplain.symm)
    have hlive := (mem_liveCodes.mp hd).2.2
    simp [isLive, hused] at hlive

/-- As long as a code of the pair is stored only when none is live, the latest one wins at
every moment. -/
theorem latest_code_wins (hcfg : cfg.Reliable) (requests : List CodeRequest)
    (hstart : Orderly email purpose [] a) {c : Config Accounts AccountStmt}
    (h : Execution Meanwhile (StoresAlone email purpose) ⟨[inTurn cfg requests], a⟩ c)
    (hdistinct : (generated email purpose c.shared).Nodup) :
    LatestWins cfg email purpose c.shared := by
  have hkeeps : (inTurn cfg requests).Maintains (fun l a => StoresAlone email purpose l [] a)
      (Orderly email purpose) (fun pending _ => pending = []) [] := keeps_inTurn hcfg requests
  have hguard : ∀ l ls b, StoresAlone email purpose l ls b → StoresAlone email purpose l [] b :=
    fun _ _ _ hb => hb
  obtain ⟨_, pending, _, _, horderly⟩ := hkeeps.execution hguard
    (fun _ _ _ hb henv => hb.meanwhile henv) hstart h
  exact horderly.latestWins hcfg hdistinct

def visitor : Accounts := Accounts.start ⟨[], 1, by decide⟩ 0

theorem visitor_orderly : Orderly "a@example.org" .verify [] visitor := ⟨rfl, by decide⟩

def registration : CodeRequest := .register (.ok ⟨"a@example.org", "password"⟩)

def twoRegistrations : Config Accounts AccountStmt :=
  ⟨[inTurn .standard [registration, registration]], visitor⟩

def afterFirst (now : ℤ) : Config Accounts AccountStmt :=
  let first := twoRegistrations.runSchedule (replicate 9 0)
  ⟨first.threads, { first.shared with world := { first.shared.world with now := now } }⟩

def afterSecond (now : ℤ) : Config Accounts AccountStmt :=
  (afterFirst now).runSchedule (replicate 9 0)

theorem afterSecond_reached {allow now} (hnow : 0 ≤ now)
    (hfirst : ScheduleAllowed allow twoRegistrations (replicate 9 0))
    (hsecond : ScheduleAllowed allow (afterFirst now) (replicate 9 0)) :
    Execution Meanwhile allow twoRegistrations (afterSecond now) :=
  ((runSchedule_execution _ _ hfirst).trans (environment_execution _ ⟨hnow, rfl, rfl⟩)).trans
    (runSchedule_execution _ _ hsecond)

/-- The second code is stored when the first has expired. -/
theorem code_after_expiry_wins :
    sent "a@example.org" .verify (afterSecond (11 * minute)).shared = ["100001", "100003"] ∧
      LatestWins .standard "a@example.org" .verify (afterSecond (11 * minute)).shared :=
  ⟨by decide +kernel, latest_code_wins (fun _ => rfl) [registration, registration] visitor_orderly
    (afterSecond_reached (by decide) (by decide +kernel) (by decide +kernel)) (by decide +kernel)⟩

/-- The first code is still live, and so the latest one is rejected and the first accepted. -/
theorem second_code_rejected :
    Orderly "a@example.org" .verify [] visitor ∧
      Execution Meanwhile Unguarded twoRegistrations (afterSecond minute) ∧
      (generated "a@example.org" .verify (afterSecond minute).shared).Nodup ∧
      sent "a@example.org" .verify (afterSecond minute).shared = ["100001", "100003"] ∧
      (liveCodes "a@example.org" .verify (afterSecond minute).shared).length = 2 ∧
      ((present .standard "a@example.org" .verify "100003" "").run (afterSecond minute).shared).1 =
        invalidCode ∧
      ((present .standard "a@example.org" .verify "100001" "").run (afterSecond minute).shared).1 ≠
        invalidCode :=
  ⟨visitor_orderly,
    afterSecond_reached (by decide) (schedule_unguarded _ _) (schedule_unguarded _ _),
    by decide +kernel, by decide +kernel, by decide +kernel, by decide +kernel, by decide +kernel⟩

end VerificationCodes
