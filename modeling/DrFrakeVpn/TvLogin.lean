import DrFrakeVpn.TvHandlers

/-! # A TV login is used once

For one login it is followed whose approval was stored and to whom tokens were handed out. -/
namespace TvLogin

open SharedPrograms FaultyTransactions RecordTables List
open AccountWorld TvHandlers

inductive TvRequest where
  | start (baseURL : String)
  | approve (clientIP : String) (req : Except String TvApproveRequest)
  | approveAuthenticated (userID : ℕ) (req : Except String String)
  | token (clientIP : String) (req : Except String String)
  | expireStale
  | cleanUp

variable (cfg : AccountSetup)

def TvRequest.program : TvRequest → AccountHandler Unit
  | .start baseURL => (tvStart cfg baseURL).forget
  | .approve clientIP req => (tvApprove cfg clientIP req).forget
  | .approveAuthenticated userID req => (tvApproveAuthenticated cfg userID req).forget
  | .token clientIP req => (tvToken cfg clientIP req).forget
  | .expireStale => (expireStaleTVLogins cfg).forget
  | .cleanUp => (TvHandlers.cleanUp cfg).forget

def tvPool (requests : List TvRequest) (a : Accounts) : Config Accounts AccountStmt :=
  ⟨requests.map (TvRequest.program cfg), a⟩

structure Meanwhile (a a' : Accounts) : Prop where
  logins : a'.tvLogins = a.tvLogins
  approvals : a'.approvals = a.approvals
  issued : a'.issued = a.issued

def approversOf (a : Accounts) (r : ℕ) : List ℕ :=
  (a.approvals.filter fun x => x.1 = r).map Prod.snd

def issuedTo (a : Accounts) (r : ℕ) : List ℕ := (a.issued.filter fun x => x.1 = r).map Prod.snd

def statusOf (a : Accounts) (r : ℕ) : Option TVLoginStatus := (a.tvLogins.byId r).map TVLogin.status

/-- An approval of the login is stored only while the login is pending. -/
def ApprovesPending (r : ℕ) : Guard Accounts AccountStmt := fun l _ a =>
  ∀ user, l = .tvApprove r user → statusOf a r = some .pending

def isApprovalOf (r : ℕ) : AccountStmt → Bool
  | .tvApprove login _ => login = r
  | _ => false

instance (r : ℕ) (l : AccountStmt) (ls : List (Option AccountStmt)) (a : Accounts) :
    Decidable (ApprovesPending r l ls a) :=
  decidable_of_iff (isApprovalOf r l = true → statusOf a r = some .pending) <| by
    constructor
    · rintro h u rfl
      exact h (decide_eq_true rfl)
    · intro h hl
      cases l with
      | tvApprove login u => exact h u (by rw [of_decide_eq_true hl])
      | _ => cases hl

structure View where
  status : TVLoginStatus
  userID : Option ℕ
  approvers : List ℕ
  issued : List ℕ

def view (r : ℕ) (a : Accounts) : Option View :=
  (a.tvLogins.byId r).map fun row => ⟨row.status, row.userID, approversOf a r, issuedTo a r⟩

def issuing (r : ℕ) : Option AccountStmt → Bool
  | some (.tvToken login _ (.token _)) | some (.tvToken login _ .issue) => login = r
  | _ => false

/-- What one step does to the login: nothing, or it expires, approves or consumes it, or hands
tokens out. Only after a consumption tokens are on their way that were not before. -/
inductive Moves (r : ℕ) (l : AccountStmt) (n : Option AccountStmt) : View → View → Prop where
  | keeps (v : View) (hn : issuing r n = true → issuing r (some l) = true) : Moves r l n v v
  | expires (v : View) (hn : issuing r n = false) : Moves r l n v { v with status := .expired }
  | approves (v : View) (u : ℕ) (hl : l = .tvApprove r u) (hn : issuing r n = false) :
      Moves r l n v ⟨.approved, some u, v.approvers ++ [u], v.issued⟩
  | consumes (v : View) (u : ℕ) (hl : l = .tvToken r u .consume) (h : v.status = .approved) :
      Moves r l n v { v with status := .consumed }
  | issues (v : View) (u : ℕ) (hl : l = .tvToken r u .issue) (hn : issuing r n = false) :
      Moves r l n v { v with issued := v.issued ++ [u] }

def Leads (a : Accounts) (l : AccountStmt) : AccountStmt → Prop
  | .tvSeen login _ => login ∈ a.tvLogins.rows ∨ ∃ step, l = .tvSeen login step
  | .tvToken q u _ => (∃ step, l = .tvToken q u step) ∨ ∃ login step, l = .tvSeen login step ∧
      login.id = q ∧ login.status = .approved ∧ login.userID = some u
  | _ => True

structure Effect (r : ℕ) (a : Accounts) (l : AccountStmt) (a' : Accounts)
    (n : Option AccountStmt) : Prop where
  moves : ∀ v, view r a = some v → ∃ v', view r a' = some v' ∧ Moves r l n v v'
  leads : ∀ m, n = some m → Leads a l m

def Known (r : ℕ) (v : View) : AccountStmt → Prop
  | .tvSeen login _ => login.id = r → login.status = .approved →
      v.status ≠ .pending ∧ login.userID = v.approvers.head?
  | .tvToken q u _ => q = r → v.status ≠ .pending ∧ v.approvers.head? = some u
  | _ => True

/-- Tokens handed out and tokens on their way are at most one, and only after the login has
been consumed. -/
structure Booked (r : ℕ) (ls : List (Option AccountStmt)) (v : View) : Prop where
  pending : v.status = .pending → v.approvers = [] ∧ v.issued = [] ∧ ls.countP (issuing r) = 0
  approved : v.status = .approved →
    v.userID = v.approvers.head? ∧ v.issued = [] ∧ ls.countP (issuing r) = 0
  once : v.issued.length + ls.countP (issuing r) ≤ 1
  first : ∀ u ∈ v.issued, v.approvers.head? = some u
  known : ∀ m, some m ∈ ls → Known r v m

variable {a : Accounts}

section step

variable {r : ℕ} {l : AccountStmt} {n : Option AccountStmt} {v v' : View}

theorem Moves.settled (h : Moves r l n v v')
    (hguard : ∀ u, l = .tvApprove r u → v.status = .pending) (hp : v.status ≠ .pending) :
    v'.status ≠ .pending ∧ v'.approvers = v.approvers := by
  cases h with
  | keeps | issues => exact ⟨hp, rfl⟩
  | expires | consumes => exact ⟨nofun, rfl⟩
  | approves u hl => exact absurd (hguard u hl) hp

variable {m : AccountStmt}

theorem Known.later (h : Known r v m) (hm : Moves r l n v v')
    (hguard : ∀ u, l = .tvApprove r u → v.status = .pending) : Known r v' m := by
  cases m with
  | tvSeen login step =>
    intro hid hst
    obtain ⟨hp, hu⟩ := h hid hst
    obtain ⟨hp', ha⟩ := hm.settled hguard hp
    exact ⟨hp', hu.trans (by rw [ha])⟩
  | tvToken q u step =>
    intro hq
    obtain ⟨hp, hu⟩ := h hq
    obtain ⟨hp', ha⟩ := hm.settled hguard hp
    exact ⟨hp', by rw [ha, hu]⟩
  | _ => trivial

theorem Known.next (hv : view r a = some v) (hknown : Known r v l)
    (happroved : v.status = .approved → v.userID = v.approvers.head?) (h : Leads a l m) :
    Known r v m := by
  cases m with
  | tvSeen login step =>
    rcases h with hmem | ⟨step', rfl⟩
    · intro hid hst
      have hrow := a.tvLogins.byId_some_iff.mpr ⟨hmem, hid⟩
      simp only [view, hrow, Option.map_some, Option.some.injEq] at hv
      subst hv
      exact ⟨by simp [hst], happroved hst⟩
    · exact hknown
  | tvToken q u step =>
    rcases h with ⟨step', rfl⟩ | ⟨login, step', rfl, hid, hst, hu⟩
    · exact hknown
    · intro hq
      obtain ⟨hp, hhead⟩ := hknown (hid.trans hq) hst
      exact ⟨hp, hhead.symm.trans hu⟩
  | _ => trivial

theorem booked_step (h : Booked r ls v) (hv : view r a = some v)
    (hl : ls[i]? = some (some l)) (hguard : ∀ u, l = .tvApprove r u → v.status = .pending)
    (hm : Moves r l n v v') (hleads : ∀ m, n = some m → Leads a l m) :
    Booked r (ls.set i n) v' := by
  have hcount := countP_set_add (issuing r) hl n
  have hown : Known r v l := h.known l (mem_of_getElem? hl)
  have hknown : ∀ m, some m ∈ ls.set i n → Known r v' m := by
    intro m hmem
    refine Known.later ?_ hm hguard
    rcases mem_or_eq_of_mem_set hmem with hmem | heq
    · exact h.known m hmem
    · exact hown.next hv (fun hst => (h.approved hst).1) (hleads m heq.symm)
  have honce := h.once
  cases hm with
  | keeps hn =>
    -- a thread that is issuing now was issuing before
    have hle : (ls.set i n).countP (issuing r) ≤ ls.countP (issuing r) := by
      by_cases hissuing : issuing r n
      · simp only [hissuing, hn hissuing, if_true] at hcount
        omega
      · simp only [hissuing, Bool.false_eq_true, if_false] at hcount
        omega
    refine ⟨fun hst => ?_, fun hst => ?_, by omega, h.first, hknown⟩
    · obtain ⟨ha, hi, hc⟩ := h.pending hst
      exact ⟨ha, hi, by omega⟩
    · obtain ⟨hu, hi, hc⟩ := h.approved hst
      exact ⟨hu, hi, by omega⟩
  | expires hn =>
    simp only [hn, Bool.false_eq_true, if_false] at hcount
    refine ⟨nofun, nofun, ?_, h.first, hknown⟩
    simp only
    omega
  | approves u hu hn =>
    obtain ⟨ha, hi, hc⟩ := h.pending (hguard u hu)
    simp only [hn, Bool.false_eq_true, if_false] at hcount
    refine ⟨nofun, fun _ => ⟨by simp [ha], hi, by omega⟩, ?_, ?_, hknown⟩
    · simp only [hi, length_nil]
      omega
    · simp [hi]
  | consumes u hu hst =>
    obtain ⟨_, hi, hc⟩ := h.approved hst
    refine ⟨nofun, nofun, ?_, h.first, hknown⟩
    simp only [hi, length_nil]
    split at hcount <;> split at hcount <;> omega
  | issues u hu hn =>
    subst hu
    -- the tokens on their way are those that are handed out now
    have hissuing : issuing r (some (.tvToken r u .issue)) := by simp [issuing]
    simp only [hn, hissuing, Bool.false_eq_true, if_true, if_false] at hcount
    have hnone : v.issued = [] := by
      refine eq_nil_of_length_eq_zero ?_
      omega
    refine ⟨fun hst => ?_, fun hst => ?_, ?_, ?_, hknown⟩
    · have := (h.pending hst).2.2
      omega
    · have := (h.approved hst).2.2
      omega
    · simp only [hnone, nil_append, length_singleton]
      omega
    · intro x hx
      simp only [hnone, nil_append, mem_singleton] at hx
      rw [hx]
      exact (hown rfl).2

def IsOver (v : View) : Prop := v.status = .consumed ∨ v.status = .expired

theorem Moves.over (h : Moves r l n v v')
    (hguard : ∀ u, l = .tvApprove r u → v.status = .pending) (hover : IsOver v) : IsOver v' := by
  cases h with
  | keeps | issues => exact hover
  | expires => exact .inr rfl
  | consumes => exact .inl rfl
  | approves u hl =>
    have hp := hguard u hl
    rcases hover with hc | hc <;> rw [hc] at hp <;> cases hp

end step

variable {row : TVLogin}

section statements

variable {r : ℕ} {a a' : Accounts} {l : AccountStmt} {n : Option AccountStmt}

theorem view_congr (hrow : a'.tvLogins.byId r = a.tvLogins.byId r)
    (happ : a'.approvals = a.approvals) (hiss : a'.issued = a.issued) : view r a' = view r a := by
  simp [view, hrow, approversOf, issuedTo, happ, hiss]

def isPlain : AccountStmt → Bool
  | .tvSeen _ _ | .tvToken _ _ _ => false
  | _ => true

theorem leads_plain (h : isPlain m) : Leads a l m := by
  cases m with
  | tvSeen | tvToken => cases h
  | _ => trivial

theorem issuing_plain (h : ∀ m, n = some m → isPlain m) : issuing r n = false := by
  cases n with
  | none => rfl
  | some m =>
    have hm := h m rfl
    cases m with
    | tvSeen | tvToken => cases hm
    | _ => rfl

theorem Effect.quiet (h : view r a' = view r a)
    (hn : issuing r n → issuing r (some l))
    (hleads : ∀ m, n = some m → Leads a l m) : Effect r a l a' n :=
  ⟨fun v hv => ⟨v, h.trans hv, .keeps v hn⟩, hleads⟩

/-- Writes to other columns than status and user. -/
def KeepsLogin (f : Table.Write TVLogin) : Prop :=
  ∀ row, (f.apply row).status = row.status ∧ (f.apply row).userID = row.userID

variable {q : TVLogin → Bool} {f : Table.Write TVLogin}

theorem view_update_keeps (hf : KeepsLogin f) :
    view r { a with tvLogins := a.tvLogins.update q f } = view r a := by
  simp only [view, a.tvLogins.byId_update, Option.map_map]
  refine congrArg (fun g => (a.tvLogins.byId r).map g) (funext fun row => ?_)
  simp only [Function.comp_apply]
  split
  · rw [(hf row).1, (hf row).2]
    rfl
  · rfl

theorem view_some (h : view r a = some v) : ∃ row, a.tvLogins.byId r = some row ∧
    v = ⟨row.status, row.userID, approversOf a r, issuedTo a r⟩ := by
  obtain ⟨row, hrow, rfl⟩ := Option.map_eq_some_iff.mp h
  exact ⟨row, hrow, rfl⟩

theorem view_of_row (h : a.tvLogins.byId r = some row) :
    view r a = some ⟨row.status, row.userID, approversOf a r, issuedTo a r⟩ := by
  simp [view, h]

theorem view_logins (h : t.byId r = some row) :
    view r { a with tvLogins := t } =
      some ⟨row.status, row.userID, approversOf a r, issuedTo a r⟩ :=
  view_of_row h

theorem byId_written (h : a.tvLogins.byId r = some row) :
    (a.tvLogins.update q f).byId r = some (if q row then f.apply row else row) := by
  rw [a.tvLogins.byId_update, h, Option.map_some]

theorem Effect.expire (hplain : issuing r n = false) (hleads : ∀ m, n = some m → Leads a l m) :
    Effect r a l { a with tvLogins := a.tvLogins.update q (withStatus .expired) } n := by
  refine ⟨fun v hv => ?_, hleads⟩
  obtain ⟨row, hrow, rfl⟩ := view_some hv
  refine ⟨_, view_logins (byId_written hrow), ?_⟩
  split
  · exact .expires _ hplain
  · exact .keeps _ fun hn => by simp [hplain] at hn

theorem isRow_id (h : isRow login row) : row.id = login := by
  simp only [isRow, Bool.and_eq_true, decide_eq_true_eq] at h
  exact h.1

theorem first_isRow (hrow : a.tvLogins.byId login = some row)
    (h : a.tvLogins.first? (fun l => isRow login l && q l) = some found) :
    found = row ∧ (isRow login row && q row) := by
  obtain ⟨hmem, hq⟩ := a.tvLogins.first_some h
  have hid : found.id = login := isRow_id (Bool.and_eq_true_iff.mp hq).1
  have hsame := a.tvLogins.byId_some_iff.mpr ⟨hmem, hid⟩
  obtain rfl : row = found := Option.some.inj (hrow.symm.trans hsame)
  exact ⟨rfl, hq⟩

theorem approversOf_append (login user : ℕ)
    (h : b.approvals = a.approvals ++ [(login, user)]) :
    approversOf b r = approversOf a r ++ if login = r then [user] else [] := by
  simp only [approversOf, h, filter_append, map_append]
  by_cases hr : login = r <;> simp [hr]

theorem issuedTo_append (login user : ℕ)
    (h : b.issued = a.issued ++ [(login, user)]) :
    issuedTo b r = issuedTo a r ++ if login = r then [user] else [] := by
  simp only [issuedTo, h, filter_append, map_append]
  by_cases hr : login = r <;> simp [hr]

theorem Effect.approve (login user : ℕ) (now : ℤ) (hplain : issuing r n = false)
    (hleads : ∀ m, n = some m → Leads a (.tvApprove login user) m) :
    Effect r a (.tvApprove login user) (storeApproval login user now a) n := by
  have hnone : issuing r n → issuing r (some (.tvApprove login user)) := by
    simp [hplain]
  unfold storeApproval
  split
  · exact .quiet rfl hnone hleads
  · next found hfirst =>
    refine ⟨fun v hv => ?_, hleads⟩
    obtain ⟨row, hrow, rfl⟩ := view_some hv
    have hwritten : (a.tvLogins.update (isRow login) (approvedBy user now)).byId r =
        some (if isRow login row then (approvedBy user now).apply row else row) :=
      byId_written hrow
    have happ : approversOf { updateLogin login (approvedBy user now) a with
        approvals := a.approvals ++ [(login, user)] } r =
          approversOf a r ++ if login = r then [user] else [] :=
      approversOf_append login user rfl
    refine ⟨_, view_of_row hwritten, ?_⟩
    rw [happ]
    by_cases hr : login = r
    · subst hr
      obtain ⟨_, hq⟩ := first_isRow (q := fun _ => true) hrow (by simpa using hfirst)
      rw [Bool.and_true] at hq
      rw [if_pos hq, if_pos rfl]
      exact .approves _ user rfl hplain
    · have hq : ¬ isRow login row := fun hq =>
        hr ((isRow_id hq).symm.trans (a.tvLogins.byId_some_iff.mp hrow).2)
      rw [if_neg hq, if_neg hr, append_nil]
      exact .keeps _ hnone

theorem Effect.consume (login user : ℕ) (now : ℤ)
    (hn : issuing r n → login = r ∧ (TvHandlers.consume login now a).1 = .ok true)
    (hleads : ∀ m, n = some m → Leads a (.tvToken login user .consume) m) :
    Effect r a (.tvToken login user .consume) (TvHandlers.consume login now a).2 n := by
  unfold TvHandlers.consume at hn ⊢
  dsimp only at hn ⊢
  split
  · next hfirst =>
    rw [hfirst] at hn
    refine .quiet rfl (fun h => ?_) hleads
    obtain ⟨_, hok⟩ := hn h
    cases hok
  · next found hfirst =>
    refine ⟨fun v hv => ?_, hleads⟩
    obtain ⟨row, hrow, rfl⟩ := view_some hv
    refine ⟨_, view_logins (byId_written hrow), ?_⟩
    by_cases hr : login = r
    · subst hr
      obtain ⟨_, hq⟩ := first_isRow hrow hfirst
      rw [if_pos hq]
      exact .consumes _ user rfl (of_decide_eq_true (Bool.and_eq_true_iff.mp hq).2)
    · have hq : ¬ (isRow login row && decide (row.status = .approved)) := fun hq =>
        hr ((isRow_id (Bool.and_eq_true_iff.mp hq).1).symm.trans
          (a.tvLogins.byId_some_iff.mp hrow).2)
      rw [if_neg hq]
      exact .keeps _ fun h => absurd (hn h).1 hr

theorem Effect.issue (login user : ℕ) :
    Effect r a (.tvToken login user .issue) { a with issued := a.issued ++ [(login, user)] }
      none := by
  refine ⟨fun v hv => ?_, fun m hm => by cases hm⟩
  obtain ⟨row, hrow, rfl⟩ := view_some hv
  have hiss : issuedTo { a with issued := a.issued ++ [(login, user)] } r =
      issuedTo a r ++ if login = r then [user] else [] := issuedTo_append login user rfl
  refine ⟨_, view_of_row hrow, ?_⟩
  rw [hiss]
  by_cases hr : login = r
  · rw [if_pos hr]
    subst hr
    exact .issues _ user rfl rfl
  · rw [if_neg hr, append_nil]
    exact .keeps _ fun hn => by cases hn

end statements

def PlainNext (n : Option AccountStmt) : Prop := ∀ m, n = some m → isPlain m = true

/-- Every step of the program has a plain label and an effect on the login that does not depend
on what comes next, as long as that is plain. -/
inductive PlainProg (r : ℕ) {α : Type} : AccountHandler α → Prop where
  | done (x : α) : PlainProg r (.done x)
  | act {β : Type} {l : AccountStmt} {f : Accounts → β × Accounts} {next : β → AccountHandler α}
      (hl : isPlain l = true) (h : ∀ a n, PlainNext n → Effect r a l (f a).2 n)
      (hn : ∀ b, PlainProg r (next b)) : PlainProg r (.act l f next)

def Follows (r : ℕ) {α : Type} (p : AccountHandler α) : Prop :=
  ∀ a, p.Obeys (fun _ _ => True) (fun _ _ => True) (Effect r) a

variable {a' : Accounts}

section programs

variable {cfg} {r : ℕ} {α β : Type} {l : AccountStmt} {n : Option AccountStmt}

theorem Effect.quiet_plain (h : view r a' = view r a) (hn : PlainNext n) : Effect r a l a' n :=
  .quiet h (fun hi => by rw [issuing_plain hn] at hi; cases hi)
    fun m hm => leads_plain (hn m hm)

variable {p : AccountHandler α} {k : α → AccountHandler β}

theorem PlainProg.bind (hp : PlainProg r p) (hk : ∀ x, PlainProg r (k x)) :
    PlainProg r (p >>= k) := by
  induction hp with
  | done x => exact hk x
  | act hl h _ ih => exact .act hl h ih

variable {f : Accounts → Except AccountError α × Accounts}

theorem plain_exec (hl : isPlain l) (h : ∀ a n, PlainNext n → Effect r a l (f a).2 n) :
    PlainProg r (exec cfg l f) := by
  refine .act hl (fun a n hn => ?_) fun _ => .done _
  by_cases hfault : cfg.faults l
  · simp only [hfault, if_true]
    exact .quiet_plain rfl hn
  · simp only [hfault, Bool.false_eq_true, if_false]
    exact h a n hn

theorem plain_first {find : Accounts → Option α} (hl : isPlain l) :
    PlainProg r (exec cfg l (firstRow find)) := by
  refine plain_exec hl fun a n hn => ?_
  unfold firstRow
  split <;> exact .quiet_plain rfl hn

theorem plain_clock (hl : isPlain l) : PlainProg r (clock l) :=
  .act hl (fun _ _ hn => .quiet_plain rfl hn) fun _ => .done _

theorem plain_draw : PlainProg r drawNumber :=
  .act rfl (fun _ _ hn => .quiet_plain rfl hn) fun _ => .done _

theorem view_setAttempts (a : Accounts) (bucket : Bucket) (key : String) :
    view r (setAttempts a bucket key times) = view r a := by
  cases bucket <;> rfl

theorem plain_attempt (ht : isPlain t) (hl : isPlain l) (bucket : Bucket)
    (key : String) (limit : ℕ) (window : ℤ) :
    PlainProg r (allowTVAttempt t l bucket key limit window) := by
  refine (plain_clock ht).bind fun now => .act hl (fun a n hn => ?_) fun _ => .done _
  dsimp only
  split <;> exact .quiet_plain (view_setAttempts a bucket key) hn

theorem plain_expireStale : PlainProg r (expireStaleTVLogins cfg) := by
  refine (plain_clock rfl).bind fun now => (plain_exec rfl fun a n hn => ?_).bind fun _ => .done _
  exact .expire (issuing_plain hn) fun m hm => leads_plain (hn m hm)

theorem plain_cleanUp : PlainProg r (TvHandlers.cleanUp cfg) := by
  refine (plain_clock rfl).bind fun now => (plain_exec rfl fun a n hn => ?_).bind fun _ => .done _
  exact .quiet_plain (view_update_keeps fun _ => ⟨rfl, rfl⟩) hn

theorem plain_start (baseURL : String) : PlainProg r (tvStart cfg baseURL) := by
  refine plain_expireStale.bind fun _ => plain_draw.bind fun i => ?_
  dsimp only
  split
  · exact .done _
  refine plain_draw.bind fun j => (plain_clock rfl).bind fun now => ?_
  refine (plain_exec rfl fun a n hn => ?_).bind fun res => ?_
  · split
    · next t ht =>
      -- the new row has an id that no row had
      refine ⟨fun v hv => ⟨v, ?_, .keeps v fun hi => by simp [issuing_plain hn] at hi⟩,
        fun m hm => leads_plain (hn m hm)⟩
      obtain ⟨row, hrow, rfl⟩ := view_some hv
      have hne : r ≠ a.tvLogins.seq := fun h => by
        rw [h, a.tvLogins.byId_seq] at hrow
        cases hrow
      have hold : t.byId r = a.tvLogins.byId r := by
        rw [a.tvLogins.byId_insert ht rfl r, if_neg hne]
      exact view_logins (hold.trans hrow)
    · exact .quiet_plain rfl hn
  · split <;> exact .done _

theorem plain_findPending (userCode : String) : PlainProg r (findPending cfg userCode) :=
  (plain_clock rfl).bind fun _ => plain_first rfl

theorem plain_approve (login : TVLogin) (user : Account) :
    PlainProg r (TvHandlers.approve cfg login user) := by
  refine (plain_clock rfl).bind fun now => (plain_exec rfl fun a n hn => ?_).bind fun res => ?_
  · exact .approve login.id user.id now (issuing_plain hn) fun m hm => leads_plain (hn m hm)
  · split <;> exact .done _

variable (clientIP : String)

theorem plain_tvApprove (req : Except String TvApproveRequest) :
    PlainProg r (tvApprove cfg clientIP req) := by
  refine plain_expireStale.bind fun _ => ?_
  split
  · exact .done _
  refine (plain_attempt rfl rfl _ _ _ _).bind fun _ => ?_
  split
  · exact .done _
  refine (plain_attempt rfl rfl _ _ _ _).bind fun _ => ?_
  split
  · exact .done _
  refine (plain_findPending _).bind fun found => ?_
  split
  · exact .done _
  refine (plain_first rfl).bind fun found => ?_
  split
  · exact .done _
  · split
    · exact .done _
    · exact plain_approve _ _

theorem plain_tvApproveAuthenticated (userID : ℕ) (req : Except String String) :
    PlainProg r (tvApproveAuthenticated cfg userID req) := by
  refine plain_expireStale.bind fun _ => ?_
  split
  · exact .done _
  split
  · exact .done _
  refine (plain_attempt rfl rfl _ _ _ _).bind fun _ => ?_
  split
  · exact .done _
  refine (plain_attempt rfl rfl _ _ _ _).bind fun _ => ?_
  split
  · exact .done _
  refine (plain_findPending _).bind fun found => ?_
  split
  · exact .done _
  refine (plain_first rfl).bind fun found => ?_
  split
  · exact .done _
  · exact plain_approve _ _

theorem PlainProg.follows_bind (hp : PlainProg r p) (hlabel : ∀ x, PlainNext (k x).label?)
    (hk : ∀ x, Follows r (k x)) : Follows r (p >>= k) := by
  induction hp with
  | done x => exact hk x
  | @act _ l f next hl h hn ih =>
    intro a₀ a _ _
    refine ⟨h a _ ?_, ih (f a).1 (f a).2⟩
    -- the label after this step is that of the rest of the program, or the first one of `k`
    generalize (f a).1 = b
    intro m hm
    change ((next b).bind k).label? = some m at hm
    cases hnext : next b with
    | done x =>
      rw [hnext] at hm
      exact hlabel x m hm
    | act l' f' next' =>
      have hrest := hn b
      rw [hnext] at hm hrest
      cases hrest with
      | act hl' =>
        cases hm
        exact hl'

theorem PlainProg.follows (hp : PlainProg r p) : Follows r p.forget :=
  hp.follows_bind (k := fun _ => .done ()) (fun _ _ hm => by cases hm) fun _ _ => trivial

theorem Follows.forget (h : Follows r p) : Follows r p.forget :=
  fun a => (h a).forget

theorem follows_done (x : α) : Follows r (.done x : AccountHandler α) := fun _ => trivial

theorem follows_act {f} {next : β → AccountHandler α}
    (h : ∀ a, Effect r a l (f a).2 (next (f a).1).label?) (hn : ∀ b, Follows r (next b)) :
    Follows r (.act l f next) :=
  fun _ a _ _ => ⟨h a, hn _ _⟩

theorem follows_exec {k : Except AccountError α → AccountHandler β}
    (herror : ∀ a, Effect r a l a (k (.error (cfg.failure l))).label?)
    (h : ∀ a, Effect r a l (f a).2 (k (f a).1).label?) (hk : ∀ x, Follows r (k x)) :
    Follows r (exec cfg l f >>= k) := by
  refine follows_act (fun a => ?_) hk
  by_cases hfault : cfg.faults l
  · simp only [hfault, if_true]
    exact herror a
  · simp only [hfault, Bool.false_eq_true, if_false]
    exact h a

theorem follows_clock {k : ℤ → AccountHandler β}
    (h : ∀ a, Effect r a l a (k a.world.now).label?) (hk : ∀ t, Follows r (k t)) :
    Follows r (clock l >>= k) := follows_act h hk

theorem Effect.last (h : view r a' = view r a) : Effect r a l a' none :=
  .quiet_plain h fun _ hm => by cases hm

theorem Effect.token (h : view r a' = view r a)
    (hi : issuing r n → issuing r (some (.tvToken q u step)))
    (hn : ∀ m, n = some m → ∃ step', m = .tvToken q u step') :
    Effect r a (.tvToken q u step) a' n := by
  refine .quiet h hi fun m hm => ?_
  obtain ⟨step', rfl⟩ := hn m hm
  exact .inl ⟨step, rfl⟩

theorem follows_consumption {k : Except AccountError Bool → AccountHandler α} {login u now}
    (herror : ∀ e, (k (.error e)).label? = none) (hfalse : (k (.ok false)).label? = none)
    (htrue : (k (.ok true)).label? = some (.tvToken login u (.token .accessTime)))
    (hk : ∀ x, Follows r (k x)) :
    Follows r (exec cfg (.tvToken login u .consume) (consume login now) >>= k) := by
  refine follows_exec (fun a => ?_) (fun a => ?_) hk
  · rw [herror]
    exact .last rfl
  · have hres : (consume login now a).1 = .ok true ∨ (consume login now a).1 = .ok false := by
      unfold consume
      dsimp only
      split
      · exact .inr rfl
      · exact .inl rfl
    rcases hres with hok | hok
    · rw [hok, htrue]
      refine .consume login u now (fun hi => ⟨of_decide_eq_true hi, hok⟩) fun m hm => ?_
      cases hm
      exact .inl ⟨_, rfl⟩
    · rw [hok, hfalse]
      exact .consume login u now (fun hi => by cases hi) fun m hm => by cases hm

theorem follows_redeem (login : TVLogin) (u : ℕ) : Follows r (redeem cfg login u) := by
  refine follows_exec (fun a => Effect.last rfl) (fun a => ?_) ?_
  · unfold firstRow
    split
    · refine Effect.token rfl (fun hi => ?_) fun m hm => ?_
      · cases hi
      · cases hm
        exact ⟨_, rfl⟩
    · exact Effect.last rfl
  rintro (e | user)
  · exact follows_done _
  refine follows_act (fun a => ?_) fun now => ?_
  · refine Effect.token rfl (fun hi => ?_) fun m hm => ?_
    · cases hi
    · cases hm
      exact ⟨_, rfl⟩
  refine follows_consumption (fun _ => rfl) rfl rfl ?_
  rintro (e | b)
  · exact follows_done _
  cases b with
  | false => exact follows_done _
  | true =>
    refine follows_act (fun a => ?_) fun t => follows_act (fun a => ?_) fun t' =>
      follows_act (fun a => ?_) fun _ => follows_done _
    · refine Effect.token rfl (fun hi => hi) fun m hm => ?_
      cases hm
      exact ⟨_, rfl⟩
    · refine Effect.token rfl (fun hi => hi) fun m hm => ?_
      cases hm
      exact ⟨_, rfl⟩
    · exact Effect.issue login.id u

def AfterSeen (login : TVLogin) (n : Option AccountStmt) : Prop :=
  ∀ m, n = some m → (∃ step, m = .tvSeen login step) ∨
    ∃ u, m = .tvToken login.id u .user ∧ login.status = .approved ∧ login.userID = some u

variable {login : TVLogin}

theorem Effect.seen (h : view r a' = view r a) (hn : AfterSeen login n) :
    Effect r a (.tvSeen login step) a' n := by
  refine .quiet h (fun hi => ?_) fun m hm => ?_
  · cases n with
    | none => cases hi
    | some m =>
      rcases hn m rfl with ⟨step', rfl⟩ | ⟨u, rfl, _⟩ <;> cases hi
  · rcases hn m hm with ⟨step', rfl⟩ | ⟨u, rfl, hst, hu⟩
    · exact .inr ⟨step, rfl⟩
    · exact .inr ⟨login, step, rfl, rfl, hst, hu⟩

theorem follows_pollPending (login : TVLogin) : Follows r (pollPending cfg login) := by
  refine follows_clock (fun a => Effect.seen rfl ?_) fun now => ?_
  · split
    · exact fun m hm => by cases hm
    · intro m hm
      cases hm
      exact .inl ⟨_, rfl⟩
  · split
    · exact follows_done _
    · refine follows_exec (fun a => Effect.last rfl) (fun a => ?_) fun _ => follows_done _
      exact Effect.last (view_update_keeps fun _ => ⟨rfl, rfl⟩)

theorem follows_timely (login : TVLogin) (hlive : login.status ≠ .expired) :
    Follows r (answerTimely cfg login) ∧ AfterSeen login (answerTimely cfg login).label? := by
  unfold answerTimely
  split
  · exact ⟨follows_done _, fun m hm => by cases hm⟩
  · refine ⟨follows_pollPending login, fun m hm => ?_⟩
    cases hm
    exact .inl ⟨_, rfl⟩
  · exact ⟨follows_done _, fun m hm => by cases hm⟩
  · next u hu hc hp =>
    refine ⟨follows_redeem login u, fun m hm => ?_⟩
    cases hm
    refine .inr ⟨u, rfl, ?_, hu⟩
    cases hst : login.status with
    | approved => rfl
    | pending => exact absurd hst hp
    | consumed => exact absurd hst hc
    | expired => exact absurd hst hlive

theorem follows_answer (login : TVLogin) : Follows r (answerPoll cfg login) ∧
    AfterSeen login (answerPoll cfg login).label? := by
  have hexpire : Follows r (exec cfg (.tvSeen login .expire)
      (writeRow (updateLogin login.id (withStatus .expired))) >>= fun _ =>
        pure (.error 400 "expired_token") : AccountHandler AuthReply) := by
    refine follows_exec (fun a => Effect.last rfl) (fun a => ?_) fun _ => follows_done _
    exact Effect.expire rfl fun m hm => by cases hm
  by_cases hlive : login.status = .expired
  · have hanswer : answerPoll cfg login = (exec cfg (.tvSeen login .expire)
        (writeRow (updateLogin login.id (withStatus .expired))) >>= fun _ =>
          pure (.error 400 "expired_token") : AccountHandler AuthReply) := by
      simp [answerPoll, isLate, hlive]
    rw [hanswer]
    refine ⟨hexpire, fun m hm => ?_⟩
    cases hm
    exact .inl ⟨_, rfl⟩
  · have hanswer : answerPoll cfg login = (clock (.tvSeen login .expiryTime) >>= fun now =>
        if login.expiresAt < now then exec cfg (.tvSeen login .expire)
          (writeRow (updateLogin login.id (withStatus .expired))) >>= fun _ =>
            pure (.error 400 "expired_token")
        else answerTimely cfg login : AccountHandler AuthReply) := by
      simp [answerPoll, isLate, hlive, clock]
    obtain ⟨hfollows, hafter⟩ := @follows_timely cfg r login hlive
    rw [hanswer]
    refine ⟨follows_clock (fun a => Effect.seen rfl ?_) fun now => ?_, fun m hm => ?_⟩
    · split
      · intro m hm
        cases hm
        exact .inl ⟨_, rfl⟩
      · exact hafter
    · split
      · exact hexpire
      · exact hfollows
    · cases hm
      exact .inl ⟨_, rfl⟩

theorem follows_attempt {k : Bool → AccountHandler α}
    (hk : ∀ b, Follows r (k b)) (hlabel : ∀ b, AfterSeen login (k b).label?) :
    Follows r (allowTVAttempt (.tvSeen login .attemptTime) (.tvSeen login .attempt) bucket key
      limit window >>= k) := by
  refine follows_clock (fun a => Effect.seen rfl fun m hm => ?_) fun now =>
    follows_act (fun a => ?_) hk
  · cases hm
    exact .inl ⟨_, rfl⟩
  · dsimp only
    split <;> exact Effect.seen (view_setAttempts a bucket key) (hlabel _)

theorem follows_tvToken (req : Except String String) : Follows r (tvToken cfg clientIP req) := by
  refine plain_expireStale.follows_bind (fun _ => ?_) fun _ => ?_
  · split
    · exact fun m hm => by cases hm
    · intro m hm
      cases hm
      rfl
  split
  · exact follows_done _
  refine (plain_attempt rfl rfl _ _ _ _).follows_bind (fun b => ?_) fun b => ?_
  · split
    · exact fun m hm => by cases hm
    · intro m hm
      cases hm
      rfl
  split
  · exact follows_done _
  refine follows_exec (fun a => Effect.last rfl) (fun a => ?_) fun found => ?_
  · unfold firstRow
    split
    · next login hfirst =>
      refine .quiet rfl (fun hi => ?_) fun m hm => ?_
      · cases hi
      · cases hm
        exact .inl (a.tvLogins.first_some hfirst).1
    · exact Effect.last rfl
  split
  · exact follows_done _
  · next login =>
    obtain ⟨hfollows, hafter⟩ := @follows_answer cfg r login
    refine follows_attempt (fun b => ?_) fun b => ?_
    · split
      · exact follows_done _
      · exact hfollows
    · split
      · exact fun m hm => by cases hm
      · exact hafter

variable (request : TvRequest)

theorem follows_request : Follows r (request.program cfg) := by
  cases request with
  | start baseURL => exact (plain_start baseURL).follows
  | approve clientIP req => exact (plain_tvApprove clientIP req).follows
  | approveAuthenticated userID req => exact (plain_tvApproveAuthenticated userID req).follows
  | token clientIP req => exact (follows_tvToken clientIP req).forget
  | expireStale => exact plain_expireStale.follows
  | cleanUp => exact plain_cleanUp.follows

theorem request_label : (request.program cfg).label? = some .clock := by
  cases request <;> rfl

end programs

def discipline (r : ℕ) : Discipline Meanwhile (ApprovesPending r) where
  rely _ _ _ := True
  perm _ _ := True
  G _ := Effect r
  rely_refl _ _ := trivial
  rely_trans _ _ _ _ _ _ := trivial
  perm_of_allow _ _ _ _ := trivial
  env_rely _ _ _ _ := trivial
  step_rely _ _ _ _ _ _ _ _ := trivial

theorem tvPool_follows (r : ℕ) (requests : List TvRequest) (a : Accounts) :
    (discipline r).Pool (tvPool cfg requests a) := by
  intro i p hp
  rw [tvPool, getElem?_map] at hp
  obtain ⟨request, _, rfl⟩ := Option.map_eq_some_iff.mp hp
  exact follows_request request a

variable {r : ℕ}

theorem view_meanwhile (h : Meanwhile a a') : view r a' = view r a :=
  view_congr (by rw [h.logins]) h.approvals h.issued

theorem guard_status {v} (hv : view r a = some v) {l ls} (h : ApprovesPending r l ls a) (u : ℕ)
    (hl : l = .tvApprove r u) : v.status = .pending := by
  obtain ⟨row, hrow, rfl⟩ := view_some hv
  have hst := h u hl
  rw [statusOf, hrow] at hst
  exact Option.some.inj hst

structure Recorded (a : Accounts) (r : ℕ) (row : TVLogin) : Prop where
  approvers : approversOf a r = if row.status = .pending then [] else row.userID.toList
  issued : issuedTo a r = if row.status = .consumed then row.userID.toList else []

theorem booked_start (h : Recorded a r row) (requests : List TvRequest) :
    Booked r (tvPool cfg requests a).labels
      ⟨row.status, row.userID, approversOf a r, issuedTo a r⟩ := by
  have hlabels : ∀ n ∈ (tvPool cfg requests a).labels, n = some .clock := by
    intro n hn
    simp only [tvPool, Config.labels, map_map, mem_map, Function.comp_apply] at hn
    obtain ⟨request, _, rfl⟩ := hn
    exact request_label request
  have hnone : (tvPool cfg requests a).labels.countP (issuing r) = 0 := by
    refine countP_eq_zero.mpr fun n hn => ?_
    rw [hlabels n hn]
    simp [issuing]
  have hknown : ∀ m, some m ∈ (tvPool cfg requests a).labels →
      Known r ⟨row.status, row.userID, approversOf a r, issuedTo a r⟩ m := by
    intro m hm
    cases hlabels _ hm
    trivial
  rw [h.approvers, h.issued] at hknown ⊢
  refine ⟨fun hst => ?_, fun hst => ?_, ?_, fun u hu => ?_, hknown⟩ <;> dsimp only at *
  · simp [hst, hnone]
  · cases hu : row.userID <;> simp [hst, hnone]
  · cases hu : row.userID <;> split <;> simp [hnone]
  split at hu
  · next hst =>
    have huser : row.userID = some u := Option.mem_toList.mp hu
    simp [hst, huser]
  · cases hu

/-- As long as approvals are stored only for a pending login, a login gives one token pair at
most, to the user whose approval was stored first, and it is not approved again once it is
consumed or expired. -/
theorem tv_login_single_use (requests : List TvRequest) {a : Accounts} {r : ℕ} {row : TVLogin}
    (hrow : a.tvLogins.byId r = some row) (hrec : Recorded a r row)
    {c : Config Accounts AccountStmt}
    (h : Execution Meanwhile (ApprovesPending r) (tvPool cfg requests a) c) :
    (issuedTo c.shared r).length ≤ 1 ∧
      (∀ u ∈ issuedTo c.shared r, (approversOf c.shared r).head? = some u) ∧
      ∀ c', Execution Meanwhile (ApprovesPending r) c c' →
        statusOf c.shared r = some .consumed ∨ statusOf c.shared r = some .expired →
          statusOf c'.shared r ≠ some .approved := by
  have hbooked := (discipline r).execution_invariant
    (J := fun ls a => ∃ v, view r a = some v ∧ Booked r ls v) ?_ ?_
      (tvPool_follows cfg r requests a)
    ⟨_, view_of_row hrow, booked_start cfg hrec requests⟩ h
  · obtain ⟨hpool, v, hv, hb⟩ := hbooked
    obtain ⟨row', hrow', rfl⟩ := view_some hv
    have honce := hb.once
    refine ⟨by simp only at honce; omega, hb.first, fun c' hc' hover => ?_⟩
    have hlast := (discipline r).execution_invariant
      (J := fun _ a => ∃ v, view r a = some v ∧ IsOver v) ?_ ?_ hpool ⟨_, hv, ?_⟩ hc'
    · obtain ⟨_, v', hv', hover'⟩ := hlast
      obtain ⟨row₂, hrow₂, rfl⟩ := view_some hv'
      intro happroved
      rw [statusOf, hrow₂] at happroved
      rcases hover' with hst | hst <;> simp_all
    · intro ls i s l s' n hover hl hguard hG
      obtain ⟨v, hv, hover⟩ := hover
      obtain ⟨v', hv', hm⟩ := hG.moves v hv
      exact ⟨v', hv', hm.over (guard_status hv hguard) hover⟩
    · intro ls s s' hover henv
      rwa [view_meanwhile henv]
    · rw [statusOf, hrow'] at hover
      exact hover.imp Option.some.inj Option.some.inj
  · intro ls i s l s' n hJ hl hguard hG
    obtain ⟨v, hv, hb⟩ := hJ
    obtain ⟨v', hv', hm⟩ := hG.moves v hv
    exact ⟨v', hv', booked_step hb hv hl (guard_status hv hguard) hm hG.leads⟩
  · intro ls s s' hJ henv
    rwa [view_meanwhile henv]

/-- The login whose device code is `device` and whose user code is `CODE`, as it is started. -/
def shownLogin : TVLogin :=
  startedRow .standard "device" "CODE" 0 1

def twoUsers : Accounts :=
  { Accounts.start ⟨[⟨7, "seven@example.org"⟩, ⟨8, "eight@example.org"⟩], 9, by decide⟩ 0 with
    tvLogins := ⟨[shownLogin], 2, by decide⟩ }

theorem twoUsers_recorded : Recorded twoUsers 1 shownLogin := ⟨by decide, by decide⟩

def approveAndPoll : Config Accounts AccountStmt :=
  tvPool .standard [.approveAuthenticated 7 (.ok "code"), .token "ip" (.ok "device")] twoUsers

def afterPoll : List ℕ := replicate 11 0 ++ replicate 14 1

theorem approved_login_gives_tokens :
    (issuedTo (approveAndPoll.runSchedule afterPoll).shared 1).length ≤ 1 ∧
      issuedTo (approveAndPoll.runSchedule afterPoll).shared 1 = [7] :=
  ⟨(tv_login_single_use .standard _ rfl twoUsers_recorded
    (runSchedule_execution approveAndPoll afterPoll (by decide +kernel))).1, by decide +kernel⟩

def twoApprovals : Config Accounts AccountStmt :=
  tvPool .standard [.approveAuthenticated 7 (.ok "CODE"), .approveAuthenticated 8 (.ok "CODE"),
    .token "ip" (.ok "device"), .token "ip" (.ok "device")] twoUsers

def firstTokens : Config Accounts AccountStmt :=
  twoApprovals.runSchedule (replicate 10 0 ++ replicate 11 1 ++ replicate 14 2)

def secondApproval : Config Accounts AccountStmt := firstTokens.runSchedule [0]

def secondTokens : Config Accounts AccountStmt := secondApproval.runSchedule (replicate 14 3)

theorem consumed_login_approved_again :
    Recorded twoUsers 1 shownLogin ∧ Execution Meanwhile Unguarded twoApprovals firstTokens ∧
      Execution Meanwhile Unguarded firstTokens secondApproval ∧
      Execution Meanwhile Unguarded secondApproval secondTokens ∧
      statusOf firstTokens.shared 1 = some .consumed ∧
      statusOf secondApproval.shared 1 = some .approved ∧
      issuedTo secondTokens.shared 1 = [8, 7] :=
  ⟨twoUsers_recorded, runSchedule_execution _ _ (schedule_unguarded _ _),
    runSchedule_execution _ _ (schedule_unguarded _ _),
    runSchedule_execution _ _ (schedule_unguarded _ _),
    by decide +kernel, by decide +kernel, by decide +kernel⟩

end TvLogin
