import DrFrakeVpn.SharedPrograms

/-! # Event loops with nested loops

While a handler waits, the thread may handle further events on top of it. Other threads change the
state between any two actions. -/
namespace EventLoops

open SharedPrograms List

variable {σ ℓ ε α β γ : Type}

/-- `arrive` is what other threads do; a label with `waits` marks the return from a call that
runs a loop of its own. -/
structure Machine (σ ℓ ε α : Type) where
  handler : ε → Prog σ ℓ Unit
  ready : ε → σ → Bool
  waits : ℓ → Bool
  arrive : α → σ → σ

/-- The handlers underway, the innermost first, and the state. -/
structure Loop (σ ℓ : Type) where
  stack : List (Prog σ ℓ Unit)
  state : σ

inductive Move (ε α : Type) where
  | work
  | finish
  | dispatch (e : ε)
  | arrive (a : α)
  deriving DecidableEq, Repr

variable {c c' : Loop σ ℓ}

namespace Machine

variable (M : Machine σ ℓ ε α)

def Open (stack : List (Prog σ ℓ Unit)) : Bool :=
  match stack with
  | [] => true
  | p :: _ => p.label?.any M.waits

def move : Move ε α → Loop σ ℓ → Option (Loop σ ℓ)
  | .work, ⟨.act _ f next :: below, s⟩ => some ⟨next (f s).1 :: below, (f s).2⟩
  | .finish, ⟨.done _ :: below, s⟩ => some ⟨below, s⟩
  | .dispatch e, ⟨stack, s⟩ =>
    if M.Open stack && M.ready e s then some ⟨M.handler e :: stack, s⟩ else none
  | .arrive a, ⟨stack, s⟩ => some ⟨stack, M.arrive a s⟩
  | _, _ => none

abbrev Guard (σ ℓ ε α : Type) := Move ε α → Loop σ ℓ → Prop

def Turn (allow : Guard σ ℓ ε α) (c c' : Loop σ ℓ) : Prop :=
  ∃ m, allow m c ∧ M.move m c = some c'

def Run (allow : Guard σ ℓ ε α) : Loop σ ℓ → Loop σ ℓ → Prop :=
  Relation.ReflTransGen (M.Turn allow)

def Allowed (allow : Guard σ ℓ ε α) : List (Move ε α) → Loop σ ℓ → Prop
  | [], _ => True
  | m :: ms, c => allow m c ∧
    match M.move m c with
    | some c' => Allowed allow ms c'
    | none => False

instance allowedDecidable {allow : Guard σ ℓ ε α} [∀ m c, Decidable (allow m c)] :
    ∀ (ms : List (Move ε α)) (c : Loop σ ℓ), Decidable (M.Allowed allow ms c)
  | [], _ => .isTrue trivial
  | m :: ms, c =>
    have : Decidable (match M.move m c with
        | some c' => M.Allowed allow ms c'
        | none => False) :=
      match M.move m c with
      | some c' => allowedDecidable ms c'
      | none => .isFalse id
    inferInstanceAs (Decidable (_ ∧ _))

def after : List (Move ε α) → Loop σ ℓ → Loop σ ℓ
  | [], c => c
  | m :: ms, c =>
    match M.move m c with
    | some c' => after ms c'
    | none => c

theorem run_after (ms : List (Move ε α)) (c : Loop σ ℓ) (h : M.Allowed allow ms c) :
    M.Run allow c (M.after ms c) := by
  induction ms generalizing c with
  | nil => exact .refl
  | cons m ms ih =>
    obtain ⟨hallow, hrest⟩ := h
    cases hmove : M.move m c with
    | none => simp [hmove] at hrest
    | some c' =>
      rw [hmove] at hrest
      have hafter : M.after (m :: ms) c = M.after ms c' := by simp only [after, hmove]
      rw [hafter]
      exact .head ⟨m, hallow, hmove⟩ (ih c' hrest)

theorem move_work (h : M.move .work c = some c') :
    ∃ (γ : Type) (l : ℓ) (f : σ → γ × σ) (next : γ → Prog σ ℓ Unit) (below : List _) (s : σ),
      c = ⟨.act l f next :: below, s⟩ ∧ c' = ⟨next (f s).1 :: below, (f s).2⟩ := by
  rcases c with ⟨_ | ⟨_ | ⟨l, f, next⟩, below⟩, s⟩
  · simp [move] at h
  · simp [move] at h
  · exact ⟨_, l, f, next, below, s, rfl, by simpa [move] using h.symm⟩

theorem move_finish (h : M.move .finish c = some c') :
    ∃ (below : List _) (s : σ), c = ⟨.done () :: below, s⟩ ∧ c' = ⟨below, s⟩ := by
  rcases c with ⟨_ | ⟨_ | ⟨l, f, next⟩, below⟩, s⟩
  · simp [move] at h
  · exact ⟨below, s, rfl, by simpa [move] using h.symm⟩
  · simp [move] at h

theorem move_dispatch (h : M.move (.dispatch e) c = some c') :
    M.Open c.stack ∧ M.ready e c.state ∧ c' = ⟨M.handler e :: c.stack, c.state⟩ := by
  have hc : c = ⟨c.stack, c.state⟩ := rfl
  rw [hc, move] at h
  split at h
  · rename_i hready
    rw [Bool.and_eq_true] at hready
    exact ⟨hready.1, hready.2, (Option.some.inj h).symm⟩
  · cases h

theorem move_arrive (h : M.move (.arrive a) c = some c') :
    c' = ⟨c.stack, M.arrive a c.state⟩ := (Option.some.inj h).symm

end Machine

variable {p : Prog σ ℓ β} {k : β → Prog σ ℓ γ} {s : σ} {l : ℓ}

section serves

/-- What a program guarantees and has established when it is done. Before an action that
waits the state may have changed as `rely true` says, before any other one only as
`rely false` says. -/
def Serves (waits : ℓ → Bool) (rely : Bool → σ → σ → Prop) (perm : ℓ → σ → Prop)
    (G : σ → ℓ → σ → Prop) (Q : β → σ → Prop) : Prog σ ℓ β → σ → Prop
  | .done b, s => Q b s
  | .act l f next, s₀ => ∀ s, rely (waits l) s₀ s → perm l s →
      G s l (f s).2 ∧ Serves waits rely perm G Q (next (f s).1) (f s).2

variable {waits : ℓ → Bool} {rely : Bool → σ → σ → Prop} {perm : ℓ → σ → Prop}
  {G : σ → ℓ → σ → Prop} {Q : β → σ → Prop}

theorem serves_atom {f s₀}
    (h : ∀ s, rely (waits l) s₀ s → perm l s → G s l (f s).2 ∧ Q (f s).1 (f s).2) :
    Serves waits rely perm G Q (.atom l f) s₀ := h

theorem Serves.bind (hp : Serves waits rely perm G Q p s)
    (hk : ∀ b s, Q b s → Serves waits rely perm G R (k b) s) :
    Serves waits rely perm G R (p >>= k) s := by
  induction p generalizing s with
  | done b => exact hk b s hp
  | act l f next ih =>
    intro t ht hperm
    obtain ⟨hg, hnext⟩ := hp t ht hperm
    exact ⟨hg, ih _ hnext⟩

theorem Serves.mono (h : Serves waits rely perm G Q p s)
    (hG : ∀ s l s', perm l s → G s l s' → G' s l s') (hQ : ∀ b s, Q b s → R b s) :
    Serves waits rely perm G' R p s := by
  induction p generalizing s with
  | done b => exact hQ b s h
  | act l f next ih =>
    intro t ht hperm
    obtain ⟨hg, hnext⟩ := h t ht hperm
    exact ⟨hG _ _ _ hperm hg, ih _ hnext⟩

theorem serves_of_does (hR : ∀ l s s', perm l s → R l s s' → I s → G s l s' ∧ I s')
    (hrely : ∀ b s s', rely b s s' → I s → I s') (h : p.Does R) (hs : I s) :
    Serves waits rely perm G (fun _ => I) p s := by
  induction h generalizing s with
  | done b => exact hs
  | act h _ ih =>
    intro t ht hperm
    obtain ⟨hg, hI⟩ := hR _ _ _ hperm (h t) (hrely _ _ _ ht hs)
    exact ⟨hg, ih _ hI⟩

end serves

/-! ## Debts

A handler may leave the state in need of an action that it takes later on. In every
configuration of a run each open debt has a handler underway that is sure to pay it. -/

variable {below : List (Prog σ ℓ Unit)} {S : ℓ → Prop}

section debts

variable {δ : Type}

/-- Every path of the program comes to an action with such a label. -/
inductive Surely (S : ℓ → Prop) : Prog σ ℓ β → Prop where
  | now {γ : Type} {l : ℓ} {f : σ → γ × σ} {next : γ → Prog σ ℓ β} (h : S l) :
      Surely S (.act l f next)
  | later {γ : Type} {l : ℓ} {f : σ → γ × σ} {next : γ → Prog σ ℓ β}
      (h : ∀ b, Surely S (next b)) : Surely S (.act l f next)

theorem Surely.bind (h : Surely S p) (k : β → Prog σ ℓ γ) : Surely S (p >>= k) := by
  induction h with
  | now h => exact .now h
  | later _ ih => exact .later ih

theorem surely_bind (h : ∀ b, Surely S (k b)) : Surely S (p >>= k) := by
  induction p with
  | done b => exact h b
  | act l f next ih => exact .later fun b => ih b

/-- A debt that is open after an action was open before it and is not paid by it, or the
rest of the program is sure to pay it. -/
def Accounts (owed : δ → σ → Prop) (pays : δ → ℓ → Prop) : Prog σ ℓ β → Prop
  | .done _ => True
  | .act l f next =>
    (∀ s d, owed d (f s).2 → (owed d s ∧ ¬pays d l) ∨ Surely (pays d) (next (f s).1)) ∧
      ∀ b, Accounts owed pays (next b)

variable {owed : δ → σ → Prop} {pays : δ → ℓ → Prop}

theorem Accounts.bind (hp : Accounts owed pays p) (hk : ∀ b, Accounts owed pays (k b)) :
    Accounts owed pays (p >>= k) := by
  induction p with
  | done b => exact hk b
  | act l f next ih =>
    refine ⟨fun s d hd => ?_, fun b => ih b (hp.2 b)⟩
    rcases hp.1 s d hd with hopen | hsure
    · exact .inl hopen
    · exact .inr (hsure.bind k)

theorem accounts_atom
    (h : ∀ s d, owed d (f s).2 → (owed d s ∧ ¬pays d l) ∨ Surely (pays d) (k (f s).1))
    (hk : ∀ b, Accounts owed pays (k b)) : Accounts owed pays (.atom l f >>= k) := ⟨h, hk⟩

theorem accounts_of_does (hR : ∀ l s s', R l s s' → ∀ d, owed d s' → owed d s ∧ ¬pays d l)
    (h : p.Does R) : Accounts owed pays p := by
  induction h with
  | done b => trivial
  | act h _ ih => exact ⟨fun s d hd => .inl (hR _ _ _ (h s) d hd), ih⟩

def Covered (owed : δ → σ → Prop) (pays : δ → ℓ → Prop) (c : Loop σ ℓ) : Prop :=
  (∀ p ∈ c.stack, Accounts owed pays p) ∧ ∀ d, owed d c.state → ∃ p ∈ c.stack, Surely (pays d) p

variable {M : Machine σ ℓ ε α} {allow : Machine.Guard σ ℓ ε α}

theorem covered_act {next : γ → Prog σ ℓ Unit} {below : List _}
    (h : Covered owed pays ⟨.act l f next :: below, s⟩) :
    Covered owed pays ⟨next (f s).1 :: below, (f s).2⟩ := by
  obtain ⟨haccounts, hdebts⟩ := h
  have hact := haccounts _ mem_cons_self
  refine ⟨?_, fun d hd => ?_⟩
  · intro p hp
    rcases mem_cons.mp hp with rfl | hp
    · exact hact.2 _
    · exact haccounts p (mem_cons_of_mem _ hp)
  · rcases hact.1 s d hd with ⟨hopen, hunpaid⟩ | hsure
    · obtain ⟨p, hp, hsure⟩ := hdebts d hopen
      rcases mem_cons.mp hp with rfl | hp
      · refine ⟨_, mem_cons_self, ?_⟩
        cases hsure with
        | now hpays => exact absurd hpays hunpaid
        | later hlater => exact hlater _
      · exact ⟨p, mem_cons_of_mem _ hp, hsure⟩
    · exact ⟨_, mem_cons_self, hsure⟩

theorem covered_finish (h : Covered owed pays ⟨.done () :: below, s⟩) :
    Covered owed pays ⟨below, s⟩ := by
  obtain ⟨haccounts, hdebts⟩ := h
  refine ⟨fun p hp => haccounts p (mem_cons_of_mem _ hp), fun d hd => ?_⟩
  obtain ⟨p, hp, hsure⟩ := hdebts d hd
  rcases mem_cons.mp hp with rfl | hp
  · cases hsure
  · exact ⟨p, hp, hsure⟩

theorem covered_run (hhandler : ∀ e, Accounts owed pays (M.handler e))
    (harrive : ∀ a s d, owed d (M.arrive a s) → owed d s) (hc : Covered owed pays c)
    (h : M.Run allow c c') : Covered owed pays c' := by
  induction h with
  | refl => exact hc
  | tail _ hturn ih =>
    obtain ⟨m, -, hmove⟩ := hturn
    cases m with
    | work =>
      obtain ⟨γ, l, f, next, below, s, rfl, rfl⟩ := M.move_work hmove
      exact covered_act ih
    | finish =>
      obtain ⟨below, s, rfl, rfl⟩ := M.move_finish hmove
      exact covered_finish ih
    | dispatch e =>
      obtain ⟨-, -, rfl⟩ := M.move_dispatch hmove
      refine ⟨?_, fun d hd => ?_⟩
      · intro p hp
        rcases mem_cons.mp hp with rfl | hp
        · exact hhandler e
        · exact ih.1 p hp
      · obtain ⟨p, hp, hsure⟩ := ih.2 d hd
        exact ⟨p, mem_cons_of_mem _ hp, hsure⟩
    | arrive a =>
      obtain rfl := M.move_arrive hmove
      exact ⟨ih.1, fun d hd => ih.2 d (harrive a _ d hd)⟩

end debts

section rests

/-- Some path of the program comes to its end without such an action. -/
inductive Escapes (S : ℓ → Prop) : Prog σ ℓ β → Prop where
  | done (b : β) : Escapes S (.done b)
  | act {γ : Type} {l : ℓ} {f : σ → γ × σ} {next : γ → Prog σ ℓ β} (hl : ¬S l) (b : γ)
      (h : Escapes S (next b)) : Escapes S (.act l f next)

theorem Escapes.not_surely (h : Escapes S p) : ¬Surely S p := by
  induction h with
  | done b => exact nofun
  | act hl b _ ih =>
    intro hsure
    cases hsure with
    | now hS => exact hl hS
    | later hlater => exact ih (hlater b)

/-- The program and all that can be left of it. -/
inductive Throughout (φ : Prog σ ℓ β → Prop) : Prog σ ℓ β → Prop where
  | done {b : β} (h : φ (.done b)) : Throughout φ (.done b)
  | act {γ : Type} {l : ℓ} {f : σ → γ × σ} {next : γ → Prog σ ℓ β} (h : φ (.act l f next))
      (hnext : ∀ b, Throughout φ (next b)) : Throughout φ (.act l f next)

theorem Throughout.head (h : Throughout φ p) : φ p := by
  cases h with
  | done h => exact h
  | act h _ => exact h

def Free (S : ℓ → Prop) (T : Prog σ ℓ β → Prop) (p : Prog σ ℓ β) : Prop :=
  Escapes S p ∧ Throughout (fun q => Escapes S q ∨ T q) p

variable {T : Prog σ ℓ β → Prop}

theorem free_pure (b : β) : Free S T (pure b : Prog σ ℓ β) :=
  ⟨.done b, .done (.inl (.done b))⟩

variable {f : σ → γ × σ}

theorem free_act {next} (hl : ¬S l) {b} (hb : Escapes S (next b))
    (h : ∀ b, Throughout (fun q => Escapes S q ∨ T q) (next b)) : Free S T (.act l f next) :=
  ⟨.act hl b hb, .act (.inl (.act hl b hb)) h⟩

theorem free_bind [Inhabited σ] {T} (hp : p.Only fun l => ¬S l) (hk : ∀ b, Free S T (k b)) :
    Free S T (p >>= k) := by
  induction hp with
  | done b => exact hk b
  | @act _ l f next hl _ ih => exact free_act hl (ih (f default).1).1 fun b => (ih b).2

variable {M : Machine σ ℓ ε α} {allow : Machine.Guard σ ℓ ε α}

theorem throughout_run (hhandler : ∀ e, Throughout φ (M.handler e))
    (hc : ∀ p ∈ c.stack, Throughout φ p) (h : M.Run allow c c') :
    ∀ p ∈ c'.stack, Throughout φ p := by
  induction h with
  | refl => exact hc
  | tail _ hturn ih =>
    obtain ⟨m, -, hmove⟩ := hturn
    cases m with
    | work =>
      obtain ⟨γ, l, f, next, below, s, rfl, rfl⟩ := M.move_work hmove
      intro p hp
      rcases mem_cons.mp hp with rfl | hp
      · cases ih _ mem_cons_self with
        | act _ hnext => exact hnext _
      · exact ih p (mem_cons_of_mem _ hp)
    | finish =>
      obtain ⟨below, s, rfl, rfl⟩ := M.move_finish hmove
      exact fun p hp => ih p (mem_cons_of_mem _ hp)
    | dispatch e =>
      obtain ⟨-, -, rfl⟩ := M.move_dispatch hmove
      intro p hp
      rcases mem_cons.mp hp with rfl | hp
      · exact hhandler e
      · exact ih p hp
    | arrive a =>
      obtain rfl := M.move_arrive hmove
      exact ih

theorem run_act {P : σ → Prop}
    (hP : ∀ {a c}, allow (.arrive a) c → P c.state → P (M.arrive a c.state)) {next}
    (hl : M.waits l = false) (hs : P s) (h : M.Run allow ⟨.act l f next :: below, s⟩ c') :
    c'.stack = .act l f next :: below ∨
      ∃ s', P s' ∧ M.Run allow ⟨next (f s').1 :: below, (f s').2⟩ c' := by
  generalize hc : (⟨.act l f next :: below, s⟩ : Loop σ ℓ) = c at h
  induction h using Relation.ReflTransGen.head_induction_on generalizing s with
  | refl => exact .inl (hc ▸ rfl)
  | head hturn hrest ih =>
    obtain ⟨m, ha, hmove⟩ := hturn
    subst hc
    cases m with
    | work =>
      have hnext := Option.some.inj hmove
      exact .inr ⟨s, hs, hnext ▸ hrest⟩
    | finish => cases hmove
    | dispatch e =>
      obtain ⟨hopen, -, -⟩ := M.move_dispatch hmove
      have hwaits : M.waits l := hopen
      rw [hl] at hwaits
      cases hwaits
    | arrive a => exact ih (hP ha hs) (M.move_arrive hmove).symm

end rests

/-! ## Invariants of runs

A handler that was called from the loop itself guarantees `outer`, one that was called while
another waits guarantees `inner`. A waiting handler relies on what is done on top of it, so
`inner` has to lie within `rely true`. When nothing is underway, `rest` holds. -/

structure Layers (M : Machine σ ℓ ε α) (allow : Machine.Guard σ ℓ ε α) where
  inv : σ → Prop
  rest : σ → Prop
  rely : Bool → σ → σ → Prop
  perm : ℓ → σ → Prop
  outer : σ → ℓ → σ → Prop
  inner : σ → ℓ → σ → Prop
  rely_refl : ∀ b s, rely b s s
  rely_trans : ∀ {b s t u}, rely b s t → rely b t u → rely b s u
  rely_wait : ∀ {b s t}, rely false s t → rely b s t
  inner_rely : ∀ {s l s'}, inv s → inner s l s' → rely true s s'
  outer_inv : ∀ {s l s'}, inv s → outer s l s' → inv s'
  inner_inv : ∀ {s l s'}, inv s → inner s l s' → inv s'
  permitted : ∀ {γ : Type} {l : ℓ} {f : σ → γ × σ} {next : γ → Prog σ ℓ Unit} {below s},
    inv s → allow .work ⟨.act l f next :: below, s⟩ → perm l s
  arrive_inv : ∀ {a c}, allow (.arrive a) c → inv c.state → inv (M.arrive a c.state)
  arrive_rely : ∀ {a c}, allow (.arrive a) c → rely false c.state (M.arrive a c.state)
  arrive_rest : ∀ {a c}, allow (.arrive a) c → rest c.state → rest (M.arrive a c.state)
  dispatch_outer : ∀ {e s}, inv s → rest s → M.ready e s = true → allow (.dispatch e) ⟨[], s⟩ →
    Serves M.waits rely perm outer (fun _ => rest) (M.handler e) s
  dispatch_inner : ∀ {e p below s}, inv s → M.ready e s = true →
    allow (.dispatch e) ⟨p :: below, s⟩ →
    Serves M.waits rely perm inner (fun _ _ => True) (M.handler e) s

namespace Layers

variable {M : Machine σ ℓ ε α} {allow : Machine.Guard σ ℓ ε α} (L : Layers M allow)

def Stacked : List (Prog σ ℓ Unit) → σ → Prop
  | [], s => L.rest s
  | [p], s => Serves M.waits L.rely L.perm L.outer (fun _ => L.rest) p s
  | p :: q :: below, s => Serves M.waits L.rely L.perm L.inner (fun _ _ => True) p s ∧
      M.Open (q :: below) = true ∧ Stacked (q :: below) s

def Holds (c : Loop σ ℓ) : Prop := L.inv c.state ∧ L.Stacked c.stack c.state

variable {G : σ → ℓ → σ → Prop} {Q : Unit → σ → Prop} {s' : σ}

theorem serves_later {p} (h : Serves M.waits L.rely L.perm G Q p s) (hr : L.rely false s s')
    (hQ : ∀ a, Q a s → Q a s') : Serves M.waits L.rely L.perm G Q p s' := by
  cases p with
  | done a => exact hQ a h
  | act l f next => exact fun t ht hperm => h t (L.rely_trans (L.rely_wait hr) ht) hperm

theorem serves_waiting {p} (h : Serves M.waits L.rely L.perm G Q p s)
    (hp : M.Open (p :: below)) (hr : L.rely true s s') :
    Serves M.waits L.rely L.perm G Q p s' := by
  cases p with
  | done a => cases hp
  | act l f next =>
    have hl : M.waits l := hp
    intro t ht hperm
    refine h t ?_ hperm
    rw [hl] at ht ⊢
    exact L.rely_trans hr ht

theorem stacked_waiting {p} (h : L.Stacked (p :: below) s) (hp : M.Open (p :: below))
    (hr : L.rely true s s') : L.Stacked (p :: below) s' := by
  induction below generalizing p with
  | nil => exact L.serves_waiting h hp hr
  | cons q below ih =>
    obtain ⟨hserves, hq, hbelow⟩ := h
    exact ⟨L.serves_waiting hserves hp hr, hq, ih hbelow hq⟩

theorem stacked_arrive (ha : allow (.arrive a) c) (h : L.Stacked c.stack c.state) :
    L.Stacked c.stack (M.arrive a c.state) := by
  have hr := L.arrive_rely ha
  rcases hstack : c.stack with _ | ⟨p, _ | ⟨q, below⟩⟩
  · rw [hstack] at h
    exact L.arrive_rest ha h
  · rw [hstack] at h
    exact L.serves_later h hr fun _ hq => L.arrive_rest ha hq
  · rw [hstack] at h
    obtain ⟨hserves, hq, hbelow⟩ := h
    exact ⟨L.serves_later hserves hr fun _ _ => trivial, hq,
      L.stacked_waiting hbelow hq (L.rely_wait hr)⟩

theorem stacked_act {next : γ → Prog σ ℓ Unit} (hinv : L.inv s)
    (h : L.Stacked (.act l f next :: below) s) (hperm : L.perm l s) :
    L.Stacked (next (f s).1 :: below) (f s).2 ∧
      ((below = [] ∧ L.outer s l (f s).2) ∨ (below ≠ [] ∧ L.inner s l (f s).2)) := by
  cases below with
  | nil =>
    obtain ⟨hg, hnext⟩ := h s (L.rely_refl _ s) hperm
    exact ⟨hnext, .inl ⟨rfl, hg⟩⟩
  | cons q below =>
    obtain ⟨hserves, hq, hbelow⟩ := h
    obtain ⟨hg, hnext⟩ := hserves s (L.rely_refl _ s) hperm
    exact ⟨⟨hnext, hq, L.stacked_waiting hbelow hq (L.inner_rely hinv hg)⟩,
      .inr ⟨cons_ne_nil q below, hg⟩⟩

theorem stacked_finish (h : L.Stacked (.done () :: below) s) : L.Stacked below s := by
  cases below with
  | nil => exact h
  | cons q below => exact h.2.2

theorem stacked_dispatch (hc : L.Holds c) (hopen : M.Open c.stack)
    (hready : M.ready e c.state) (ha : allow (.dispatch e) c) :
    L.Stacked (M.handler e :: c.stack) c.state := by
  rcases c with ⟨_ | ⟨p, below⟩, s⟩
  · exact L.dispatch_outer hc.1 hc.2 hready ha
  · exact ⟨L.dispatch_inner hc.1 hready ha, hopen, hc.2⟩

theorem holds_turn (hc : L.Holds c) (h : M.Turn allow c c') : L.Holds c' := by
  obtain ⟨m, ha, hmove⟩ := h
  cases m with
  | work =>
    obtain ⟨γ, l, f, next, below, s, rfl, rfl⟩ := M.move_work hmove
    obtain ⟨hstacked, hguarantee⟩ := L.stacked_act hc.1 hc.2 (L.permitted hc.1 ha)
    refine ⟨?_, hstacked⟩
    rcases hguarantee with ⟨-, hg⟩ | ⟨-, hg⟩
    · exact L.outer_inv hc.1 hg
    · exact L.inner_inv hc.1 hg
  | finish =>
    obtain ⟨below, s, rfl, rfl⟩ := M.move_finish hmove
    exact ⟨hc.1, L.stacked_finish hc.2⟩
  | dispatch e =>
    obtain ⟨hopen, hready, rfl⟩ := M.move_dispatch hmove
    exact ⟨hc.1, L.stacked_dispatch hc hopen hready ha⟩
  | arrive a =>
    obtain rfl := M.move_arrive hmove
    exact ⟨L.arrive_inv ha hc.1, L.stacked_arrive ha hc.2⟩

theorem holds_run (hc : L.Holds c) (h : M.Run allow c c') : L.Holds c' := by
  induction h with
  | refl => exact hc
  | tail _ hturn ih => exact L.holds_turn ih hturn

end Layers

end EventLoops
