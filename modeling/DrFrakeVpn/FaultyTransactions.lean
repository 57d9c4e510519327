import DrFrakeVpn.SharedPrograms

/-! # Statements that may fail, and transactions that roll back

A transaction whose body ends in an error leaves what `undo` restores; every statement named by
the fault set fails without effect. -/
namespace FaultyTransactions

open SharedPrograms List Prog

variable {σ ε ℓ α β : Type}

abbrev Tx (σ ε : Type) := ExceptT ε (StateM σ)

def exec (x : Tx σ ε α) (s : σ) : Except ε α × σ := StateT.run (ExceptT.run x) s

/-- The error of a statement as a value, for code that inspects or ignores it. -/
def attempt (x : Tx σ ε α) : Tx σ ε (Except ε α) := ExceptT.mk (Except.ok <$> ExceptT.run x)

def ignoring (x : Tx σ ε α) : Tx σ ε Unit := do
  let _ ← attempt x

/-- One statement of the source under its label; a fault answers `e` and changes nothing. -/
def statement (faults : ℓ → Bool) (e : ε) (l : ℓ) (f : σ → Except ε α × σ) : Tx σ ε α :=
  ExceptT.mk fun s => if faults l then (.error e, s) else f s

/-- The body as one atomic action: kept when it returns, undone when it ends in an error. -/
def transact (undo : σ → σ → σ) (x : Tx σ ε α) (s : σ) : Except ε α × σ :=
  match exec x s with
  | (.ok a, s') => (.ok a, s')
  | (.error e, s') => (.error e, undo s s')

@[simp] theorem exec_pure (a : α) (s : σ) : exec (pure a : Tx σ ε α) s = (.ok a, s) := rfl

@[simp] theorem exec_throw (e : ε) (s : σ) : exec (throw e : Tx σ ε α) s = (.error e, s) := rfl

@[simp] theorem exec_get : exec (get : Tx σ ε σ) s = (.ok s, s) := rfl

@[simp] theorem exec_modify :
    exec (modify f : Tx σ ε PUnit) s = (.ok ⟨⟩, f s) := rfl

theorem exec_bind (x : Tx σ ε α) (k : α → Tx σ ε β) (s : σ) :
    exec (x >>= k) s = match exec x s with
      | (.ok a, s') => exec (k a) s'
      | (.error e, s') => (.error e, s') := by
  change (match (StateT.run (ExceptT.run x) s) with
    | (r, s') => StateT.run (ExceptT.bindCont k r) s') = _
  unfold exec
  rcases StateT.run (ExceptT.run x) s with ⟨_ | _, _⟩ <;> rfl

@[simp] theorem exec_attempt :
    exec (attempt x) s = (.ok (exec x s).1, (exec x s).2) := rfl

@[simp] theorem exec_ignoring :
    exec (ignoring x) s = (.ok (), (exec x s).2) := rfl

@[simp] theorem exec_statement :
    exec (statement faults e l f) s = if faults l then (.error e, s) else f s := rfl

/-- A statement outside every transaction: an atomic action of its own. -/
def single (faults : ℓ → Bool) (e : ε) (l : ℓ) (f : σ → Except ε α × σ) :
    Prog σ ℓ (Except ε α) :=
  .atom l fun s => if faults l then (.error e, s) else f s

/-- A transaction as an atomic action; a fault under its own label is a failed commit. -/
def transaction (faults : ℓ → Bool) (e : ε) (undo : σ → σ → σ) (l : ℓ) (x : Tx σ ε α) :
    Prog σ ℓ (Except ε α) :=
  .atom l fun s => if faults l then (.error e, s) else transact undo x s

/-- The body keeps the property, whether it runs to its end or to an error. -/
def Preserves (I : σ → Prop) (x : Tx σ ε α) : Prop := ∀ s, I s → I (exec x s).2

variable {x : Tx σ ε α} {undo : σ → σ → σ}

section preserves

variable {I : σ → Prop}

theorem preserves_pure (a : α) : Preserves I (pure a : Tx σ ε α) := fun _ h => h

theorem Preserves.bind {k : α → Tx σ ε β} (hx : Preserves I x) (hk : ∀ a, Preserves I (k a)) :
    Preserves I (x >>= k) := by
  intro s hs
  have h := hx s hs
  rw [exec_bind]
  cases hr : exec x s with
  | mk r s' =>
    rw [hr] at h
    cases r with
    | error e => exact h
    | ok a => exact hk a s' h

theorem Preserves.attempt (hx : Preserves I x) : Preserves I (attempt x : Tx σ ε (Except ε α)) := hx

theorem Preserves.ignoring (hx : Preserves I x) : Preserves I (ignoring x : Tx σ ε Unit) := hx

theorem preserves_statement {l : ℓ} {f : σ → Except ε α × σ} (hf : ∀ s, I s → I (f s).2) :
    Preserves I (statement faults e l f) := by
  intro s hs
  rw [exec_statement]
  split
  · exact hs
  · exact hf s hs

theorem Preserves.transact (hx : Preserves I x) (hundo : ∀ s s', I s → I s' → I (undo s s')) {s : σ}
    (hs : I s) : I (transact undo x s).2 := by
  have h := hx s hs
  unfold FaultyTransactions.transact
  split
  · next hr =>
    rw [hr] at h
    exact h
  · next hr =>
    rw [hr] at h
    exact hundo _ _ hs h

end preserves

theorem single_run :
    (single faults e l f).run s = if faults l then (.error e, s) else f s := rfl

variable {faults : ℓ → Bool} {e : ε}

theorem triple_single {l f P} {Q : Except ε α → σ → Prop} (herror : ∀ s, P s → Q (.error e) s)
    (h : ∀ s, P s → Q (f s).1 (f s).2) : (single faults e l f).Triple P Q := by
  intro s hs
  rw [single_run]
  split
  · exact herror s hs
  · exact h s hs

theorem triple_transaction {l I} (hx : Preserves I x) (hundo : ∀ s s', I s → I s' → I (undo s s')) :
    (transaction faults e undo l x).Triple I fun _ => I := by
  intro s hs
  change I (if faults l then (_, s) else transact undo x s).2
  split
  · exact hs
  · exact hx.transact hundo hs

/-- Attempts every item and answers those whose attempt ended without an error. -/
def succeeding (attempt : β → Prog σ ℓ (Except ε α)) : List β → Prog σ ℓ (List β)
  | [] => .done []
  | x :: rest => (attempt x).bind fun
    | .error _ => succeeding attempt rest
    | .ok _ => (succeeding attempt rest).bind fun xs => .done (x :: xs)

section succeeding

variable {attempt : β → Prog σ ℓ (Except ε α)} {R : σ → σ → Prop} (hrefl : ∀ s, R s s)
  (htrans : ∀ {a b c}, R a b → R b c → R a c)

def Attempted (attempt : β → Prog σ ℓ (Except ε α)) (R : σ → σ → Prop) (s s' : σ)
    (tr : List (ℓ × σ)) (x : β) (good : Prop) : Prop :=
  ∃ t, R s t ∧ R ((attempt x).run t).2 s' ∧ (attempt x).trace t ⊆ tr ∧
    ((∃ a, ((attempt x).run t).1 = .ok a) ↔ good)

include hrefl htrans

theorem succeeding_run (hstep : ∀ x ∈ xs, ∀ t, R s t → R t ((attempt x).run t).2) :
    R s ((succeeding attempt xs).run s).2 ∧
      (∀ x ∈ ((succeeding attempt xs).run s).1, x ∈ xs ∧ Attempted attempt R s
        ((succeeding attempt xs).run s).2 ((succeeding attempt xs).trace s) x True) ∧
      ∀ x ∈ xs, x ∉ ((succeeding attempt xs).run s).1 → Attempted attempt R s
        ((succeeding attempt xs).run s).2 ((succeeding attempt xs).trace s) x False := by
  induction xs generalizing s with
  | nil => exact ⟨hrefl s, by simp [succeeding], by simp⟩
  | cons x xs ih =>
    have hx : R s ((attempt x).run s).2 := hstep x mem_cons_self s (hrefl s)
    obtain ⟨hR, hgood, hbad⟩ := ih
      fun y hy t ht => hstep y (mem_cons_of_mem x hy) t (htrans hx ht)
    have hlater : ∀ {y good}, Attempted attempt R ((attempt x).run s).2
        ((succeeding attempt xs).run ((attempt x).run s).2).2
        ((succeeding attempt xs).trace ((attempt x).run s).2) y good →
        Attempted attempt R s ((succeeding attempt xs).run ((attempt x).run s).2).2
          ((attempt x).trace s ++ (succeeding attempt xs).trace ((attempt x).run s).2) y good := by
      rintro y good ⟨t, hst, hts, htr, hout⟩
      exact ⟨t, htrans hx hst, hts, List.Subset.trans htr (subset_append_right _ _), hout⟩
    simp only [succeeding, run_bind, trace_bind]
    cases hr : ((attempt x).run s).1 with
    | error e =>
      refine ⟨htrans hx hR, fun y hy => ?_, fun y hy hne => ?_⟩
      · exact ⟨mem_cons_of_mem x (hgood y hy).1, hlater (hgood y hy).2⟩
      · rcases mem_cons.mp hy with rfl | hy
        · exact ⟨s, hrefl s, hR, subset_append_left _ _, by simp [hr]⟩
        · exact hlater (hbad y hy hne)
    | ok a =>
      simp only [run_bind, trace_bind, run_done, Prog.trace, append_nil]
      refine ⟨htrans hx hR, fun y hy => ?_, fun y hy hne => ?_⟩
      · rcases mem_cons.mp hy with rfl | hy
        · exact ⟨mem_cons_self, s, hrefl s, hR, subset_append_left _ _, by simp [hr]⟩
        · exact ⟨mem_cons_of_mem x (hgood y hy).1, hlater (hgood y hy).2⟩
      · rcases mem_cons.mp hy with rfl | hy
        · exact absurd mem_cons_self hne
        · exact hlater (hbad y hy fun h => hne (mem_cons_of_mem x h))

end succeeding

theorem transact_ok (h : exec x s = (.ok a, s')) : transact undo x s = (.ok a, s') := by
  rw [transact, h]

theorem transact_error (h : exec x s = (.error e, s')) :
    transact undo x s = (.error e, undo s s') := by
  rw [transact, h]

end FaultyTransactions
