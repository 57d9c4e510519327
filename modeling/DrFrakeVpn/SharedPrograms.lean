import Mathlib

/-! # Programs of atomic actions on a shared state

A program is a tree of labelled atomic actions, which a pool interleaves. The rely rule proves a
property of one program at a time and gives back an invariant of every interleaving. -/
namespace SharedPrograms

open List

inductive Prog (σ ℓ α : Type) : Type 1 where
  | done (a : α)
  | act {β : Type} (l : ℓ) (f : σ → β × σ) (next : β → Prog σ ℓ α)

variable {σ ℓ α β : Type}
  {p : Prog σ ℓ α} {S : ℓ → Prop} {s : σ} {k : α → Prog σ ℓ β} {I : σ → Prop} {l : ℓ}
  {f : σ → α × σ} {a : α} {γ : Type}

namespace Prog

def bind : Prog σ ℓ α → (α → Prog σ ℓ β) → Prog σ ℓ β
  | .done a, k => k a
  | .act l f next, k => .act l f fun b => (next b).bind k

instance : Monad (Prog σ ℓ) where
  pure := .done
  bind := bind

def atom (l : ℓ) (f : σ → β × σ) : Prog σ ℓ β := .act l f .done

def label? : Prog σ ℓ α → Option ℓ
  | .done _ => none
  | .act l _ _ => some l

def run : Prog σ ℓ α → σ → α × σ
  | .done a, s => (a, s)
  | .act _ f next, s => (next (f s).1).run (f s).2

/-- The actions of the program alone: the label of each and the state it starts in. -/
def trace : Prog σ ℓ α → σ → List (ℓ × σ)
  | .done _, _ => []
  | .act l f next, s => (l, s) :: (next (f s).1).trace (f s).2

def forget (p : Prog σ ℓ α) : Prog σ ℓ Unit := p.bind fun _ => .done ()

@[simp] theorem pure_eq : (pure a : Prog σ ℓ α) = .done a := rfl
@[simp] theorem bind_eq (p : Prog σ ℓ α) (k : α → Prog σ ℓ β) : p >>= k = p.bind k := rfl
@[simp] theorem done_bind (a : α) (k : α → Prog σ ℓ β) : (done a : Prog σ ℓ α).bind k = k a := rfl
@[simp] theorem act_bind (l : ℓ) (f : σ → γ × σ) (next : γ → Prog σ ℓ α) (k : α → Prog σ ℓ β) :
    (act l f next).bind k = .act l f fun b => (next b).bind k := rfl
@[simp] theorem atom_bind :
    (atom l f).bind k = .act l f k := rfl
@[simp] theorem label_done (a : α) : (done a : Prog σ ℓ α).label? = none := rfl
@[simp] theorem label_act (l : ℓ) (f : σ → γ × σ) (next : γ → Prog σ ℓ α) :
    (act l f next).label? = some l := rfl
@[simp] theorem run_done : (done a : Prog σ ℓ α).run s = (a, s) := rfl
@[simp] theorem run_act (l : ℓ) (f : σ → γ × σ) (next : γ → Prog σ ℓ α) (s : σ) :
    (act l f next).run s = (next (f s).1).run (f s).2 := rfl

/-- Every action of the program, on every path, has a label in `S`. -/
inductive Only (S : ℓ → Prop) : Prog σ ℓ α → Prop where
  | done (a : α) : Only S (.done a)
  | act {β : Type} {l : ℓ} {f : σ → β × σ} {next : β → Prog σ ℓ α} (hl : S l)
      (h : ∀ b, Only S (next b)) : Only S (.act l f next)

theorem only_pure (a : α) : (pure a : Prog σ ℓ α).Only S := .done a

theorem only_atom (h : S l) : (atom l f : Prog σ ℓ α).Only S := .act h .done

theorem Only.bind (hp : p.Only S) (hk : ∀ a, (k a).Only S) : (p >>= k).Only S := by
  induction hp with
  | done a => exact hk a
  | act hl _ ih => exact .act hl ih

theorem Only.mono (h : p.Only S) (hST : ∀ l, S l → T l) : p.Only T := by
  induction h with
  | done a => exact .done a
  | act hl _ ih => exact .act (hST _ hl) ih

theorem Only.label (h : p.Only S) (hl : p.label? = some l) : S l := by
  cases h with
  | done a => cases hl
  | act hS _ =>
    cases hl
    exact hS

theorem Only.forget (h : p.Only S) : p.forget.Only S :=
  h.bind fun _ => .done ()

theorem Only.trace (h : p.Only S) {x} (hx : x ∈ p.trace s) : S x.1 := by
  induction h generalizing s with
  | done a => cases hx
  | act hl _ ih =>
    rcases mem_cons.mp hx with rfl | hx
    · exact hl
    · exact ih _ hx

theorem bind_assoc (p : Prog σ ℓ α) (f : α → Prog σ ℓ β) (g : β → Prog σ ℓ γ) :
    (p.bind f).bind g = p.bind fun a => (f a).bind g := by
  induction p with
  | done a => rfl
  | act l h next ih => simp [ih]

theorem run_bind (p : Prog σ ℓ α) (k : α → Prog σ ℓ β) (s : σ) :
    (p.bind k).run s = (k (p.run s).1).run (p.run s).2 := by
  induction p generalizing s with
  | done a => rfl
  | act l f next ih => simp [ih]

theorem trace_bind (p : Prog σ ℓ α) (k : α → Prog σ ℓ β) (s : σ) :
    (p.bind k).trace s = p.trace s ++ (k (p.run s).1).trace (p.run s).2 := by
  induction p generalizing s with
  | done a => rfl
  | act l f next ih => simp [trace, ih]

/-- Pre- and postcondition of the program alone; the postcondition sees its answer. -/
def Triple (P : σ → Prop) (p : Prog σ ℓ α) (Q : α → σ → Prop) : Prop :=
  ∀ s, P s → Q (p.run s).1 (p.run s).2

section triple

variable {P : σ → Prop} {Q : α → σ → Prop} {R : β → σ → Prop}

theorem Triple.done (h : ∀ s, P s → Q a s) : (done a : Prog σ ℓ α).Triple P Q := h

theorem Triple.atom (h : ∀ s, P s → Q (f s).1 (f s).2) : (atom l f : Prog σ ℓ α).Triple P Q := h

theorem Triple.bind (hp : p.Triple P Q) (hk : ∀ a, (k a).Triple (Q a) R) :
    (p >>= k).Triple P R := by
  intro s hs
  rw [bind_eq, run_bind]
  exact hk _ _ (hp s hs)

theorem Triple.pre (hp : p.Triple P Q) (h : ∀ s, P' s → P s) : p.Triple P' Q :=
  fun s hs => hp s (h s hs)

theorem Triple.post (hp : p.Triple P Q) (h : ∀ a s, Q a s → Q' a s) :
    p.Triple P Q' := fun s hs => h _ _ (hp s hs)

/-- A fact that the precondition gives may be used about the program itself. -/
theorem Triple.given (fact : Prop) (hfact : ∀ s, P s → fact) (h : fact → p.Triple P Q) :
    p.Triple P Q := fun s hs => h (hfact s hs) s hs

end triple

/-- The program keeps the invariant, and its answer is in `Q`. -/
def Keeps (I : σ → Prop) (p : Prog σ ℓ α) (Q : α → Prop) : Prop := p.Triple I fun a s => I s ∧ Q a

section keeps

variable {Q : α → Prop} {R : β → Prop}

theorem Keeps.done (h : Q a) : (done a : Prog σ ℓ α).Keeps I Q := fun _ hs => ⟨hs, h⟩

theorem Keeps.of_run (h : ∀ s, I s → I (p.run s).2) : p.Keeps I fun _ => True :=
  fun s hs => ⟨h s hs, trivial⟩

theorem Keeps.bind (hp : p.Keeps I Q) (hk : ∀ a, Q a → (k a).Keeps I R) : (p >>= k).Keeps I R := by
  intro s hs
  obtain ⟨hI, hQ⟩ := hp s hs
  rw [bind_eq, run_bind]
  exact hk _ hQ _ hI

theorem Keeps.any (h : p.Keeps I Q) : p.Keeps I fun _ => True := .of_run fun s hs => (h s hs).1

end keeps

def each (f : β → Prog σ ℓ Unit) : List β → Prog σ ℓ Unit
  | [] => .done ()
  | x :: rest => (f x).bind fun _ => each f rest

/-- The answers of the items that have one, in the order of the items. -/
def collect (f : β → Prog σ ℓ (Option α)) : List β → Prog σ ℓ (List α)
  | [] => .done []
  | x :: rest => (f x).bind fun r => (collect f rest).bind fun rs => .done (r.toList ++ rs)

variable {xs : List β}

theorem Triple.each {f : β → Prog σ ℓ Unit} (h : ∀ x ∈ xs, (f x).Triple I fun _ => I) :
    (each f xs).Triple I fun _ => I := by
  induction xs with
  | nil => exact Triple.done fun _ hs => hs
  | cons x xs ih =>
    refine Triple.bind (h x mem_cons_self) fun _ => ?_
    exact ih fun y hy => h y (mem_cons_of_mem x hy)

theorem Triple.each_of_mem {R} {f : β → Prog σ ℓ Unit} {x} (hx : x ∈ xs)
    (hall : ∀ y ∈ xs, (f y).Triple I fun _ => I) (hone : (f x).Triple I fun _ => R)
    (hkeep : ∀ y ∈ xs, (f y).Triple R fun _ => R) : (Prog.each f xs).Triple I fun _ => R := by
  induction xs with
  | nil => cases hx
  | cons y xs ih =>
    have hrest : ∀ z ∈ xs, z ∈ y :: xs := fun z hz => mem_cons_of_mem y hz
    rcases mem_cons.mp hx with rfl | hx
    · exact Triple.bind hone fun _ => Triple.each fun z hz => hkeep z (hrest z hz)
    · refine Triple.bind (hall y mem_cons_self) fun _ => ?_
      exact ih hx (fun z hz => hall z (hrest z hz)) fun z hz => hkeep z (hrest z hz)

theorem Keeps.each {f : β → Prog σ ℓ Unit} (h : ∀ x ∈ xs, (f x).Keeps I fun _ => True) :
    (each f xs).Keeps I fun _ => True :=
  .of_run (Triple.each fun x hx s hs => (h x hx s hs).1)

theorem Keeps.collect {Q : α → Prop} {f : β → Prog σ ℓ (Option α)}
    (h : ∀ x ∈ xs, (f x).Keeps I fun r => ∀ a ∈ r, Q a) :
    (collect f xs).Keeps I fun rs => ∀ a ∈ rs, Q a := by
  induction xs with
  | nil => exact .done fun _ ha => (not_mem_nil ha).elim
  | cons x xs ih =>
    intro s hs
    obtain ⟨hx, hr⟩ := h x mem_cons_self s hs
    obtain ⟨hxs, hrs⟩ := ih (fun y hy => h y (mem_cons_of_mem x hy)) _ hx
    simp only [Prog.collect, run_bind, run_done]
    refine ⟨hxs, fun a ha => ?_⟩
    rcases mem_append.mp ha with ha | ha
    · exact hr a (Option.mem_toList.mp ha)
    · exact hrs a ha

@[simp] theorem label_forget (p : Prog σ ℓ α) : p.forget.label? = p.label? := by
  cases p <;> rfl

@[simp] theorem run_forget : (p.forget.run s).2 = (p.run s).2 := by
  simp [forget, run_bind, run_done]

end Prog

theorem countP_set_add (q : β → Bool) {ls : List β} {i a} (h : ls[i]? = some a) (b : β) :
    (ls.set i b).countP q + (if q a then 1 else 0) =
      ls.countP q + (if q b then 1 else 0) := by
  obtain ⟨hi, ha⟩ := List.getElem?_eq_some_iff.mp h
  have hset := countP_set (p := q) (a := b) hi
  rw [ha] at hset
  by_cases hq : q a
  · have hpos : 0 < ls.countP q := countP_pos_iff.mpr ⟨a, mem_of_getElem? h, hq⟩
    simp only [hq, if_true] at hset ⊢
    omega
  · simp only [hq, Bool.false_eq_true, if_false] at hset ⊢
    omega

structure Config (σ ℓ : Type) where
  threads : List (Prog σ ℓ Unit)
  shared : σ

namespace Config

def labels (c : Config σ ℓ) : List (Option ℓ) := c.threads.map Prog.label?

/-- Thread `i` performs its next action; a finished or missing thread does nothing. -/
def stepAt (c : Config σ ℓ) (i : ℕ) : Config σ ℓ :=
  match c.threads[i]? with
  | some (.act _ f next) => ⟨c.threads.set i (next (f c.shared).1), (f c.shared).2⟩
  | _ => c

def runSchedule (c : Config σ ℓ) (order : List ℕ) : Config σ ℓ := order.foldl stepAt c

end Config

/-- A guard sees the label of the action, the next labels of all threads and the state. -/
abbrev Guard (σ ℓ : Type) := ℓ → List (Option ℓ) → σ → Prop

/-- The environment moves on its own; a thread moves only where the guard allows it. -/
inductive Step (env : σ → σ → Prop) (allow : Guard σ ℓ) : Config σ ℓ → Config σ ℓ → Prop where
  | thread {ts : List (Prog σ ℓ Unit)} {s : σ} {i : ℕ} {γ : Type} {l : ℓ}
      {f : σ → γ × σ} {next : γ → Prog σ ℓ Unit}
      (hp : ts[i]? = some (.act l f next)) (ha : allow l (ts.map Prog.label?) s) :
      Step env allow ⟨ts, s⟩ ⟨ts.set i (next (f s).1), (f s).2⟩
  | environment {ts : List (Prog σ ℓ Unit)} {s s' : σ} (h : env s s') :
      Step env allow ⟨ts, s⟩ ⟨ts, s'⟩

def Execution (env : σ → σ → Prop) (allow : Guard σ ℓ) : Config σ ℓ → Config σ ℓ → Prop :=
  Relation.ReflTransGen (Step env allow)

def Unguarded : Guard σ ℓ := fun _ _ _ => True

def ScheduleAllowed (allow : Guard σ ℓ) : Config σ ℓ → List ℕ → Prop
  | _, [] => True
  | c, i :: order =>
    (∀ l, c.labels[i]? = some (some l) → allow l c.labels c.shared) ∧
      ScheduleAllowed allow (c.stepAt i) order

/-- A schedule is checked by running it. -/
instance scheduleAllowedDecidable {allow : Guard σ ℓ} [∀ l ls s, Decidable (allow l ls s)] :
    (c : Config σ ℓ) → (order : List ℕ) → Decidable (ScheduleAllowed allow c order)
  | _, [] => isTrue trivial
  | c, i :: order =>
    have : Decidable (ScheduleAllowed allow (c.stepAt i) order) :=
      scheduleAllowedDecidable (c.stepAt i) order
    match h : c.labels[i]? with
    | some (some l) =>
      decidable_of_iff (allow l c.labels c.shared ∧ ScheduleAllowed allow (c.stepAt i) order)
        (by simp [ScheduleAllowed, h])
    | some none | none =>
      decidable_of_iff (ScheduleAllowed allow (c.stepAt i) order) (by simp [ScheduleAllowed, h])

variable {env : σ → σ → Prop} {allow : Guard σ ℓ}

theorem stepAt_execution (c : Config σ ℓ) (i : ℕ)
    (ha : ∀ l, c.labels[i]? = some (some l) → allow l c.labels c.shared) :
    Execution env allow c (c.stepAt i) := by
  unfold Config.stepAt
  split
  · next l f next hp =>
    refine .single (.thread hp (ha l ?_))
    simp [Config.labels, hp]
  · exact .refl

theorem runSchedule_execution (c : Config σ ℓ) (order : List ℕ)
    (ha : ScheduleAllowed allow c order) : Execution env allow c (c.runSchedule order) := by
  induction order generalizing c with
  | nil => exact .refl
  | cons i order ih => exact (stepAt_execution c i ha.1).trans (ih _ ha.2)

theorem environment_execution (c : Config σ ℓ) (h : env c.shared s) :
    Execution env allow c ⟨c.threads, s⟩ :=
  .single (.environment h)

theorem schedule_unguarded (c : Config σ ℓ) (order : List ℕ) :
    ScheduleAllowed Unguarded c order := by
  induction order generalizing c with
  | nil => trivial
  | cons i order ih => exact ⟨fun _ _ => trivial, ih _⟩

variable {c : Config σ ℓ}

namespace Prog

/-- What one program guarantees while others interfere as `rely` says. Each action starts
in a state that follows the last own one under interference and, where `perm` admits it,
meets `G`; `G` also sees the label of the action that comes after it. -/
def Obeys (rely : σ → σ → Prop) (perm : ℓ → σ → Prop) (G : σ → ℓ → σ → Option ℓ → Prop) :
    Prog σ ℓ α → σ → Prop
  | .done _, _ => True
  | .act l f next, s₀ => ∀ s, rely s₀ s → perm l s →
      G s l (f s).2 (next (f s).1).label? ∧ (next (f s).1).Obeys rely perm G (f s).2

variable {rely : σ → σ → Prop} {perm : ℓ → σ → Prop} {G : σ → ℓ → σ → Option ℓ → Prop}

@[simp] theorem obeys_done (a : α) (s : σ) : (done a : Prog σ ℓ α).Obeys rely perm G s := trivial

theorem Obeys.later (h : p.Obeys rely perm G s) (hr : rely s s')
    (htrans : ∀ {a b c}, rely a b → rely b c → rely a c) : p.Obeys rely perm G s' := by
  cases p with
  | done a => trivial
  | act l f next => exact fun t ht hp => h t (htrans hr ht) hp

variable {G' : σ → ℓ → σ → Option ℓ → Prop} {perm' : ℓ → σ → Prop} {rely' : σ → σ → Prop}

theorem Obeys.mono (hr : ∀ s t, rely' s t → rely s t) (hp : ∀ l s, perm' l s → perm l s)
    (hG : ∀ s l s' n, G s l s' n → G' s l s' n) (h : p.Obeys rely perm G s) :
    p.Obeys rely' perm' G' s := by
  induction p generalizing s with
  | done a => trivial
  | act l f next ih =>
    intro t ht hl
    obtain ⟨hg, hn⟩ := h t (hr _ _ ht) (hp _ _ hl)
    exact ⟨hG _ _ _ _ hg, ih _ hn⟩

theorem Obeys.only (hS : p.Only S) (h : p.Obeys rely perm G s) :
    p.Obeys rely perm (fun s l s' n => S l ∧ G s l s' n) s := by
  induction hS generalizing s with
  | done a => trivial
  | act hl _ ih =>
    intro t ht hperm
    obtain ⟨hg, hn⟩ := h t ht hperm
    exact ⟨⟨hl, hg⟩, ih _ hn⟩

theorem Obeys.permitted (h : p.Obeys rely perm G s) :
    p.Obeys rely perm (fun s l s' n => perm l s ∧ G s l s' n) s := by
  induction p generalizing s with
  | done a => trivial
  | act l f next ih =>
    intro t ht hperm
    obtain ⟨hg, hn⟩ := h t ht hperm
    exact ⟨⟨hperm, hg⟩, ih _ hn⟩

theorem Obeys.forget (h : p.Obeys rely perm G s) : p.forget.Obeys rely perm G s := by
  induction p generalizing s with
  | done a => trivial
  | act l f next ih =>
    intro t ht hl
    obtain ⟨hg, hn⟩ := h t ht hl
    refine ⟨?_, ih _ hn⟩
    change G t l (f t).2 (next (f t).1).forget.label?
    rwa [label_forget]

/-- What every guaranteed action with one of its labels keeps, a run of the program alone
keeps. -/
theorem Obeys.run_invariant (hrefl : ∀ s, rely s s) (hperm : ∀ l s, I s → perm l s)
    (hI : ∀ s l s' n, S l → G s l s' n → I s → I s') (hS : p.Only S) (h : p.Obeys rely perm G s)
    (hs : I s) : I (p.run s).2 := by
  induction hS generalizing s with
  | done a => exact hs
  | @act _ l _ _ hSl _ ih =>
    obtain ⟨hg, hn⟩ := h s (hrefl s) (hperm l s hs)
    exact ih _ hn (hI _ _ _ _ hSl hg hs)

/-- One run of the program to its end, with interference before each of its actions. -/
inductive Yields (env : σ → σ → Prop) : Prog σ ℓ α → σ → α → σ → Prop where
  | done (a : α) (s : σ) : Yields env (.done a) s a s
  | act {γ : Type} {l : ℓ} {f : σ → γ × σ} {next : γ → Prog σ ℓ α} {s₀ s t : σ} {a : α}
      (henv : env s₀ s) (h : Yields env (next (f s).1) (f s).2 a t) :
      Yields env (.act l f next) s₀ a t

theorem yields_run (hrefl : ∀ s, env s s) (p : Prog σ ℓ α) (s : σ) :
    p.Yields env s (p.run s).1 (p.run s).2 := by
  induction p generalizing s with
  | done a => exact .done a s
  | act l f next ih => exact .act (hrefl s) (ih _ _)

theorem yields_done : (done a : Prog σ ℓ α).Yields env s b t ↔ b = a ∧ t = s := by
  constructor
  · intro h
    cases h
    exact ⟨rfl, rfl⟩
  · rintro ⟨rfl, rfl⟩
    exact .done _ _

theorem yields_act {f} {next : γ → Prog σ ℓ α} {s₀ t : σ} :
    (act l f next).Yields env s₀ a t ↔ ∃ s, env s₀ s ∧ (next (f s).1).Yields env (f s).2 a t := by
  constructor
  · intro h
    cases h with
    | act henv h => exact ⟨_, henv, h⟩
  · rintro ⟨s, henv, h⟩
    exact .act henv h

theorem yields_bind {t : σ} {b : β} :
    (p >>= k).Yields env s b t ↔ ∃ a u, p.Yields env s a u ∧ (k a).Yields env u b t := by
  rw [bind_eq]
  induction p generalizing s with
  | done a =>
    simp only [done_bind, yields_done]
    constructor
    · exact fun h => ⟨a, s, ⟨rfl, rfl⟩, h⟩
    · rintro ⟨_, _, ⟨rfl, rfl⟩, h⟩
      exact h
  | act l f next ih =>
    simp only [act_bind, yields_act, ih]
    constructor
    · rintro ⟨u, henv, a, v, hp, hk⟩
      exact ⟨a, v, ⟨u, henv, hp⟩, hk⟩
    · rintro ⟨a, v, ⟨u, henv, hp⟩, hk⟩
      exact ⟨u, henv, a, v, hp, hk⟩

/-- Two programs side by side: they take the same number of actions, and each pair of actions
keeps the relation between the two states. -/
def Tracks (R : σ → σ → Prop) (Q : α → β → Prop) : Prog σ ℓ α → Prog σ ℓ β → Prop
  | .done a, .done b => Q a b
  | .act _ f next, .act _ g next' => ∀ s t, R s t →
      R (f s).2 (g t).2 ∧ Tracks R Q (next (f s).1) (next' (g t).1)
  | _, _ => False

section tracks

variable {γ δ : Type} {R : σ → σ → Prop} {Q : α → β → Prop}

theorem tracks_pure (h : Q a b) : (pure a : Prog σ ℓ α).Tracks R Q (pure b) := h

theorem tracks_atom {l' g} (h : ∀ s t, R s t → R (f s).2 (g t).2 ∧ Q (f s).1 (g t).1) :
    (atom l f).Tracks R Q (atom l' g) := h

variable {q : Prog σ ℓ β}

theorem Tracks.bind {S} {k : α → Prog σ ℓ γ} {k' : β → Prog σ ℓ δ} (hp : p.Tracks R Q q)
    (hk : ∀ a b, Q a b → (k a).Tracks R S (k' b)) : (p >>= k).Tracks R S (q >>= k') := by
  induction p generalizing q with
  | done a =>
    cases q with
    | done b => exact hk a b hp
    | act l g next' => exact hp.elim
  | act l f next ih =>
    cases q with
    | done b => exact hp.elim
    | act l' g next' =>
      intro s t hR
      obtain ⟨hR', hn⟩ := hp s t hR
      exact ⟨hR', ih _ hn⟩

theorem Tracks.yields (henv : ∀ s s' t t', env s s' → env t t' → R s t → R s' t') {t s' t' b}
    (h : p.Tracks R Q q) (hR : R s t) (hp : p.Yields env s a s') (hq : q.Yields env t b t') :
    Q a b ∧ R s' t' := by
  induction hp generalizing q t with
  | done a s =>
    cases hq with
    | done b t => exact ⟨h, hR⟩
    | act _ _ => exact h.elim
  | act he _ ih =>
    cases hq with
    | done b t => exact h.elim
    | act he' hq =>
      obtain ⟨hR', hn⟩ := h _ _ (henv _ _ _ _ he he' hR)
      exact ih hn hR' hq

end tracks

def within {τ ℓ' : Type} (get : τ → σ) (put : σ → τ → τ) (label : ℓ → ℓ') :
    Prog σ ℓ α → Prog τ ℓ' α
  | .done a => .done a
  | .act l f next => .act (label l) (fun t => ((f (get t)).1, put (f (get t)).2 t)) fun b =>
      (next b).within get put label

theorem yields_of_within {τ ℓ' : Type} {get put} {label : ℓ → ℓ'} {env' : τ → τ → Prop}
    (hput : ∀ s t, get (put s t) = s) (henv : ∀ t t', env' t t' → env (get t) (get t')) {t t' : τ}
    (h : (p.within get put label).Yields env' t a t') : p.Yields env (get t) a (get t') := by
  induction p generalizing t with
  | done b =>
    obtain ⟨rfl, rfl⟩ := yields_done.mp h
    exact .done _ _
  | act l f next ih =>
    obtain ⟨u, he, h⟩ := yields_act.mp h
    have hnext := ih _ h
    rw [hput] at hnext
    exact .act (henv _ _ he) hnext

/-- Every action of the program, on every path and from every state, does what `R` says. -/
inductive Does (R : ℓ → σ → σ → Prop) : Prog σ ℓ α → Prop where
  | done (a : α) : Does R (.done a)
  | act {γ : Type} {l : ℓ} {f : σ → γ × σ} {next : γ → Prog σ ℓ α} (hR : ∀ s, R l s (f s).2)
      (h : ∀ b, Does R (next b)) : Does R (.act l f next)

section does

variable {R : ℓ → σ → σ → Prop}

theorem does_pure (a : α) : (pure a : Prog σ ℓ α).Does R := .done a

theorem does_atom (h : ∀ s, R l s (f s).2) : (atom l f : Prog σ ℓ α).Does R := .act h .done

theorem Does.bind (hp : p.Does R) (hk : ∀ a, (k a).Does R) : (p >>= k).Does R := by
  induction hp with
  | done a => exact hk a
  | act hR _ ih => exact .act hR ih

theorem Does.forget (h : p.Does R) : p.forget.Does R := h.bind fun _ => .done ()

theorem Does.mono (h : p.Does R) (hR : ∀ l s s', R l s s' → R' l s s') : p.Does R' := by
  induction h with
  | done a => exact .done a
  | act h _ ih => exact .act (fun s => hR _ _ _ (h s)) ih

theorem does_within {τ ℓ' : Type} {R get} {put : σ → τ → τ} {label : ℓ → ℓ'}
    (h : ∀ l t s, R (label l) t (put s t)) (p : Prog σ ℓ α) : (p.within get put label).Does R := by
  induction p with
  | done a => exact .done a
  | act l f next ih => exact .act (fun t => h l t _) fun b => ih b

theorem does_each {f} (h : ∀ x, (f x).Does R) (xs : List β) : (each f xs).Does R := by
  induction xs with
  | nil => exact .done ()
  | cons x xs ih => exact (h x).bind fun _ => ih

theorem Does.yields (hI : ∀ l s s', R l s s' → I s → I s') (henv : ∀ s s', env s s' → I s → I s')
    {t} (h : p.Does R) (hs : I s) (hp : p.Yields env s a t) : I t := by
  induction hp with
  | done a s => exact hs
  | act he _ ih =>
    cases h with
    | act hR hn => exact ih (hn _) (hI _ _ _ (hR _) (henv _ _ he hs))

theorem Does.triple (hI : ∀ l s s', R l s s' → I s → I s') (h : p.Does R) :
    p.Triple I fun _ => I := by
  induction h with
  | done a => exact fun _ hs => hs
  | act hR _ ih => exact fun s hs => ih _ _ (hI _ _ _ (hR s) hs)

theorem Does.execution {guard} {J : σ → Prop}
    (hstep : ∀ l ls s s', guard l ls s → R l s s' → J s → J s')
    (henv : ∀ s s', env s s' → J s → J s') {c'} (hpool : ∀ p ∈ c.threads, p.Does R)
    (hJ : J c.shared) (h : Execution env guard c c') : J c'.shared := by
  have hall : (∀ p ∈ c'.threads, p.Does R) ∧ J c'.shared := by
    induction h with
    | refl => exact ⟨hpool, hJ⟩
    | tail _ hs ih =>
      obtain ⟨hthreads, hJb⟩ := ih
      cases hs with
      | environment henv' => exact ⟨hthreads, henv _ _ henv' hJb⟩
      | @thread ts s i _ l f next hp ha =>
        cases hthreads _ (mem_of_getElem? hp) with
        | act hR hnext =>
          refine ⟨fun q hq => ?_, hstep _ _ _ _ ha (hR s) hJb⟩
          rcases mem_or_eq_of_mem_set hq with hold | rfl
          · exact hthreads q hold
          · exact hnext _
  exact hall.2

theorem Does.only [Nonempty σ] (h : p.Does R) (hR : ∀ l s s', R l s s' → S l) : p.Only S := by
  obtain ⟨s⟩ := ‹Nonempty σ›
  induction h with
  | done a => exact .done a
  | act h _ ih => exact .act (hR _ _ _ (h s)) ih

/-- A guarantee that holds whatever comes next, as long as that is one of the labels meant. -/
theorem Does.obeys {ok : Option ℓ → Prop} (hnone : ok none)
    (hR : ∀ l s s', R l s s' → ok (some l) ∧ ∀ n, ok n → G s l s' n) (h : p.Does R) (s : σ) :
    p.Obeys rely perm G s := by
  induction h generalizing s with
  | done a => trivial
  | @act _ l f next h hnext ih =>
    intro t _ _
    have hlabel : ok (next (f t).1).label? := by
      have hq := hnext (f t).1
      generalize next (f t).1 = q at hq
      cases hq with
      | done a => exact hnone
      | act h' _ => exact (hR _ _ _ (h' t)).1
    exact ⟨(hR _ _ _ (h t)).2 _ hlabel, ih _ _⟩

end does

/-- The program keeps an invariant that changes as it goes on: `I i` holds where it stands, and
`Q` is what is left of the index at its end. -/
def Maintains {ι : Type} (allow : ℓ → σ → Prop) (I : ι → σ → Prop) (Q : ι → α → Prop) :
    ι → Prog σ ℓ α → Prop
  | i, .done a => Q i a
  | i, .act l f next => ∀ s, I i s → allow l s →
      ∃ j, I j (f s).2 ∧ (next (f s).1).Maintains allow I Q j

section maintains

variable {ι : Type} {allow : ℓ → σ → Prop} {I : ι → σ → Prop} {i : ι}

theorem maintains_atom (h : ∀ s, I i s → allow l s → ∃ j, I j (f s).2 ∧ Q j (f s).1) :
    (atom l f).Maintains allow I Q i := h

theorem Maintains.bind (hp : p.Maintains allow I Q i)
    (hk : ∀ j a, Q j a → (k a).Maintains allow I R j) : (p >>= k).Maintains allow I R i := by
  induction p generalizing i with
  | done a => exact hk i a hp
  | act l f next ih =>
    intro s hs ha
    obtain ⟨j, hj, hn⟩ := hp s hs ha
    exact ⟨j, hj, ih _ hn⟩

variable {guard : Guard σ ℓ}

theorem Maintains.execution (hguard : ∀ l ls s, guard l ls s → allow l s)
    (henv : ∀ i s s', I i s → env s s' → I i s') {p} (hp : p.Maintains allow I Q i) (hs : I i s)
    (h : Execution env guard ⟨[p], s⟩ c) :
    ∃ q j, c.threads = [q] ∧ q.Maintains allow I Q j ∧ I j c.shared := by
  induction h with
  | refl => exact ⟨p, i, rfl, hp, hs⟩
  | tail _ hstep ih =>
    obtain ⟨q, j, hq, hm, hI⟩ := ih
    cases hstep with
    | environment h => exact ⟨q, j, hq, hm, henv j _ _ hI h⟩
    | @thread ts s k _ l f next hp ha =>
      obtain rfl : ts = [q] := hq
      obtain rfl : k = 0 := by
        obtain ⟨hk, _⟩ := List.getElem?_eq_some_iff.mp hp
        simpa using hk
      obtain rfl : q = .act l f next := by simpa using hp
      obtain ⟨j', hI', hm'⟩ := hm s hI (hguard _ _ _ ha)
      exact ⟨_, j', rfl, hm', hI'⟩

variable {J : σ → Prop}

theorem Does.maintains (hJ : ∀ l s s', R l s s' → J s → J s') (h : p.Does R) :
    p.Maintains allow (fun _ : Unit => J) (fun _ _ => True) () := by
  induction h with
  | done a => trivial
  | act hR _ ih => exact fun s hs _ => ⟨(), hJ _ _ _ (hR s) hs, ih _⟩

theorem Maintains.pool (hguard : ∀ l ls s, guard l ls s → allow l s)
    (henv : ∀ s s', env s s' → J s → J s') {c'}
    (hpool : ∀ p ∈ c.threads, p.Maintains allow (fun _ : Unit => J) (fun _ _ => True) ())
    (hJ : J c.shared) (h : Execution env guard c c') : J c'.shared := by
  have hall : (∀ p ∈ c'.threads, p.Maintains allow (fun _ : Unit => J) (fun _ _ => True) ()) ∧
      J c'.shared := by
    induction h with
    | refl => exact ⟨hpool, hJ⟩
    | tail _ hstep ih =>
      obtain ⟨hpool, hJ⟩ := ih
      cases hstep with
      | environment h => exact ⟨hpool, henv _ _ h hJ⟩
      | @thread ts s i _ l f next hp ha =>
        obtain ⟨_, hJ', hnext⟩ := hpool _ (mem_of_getElem? hp) s hJ (hguard _ _ _ ha)
        refine ⟨?_, hJ'⟩
        intro p hmem
        rcases mem_or_eq_of_mem_set hmem with hold | rfl
        · exact hpool p hold
        · exact hnext
  exact hall.2

end maintains

/-- What a program has established when it is done, under interference as `rely` says: each
of its actions meets `G`, and the answer and the state at the end meet `Q`. -/
inductive Ensures (rely : σ → σ → Prop) (perm : ℓ → σ → Prop) (G : σ → ℓ → σ → Option ℓ → Prop)
    (Q : α → σ → Prop) : Prog σ ℓ α → σ → Prop where
  | done {a : α} {s : σ} (h : Q a s) : Ensures rely perm G Q (.done a) s
  | act {γ : Type} {l : ℓ} {f : σ → γ × σ} {next : γ → Prog σ ℓ α} {s₀ : σ}
      (hG : ∀ s, rely s₀ s → perm l s → ∀ n, G s l (f s).2 n)
      (h : ∀ s, rely s₀ s → perm l s → Ensures rely perm G Q (next (f s).1) (f s).2) :
      Ensures rely perm G Q (.act l f next) s₀

variable {Q : α → σ → Prop}

theorem Ensures.obeys (h : p.Ensures rely perm G Q s) : p.Obeys rely perm G s := by
  induction h with
  | done => trivial
  | act hG _ ih => exact fun s hs hp => ⟨hG s hs hp _, ih s hs hp⟩

theorem Ensures.atom {Q : β → σ → Prop} {f : σ → β × σ} {s₀ : σ}
    (h : ∀ s, rely s₀ s → perm l s → (∀ n, G s l (f s).2 n) ∧ Q (f s).1 (f s).2) :
    (atom l f).Ensures rely perm G Q s₀ :=
  .act (fun s hs hp => (h s hs hp).1) fun s hs hp => .done (h s hs hp).2

theorem Ensures.bind (hp : p.Ensures rely perm G Q s)
    (hk : ∀ a s, Q a s → (k a).Ensures rely perm G R s) : (p >>= k).Ensures rely perm G R s := by
  induction hp with
  | done h => exact hk _ _ h
  | act hG _ ih => exact .act hG ih

/-- A program that obeys keeps what each of its actions and all interference keep. -/
theorem Obeys.ensures (hr : ∀ s t, rely' s t → rely s t) (hp : ∀ l s, perm' l s → perm l s)
    (hI : ∀ s t, rely' s t → I s → I t)
    (hG : ∀ s l s' n, S l → G s l s' n → I s → I s' ∧ ∀ n', G' s l s' n') (hS : p.Only S)
    (h : p.Obeys rely perm G s) (hs : I s) : p.Ensures rely' perm' G' (fun _ => I) s := by
  induction hS generalizing s with
  | done a => exact .done hs
  | @act _ l f next hl _ ih =>
    have hstep : ∀ t, rely' s t → perm' l t →
        (I (f t).2 ∧ ∀ n', G' t l (f t).2 n') ∧ (next (f t).1).Obeys rely perm G (f t).2 := by
      intro t ht hpt
      obtain ⟨hg, hn⟩ := h t (hr s t ht) (hp l t hpt)
      exact ⟨hG _ _ _ _ hl hg (hI s t ht hs), hn⟩
    refine .act (fun t ht hpt => (hstep t ht hpt).1.2) fun t ht hpt => ?_
    exact ih _ (hstep t ht hpt).2 (hstep t ht hpt).1.1

/-- The program beside a record: when it is done, a last action notes its answer. -/
def recorded {τ : Type} (l : ℓ) (note : α → τ → τ) : Prog σ ℓ α → Prog (σ × τ) ℓ Unit
  | .done a => .act l (fun s => ((), (s.1, note a s.2))) .done
  | .act l' f next =>
    .act l' (fun s => ((f s.1).1, ((f s.1).2, s.2))) fun b => (next b).recorded l note

/-- What a program establishes is known when its answer is noted, provided that no
interference takes it back. -/
theorem Ensures.recorded {τ : Type} {note} (hQ : ∀ a s s', Q a s → rely s s' → Q a s') {t : τ}
    (h : p.Ensures rely perm G Q s) :
    (p.recorded l note).Obeys (fun a b => rely a.1 b.1) (fun l a => perm l a.1)
      (fun a l b n => (b.2 = a.2 ∧ ∀ n', G a.1 l b.1 n') ∨
        (b.1 = a.1 ∧ n = none ∧ ∃ r, Q r a.1 ∧ b.2 = note r a.2)) (s, t) := by
  induction h generalizing t with
  | @done a s h =>
    intro b hb _
    exact ⟨.inr ⟨rfl, rfl, a, hQ a s b.1 h hb, rfl⟩, trivial⟩
  | act hG _ ih =>
    intro b hb hp
    exact ⟨.inl ⟨rfl, hG b.1 hb hp⟩, ih b.1 hb hp⟩

end Prog

/-- The rely conditions of the threads of a pool, and what each of them guarantees.
Every guarantee of one thread, and every move of the environment, is among the
interference that each other thread relies on. -/
structure Discipline (env : σ → σ → Prop) (allow : Guard σ ℓ) where
  rely : ℕ → σ → σ → Prop
  perm : ℓ → σ → Prop
  G : ℕ → σ → ℓ → σ → Option ℓ → Prop
  rely_refl : ∀ i s, rely i s s
  rely_trans : ∀ i {a b c}, rely i a b → rely i b c → rely i a c
  perm_of_allow : ∀ l ls s, allow l ls s → perm l s
  env_rely : ∀ i s s', env s s' → rely i s s'
  step_rely : ∀ i j s l s' n, i ≠ j → G i s l s' n → rely j s s'

namespace Discipline

variable {env : σ → σ → Prop} {allow : Guard σ ℓ} (D : Discipline env allow)

def Pool (c : Config σ ℓ) : Prop :=
  ∀ i (p : Prog σ ℓ Unit), c.threads[i]? = some p → p.Obeys (D.rely i) D.perm (D.G i) c.shared

variable {ts : List (Prog σ ℓ Unit)}

/-- One action of thread `i`, seen from outside: its label, the state change and the
label that the thread stands at afterwards. -/
theorem pool_thread {i f} {next : γ → Prog σ ℓ Unit} (h : D.Pool ⟨ts, s⟩)
    (hp : ts[i]? = some (.act l f next)) (ha : allow l (ts.map Prog.label?) s) :
    D.G i s l (f s).2 (next (f s).1).label? ∧ D.Pool ⟨ts.set i (next (f s).1), (f s).2⟩ := by
  obtain ⟨hg, hn⟩ := h i _ hp s (D.rely_refl i s) (D.perm_of_allow _ _ _ ha)
  refine ⟨hg, ?_⟩
  intro j p hj
  by_cases hij : i = j
  · subst j
    have hi : i < ts.length := (List.getElem?_eq_some_iff.mp hp).1
    rw [getElem?_set_self hi] at hj
    cases hj
    exact hn
  · rw [getElem?_set_ne hij] at hj
    exact (h j p hj).later (D.step_rely i j _ _ _ _ hij hg) (D.rely_trans j)

theorem pool_environment (h : D.Pool ⟨ts, s⟩) (he : env s s') : D.Pool ⟨ts, s'⟩ := by
  intro j p hj
  exact (h j p hj).later (D.env_rely j s s' he) (D.rely_trans j)

/-- An invariant of the next labels and the state that every guaranteed action and every
environment move keeps holds after every execution of the pool. -/
theorem execution_invariant {J : List (Option ℓ) → σ → Prop}
    (hstep : ∀ ls i s l s' n, J ls s → ls[i]? = some (some l) → allow l ls s →
      D.G i s l s' n → J (ls.set i n) s') (henv : ∀ ls s s', J ls s → env s s' → J ls s')
    {c' : Config σ ℓ} (hpool : D.Pool c) (hJ : J c.labels c.shared) (h : Execution env allow c c') :
    D.Pool c' ∧ J c'.labels c'.shared := by
  induction h with
  | refl => exact ⟨hpool, hJ⟩
  | tail _ hs ih =>
    obtain ⟨hb, hJb⟩ := ih
    cases hs with
    | @thread ts s i _ l _ _ hp ha =>
      obtain ⟨hg, hb'⟩ := D.pool_thread hb hp ha
      have hl : (ts.map Prog.label?)[i]? = some (some l) := by simp [hp]
      refine ⟨hb', ?_⟩
      simpa [Config.labels] using hstep _ _ _ _ _ _ hJb hl ha hg
    | environment he => exact ⟨D.pool_environment hb he, henv _ _ _ hJb he⟩

end Discipline

end SharedPrograms
