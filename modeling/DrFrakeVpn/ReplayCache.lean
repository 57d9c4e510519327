import DrFrakeVpn.SharedPrograms

/-! # Refusing requests that were seen before

A request is checked at a first reading of the clock. Under a lock and with a second reading, keys
whose time has left the window are forgotten, and the request is accepted if its key is unknown. -/
namespace ReplayCache

open SharedPrograms List Prog

/-- `accepted` is a record that no step reads. -/
structure Cache (κ ρ : Type) where
  now : ℤ
  seen : κ → Option ℤ
  accepted : List ρ

inductive Label (ρ : Type) where
  | firstTime (r : ρ)
  | lock (r : ρ)
  | secondTime (r : ρ)
  | commit (r : ρ) (t : ℤ)
  deriving DecidableEq, Repr

/-- `check` is what is asked of a request at the first reading. -/
structure Scheme (κ ρ ε : Type) where
  key : ρ → κ
  time : ρ → ℤ
  window : ℤ
  check : ρ → ℤ → Except ε Unit
  replayed : ε

variable {κ ρ ε : Type} (P : Scheme κ ρ ε)

def prune (cutoff : ℤ) (seen : κ → Option ℤ) (k : κ) : Option ℤ :=
  (seen k).filter fun t => cutoff ≤ t

def commit [DecidableEq κ] (r : ρ) (t : ℤ) (c : Cache κ ρ) : Bool × Cache κ ρ :=
  let kept := prune (t - P.window) c.seen
  match kept (P.key r) with
  | some _ => (false, { c with seen := kept })
  | none => (true, { c with
      seen := Function.update kept (P.key r) (some (P.time r))
      accepted := c.accepted ++ [r] })

def accept [DecidableEq κ] (r : ρ) : Prog (Cache κ ρ) (Label ρ) (Except ε Unit) := do
  let t₁ ← .atom (.firstTime r) fun c => (c.now, c)
  match P.check r t₁ with
  | .error e => pure (.error e)
  | .ok _ =>
    .atom (.lock r) fun c => ((), c)
    let t₂ ← .atom (.secondTime r) fun c => (c.now, c)
    if ← .atom (.commit r t₂) (commit P r t₂) then pure (.ok ())
    else pure (.error P.replayed)

/-- The clock does not go back. -/
structure Passes (c c' : Cache κ ρ) : Prop where
  now : c.now ≤ c'.now
  seen : c'.seen = c.seen
  accepted : c'.accepted = c.accepted

def inside : Option (Label ρ) → Bool
  | some (.secondTime _) | some (.commit _ _) => true
  | _ => false

/-- The lock is taken only when no other thread holds it. -/
def Locked : Guard (Cache κ ρ) (Label ρ) := fun l ls _ => ∀ r, l = .lock r → ls.countP inside = 0

/-- At the second reading the time of the request is still in the window. -/
def Timely : Guard (Cache κ ρ) (Label ρ) := fun l _ c =>
  ∀ r, l = .secondTime r → c.now ≤ P.time r + P.window

def Permitted : Guard (Cache κ ρ) (Label ρ) := fun l ls c => Locked l ls c ∧ Timely P l ls c

instance (l : Label ρ) (ls : List (Option (Label ρ))) (c : Cache κ ρ) : Decidable (Locked l ls c) :=
  match l with
  | .lock _ => decidable_of_iff (ls.countP inside = 0) ⟨fun h _ _ => h, fun h => h _ rfl⟩
  | .firstTime _ | .secondTime _ | .commit _ _ => isTrue nofun

instance (l : Label ρ) (ls : List (Option (Label ρ))) (c : Cache κ ρ) :
    Decidable (Timely P l ls c) :=
  match l with
  | .secondTime r => decidable_of_iff (c.now ≤ P.time r + P.window)
      ⟨fun h _ hr => by cases hr; exact h, fun h => h r rfl⟩
  | .firstTime _ | .lock _ | .commit _ _ => isTrue nofun

instance (l : Label ρ) (ls : List (Option (Label ρ))) (c : Cache κ ρ) :
    Decidable (Permitted P l ls c) :=
  inferInstanceAs (Decidable (_ ∧ _))

inductive Effect [DecidableEq κ] (c : Cache κ ρ) :
    Label ρ → Cache κ ρ → Option (Label ρ) → Prop where
  | firstTime (r : ρ) {n : Option (Label ρ)} (hn : inside n = false) : Effect c (.firstTime r) c n
  | lock (r : ρ) : Effect c (.lock r) c (some (.secondTime r))
  | secondTime (r : ρ) : Effect c (.secondTime r) c (some (.commit r c.now))
  | commit (r : ρ) (t : ℤ) {n : Option (Label ρ)} (hn : inside n = false) :
      Effect c (.commit r t) (commit P r t c).2 n

variable {P}

theorem accept_obeys [DecidableEq κ] (r : ρ) (c : Cache κ ρ) :
    (accept P r).Obeys (fun _ _ => True) (fun _ _ => True) (Effect P) c := by
  intro c₁ _ _
  simp only [done_bind]
  cases hcheck : P.check r c₁.now with
  | error e => exact ⟨.firstTime r rfl, trivial⟩
  | ok _ =>
    refine ⟨.firstTime r rfl, fun c₂ _ _ => ⟨.lock r, fun c₃ _ _ => ⟨.secondTime r, ?_⟩⟩⟩
    intro c₄ _ _
    simp only [Prog.done_bind]
    split <;> exact ⟨.commit r _ rfl, trivial⟩

variable {c : Cache κ ρ} {t : ℤ} {r : ρ}

theorem commit_refused [DecidableEq κ] (h : (commit P r t c).1 = false) :
    (commit P r t c).2.accepted = c.accepted := by
  unfold commit at h ⊢
  dsimp only at h ⊢
  split at h
  · rfl
  · cases h

variable {c' : Cache κ ρ}

theorem refused_unaccepted [DecidableEq κ] {e} (h : (accept P r).Yields Passes c (.error e) c') :
    c'.accepted = c.accepted := by
  obtain ⟨c₁, h₁, h⟩ := yields_act.mp h
  simp only [done_bind] at h
  cases hcheck : P.check r c₁.now with
  | error e' =>
    rw [hcheck] at h
    obtain ⟨_, rfl⟩ := yields_done.mp h
    exact h₁.accepted
  | ok _ =>
    rw [hcheck] at h
    obtain ⟨c₂, h₂, h⟩ := yields_act.mp h
    obtain ⟨c₃, h₃, h⟩ := yields_act.mp h
    obtain ⟨c₄, h₄, h⟩ := yields_act.mp h
    have hbefore : c₄.accepted = c.accepted := by
      rw [h₄.accepted, h₃.accepted, h₂.accepted, h₁.accepted]
    cases hb : (commit P r c₃.now c₄).1 with
    | true =>
      rw [hb] at h
      obtain ⟨he, _⟩ := yields_done.mp h
      cases he
    | false =>
      rw [hb] at h
      obtain ⟨_, rfl⟩ := Prog.yields_done.mp h
      exact (commit_refused hb).trans hbefore

theorem accept_does [DecidableEq κ] (r : ρ) :
    (accept P r).Does fun _ c c' => ∀ x ∈ c'.accepted, x ∈ c.accepted ∨ x = r := by
  refine (does_atom fun _ x hx => .inl hx).bind fun t => ?_
  cases P.check r t with
  | error e => exact .done _
  | ok _ =>
    refine (does_atom fun _ x hx => .inl hx).bind fun _ => ?_
    refine (does_atom fun _ x hx => .inl hx).bind fun t => ?_
    refine (Prog.does_atom fun c x hx => ?_).bind fun b => ?_
    · unfold commit at hx
      dsimp only at hx
      split at hx
      · exact .inl hx
      · exact (mem_append.mp hx).imp_right mem_singleton.mp
    · split <;> exact .done _

def Remembered (P : Scheme κ ρ ε) (c : Cache κ ρ) (x : ρ) : Prop :=
  c.seen (P.key x) = some (P.time x)

/-- An accepted request is forgotten only when its time has left the window, and the thread that
holds the lock has read the clock after that. -/
structure Sound (P : Scheme κ ρ ε) (ls : List (Option (Label ρ))) (c : Cache κ ρ) : Prop where
  holders : ls.countP inside ≤ 1
  holder : ∀ r t, some (.commit r t) ∈ ls → t ≤ c.now ∧ t ≤ P.time r + P.window ∧
    ∀ x ∈ c.accepted, Remembered P c x ∨ P.time x + P.window < t
  others : ∀ x ∈ c.accepted, Remembered P c x ∨ P.time x + P.window < c.now
  once : c.accepted.Pairwise fun x y => P.key x = P.key y → P.time x ≠ P.time y

variable {ls : List (Option (Label ρ))}

theorem Sound.passes (h : Sound P ls c) (hp : Passes c c') : Sound P ls c' := by
  have hnow := hp.now
  refine ⟨h.holders, fun r t hmem => ?_, fun x hx => ?_, ?_⟩
  · obtain ⟨hle, hin, hall⟩ := h.holder r t hmem
    refine ⟨Int.le_trans hle hnow, hin, fun x hx => ?_⟩
    rw [hp.accepted] at hx
    rw [Remembered, hp.seen]
    exact hall x hx
  · rw [hp.accepted] at hx
    rw [Remembered, hp.seen]
    exact (h.others x hx).imp_right fun hlt => Int.lt_of_lt_of_le hlt hnow
  · rw [hp.accepted]
    exact h.once

theorem prune_some {cutoff seen} {k : κ} (h : seen k = some t) :
    prune cutoff seen k = if cutoff ≤ t then some t else none := by
  rw [prune, h, Option.filter_some]
  simp

theorem remembered_prune {x : ρ} (h : Remembered P c x) :
    prune (t - P.window) c.seen (P.key x) = some (P.time x) ∨ P.time x + P.window < t := by
  rw [prune_some h]
  by_cases hin : t - P.window ≤ P.time x
  · exact .inl (if_pos hin)
  · exact .inr (by omega)

theorem new_of_forgotten (h : Sound P ls c) (hmem : some (.commit r t) ∈ ls)
    (hx : x ∈ c.accepted) (hnone : prune (t - P.window) c.seen (P.key r) = none)
    (hkey : P.key x = P.key r) : P.time x ≠ P.time r := by
  obtain ⟨_, hin, hall⟩ := h.holder r t hmem
  intro htime
  rcases hall x hx with hrem | hlt
  · rcases remembered_prune hrem with hkept | hlt
    · rw [hkey, hnone] at hkept
      cases hkept
    · omega
  · omega

variable [DecidableEq κ] {n : Option (Label ρ)}

theorem commit_sound (h : Sound P ls c) (hi : ls[i]? = some (some (.commit r t)))
    (hn : inside n = false) : Sound P (ls.set i n) (commit P r t c).2 := by
  have hmem := mem_of_getElem? hi
  have hholders := h.holders
  obtain ⟨hle, hin, _⟩ := h.holder r t hmem
  -- nobody else holds the lock
  have hfree : (ls.set i n).countP inside = 0 := by
    have hcount := countP_set_add inside hi n
    have hinside : inside (some (Label.commit r t)) := rfl
    simp only [hinside, hn, if_true, Bool.false_eq_true, if_false] at hcount
    omega
  have hnobody : ∀ r' t', some (.commit r' t') ∉ ls.set i n := fun r' t' hm =>
    countP_eq_zero.mp hfree _ hm rfl
  have hforgotten : ∀ x ∈ c.accepted,
      prune (t - P.window) c.seen (P.key x) = some (P.time x) ∨ P.time x + P.window < c.now := by
    intro x hx
    rcases h.others x hx with hrem | hlt
    · exact (remembered_prune hrem).imp_right fun hlt => Int.lt_of_lt_of_le hlt hle
    · exact .inr hlt
  unfold commit
  dsimp only
  split
  · refine ⟨by omega, fun r' t' hm => absurd hm (hnobody r' t'), hforgotten, h.once⟩
  · next hnone =>
    refine ⟨by omega, fun r' t' hm => absurd hm (hnobody r' t'), fun x hx => ?_, ?_⟩
    · rcases mem_append.mp hx with hold | hnew
      · by_cases hkey : P.key x = P.key r
        · rcases hforgotten x hold with hkept | hlt
          · rw [hkey, hnone] at hkept
            cases hkept
          · exact .inr hlt
        · refine (hforgotten x hold).imp_left fun hkept => ?_
          exact (Function.update_of_ne hkey _ _).trans hkept
      · obtain rfl := mem_singleton.mp hnew
        exact .inl (Function.update_self _ _ _)
    · refine pairwise_append.mpr ⟨h.once, pairwise_singleton _ _, ?_⟩
      intro x hx y hy
      obtain rfl := mem_singleton.mp hy
      exact new_of_forgotten h hmem hx hnone

theorem Effect.sound {i l} (he : Effect P c l c' n) (h : Sound P ls c) (hi : ls[i]? = some (some l))
    (hlocked : Locked l ls c) (htimely : Timely P l ls c) : Sound P (ls.set i n) c' := by
  have hcount := countP_set_add inside hi n
  have hholders := h.holders
  cases he with
  | commit r t hn => exact commit_sound h hi hn
  | firstTime r hn =>
    have hinside : inside (some (Label.firstTime r)) = false := rfl
    simp only [hinside, hn, Bool.false_eq_true, if_false] at hcount
    refine ⟨by omega, fun r' t hm => ?_, h.others, h.once⟩
    rcases mem_or_eq_of_mem_set hm with hold | rfl
    · exact h.holder r' t hold
    · cases hn
  | lock r =>
    have hzero := hlocked r rfl
    simp only [inside, Bool.false_eq_true, if_true, if_false] at hcount
    refine ⟨by omega, fun r' t hm => ?_, h.others, h.once⟩
    rcases mem_or_eq_of_mem_set hm with hold | heq
    · exact h.holder r' t hold
    · cases heq
  | secondTime r =>
    simp only [inside, if_true] at hcount
    refine ⟨by omega, fun r' t hm => ?_, h.others, h.once⟩
    rcases mem_or_eq_of_mem_set hm with hold | heq
    · exact h.holder r' t hold
    · cases heq
      exact ⟨Int.le_refl _, htimely r rfl, h.others⟩

def discipline (P : Scheme κ ρ ε) :
    Discipline (Passes : Cache κ ρ → Cache κ ρ → Prop) (Permitted P) where
  rely _ _ _ := True
  perm _ _ := True
  G _ := Effect P
  rely_refl _ _ := trivial
  rely_trans _ _ _ _ _ _ := trivial
  perm_of_allow _ _ _ _ := trivial
  env_rely _ _ _ _ := trivial
  step_rely _ _ _ _ _ _ _ _ := trivial

/-- From an empty record, no two requests with one key and one time are accepted. -/
theorem accepted_once {c c'}
    (hpool : ∀ p ∈ c.threads, p.Obeys (fun _ _ => True) (fun _ _ => True) (Effect P) c.shared)
    (hfree : ∀ n ∈ c.labels, inside n = false) (hempty : c.shared.accepted = [])
    (h : Execution Passes (Permitted P) c c') :
    c'.shared.accepted.Pairwise fun x y => P.key x = P.key y → P.time x ≠ P.time y := by
  have hstart : Sound P c.labels c.shared := by
    refine ⟨?_, fun r t hm => ?_, ?_, ?_⟩
    · rw [countP_eq_zero.mpr fun n hn => by rw [hfree n hn]; exact Bool.false_ne_true]
      exact Nat.zero_le 1
    · cases hfree _ hm
    · rw [hempty]
      nofun
    · rw [hempty]
      exact .nil
  have hsound := (discipline P).execution_invariant
    (fun _ _ _ _ _ _ hs hi hallow he => Effect.sound he hs hi hallow.1 hallow.2)
    (fun _ _ _ hs hp => hs.passes hp) (fun i p hp => hpool p (mem_of_getElem? hp)) hstart h
  exact hsound.2.once

end ReplayCache
