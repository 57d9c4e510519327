import Mathlib

/-! # The request limiter of the backend

Requests are counted per address from the first one of a window on. -/
namespace RateLimits

structure Visitor where
  count : ℤ
  resetAt : ℤ
  deriving DecidableEq, Repr

structure RateLimiter where
  visitors : String → Option Visitor
  limit : ℤ
  window : ℤ

def newRateLimiter (limit window : ℤ) : RateLimiter := ⟨fun _ => none, limit, window⟩

/-- The entry as far as its window is not over. -/
def live (now : ℤ) (v : Option Visitor) : Option Visitor := v.filter fun v => now ≤ v.resetAt

def RateLimiter.cleanup (now : ℤ) (rl : RateLimiter) : RateLimiter :=
  { rl with visitors := fun ip => live now (rl.visitors ip) }

/-- A request that opens a window is allowed whatever the limit is. -/
def visit (limit window now : ℤ) (v : Option Visitor) : Bool × Visitor :=
  match live now v with
  | none => (true, ⟨1, now + window⟩)
  | some v => (v.count + 1 ≤ limit, { v with count := v.count + 1 })

def RateLimiter.allow (now : ℤ) (ip : String) (rl : RateLimiter) : Bool × RateLimiter :=
  let (allowed, v) := visit rl.limit rl.window now (rl.visitors ip)
  (allowed, { rl with visitors := Function.update rl.visitors ip v })

inductive Turn where
  | allow (ip : String)
  | cleanup
  deriving DecidableEq

/-- The times and results of the calls for one address. -/
def results (ip : String) : RateLimiter → List (ℤ × Turn) → List (ℤ × Bool)
  | _, [] => []
  | rl, (now, .cleanup) :: turns => results ip (rl.cleanup now) turns
  | rl, (now, .allow caller) :: turns =>
    let rest := results ip (rl.allow now caller).2 turns
    if caller = ip then (now, (rl.allow now caller).1) :: rest else rest

def visits (limit window : ℤ) : Option Visitor → List ℤ → List (ℤ × Bool)
  | _, [] => []
  | v, now :: times =>
    let (allowed, v) := visit limit window now v
    (now, allowed) :: visits limit window v times

def callsOf (ip : String) (turns : List (ℤ × Turn)) : List ℤ :=
  (turns.filter fun turn => turn.2 = .allow ip).map Prod.fst

theorem live_live (h : t ≤ now) : live now (live t v) = live now v := by
  unfold live
  rw [Option.filter_filter]
  grind

/-- Neither the clean-up nor another address is seen: at every later time the entry counts as that
of the address alone. -/
theorem results_eq_visits {ip turns s v} {r : RateLimiter}
    (hsorted : turns.Pairwise fun x y => x.1 ≤ y.1) (hstart : ∀ turn ∈ turns, s ≤ turn.1)
    (hlive : ∀ t, s ≤ t → live t (r.visitors ip) = live t v) :
    results ip r turns = visits r.limit r.window v (callsOf ip turns) := by
  induction turns generalizing r v s with
  | nil => rfl
  | cons turn turns ih =>
    obtain ⟨now, event⟩ := turn
    obtain ⟨hnow, hrest⟩ := List.pairwise_cons.mp hsorted
    have hle : s ≤ now := hstart _ List.mem_cons_self
    cases event with
    | cleanup =>
      have hskip : callsOf ip ((now, .cleanup) :: turns) = callsOf ip turns := by simp [callsOf]
      rw [hskip]
      refine ih (r := r.cleanup now) hrest hnow fun t ht => ?_
      exact (live_live ht).trans (hlive t (hle.trans ht))
    | allow caller =>
      by_cases hcaller : caller = ip
      · subst hcaller
        have hcall : callsOf caller ((now, .allow caller) :: turns) =
            now :: callsOf caller turns := by
          simp [callsOf]
        have hvisit : visit r.limit r.window now (r.visitors caller) =
            visit r.limit r.window now v := by
          unfold visit
          rw [hlive now hle]
        rw [hcall, visits, results, if_pos rfl, ← hvisit]
        refine congrArg _ (ih (r := (r.allow now caller).2) hrest hnow fun t _ => ?_)
        exact congrArg (live t) (Function.update_self ..)
      · have hskip : callsOf ip ((now, .allow caller) :: turns) = callsOf ip turns := by
          simp [callsOf, hcaller]
        have hother : (r.allow now caller).2.visitors ip = r.visitors ip :=
          Function.update_of_ne (Ne.symm hcaller) _ _
        rw [hskip, results, if_neg hcaller]
        refine ih (r := (r.allow now caller).2) hrest hnow fun t ht => ?_
        rw [hother]
        exact hlive t (hle.trans ht)

/-- The allowed calls from `a` to `b`. -/
def allowedIn (a b : ℤ) (rs : List (ℤ × Bool)) : ℕ := rs.countP fun r => r.2 && a ≤ r.1 && r.1 ≤ b

variable {limit window a b : ℤ} {times : List ℤ} {v : Visitor}

theorem visit_open (h : now ≤ v.resetAt) : visit limit window now (some v) =
    (decide (v.count + 1 ≤ limit), { v with count := v.count + 1 }) := by
  rw [visit, live, Option.filter_some, if_pos (decide_eq_true h)]

theorem visit_over (h : v.resetAt < now) :
    visit limit window now (some v) = (true, ⟨1, now + window⟩) := by
  rw [visit, live, Option.filter_some, if_neg (by simpa using h)]

theorem allowedIn_cons (v : Option Visitor) :
    allowedIn a b (visits limit window v (now :: times)) =
      allowedIn a b (visits limit window (visit limit window now v).2 times) +
        if (visit limit window now v).1 && a ≤ now && now ≤ b then 1 else 0 :=
  List.countP_cons ..

theorem allowedIn_after (h : ∀ t ∈ times, b < t) :
    allowedIn a b (visits limit window v times) = 0 := by
  induction times generalizing v with
  | nil => rfl
  | cons now times ih =>
    obtain ⟨hnow, hrest⟩ := List.forall_mem_cons.mp h
    rw [allowedIn_cons, ih hrest, if_neg (by simp; omega)]

/-- While a window lasts until the end of the interval, the limit bounds what it still allows. -/
theorem allowedIn_window (hsorted : times.Pairwise (· ≤ ·)) (hreset : b ≤ v.resetAt) :
    allowedIn a b (visits limit window (some v) times) ≤ (limit - v.count).toNat := by
  induction times generalizing v with
  | nil => exact Nat.zero_le _
  | cons now times ih =>
    obtain ⟨hnow, hrest⟩ := List.pairwise_cons.mp hsorted
    by_cases hover : v.resetAt < now
    · rw [allowedIn_after]
      · exact Nat.zero_le _
      · exact List.forall_mem_cons.mpr ⟨by omega, fun t ht => by have := hnow t ht; omega⟩
    · have hstep := ih (v := { v with count := v.count + 1 }) hrest hreset
      rw [allowedIn_cons, visit_open (by omega)]
      grind

/-- From `a` on, at most one more window begins in the interval. -/
theorem allowedIn_from (hlength : b - a ≤ window) (hlimit : 1 ≤ limit)
    (hsorted : times.Pairwise (· ≤ ·)) (hfrom : ∀ t ∈ times, a ≤ t) :
    allowedIn a b (visits limit window (some v) times) ≤
      (limit - v.count).toNat + limit.toNat := by
  induction times generalizing v with
  | nil => exact Nat.zero_le _
  | cons now times ih =>
    obtain ⟨hnow, hrest⟩ := List.pairwise_cons.mp hsorted
    obtain ⟨ha, hfrom⟩ := List.forall_mem_cons.mp hfrom
    rw [allowedIn_cons]
    by_cases hover : v.resetAt < now
    · have hreset : b ≤ now + window := by omega
      have hwindow := @allowedIn_window limit window a b _ ⟨1, now + window⟩ hrest hreset
      rw [visit_over hover]
      grind
    · have hstep := ih (v := { v with count := v.count + 1 }) hrest hfrom
      rw [visit_open (by omega)]
      grind

theorem visit_count {v : Option Visitor} (hv : ∀ x ∈ v, 0 ≤ x.count) :
    1 ≤ (visit limit window now v).2.count := by
  unfold visit
  split
  · exact le_rfl
  · rename_i x hx
    have hcount := hv x (Option.filter_eq_some_iff.mp hx).1
    show 1 ≤ x.count + 1
    omega

theorem allowedIn_le (hlength : b - a ≤ window) (hlimit : 1 ≤ limit)
    (hsorted : times.Pairwise (· ≤ ·)) {v : Option Visitor} (hv : ∀ x ∈ v, 0 ≤ x.count) :
    allowedIn a b (visits limit window v times) ≤ 2 * limit.toNat := by
  induction times generalizing v with
  | nil => exact Nat.zero_le _
  | cons now times ih =>
    obtain ⟨hnow, hrest⟩ := List.pairwise_cons.mp hsorted
    have hcount : 1 ≤ (visit limit window now v).2.count := visit_count hv
    rw [allowedIn_cons]
    by_cases ha : a ≤ now
    · have hstep := allowedIn_from (v := (visit limit window now v).2) hlength hlimit hrest
        fun t ht => ha.trans (hnow t ht)
      grind
    · rw [if_neg (by simp [ha])]
      exact ih hrest (by simp; omega)

theorem limiter_windows {limit : ℤ} (hlimit : 1 ≤ limit) (window : ℤ) (ip : String)
    {turns : List (ℤ × Turn)} (hsorted : turns.Pairwise fun x y => x.1 ≤ y.1) :
    results ip (newRateLimiter limit window) turns =
        results ip (newRateLimiter limit window) (turns.filter fun turn => turn.2 ≠ .cleanup) ∧
      results ip (newRateLimiter limit window) turns =
        results ip (newRateLimiter limit window) (turns.filter fun turn => turn.2 = .allow ip) ∧
      ∀ a b, b - a ≤ window →
        allowedIn a b (results ip (newRateLimiter limit window) turns) ≤ 2 * limit := by
  -- every run is the one of the address alone, from an empty entry
  have halone : ∀ {ts : List (ℤ × Turn)}, ts.Sublist turns →
      results ip (newRateLimiter limit window) ts = visits limit window none (callsOf ip ts) := by
    intro ts hts
    cases ts with
    | nil => rfl
    | cons turn ts =>
      have hts := hsorted.sublist hts
      refine results_eq_visits (s := turn.1) hts ?_ fun _ _ => rfl
      exact List.forall_mem_cons.mpr ⟨le_rfl, (List.pairwise_cons.mp hts).1⟩
  have hsame : ∀ p : ℤ × Turn → Bool, (∀ turn, turn.2 = .allow ip → p turn = true) →
      results ip (newRateLimiter limit window) turns =
        results ip (newRateLimiter limit window) (turns.filter p) := by
    intro p hp
    rw [halone (List.Sublist.refl _), halone List.filter_sublist, callsOf, callsOf,
      List.filter_filter]
    grind
  refine ⟨hsame _ (by simp), hsame _ (by simp), fun a b hlength => ?_⟩
  rw [halone (List.Sublist.refl _)]
  have hcalls : (callsOf ip turns).Pairwise (· ≤ ·) :=
    List.pairwise_map.mpr (hsorted.sublist List.filter_sublist)
  have hbound := allowedIn_le hlength hlimit hcalls (v := none) nofun
  omega

theorem three_calls_bounded :
    (allowedIn 0 10 (results "a" (newRateLimiter 2 10)
      [(0, .allow "a"), (3, .cleanup), (5, .allow "a"), (10, .allow "a")]) : ℤ) ≤ 2 * 2 :=
  (limiter_windows (by decide) 10 "a" (by decide)).2.2 0 10 (by decide)

end RateLimits
