import DrFrakeVpn.TvHandlers

/-! # The limits on TV attempts

A call of `allowTVAttempt` keeps the times of the allowed calls that its window still holds. The
calls that were allowed so far stand beside the accounts. -/
namespace AttemptLimits

open AccountWorld TvHandlers List

/-- A key of one of the two maps. -/
abbrev Slot := Bucket × String

def attempts (a : Accounts) (slot : Slot) : List ℤ := attemptsOf a slot.1 slot.2

variable (limit : Slot → ℕ) (window : Slot → ℤ)

def attempt (a : Accounts) (call : Slot × ℤ) : Bool × Accounts :=
  (allowTVAttempt .clock .attempt call.1.1 call.1.2 (limit call.1) (window call.1)).run
    { a with world := { a.world with now := call.2 } }

structure History where
  allowed : List (Slot × ℤ)
  accounts : Accounts

def History.next (s : History) (call : Slot × ℤ) : History :=
  let (ok, accounts) := attempt limit window s.accounts call
  ⟨s.allowed ++ if ok then [call] else [], accounts⟩

def history (a : Accounts) (calls : List (Slot × ℤ)) : History :=
  calls.foldl (History.next limit window) ⟨[], a⟩

/-- The allowed calls of a key in the window that ends at `t`. -/
def inWindow (slot : Slot) (t : ℤ) (allowed : List (Slot × ℤ)) : ℕ :=
  allowed.countP fun call => call.1 = slot && t - window slot < call.2 && call.2 ≤ t

variable {limit window} {a : Accounts} {call : Slot × ℤ} {slot : Slot} {s t : ℤ}

theorem attempts_set : attempts (setAttempts a call.1.1 call.1.2 times) slot =
    if slot = call.1 then times else attempts a slot := by
  obtain ⟨⟨bucket, key⟩, now⟩ := call
  obtain ⟨bucket', key'⟩ := slot
  cases bucket <;> cases bucket' <;>
    simp [attempts, attemptsOf, setAttempts, Function.update_apply]

/-- What the call keeps of the stored times. -/
def kept (window : Slot → ℤ) (a : Accounts) (call : Slot × ℤ) : List ℤ :=
  (attempts a call.1).filter fun time => call.2 - window call.1 < time

theorem attempt_stores (limit : Slot → ℕ) (window : Slot → ℤ) (a : Accounts) (call : Slot × ℤ) :
    ((attempt limit window a call).1 ↔ (kept window a call).length < limit call.1) ∧
      ∀ slot, attempts (attempt limit window a call).2 slot = if slot = call.1 then
        kept window a call ++ if (kept window a call).length < limit call.1 then [call.2] else []
      else attempts a slot := by
  have hrun : attempt limit window a call =
      let store := setAttempts { a with world := { a.world with now := call.2 } } call.1.1 call.1.2
      if limit call.1 ≤ (kept window a call).length then (false, store (kept window a call))
      else (true, store (kept window a call ++ [call.2])) := rfl
  dsimp only at hrun
  by_cases hlt : (kept window a call).length < limit call.1
  · rw [hrun, if_neg (Nat.not_le.mpr hlt), if_pos hlt]
    exact ⟨iff_of_true rfl hlt, fun slot => attempts_set⟩
  · rw [hrun, if_pos (Nat.not_lt.mp hlt), if_neg hlt, append_nil]
    exact ⟨iff_of_false Bool.false_ne_true hlt, fun slot => attempts_set⟩

/-- The stored times count, at every later time, as the allowed calls do. -/
structure Tracks (limit : Slot → ℕ) (window : Slot → ℤ) (s : ℤ) (h : History) : Prop where
  past : ∀ call ∈ h.allowed, call.2 ≤ s
  stored : ∀ slot t, s ≤ t →
    (attempts h.accounts slot).countP (fun time => t - window slot < time) =
      inWindow window slot t h.allowed
  short : ∀ slot, (attempts h.accounts slot).length ≤ limit slot
  bounded : ∀ slot t, inWindow window slot t h.allowed ≤ limit slot

theorem Tracks.mono (h : Tracks limit window s hist) (hst : s ≤ t) : Tracks limit window t hist :=
  ⟨fun call hc => (h.past call hc).trans hst, fun slot u hu => h.stored slot u (hst.trans hu),
    h.short, h.bounded⟩

theorem Tracks.kept_length (h : Tracks limit window s hist) (hs : s ≤ call.2) :
    (kept window hist.accounts call).length = inWindow window call.1 call.2 hist.allowed := by
  rw [kept, ← countP_eq_length_filter, h.stored _ _ hs]

/-- What is kept counts as the stored times did. -/
theorem kept_count (ht : call.2 ≤ t) :
    (kept window a call).countP (fun time => t - window call.1 < time) =
      (attempts a call.1).countP fun time => t - window call.1 < time := by
  rw [kept, countP_filter]
  refine countP_congr fun time _ => ?_
  simp
  omega

theorem Tracks.next {hist : History} (h : Tracks limit window s hist) (hs : s ≤ call.2) :
    ((attempt limit window hist.accounts call).1 ↔
      inWindow window call.1 call.2 hist.allowed < limit call.1) ∧
    Tracks limit window call.2 (hist.next limit window call) := by
  have hlength := h.kept_length hs
  obtain ⟨hok, hstored⟩ := attempt_stores limit window hist.accounts call
  refine ⟨hlength ▸ hok, ?_⟩
  have hpast : ∀ e ∈ hist.allowed, e.2 ≤ call.2 := fun e he => (h.past e he).trans hs
  unfold History.next
  simp only [hok]
  refine ⟨?_, fun slot t ht => ?_, fun slot => ?_, fun slot t => ?_⟩
  · exact forall_mem_append.mpr ⟨hpast, by split <;> simp⟩
  · rw [inWindow, countP_append, ← inWindow, ← h.stored slot t (hs.trans ht), hstored]
    by_cases hslot : slot = call.1
    · subst hslot
      rw [if_pos rfl, countP_append, kept_count ht]
      split <;> simp [ht]
    · rw [if_neg hslot]
      split <;> simp [Ne.symm hslot]
  · have hkept := h.bounded call.1 call.2
    have hshort := h.short slot
    grind
  · rw [inWindow, countP_append, ← inWindow]
    by_cases hin : call.1 = slot ∧ call.2 ≤ t
    · -- what lies in this window beside the call was counted by the call
      obtain ⟨rfl, ht⟩ := hin
      have hle : inWindow window call.1 t hist.allowed ≤
          inWindow window call.1 call.2 hist.allowed := by
        refine countP_mono_left fun e he => ?_
        simp only [Bool.and_eq_true, decide_eq_true_eq]
        exact fun hand => ⟨⟨hand.1.1, by omega⟩, hpast e he⟩
      have hbounded := h.bounded call.1 t
      grind
    · have hnone : call.1 = slot → t < call.2 := by simpa using hin
      have hbounded := h.bounded slot t
      grind

theorem tracks_history {calls : List (Slot × ℤ)} (hfresh : ∀ slot, attempts a slot = [])
    (hsorted : calls.Pairwise fun x y => x.2 ≤ y.2) (hs : ∀ call ∈ calls, call.2 ≤ s) :
    Tracks limit window s (history limit window a calls) := by
  induction calls using reverseRecOn generalizing s with
  | nil =>
    exact ⟨by simp [history], by simp [history, hfresh, inWindow], by simp [history, hfresh],
      by simp [history, inWindow]⟩
  | append_singleton calls call ih =>
    obtain ⟨hsorted, -, hlast⟩ := pairwise_append.mp hsorted
    have hbefore : ∀ c ∈ calls, c.2 ≤ call.2 := fun c hc => hlast c hc call mem_cons_self
    have hstep := ((ih hsorted hbefore).next le_rfl).2
    rw [history, foldl_append]
    exact hstep.mono (hs call (by simp))

/-- A call is allowed exactly if the window that ends with it holds fewer allowed ones of its key
than the limit, and no window and no stored list holds more. -/
theorem attempts_in_window {calls : List (Slot × ℤ)} (hfresh : ∀ slot, attempts a slot = [])
    (hsorted : calls.Pairwise fun x y => x.2 ≤ y.2) :
    (∀ earlier call later, calls = earlier ++ call :: later →
      ((attempt limit window (history limit window a earlier).accounts call).1 ↔
        inWindow window call.1 call.2 (history limit window a earlier).allowed < limit call.1)) ∧
    ∀ slot, (∀ t, inWindow window slot t (history limit window a calls).allowed ≤ limit slot) ∧
      (attempts (history limit window a calls).accounts slot).length ≤ limit slot := by
  constructor
  · rintro earlier call later rfl
    obtain ⟨hearlier, -, hlast⟩ := pairwise_append.mp hsorted
    exact ((tracks_history hfresh hearlier fun c hc => hlast c hc call mem_cons_self).next le_rfl).1
  · obtain ⟨s, hs⟩ := (calls.map Prod.snd).toFinset.exists_le
    have htracks : Tracks limit window s (history limit window a calls) :=
      tracks_history hfresh hsorted fun call hc => hs _ (mem_toFinset.mpr (mem_map_of_mem hc))
    exact fun slot => ⟨htracks.bounded slot, htracks.short slot⟩

theorem three_attempts_limited :
    (attempts (history (fun _ => 2) (fun _ => 5) (.start .empty 0)
      [((.token, "ip"), 0), ((.token, "ip"), 1), ((.token, "ip"), 5)]).accounts
      (.token, "ip")).length ≤ 2 :=
  ((attempts_in_window (fun (bucket, _) => by cases bucket <;> rfl) (by decide)).2 _).2

end AttemptLimits
