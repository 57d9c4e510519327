import Mathlib

/-! # Regular expressions with backtracking

The rests of a text behind the ways to match a pattern, in the order in which they are tried, are
its meaning: greedy and lazy repetition differ in the order only. -/
namespace BacktrackingRegex

open List

inductive Regex (α : Type) where
  | empty
  | set (p : α → Bool)
  | seq (r q : Regex α)
  | many (greedy : Bool) (r : Regex α)
  | atomic (r : Regex α)

variable {α : Type}

/-- Up to `fuel` repetitions before `k`; one that takes nothing is not repeated. -/
def tryRepeats (m : (List α → Option (List α)) → List α → Option (List α)) (greedy : Bool)
    (k : List α → Option (List α)) : ℕ → List α → Option (List α)
  | 0, s => k s
  | fuel + 1, s =>
    let more (_ : Unit) := m
      (fun t => if t.length < s.length then tryRepeats m greedy k fuel t else none) s
    if greedy then
      match more () with
      | some t => some t
      | none => k s
    else
      match k s with
      | some t => some t
      | none => more ()

/-- The rests after up to `fuel` repetitions. -/
def repeats (m : List α → List (List α)) (greedy : Bool) : ℕ → List α → List (List α)
  | 0, s => [s]
  | fuel + 1, s =>
    let more := ((m s).filter fun t => t.length < s.length).flatMap (repeats m greedy fuel)
    if greedy then more ++ [s] else s :: more

namespace Regex

/-- The first way to take the beginning of the text after which `k` succeeds. -/
def tryMatch : Regex α → (List α → Option (List α)) → List α → Option (List α)
  | .empty, k, s => k s
  | .set _, _, [] => none
  | .set p, k, c :: cs => if p c then k cs else none
  | .seq r q, k, s => r.tryMatch (q.tryMatch k) s
  | .many greedy r, k, s => tryRepeats r.tryMatch greedy k s.length s
  | .atomic r, k, s => (r.tryMatch some s).bind k

def afterMatch (r : Regex α) (s : List α) : Option (List α) := r.tryMatch some s

def rests : Regex α → List α → List (List α)
  | .empty, s => [s]
  | .set _, [] => []
  | .set p, c :: cs => if p c then [cs] else []
  | .seq r q, s => (r.rests s).flatMap q.rests
  | .many greedy r, s => repeats r.rests greedy s.length s
  | .atomic r, s => (r.rests s).take 1

def plus (r : Regex α) : Regex α := .seq r (.many true r)

def literal [DecidableEq α] (text : List α) : Regex α :=
  text.foldr (fun c r => .seq (.set fun d => d = c) r) .empty

/-- The text without the matches, found from left to right; the next `skip` symbols belong
to the last one. An empty match takes nothing away. -/
def deleteFrom (r : Regex α) : List α → ℕ → List α
  | [], _ => []
  | _ :: cs, skip + 1 => r.deleteFrom cs skip
  | c :: cs, 0 =>
    match r.afterMatch (c :: cs) with
    | some t =>
      if t.length ≤ cs.length then r.deleteFrom cs (cs.length - t.length)
      else c :: r.deleteFrom cs 0
    | none => c :: r.deleteFrom cs 0

def deleteAll (r : Regex α) (s : List α) : List α := r.deleteFrom s 0

theorem findSome_flatMap {β : Type} (l : List β) (f : β → List (List α))
    (k : List α → Option (List α)) :
    (l.flatMap f).findSome? k = l.findSome? fun b => (f b).findSome? k := by
  induction l with
  | nil => rfl
  | cons b l ih =>
    rw [flatMap_cons, findSome?_append, ih, findSome?_cons]
    cases (f b).findSome? k <;> rfl

theorem tryRepeats_eq (h : ∀ k s, m k s = (l s).findSome? k) (greedy : Bool)
    (k : List α → Option (List α)) (fuel : ℕ) (s : List α) :
    tryRepeats m greedy k fuel s = (repeats l greedy fuel s).findSome? k := by
  induction fuel generalizing s with
  | zero => simp [tryRepeats, repeats]
  | succ fuel ih =>
    have hmore : ∀ ts : List (List α), ts.findSome? (fun t => if t.length < s.length then
          tryRepeats m greedy k fuel t else none) =
        ((ts.filter fun t => t.length < s.length).flatMap (repeats l greedy fuel)).findSome? k := by
      intro ts
      simp only [ih, findSome_flatMap]
      induction ts with
      | nil => rfl
      | cons t ts ihts => by_cases ht : t.length < s.length <;> simp [ht, ihts, findSome?_cons]
    cases greedy with
    | true =>
      simp only [tryRepeats, repeats, h, hmore, if_true, findSome?_append,
        findSome?_singleton]
      split <;> simp [*]
    | false =>
      simp only [tryRepeats, repeats, h, hmore, Bool.false_eq_true, if_false,
        findSome?_cons]
      cases k s <;> rfl

theorem tryMatch_eq (r : Regex α) (k : List α → Option (List α)) (s : List α) :
    r.tryMatch k s = (r.rests s).findSome? k := by
  induction r generalizing k s with
  | empty => simp [tryMatch, rests]
  | set p =>
    cases s with
    | nil => rfl
    | cons c cs => by_cases hc : p c <;> simp [tryMatch, rests, hc]
  | seq r q ihr ihq =>
    rw [tryMatch, ihr, rests, findSome_flatMap]
    exact congrArg (fun f => (r.rests s).findSome? f) (funext fun t => ihq k t)
  | many greedy r ih => exact tryRepeats_eq ih greedy k s.length s
  | atomic r ih =>
    rw [tryMatch, ih, rests]
    cases r.rests s <;> simp

theorem afterMatch_eq (r : Regex α) (s : List α) : r.afterMatch s = (r.rests s).head? := by
  rw [afterMatch, tryMatch_eq]
  cases r.rests s <;> simp

variable {s t : List α} {m : List α → List (List α)}

theorem repeats_reaches (h : t ∈ repeats m greedy fuel s) :
    Relation.ReflTransGen (fun a b => b ∈ m a) s t := by
  induction fuel generalizing s with
  | zero =>
    rw [repeats, mem_singleton] at h
    rw [h]
  | succ fuel ih =>
    have hcases : t = s ∨ ∃ u ∈ m s, t ∈ repeats m greedy fuel u := by
      rw [repeats] at h
      split at h
      · rcases mem_append.mp h with hmore | hs
        · obtain ⟨u, hu, ht⟩ := mem_flatMap.mp hmore
          exact .inr ⟨u, mem_of_mem_filter hu, ht⟩
        · exact .inl (mem_singleton.mp hs)
      · rcases mem_cons.mp h with hs | hmore
        · exact .inl hs
        · obtain ⟨u, hu, ht⟩ := mem_flatMap.mp hmore
          exact .inr ⟨u, mem_of_mem_filter hu, ht⟩
    rcases hcases with rfl | ⟨u, hu, ht⟩
    · exact .refl
    · exact .head hu (ih ht)

variable {r : Regex α}

theorem rests_suffix (h : t ∈ r.rests s) : t <:+ s := by
  induction r generalizing s t with
  | empty =>
    exact mem_singleton.mp h ▸ suffix_refl s
  | set p =>
    cases s with
    | nil => cases h
    | cons c cs =>
      rw [rests] at h
      split at h
      · rw [mem_singleton.mp h]
        exact suffix_cons c cs
      · cases h
  | seq r q ihr ihq =>
    obtain ⟨u, hu, ht⟩ := mem_flatMap.mp h
    exact (ihq ht).trans (ihr hu)
  | many greedy r ih =>
    refine Relation.ReflTransGen.head_induction_on (repeats_reaches h) ?_ ?_
    · exact suffix_refl t
    · intro a b hab _ hbt
      exact hbt.trans (ih hab)
  | atomic r ih => exact ih (mem_of_mem_take h)

variable {p : α → Bool}

theorem mem_rests_many_set (h : t ∈ (Regex.many greedy (.set p)).rests s) :
    ∃ u, s = u ++ t ∧ ∀ c ∈ u, p c := by
  refine Relation.ReflTransGen.head_induction_on (repeats_reaches h) ⟨[], rfl, by simp⟩ ?_
  rintro a b hab _ ⟨u, rfl, hu⟩
  cases a with
  | nil => cases hab
  | cons c cs =>
    rw [rests] at hab
    split at hab
    · next hc =>
      rw [← mem_singleton.mp hab]
      exact ⟨c :: u, rfl, by simpa using ⟨hc, hu⟩⟩
    · cases hab

theorem deleteFrom_skip (r : Regex α) (s : List α) (skip : ℕ) :
    r.deleteFrom s skip = r.deleteAll (s.drop skip) := by
  induction s generalizing skip with
  | nil => simp [deleteAll, deleteFrom]
  | cons c cs ih =>
    cases skip with
    | zero => rfl
    | succ skip => rw [deleteFrom, ih, drop_succ_cons]

@[simp] theorem deleteAll_nil (r : Regex α) : r.deleteAll [] = [] := rfl

theorem deleteAll_match (h : (r.rests s).head? = some t) (hlt : t.length < s.length) :
    r.deleteAll s = r.deleteAll t := by
  cases s with
  | nil => simp at hlt
  | cons c cs =>
    have hle : t.length ≤ cs.length := Nat.lt_succ_iff.mp hlt
    have hsuffix : t <:+ c :: cs := rests_suffix (mem_of_mem_head? h)
    have ht : cs.drop (cs.length - t.length) = t := by
      have hdrop := suffix_iff_eq_drop.mp hsuffix
      rw [length_cons, Nat.succ_sub hle, drop_succ_cons] at hdrop
      exact hdrop.symm
    rw [deleteAll, deleteFrom, afterMatch_eq, h]
    simp only [hle, if_true]
    rw [deleteFrom_skip, ht]

theorem deleteAll_cons (h : r.rests (c :: cs) = []) :
    r.deleteAll (c :: cs) = c :: r.deleteAll cs := by
  rw [deleteAll, deleteFrom, afterMatch_eq, h]
  rfl

variable {u : List α}

theorem deleteAll_append (h : ∀ v, v <:+ u → v ≠ [] → r.rests (v ++ s) = []) :
    r.deleteAll (u ++ s) = u ++ r.deleteAll s := by
  induction u with
  | nil => rfl
  | cons c cs ih =>
    have hhead : r.rests (c :: (cs ++ s)) = [] := h (c :: cs) (suffix_refl _) (by simp)
    rw [cons_append, deleteAll_cons hhead, ih, cons_append]
    intro v hv
    exact h v (hv.trans (suffix_cons c cs))

section literals

variable [DecidableEq α]

theorem rests_literal_append : (literal text).rests (text ++ s) = [s] := by
  induction text with
  | nil => rfl
  | cons c cs ih =>
    have hseq : (literal (c :: cs)).rests (c :: cs ++ s) = (literal cs).rests (cs ++ s) := by
      change ((Regex.set fun d => d = c).rests (c :: (cs ++ s))).flatMap _ = _
      simp [rests, literal]
    rw [hseq, ih]

variable {text : List α}

theorem prefix_of_rests_literal (h : t ∈ (literal text).rests s) : s = text ++ t := by
  induction text generalizing s with
  | nil =>
    change t ∈ [s] at h
    rw [mem_singleton.mp h]
    rfl
  | cons c cs ih =>
    obtain ⟨u, hu, ht⟩ := mem_flatMap.mp h
    cases s with
    | nil => cases hu
    | cons d ds =>
      rw [rests] at hu
      split at hu
      · next hdc =>
        rw [mem_singleton.mp hu] at ht
        rw [ih ht, of_decide_eq_true hdc]
        rfl
      · cases hu

theorem rests_literal_seq :
    (Regex.seq (literal text) r).rests (text ++ s) = r.rests s := by
  rw [rests, rests_literal_append, flatMap_singleton]

theorem rests_literal_seq_eq_nil (h : ¬ text <+: s) :
    (Regex.seq (literal text) r).rests s = [] := by
  have hnil : (literal text).rests s = [] := by
    refine eq_nil_iff_forall_not_mem.mpr fun t ht => h ?_
    exact ⟨t, (prefix_of_rests_literal ht).symm⟩
  rw [rests, hnil, flatMap_nil]

end literals

theorem head_rests_seq (hr : (r.rests s).head? = some u) (hq : (q.rests u).head? = some t) :
    ((Regex.seq r q).rests s).head? = some t := by
  obtain ⟨us, hus⟩ := head?_eq_some_iff.mp hr
  obtain ⟨ts, hts⟩ := head?_eq_some_iff.mp hq
  rw [rests, hus, flatMap_cons, hts]
  rfl

theorem head_rests_lazy :
    ((Regex.many false r).rests s).head? = some s := by
  cases s with
  | nil => rfl
  | cons c cs => rfl

theorem head_repeats_step (hm : (m s).head? = some t) (hlt : t.length < s.length)
    (ht : (repeats m true fuel t).head? = some u) :
    (repeats m true (fuel + 1) s).head? = some u := by
  obtain ⟨ts, hts⟩ := head?_eq_some_iff.mp hm
  obtain ⟨us, hus⟩ := head?_eq_some_iff.mp ht
  simp [repeats, hts, hlt, hus]

theorem repeats_stop (hm : ∀ t ∈ m s, s.length ≤ t.length) (fuel : ℕ) :
    repeats m true fuel s = [s] := by
  cases fuel with
  | zero => rfl
  | succ fuel =>
    have hnone : (m s).filter (fun t => t.length < s.length) = [] := by
      refine filter_eq_nil_iff.mpr fun t ht => ?_
      simpa using hm t ht
    simp [repeats, hnone]

theorem rests_many_set_stop (h : ∀ c ∈ s.head?, p c = false) :
    (Regex.many true (.set p)).rests s = [s] := by
  refine repeats_stop ?_ _
  cases s with
  | nil => simp
  | cons c cs => simp [rests, h c rfl]

theorem head_rests_many_set (p : α → Bool) (s : List α) :
    ((Regex.many true (.set p)).rests s).head? = some (s.dropWhile p) := by
  induction s with
  | nil => rfl
  | cons c cs ih =>
    by_cases hc : p c
    · rw [dropWhile_cons_of_pos hc]
      exact head_repeats_step (by simp [rests, hc]) (Nat.lt_succ_self _) ih
    · rw [rests_many_set_stop (by simpa using hc), dropWhile_cons_of_neg hc]
      rfl

theorem head_rests_many_many_set (p : α → Bool) (s : List α) :
    ((Regex.many true (.many true (.set p))).rests s).head? = some (s.dropWhile p) := by
  have hstop : ∀ fuel, repeats (Regex.many true (.set p)).rests true fuel (s.dropWhile p) =
      [s.dropWhile p] := by
    refine repeats_stop ?_
    rw [rests_many_set_stop]
    · simp
    · intro c hc
      have hnot := head?_dropWhile_not p s
      rw [Option.mem_def.mp hc] at hnot
      exact hnot
  cases s with
  | nil => rfl
  | cons c cs =>
    by_cases hc : p c
    · refine head_repeats_step (head_rests_many_set p (c :: cs)) ?_ (by rw [hstop]; rfl)
      rw [dropWhile_cons_of_pos hc]
      exact Nat.lt_succ_of_le (dropWhile_suffix p).length_le
    · rw [dropWhile_cons_of_neg hc] at hstop ⊢
      rw [rests, hstop]
      rfl

end Regex

end BacktrackingRegex
