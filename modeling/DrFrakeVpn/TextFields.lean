import Mathlib

/-! # Fields of a text

A text is cut into fields at its separators, and every field loses what pads its ends. Padding
at the ends of the whole text changes the fields at its ends alone, and there only their padding. -/
namespace TextFields

open List

variable {α β : Type*}

/-- The list without the elements of `p` at its two ends. -/
def strip (p : α → Bool) (l : List α) : List α := (l.dropWhile p).rdropWhile p

variable {p q : α → Bool} {a l : List α}

theorem strip_append_left (ha : ∀ c ∈ a, p c) : strip p (a ++ l) = strip p l := by
  unfold strip
  rw [dropWhile_append_of_pos ha]

theorem strip_append_right (ha : ∀ c ∈ a, p c) : strip p (l ++ a) = strip p l := by
  unfold strip
  rw [dropWhile_append]
  split
  · next h =>
    have hnone : a.dropWhile p = [] := dropWhile_eq_nil_iff.mpr ha
    rw [hnone, isEmpty_iff.mp h]
  · unfold rdropWhile
    rw [reverse_append, dropWhile_append_of_pos (by simpa using ha)]

theorem strip_cons (c : α) (hc : p c) : strip p (c :: l) = strip p l :=
  strip_append_left (a := [c]) (by simpa using hc)

theorem strip_eq_nil : strip p l = [] ↔ ∀ c ∈ l, p c := by
  unfold strip
  rw [rdropWhile_eq_nil_iff]
  constructor
  · intro h
    refine dropWhile_eq_nil_iff.mp ?_
    cases hd : l.dropWhile p with
    | nil => rfl
    | cons c rest =>
      have hc := head?_dropWhile_not p l
      rw [hd] at hc
      simp [h c (by simp [hd])] at hc
  · intro h c hc
    exact h c ((dropWhile_suffix p).subset hc)

/-- What is stripped stands before and behind the rest. -/
theorem exists_strip (p : α → Bool) (l : List α) : ∃ a b, l = a ++ strip p l ++ b ∧
    (∀ c ∈ a, p c) ∧ ∀ c ∈ b, p c := by
  refine ⟨l.takeWhile p, (l.dropWhile p).rtakeWhile p, ?_, ?_, ?_⟩
  · rw [append_assoc, strip, rdropWhile_append_rtakeWhile, takeWhile_append_dropWhile]
  · intro c hc
    exact mem_takeWhile_imp hc
  · intro c hc
    exact mem_rtakeWhile_imp hc

theorem strip_idem (p : α → Bool) (l : List α) : strip p (strip p l) = strip p l := by
  obtain ⟨a, b, hl, ha, hb⟩ := exists_strip p l
  nth_rewrite 2 [hl]
  rw [append_assoc, strip_append_left ha, strip_append_right hb]

theorem strip_map (f : β → α) (l : List β) : strip p (l.map f) = (strip (p ∘ f) l).map f := by
  unfold strip rdropWhile
  rw [dropWhile_map, ← map_reverse, dropWhile_map, map_reverse]

/-- A list that is cut at its first `c` has one way to be cut. -/
theorem first_inj {c : α} {x y b} (hx : c ∉ x) (hy : c ∉ y) (h : x ++ c :: a = y ++ c :: b) :
    x = y ∧ a = b := by
  induction x generalizing y with
  | nil =>
    cases y with
    | nil => exact ⟨rfl, tail_eq_of_cons_eq h⟩
    | cons d y => exact absurd (head_eq_of_cons_eq h ▸ mem_cons_self) hy
  | cons d x ih =>
    cases y with
    | nil => exact absurd (head_eq_of_cons_eq h ▸ mem_cons_self) hx
    | cons e y =>
      obtain ⟨rfl, htail⟩ := cons_eq_cons.mp h
      obtain ⟨rfl, hrest⟩ := ih (not_mem_of_not_mem_cons hx) (not_mem_of_not_mem_cons hy)
        htail
      exact ⟨rfl, hrest⟩

theorem last_inj {c : α} {x y b} (hx : c ∉ x) (hy : c ∉ y) (h : a ++ c :: x = b ++ c :: y) :
    a = b ∧ x = y := by
  have hrev : x.reverse ++ c :: a.reverse = y.reverse ++ c :: b.reverse := by
    simpa using congrArg reverse h
  obtain ⟨hxy, hab⟩ := first_inj (by simpa using hx) (by simpa using hy) hrev
  exact ⟨reverse_inj.mp hab, reverse_inj.mp hxy⟩

theorem exists_splitOnP (q : α → Bool) (l : List α) : ∃ x xs, l.splitOnP q = x :: xs := by
  cases h : l.splitOnP q with
  | nil => exact absurd h (splitOnP_ne_nil q l)
  | cons x xs => exact ⟨x, xs, rfl⟩

theorem splitOnP_append (q : α → Bool) (l b : List α) : ∃ xs x y ys, l.splitOnP q = xs ++ [x] ∧
    b.splitOnP q = y :: ys ∧ (l ++ b).splitOnP q = xs ++ (x ++ y) :: ys := by
  obtain ⟨y, ys, hb⟩ := exists_splitOnP q b
  induction l with
  | nil => exact ⟨[], [], y, ys, by simp, hb, by simpa using hb⟩
  | cons c l ih =>
    obtain ⟨xs, x, y', ys', hl, hb', happ⟩ := ih
    obtain ⟨rfl, rfl⟩ := cons.inj (hb'.symm.trans hb)
    rw [cons_append, splitOnP_cons_eq_if_modifyHead,
      splitOnP_cons_eq_if_modifyHead, hl, happ]
    split
    · exact ⟨[] :: xs, x, y', ys', rfl, hb, rfl⟩
    · cases xs with
      | nil => exact ⟨[], c :: x, y', ys', rfl, hb, rfl⟩
      | cons z zs => exact ⟨(c :: z) :: zs, x, y', ys', rfl, hb, rfl⟩

theorem mem_of_mem_splitOnP (hx : x ∈ l.splitOnP q) : ∀ c ∈ x, c ∈ l ∧ q c = false := by
  induction l generalizing x with
  | nil =>
    rw [splitOnP_nil, mem_singleton] at hx
    simp [hx]
  | cons d l ih =>
    obtain ⟨y, ys, hl⟩ := exists_splitOnP q l
    rw [splitOnP_cons_eq_if_modifyHead, hl] at hx
    rw [hl] at ih
    split at hx
    · rcases mem_cons.mp hx with rfl | hx
      · simp
      · intro c hc
        exact ⟨.tail _ (ih hx c hc).1, (ih hx c hc).2⟩
    · next hd =>
      rcases mem_cons.mp hx with rfl | hx
      · intro c hc
        rcases mem_cons.mp hc with rfl | hc
        · exact ⟨.head _, by simpa using hd⟩
        · exact ⟨.tail _ (ih (.head _) c hc).1, (ih (.head _) c hc).2⟩
      · intro c hc
        exact ⟨.tail _ (ih (.tail _ hx) c hc).1, (ih (.tail _ hx) c hc).2⟩

/-- A separator of one text is one of the other, so both are cut at the same places. -/
theorem splitOnP_filterMap (f : α → Option β) (hf : ∀ c, q c = (f c).any r) (l : List α) :
    (l.filterMap f).splitOnP r = (l.splitOnP q).map (filterMap f) := by
  induction l with
  | nil => simp
  | cons c l ih =>
    obtain ⟨x, xs, hl⟩ := exists_splitOnP q l
    rw [hl, map_cons] at ih
    rw [splitOnP_cons_eq_if_modifyHead, hf c, hl, filterMap_cons]
    cases hc : f c with
    | none => simp [ih, hc]
    | some d =>
      simp only [Option.any_some, splitOnP_cons_eq_if_modifyHead, ih]
      split
      · simp
      · simp [hc]

/-- The fields of a text that have something but padding. -/
def fields (q p : α → Bool) (l : List α) : List (List α) :=
  ((l.splitOnP q).map (strip p)).filter (· ≠ [])

theorem fields_append_left (ha : ∀ c ∈ a, p c) :
    fields q p (a ++ l) = fields q p l := by
  induction a with
  | nil => rfl
  | cons c a ih =>
    rw [← ih fun d hd => ha d (.tail _ hd)]
    obtain ⟨x, xs, hl⟩ := exists_splitOnP q (a ++ l)
    unfold fields
    rw [cons_append, splitOnP_cons_eq_if_modifyHead, hl]
    split
    · have hnil : strip p ([] : List α) = [] := rfl
      simp [hnil]
    · simp [strip_cons c (ha c (.head _))]

theorem fields_append_right (ha : ∀ c ∈ a, p c) :
    fields q p (l ++ a) = fields q p l := by
  obtain ⟨xs, x, y, ys, hl, hb, happ⟩ := splitOnP_append q l a
  have hblank : ∀ z ∈ y :: ys, ∀ c ∈ z, p c := fun z hz c hc =>
    ha c (mem_of_mem_splitOnP (hb ▸ hz) c hc).1
  have hx : strip p (x ++ y) = strip p x := strip_append_right (hblank y (.head _))
  have hys : (ys.map (strip p)).filter (· ≠ []) = [] := by
    rw [filter_eq_nil_iff]
    rintro _ hfield
    obtain ⟨z, hz, rfl⟩ := mem_map.mp hfield
    simp [strip_eq_nil.mpr (hblank z (.tail _ hz))]
  unfold fields
  rw [hl, happ]
  simp only [map_append, map_cons, map_nil, filter_append, hx]
  rw [filter_cons, hys, filter_cons]
  simp

theorem fields_strip : fields q p (strip p l) = fields q p l := by
  obtain ⟨a, b, hl, ha, hb⟩ := exists_strip p l
  nth_rewrite 2 [hl]
  rw [append_assoc, fields_append_left ha, fields_append_right hb]

theorem fields_map {f : α → β} (hq : ∀ c, q' (f c) = q c) (hp : ∀ c, p' (f c) = p c) :
    fields q' p' (l.map f) = (fields q p l).map (map f) := by
  have hpad : p' ∘ f = p := funext hp
  unfold fields
  rw [← filterMap_eq_map (f := f), splitOnP_filterMap (q := q) _ fun c => by simp [hq]]
  simp [filter_map, strip_map, hpad, Function.comp_def]

theorem eq_of_sorted [Std.Antisymm r] {xs ys : List α} (hx : xs.Nodup) (hy : ys.Nodup)
    (hxs : xs.Pairwise r) (hys : ys.Pairwise r) (h : ∀ x, x ∈ xs ↔ x ∈ ys) : xs = ys :=
  ((perm_ext_iff_of_nodup hx hy).mpr h).eq_of_pairwise' hxs hys

end TextFields
