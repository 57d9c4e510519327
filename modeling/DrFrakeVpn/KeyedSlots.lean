import Mathlib

/-! # Filling the slots of a list by key

Each new item takes the place of the first old item of the same key that has not been replaced
yet, or is added at the end; old items with a key that were not replaced are dropped. -/
namespace KeyedSlots

open List

variable {σ κ : Type} [DecidableEq κ] (key : σ → Option κ)

/-- An old item and the new one that has taken its place, if any. -/
abbrev Slot (σ : Type) := σ × Option σ

def place (b : σ) : List (Slot σ) → Option (List (Slot σ))
  | [] => none
  | (a, new) :: rest =>
    if key a = key b ∧ new.isNone = true then some ((a, some b) :: rest)
    else (place b rest).map ((a, new) :: ·)

def put (st : List (Slot σ) × List σ) (b : σ) : List (Slot σ) × List σ :=
  match place key b st.1 with
  | some slots => (slots, st.2)
  | none => (st.1, st.2 ++ [b])

def Slot.survivor (s : Slot σ) : Option σ :=
  s.2.or (if (key s.1).isSome then none else some s.1)

def settled (slots : List (Slot σ)) : List σ := slots.filterMap (Slot.survivor key)

def filled (as bs : List σ) : List (Slot σ) × List σ :=
  bs.foldl (put key) (as.map fun a => (a, none), [])

def reconcile (as bs : List σ) : List σ := settled key (filled key as bs).1 ++ (filled key as bs).2

def inSlots (k : κ) (slots : List (Slot σ)) : List (Option σ) :=
  (slots.filter fun s => key s.1 = some k).map Prod.snd

variable {key} {slots slots' : List (Slot σ)} {b : σ}

/-- One free slot of the key is filled. -/
theorem place_spec (h : place key b slots = some slots') : ∃ front a back,
    slots = front ++ (a, none) :: back ∧ key a = key b ∧ slots' = front ++ (a, some b) :: back := by
  induction slots generalizing slots' with
  | nil => cases h
  | cons s rest ih =>
    obtain ⟨a, new⟩ := s
    unfold place at h
    split at h
    · rename_i hplace
      obtain rfl := Option.isNone_iff_eq_none.mp hplace.2
      exact ⟨[], a, rest, rfl, hplace.1, (Option.some.inj h).symm⟩
    · obtain ⟨rest', hrest, rfl⟩ := Option.map_eq_some_iff.mp h
      obtain ⟨front, c, back, rfl, hc, rfl⟩ := ih hrest
      exact ⟨(a, new) :: front, c, back, rfl, hc, rfl⟩

theorem place_fst (h : place key b slots = some slots') :
    slots'.map Prod.fst = slots.map Prod.fst := by
  obtain ⟨front, a, back, rfl, -, rfl⟩ := place_spec h
  simp

variable {k : κ}

theorem place_other (h : place key b slots = some slots') (hk : key b ≠ some k) :
    inSlots key k slots' = inSlots key k slots := by
  obtain ⟨front, a, back, rfl, ha, rfl⟩ := place_spec h
  have hne : key a ≠ some k := fun hkey => hk (ha.symm.trans hkey)
  simp [inSlots, hne]

variable {a : σ} (new : Option σ)

theorem inSlots_cons_own (rest : List (Slot σ)) (h : key a = some k) :
    inSlots key k ((a, new) :: rest) = new :: inSlots key k rest := by
  simp [inSlots, h]

theorem inSlots_cons_other (rest : List (Slot σ)) (h : key a ≠ some k) :
    inSlots key k ((a, new) :: rest) = inSlots key k rest := by
  simp [inSlots, h]

variable {m : ℕ}

/-- With the slots of the key filled from the front, the first free one is filled next; only if
none is free the item finds no place. -/
theorem place_own (hk : key b = some k) {ys}
    (hslots : inSlots key k slots = ys.map some ++ replicate m none) :
    (∃ slots' m', place key b slots = some slots' ∧ m = m' + 1 ∧
      inSlots key k slots' = (ys ++ [b]).map some ++ replicate m' none) ∨
    place key b slots = none ∧ m = 0 := by
  induction slots generalizing ys with
  | nil =>
    refine .inr ⟨rfl, ?_⟩
    have hlen := congrArg length hslots
    simp [inSlots] at hlen
    omega
  | cons s rest ih =>
    obtain ⟨a, new⟩ := s
    by_cases ha : key a = some k
    · rw [inSlots_cons_own new rest ha] at hslots
      cases new with
      | none =>
        cases ys with
        | cons y ys => cases hslots
        | nil =>
          cases m with
          | zero => cases hslots
          | succ m =>
            refine .inl ⟨(a, some b) :: rest, m, ?_, rfl, ?_⟩
            · unfold place
              rw [if_pos ⟨ha.trans hk.symm, rfl⟩]
            · rw [inSlots_cons_own _ _ ha, (cons.inj hslots).2]
              rfl
      | some c =>
        cases ys with
        | nil => cases m <;> cases hslots
        | cons y ys =>
          obtain ⟨hc, hrest⟩ := cons.inj hslots
          have hskip : place key b ((a, some c) :: rest) =
              (place key b rest).map ((a, some c) :: ·) := if_neg fun h => absurd h.2 nofun
          rw [hskip]
          rcases ih hrest with ⟨slots', m', hplace, hm, hin⟩ | ⟨hplace, hm⟩
          · refine .inl ⟨(a, some c) :: slots', m', by rw [hplace]; rfl, hm, ?_⟩
            rw [inSlots_cons_own _ _ ha, hin, hc]
            rfl
          · exact .inr ⟨by rw [hplace]; rfl, hm⟩
    · rw [inSlots_cons_other new rest ha] at hslots
      have hskip : place key b ((a, new) :: rest) = (place key b rest).map ((a, new) :: ·) :=
        if_neg fun h => ha (h.1.trans hk)
      rw [hskip]
      rcases ih hslots with ⟨slots', m', hplace, hm, hin⟩ | ⟨hplace, hm⟩
      · refine .inl ⟨(a, new) :: slots', m', by rw [hplace]; rfl, hm, ?_⟩
        rw [inSlots_cons_other _ _ ha, hin]
      · exact .inr ⟨by rw [hplace]; rfl, hm⟩

def Fits (key : σ → Option κ) (slots : List (Slot σ)) : Prop :=
  ∀ s ∈ slots, ∀ b, s.2 = some b → key b = key s.1 ∧ (key b).isSome = true

theorem place_fits (hb : (key b).isSome) (h : place key b slots = some slots')
    (hfits : Fits key slots) : Fits key slots' := by
  obtain ⟨front, a, back, rfl, ha, rfl⟩ := place_spec h
  intro s hs c hc
  rcases mem_append.mp hs with hs | hs
  · exact hfits s (mem_append_left _ hs) c hc
  rcases mem_cons.mp hs with rfl | hs
  · obtain rfl := Option.some.inj hc
    exact ⟨ha.symm, hb⟩
  · exact hfits s (mem_append_right _ (mem_cons_of_mem _ hs)) c hc

/-- What holds once the items `bs` have been put: in the slots of each key and behind them, they
stand in their order. -/
structure Packed (key : σ → Option κ) (as bs : List σ) (st : List (Slot σ) × List σ) : Prop where
  originals : st.1.map Prod.fst = as
  fits : Fits key st.1
  added : ∀ b ∈ st.2, (key b).isSome = true
  packed : ∀ k, ∃ ys m, inSlots key k st.1 = ys.map some ++ replicate m none ∧
    ys ++ st.2.filter (fun b => key b = some k) = bs.filter (fun b => key b = some k) ∧
    (m = 0 ∨ st.2.filter (fun b => key b = some k) = [])

theorem packed_start (as : List σ) : Packed key as [] (as.map fun a => (a, none), []) := by
  refine ⟨?_, ?_, nofun, fun k => ⟨[], (as.filter fun a => key a = some k).length, ?_, rfl,
    .inr rfl⟩⟩
  · rw [map_map]
    exact map_id as
  · intro s hs b hb
    obtain ⟨a, -, rfl⟩ := mem_map.mp hs
    cases hb
  · unfold inSlots
    rw [filter_map, map_map, map_nil, nil_append]
    exact map_const'

variable {bs as : List σ} {st : List (Slot σ) × List σ}

theorem packed_put (h : Packed key as bs st) (hb : (key b).isSome) :
    Packed key as (bs ++ [b]) (put key st b) := by
  obtain ⟨k, hk⟩ := Option.isSome_iff_exists.mp hb
  obtain ⟨ys, m, hin, hys, hm⟩ := h.packed k
  unfold put
  rcases place_own hk hin with ⟨slots', m', hplace, rfl, hin'⟩ | ⟨hplace, rfl⟩
  · rw [hplace]
    refine ⟨(place_fst hplace).trans h.originals, place_fits hb hplace h.fits, h.added,
      fun k' => ?_⟩
    by_cases hkk : k' = k
    · subst hkk
      have hnone : st.2.filter (fun b => key b = some k') = [] := by
        rcases hm with hm | hm
        · cases hm
        · exact hm
      refine ⟨ys ++ [b], m', hin', ?_, .inr hnone⟩
      rw [filter_append, ← hys, hnone]
      simp [hk]
    · have hne : key b ≠ some k' := fun heq => hkk (Option.some.inj (heq.symm.trans hk))
      obtain ⟨ys', m'', hin'', hys', hm'⟩ := h.packed k'
      refine ⟨ys', m'', (place_other hplace hne).trans hin'', ?_, hm'⟩
      rw [filter_append, hys']
      simp [hne]
  · rw [hplace]
    refine ⟨h.originals, h.fits, ?_, fun k' => ?_⟩
    · intro c hc
      rcases mem_append.mp hc with hc | hc
      · exact h.added c hc
      · rw [mem_singleton.mp hc]
        exact hb
    · obtain ⟨ys', m', hin', hys', hm'⟩ := h.packed k'
      by_cases hkk : k' = k
      · subst hkk
        refine ⟨ys, 0, hin, ?_, .inl rfl⟩
        rw [filter_append, filter_append, ← append_assoc, hys]
      · have hne : key b ≠ some k' := fun heq => hkk (Option.some.inj (heq.symm.trans hk))
        refine ⟨ys', m', hin', ?_, ?_⟩
        · rw [filter_append, filter_append, ← append_assoc, hys']
        · rcases hm' with hm' | hm'
          · exact .inl hm'
          · refine .inr ?_
            rw [filter_append, hm']
            simp [hne]

theorem packed_foldl {done rest} (h : Packed key as done st)
    (hrest : ∀ b ∈ rest, (key b).isSome) :
    Packed key as (done ++ rest) (rest.foldl (put key) st) := by
  induction rest generalizing done st with
  | nil =>
    rw [append_nil]
    exact h
  | cons b rest ih =>
    rw [foldl_cons, append_cons]
    exact ih (packed_put h (hrest b mem_cons_self)) fun c hc =>
      hrest c (mem_cons_of_mem _ hc)

theorem packed_filled (as : List σ) (hbs : ∀ b ∈ bs, (key b).isSome) :
    Packed key as bs (filled key as bs) := by
  have h := packed_foldl (packed_start as) hbs
  exact h

omit [DecidableEq κ] in
theorem settled_unkeyed (hfits : Fits key slots) :
    (settled key slots).filter (fun a => key a = none) =
      (slots.map Prod.fst).filter (fun a => key a = none) := by
  induction slots with
  | nil => rfl
  | cons s rest ih =>
    obtain ⟨a, new⟩ := s
    obtain ⟨hown, hrest⟩ := forall_mem_cons.mp hfits
    unfold settled at ih ⊢
    cases new with
    | none => cases ha : key a <;> simp [Slot.survivor, ha, ih hrest]
    | some b =>
      obtain ⟨heq, hkey⟩ := hown b rfl
      have hb : key b ≠ none := Option.isSome_iff_ne_none.mp hkey
      have ha : key a ≠ none := heq ▸ hb
      simp [Slot.survivor, ha, hb, ih hrest]

theorem settled_keyed (hfits : Fits key slots) :
    (settled key slots).filter (fun a => key a = some k) = (inSlots key k slots).filterMap id := by
  induction slots with
  | nil => rfl
  | cons s rest ih =>
    obtain ⟨a, new⟩ := s
    obtain ⟨hown, hrest⟩ := forall_mem_cons.mp hfits
    have ih := ih hrest
    unfold settled inSlots at ih ⊢
    cases new with
    | none => cases ha : key a <;> by_cases hk : key a = some k <;> simp_all [Slot.survivor]
    | some b =>
      by_cases hk : key a = some k <;> simp_all [Slot.survivor]

theorem reconcile_unkeyed (as : List σ) (hbs : ∀ b ∈ bs, (key b).isSome) :
    (reconcile key as bs).filter (fun a => key a = none) = as.filter (fun a => key a = none) := by
  have h := packed_filled as hbs
  unfold reconcile
  have hadded := filter_eq_nil_iff.mpr fun b hb hnone =>
      Option.isSome_iff_ne_none.mp (h.added b hb) (of_decide_eq_true hnone)
  rw [filter_append, settled_unkeyed h.fits, h.originals, hadded, append_nil]

theorem reconcile_keyed (as : List σ) (hbs : ∀ b ∈ bs, (key b).isSome) (k : κ) :
    (reconcile key as bs).filter (fun a => key a = some k) =
      bs.filter (fun b => key b = some k) := by
  have h := packed_filled as hbs
  obtain ⟨ys, m, hin, hys, -⟩ := h.packed k
  unfold reconcile
  rw [filter_append, settled_keyed h.fits, hin, ← hys]
  simp

theorem length_inSlots :
    (inSlots key k slots).length =
      ((slots.map Prod.fst).filter fun a => key a = some k).length := by
  unfold inSlots
  rw [length_map, filter_map, length_map]
  rfl

theorem settled_map_key (hfits : Fits key slots) (hfull : ∀ k, none ∉ inSlots key k slots) :
    (settled key slots).map key = (slots.map Prod.fst).map key := by
  induction slots with
  | nil => rfl
  | cons s rest ih =>
    obtain ⟨a, new⟩ := s
    obtain ⟨hown, hrest⟩ := forall_mem_cons.mp hfits
    have hfull' : ∀ k, none ∉ inSlots key k rest := by
      intro k hk
      apply hfull k
      by_cases ha : key a = some k
      · rw [inSlots_cons_own new rest ha]
        exact mem_cons_of_mem _ hk
      · rw [inSlots_cons_other new rest ha]
        exact hk
    have ih := ih hrest hfull'
    unfold settled at ih ⊢
    cases new with
    | none =>
      cases ha : key a with
      | none => simp [Slot.survivor, ha, ih]
      | some k =>
        refine absurd ?_ (hfull k)
        rw [inSlots_cons_own none rest ha]
        exact mem_cons_self
    | some b => simp [Slot.survivor, ih, (hown b rfl).1]

theorem reconcile_map_key (hbs : ∀ b ∈ bs, (key b).isSome)
    (hcounts : ∀ k, (as.filter fun a => key a = some k).length =
      (bs.filter fun b => key b = some k).length) : (reconcile key as bs).map key = as.map key := by
  have h := packed_filled as hbs
  -- for each key there is neither a free slot nor an added item
  have hexact : ∀ k, none ∉ inSlots key k (filled key as bs).1 ∧
      (filled key as bs).2.filter (fun b => key b = some k) = [] := by
    intro k
    obtain ⟨ys, m, hin, hys, hm⟩ := h.packed k
    have hlen := congrArg length hin
    rw [length_inSlots, h.originals, hcounts, ← hys] at hlen
    simp only [length_append, length_map, length_replicate] at hlen
    have hzero : m = 0 := by
      rcases hm with hm | hm
      · exact hm
      · rw [hm, length_nil] at hlen
        omega
    subst hzero
    refine ⟨?_, eq_nil_of_length_eq_zero (by omega)⟩
    rw [hin]
    simp
  have hadded : (filled key as bs).2 = [] := by
    refine eq_nil_iff_forall_not_mem.mpr fun b hb => ?_
    obtain ⟨k, hk⟩ := Option.isSome_iff_exists.mp (h.added b hb)
    have hmem : b ∈ (filled key as bs).2.filter (fun b => key b = some k) :=
      mem_filter.mpr ⟨hb, decide_eq_true hk⟩
    rw [(hexact k).2] at hmem
    cases hmem
  unfold reconcile
  rw [hadded, append_nil, settled_map_key h.fits fun k => (hexact k).1, h.originals]

theorem eq_of_filters {xs ys : List σ} (hkeys : xs.map key = ys.map key)
    (h : ∀ k, xs.filter (fun a => key a = k) = ys.filter (fun a => key a = k)) : xs = ys := by
  induction xs generalizing ys with
  | nil => exact (map_eq_nil_iff.mp hkeys.symm).symm
  | cons x xs ih =>
    cases ys with
    | nil => cases hkeys
    | cons y ys =>
      obtain ⟨hxy, hrest⟩ := cons.inj hkeys
      have hhead := h (key x)
      rw [filter_cons_of_pos (by simp), filter_cons_of_pos (by simp [hxy])] at hhead
      obtain ⟨rfl, -⟩ := cons.inj hhead
      refine congrArg (x :: ·) (ih hrest fun k => ?_)
      have hk := h k
      by_cases hx : key x = k
      · rw [filter_cons_of_pos (by simp [hx]), filter_cons_of_pos (by simp [hx])] at hk
        exact (cons.inj hk).2
      · rw [filter_cons_of_neg (by simp [hx]), filter_cons_of_neg (by simp [hx])] at hk
        exact hk

/-- Reconciling again, from a list with the keys and the unkeyed items of the outcome, comes to the
same outcome. -/
theorem reconcile_again {again} (hbs : ∀ b ∈ bs, (key b).isSome)
    (hkeys : again.map key = (reconcile key as bs).map key) (hunkeyed : again.filter (fun a => key a
      = none) = (reconcile key as bs).filter (fun a => key a = none)) :
    reconcile key again bs = reconcile key as bs := by
  have hcounts : ∀ k, (again.filter fun a => key a = some k).length =
      (bs.filter fun b => key b = some k).length := by
    intro k
    rw [← reconcile_keyed as hbs k, ← countP_eq_length_filter, ← countP_eq_length_filter]
    have hmaps := congrArg (countP fun o => decide (o = some k)) hkeys
    rw [countP_map, countP_map] at hmaps
    exact hmaps
  refine eq_of_filters ((reconcile_map_key hbs hcounts).trans hkeys) fun k => ?_
  cases k with
  | none => rw [reconcile_unkeyed again hbs, hunkeyed]
  | some k => rw [reconcile_keyed again hbs, reconcile_keyed as hbs]

theorem place_eq :
    place key b slots = (slots.findIdx? fun s => key s.1 = key b ∧ s.2.isNone).map
      fun i => slots.modify i fun s => (s.1, some b) := by
  induction slots with
  | nil => rfl
  | cons s rest ih =>
    obtain ⟨a, new⟩ := s
    rw [place, findIdx?_cons]
    by_cases hfree : key a = key b ∧ new.isNone
    · rw [if_pos hfree, if_pos (decide_eq_true hfree)]
      rfl
    · rw [if_neg hfree, if_neg (mt of_decide_eq_true hfree), ih, Option.map_map, Option.map_map]
      rfl

/-- Where the item in a slot stands in the list that comes out. -/
def position (key : σ → Option κ) (slots : List (Slot σ)) (i : ℕ) : ℕ :=
  (settled key (slots.take i)).length

omit [DecidableEq κ] in
theorem settled_append :
    settled key (slots ++ slots') = settled key slots ++ settled key slots' :=
  filterMap_append

variable {i : ℕ} {s : Slot σ}

omit [DecidableEq κ] in
theorem settled_at (hs : slots[i]? = some s) {b} (hb : s.survivor key = some b) :
    (settled key slots)[position key slots i]? = some b ∧
      (settled key slots).take (position key slots i) = settled key (slots.take i) := by
  obtain ⟨hi, hget⟩ := List.getElem?_eq_some_iff.mp hs
  have hsplit : settled key slots =
      settled key (slots.take i) ++ b :: settled key (slots.drop (i + 1)) := by
    conv_lhs => rw [← take_append_drop i slots, settled_append, drop_eq_getElem_cons hi,
      hget]
    unfold settled
    rw [filterMap_cons_some hb]
  unfold position
  rw [hsplit]
  exact ⟨by simp, by simp⟩

omit [DecidableEq κ] in
theorem fits_take (hfits : Fits key slots) (i : ℕ) :
    Fits key (slots.take i) := fun s hs => hfits s (mem_of_mem_take hs)

theorem inSlots_append :
    inSlots key k (slots ++ slots') = inSlots key k slots ++ inSlots key k slots' := by
  unfold inSlots
  rw [filter_append, map_append]

theorem inSlots_at {new} (hs : slots[i]? = some (a, new)) (ha : key a = some k) :
    inSlots key k slots =
      inSlots key k (slots.take i) ++ new :: inSlots key k (slots.drop (i + 1)) := by
  obtain ⟨hi, hget⟩ := List.getElem?_eq_some_iff.mp hs
  conv_lhs => rw [← take_append_drop i slots, inSlots_append, drop_eq_getElem_cons hi,
    hget, inSlots_cons_own new _ ha]

theorem filled_before {α : Type} {ys : List α} {xs zs c}
    (h : ys.map some ++ replicate m none = xs ++ some c :: zs) :
    ∀ x ∈ xs, x.isSome := by
  induction xs generalizing ys with
  | nil => exact nofun
  | cons x xs ih =>
    cases ys with
    | nil =>
      have hmem : some c ∈ replicate m (none : Option α) := by
        rw [map_nil, nil_append] at h
        rw [h]
        simp
      cases eq_of_mem_replicate hmem
    | cons y ys =>
      obtain ⟨rfl, hrest⟩ := cons.inj h
      intro x hx
      rcases mem_cons.mp hx with rfl | hx
      · rfl
      · exact ih hrest x hx

theorem length_inSlots_take (h : slots.map Prod.fst = as) (k : κ) (i : ℕ) :
    (inSlots key k (slots.take i)).length = (as.take i).countP fun a => key a = some k := by
  rw [length_inSlots, map_take, h, countP_eq_length_filter]

variable (hbs : ∀ b ∈ bs, (key b).isSome = true)
include hbs

theorem rank_kept (hs : (filled key as bs).1[i]? = some s) (hb : s.survivor key = some b) :
    key b = key s.1 ∧
    ((settled key ((filled key as bs).1.take i)).countP fun a => key a = key s.1) =
      (as.take i).countP fun a => key a = key s.1 := by
  have h := packed_filled as hbs
  obtain ⟨a, new⟩ := s
  have hmem := mem_of_getElem? hs
  have htake := fits_take h.fits i
  have hkey : key b = key a := by
    cases new with
    | some c =>
      have hcb : c = b := by simpa [Slot.survivor] using hb
      exact hcb ▸ (h.fits _ hmem c rfl).1
    | none =>
      have hab : key a = none ∧ a = b := by simpa [Slot.survivor] using hb
      exact hab.2 ▸ rfl
  refine ⟨hkey, ?_⟩
  suffices hcount : ∀ k, key a = k →
      ((settled key ((filled key as bs).1.take i)).countP fun a => key a = k) =
        (as.take i).countP fun a => key a = k from hcount _ rfl
  intro k hk
  cases k with
  | none =>
    rw [countP_eq_length_filter, countP_eq_length_filter, settled_unkeyed htake,
      map_take, h.originals]
  | some k =>
    cases new with
    | none => simp [Slot.survivor, hk] at hb
    | some c =>
      obtain ⟨ys, m, hin, -, -⟩ := h.packed k
      have hall := filled_before (hin.symm.trans (inSlots_at hs hk))
      rw [countP_eq_length_filter, settled_keyed htake, ← length_inSlots_take h.originals k i,
        length_filterMap_eq_countP]
      exact countP_eq_length.mpr hall

theorem filled_mem (hs : s ∈ (filled key as bs).1) (hb : s.2 = some b) : b ∈ bs := by
  have h := packed_filled as hbs
  obtain ⟨hkey, hsome⟩ := h.fits s hs b hb
  obtain ⟨k, hk⟩ := Option.isSome_iff_exists.mp hsome
  obtain ⟨ys, m, hin, hys, -⟩ := h.packed k
  have hmem : some b ∈ inSlots key k (filled key as bs).1 :=
    mem_map.mpr ⟨s, mem_filter.mpr ⟨hs, decide_eq_true (hkey.symm.trans hk)⟩, hb⟩
  rw [hin] at hmem
  rcases mem_append.mp hmem with hmem | hmem
  · obtain ⟨y, hy, hyb⟩ := mem_map.mp hmem
    have hmem' := hys ▸ mem_append_left _ hy
    exact Option.some.inj hyb ▸ (mem_filter.mp hmem').1
  · cases eq_of_mem_replicate hmem

end KeyedSlots
