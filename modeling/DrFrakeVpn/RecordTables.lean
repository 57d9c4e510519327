import Mathlib

/-! # Tables of records with a primary key and a unique index

Rows stand in primary-key order below a sequence counter that no insert reuses, and no two share
the indexed key. -/
namespace RecordTables

open List

class Record (α : Type) where
  Key : Type
  decKey : DecidableEq Key
  id : α → ℕ
  key : α → Key

instance {α : Type} [Record α] : DecidableEq (Record.Key α) := Record.decKey

variable {α : Type} [Record α]

def Valid (rows : List α) (seq : ℕ) : Prop :=
  rows.Pairwise (fun a b => Record.id a < Record.id b) ∧
    (∀ a ∈ rows, Record.id a < seq) ∧ (rows.map Record.key).Nodup

instance (rows : List α) (seq : ℕ) : Decidable (Valid rows seq) :=
  inferInstanceAs (Decidable (_ ∧ _ ∧ _))

structure Table (α : Type) [Record α] where
  rows : List α
  seq : ℕ
  valid : Valid rows seq

namespace Table

def empty : Table α := ⟨[], 1, by simp [Valid]⟩

variable (t : Table α)

/-- The first row in primary-key order that satisfies the condition. -/
def first? (q : α → Bool) : Option α := t.rows.find? q

def byId (i : ℕ) : Option α := t.first? fun a => Record.id a = i

def select (q : α → Bool) : List α := t.rows.filter q

def count (q : α → Bool) : ℕ := t.rows.countP q

/-- Rows are written back only if the constraints still hold. -/
def store (rows : List α) (seq : ℕ) : Option (Table α) :=
  if h : Valid rows seq then some ⟨rows, seq, h⟩ else none

def insert (mk : ℕ → α) : Option (Table α) := store (t.rows ++ [mk t.seq]) (t.seq + 1)

/-- A whole row written over the stored one with the same primary key. -/
def replace (a : α) : Option (Table α) :=
  store (t.rows.map fun b => if Record.id b = Record.id a then a else b) t.seq

/-- Column writes that leave the primary key and the indexed key alone. -/
structure Write (α : Type) [Record α] where
  apply : α → α
  id_eq : ∀ a, Record.id (apply a) = Record.id a
  key_eq : ∀ a, Record.key (apply a) = Record.key a

variable {rows : List α}

theorem valid_map {seq} (h : Valid rows seq) {f} (hid : ∀ a ∈ rows, Record.id (f a) = Record.id a)
    (hkey : ∀ a ∈ rows, Record.key (f a) = Record.key a) : Valid (rows.map f) seq := by
  obtain ⟨hs, hb, hu⟩ := h
  refine ⟨?_, ?_, ?_⟩
  · refine pairwise_map.mpr (hs.imp_of_mem ?_)
    intro a b ha hb hab
    rwa [hid a ha, hid b hb]
  · intro a ha
    obtain ⟨b, hb', rfl⟩ := mem_map.mp ha
    rw [hid b hb']
    exact hb b hb'
  · have hk : rows.map (Record.key ∘ f) = rows.map Record.key := map_congr_left hkey
    rwa [map_map, hk]

def update (q : α → Bool) (f : Write α) : Table α where
  rows := t.rows.map fun a => if q a then f.apply a else a
  seq := t.seq
  valid := by
    refine valid_map t.valid ?_ ?_
    · intro a _
      split
      · exact f.id_eq a
      · rfl
    · intro a _
      split
      · exact f.key_eq a
      · rfl

def updateId (i : ℕ) (f : Write α) : Table α := t.update (fun a => Record.id a = i) f

def delete (q : α → Bool) : Table α where
  rows := t.rows.filter fun a => !q a
  seq := t.seq
  valid := by
    obtain ⟨hs, hb, hu⟩ := t.valid
    refine ⟨hs.filter _, fun a ha => hb a (mem_of_mem_filter ha), ?_⟩
    exact hu.sublist (filter_sublist.map _)

variable {u : Table α}

theorem ext_rows {t} (hr : t.rows = u.rows) (hs : t.seq = u.seq) : t = u := by
  cases t; cases u; cases hr; cases hs; rfl

instance [DecidableEq α] : DecidableEq (Table α) := fun t u =>
  decidable_of_iff (t.rows = u.rows ∧ t.seq = u.seq)
    ⟨fun h => ext_rows h.1 h.2, fun h => by subst h; exact ⟨rfl, rfl⟩⟩

variable {a : α} {b : α}

theorem id_injective (ha : a ∈ t.rows) (hb : b ∈ t.rows) (h : Record.id a = Record.id b) :
    a = b := by
  have hn : (t.rows.map Record.id).Nodup :=
    pairwise_map.mpr (t.valid.1.imp fun h => Nat.ne_of_lt h)
  exact inj_on_of_nodup_map hn ha hb h

theorem key_injective (ha : a ∈ t.rows) (hb : b ∈ t.rows) (h : Record.key a = Record.key b) :
    a = b :=
  inj_on_of_nodup_map t.valid.2.2 ha hb h

variable {q : α → Bool}

theorem first_some (h : t.first? q = some a) : a ∈ t.rows ∧ q a :=
  ⟨mem_of_find?_eq_some h, find?_some h⟩

theorem first_none (h : t.first? q = none) : ∀ a ∈ t.rows, q a = false := by
  intro a ha
  simpa using find?_eq_none.mp h a ha

variable {i : ℕ}

theorem byId_some_iff : t.byId i = some a ↔ a ∈ t.rows ∧ Record.id a = i := by
  constructor
  · intro h
    obtain ⟨hm, hq⟩ := t.first_some h
    exact ⟨hm, by simpa using hq⟩
  · rintro ⟨hm, hi⟩
    cases hf : t.byId i with
    | none => simpa [hi] using t.first_none hf a hm
    | some b =>
      obtain ⟨hb, hq⟩ := t.first_some hf
      have hbi : Record.id b = i := by simpa using hq
      rw [t.id_injective hb hm (hbi.trans hi.symm)]

theorem byId_none_iff : t.byId i = none ↔ ∀ a ∈ t.rows, Record.id a ≠ i := by
  simp [byId, first?]

theorem byId_seq : t.byId t.seq = none :=
  t.byId_none_iff.mpr fun a ha => Nat.ne_of_lt (t.valid.2.1 a ha)

@[simp] theorem update_rows :
    (t.update q f).rows = t.rows.map fun a => if q a then f.apply a else a := rfl

variable {f : Write α}

theorem update_eq_self (h : ∀ a ∈ t.rows, q a = false) : t.update q f = t := by
  refine ext_rows ?_ rfl
  have hsame : ∀ a ∈ t.rows, (if q a then f.apply a else a) = id a := by
    intro a ha
    simp [h a ha]
  exact (map_congr_left hsame).trans (map_id t.rows)

theorem first_update {r} (hr : ∀ a, r (if q a then f.apply a else a) = r a) :
    (t.update q f).first? r = (t.first? r).map fun a => if q a then f.apply a else a := by
  simp [first?, hr]

theorem byId_update :
    (t.update q f).byId i = (t.byId i).map fun a => if q a then f.apply a else a := by
  refine t.first_update ?_
  intro a
  split
  · rw [f.id_eq a]
  · rfl

theorem byId_updateId (i j : ℕ) (f : Write α) :
    (t.updateId i f).byId j = if j = i then (t.byId j).map f.apply else t.byId j := by
  rw [updateId, byId_update]
  cases h : t.byId j with
  | none => simp
  | some a =>
    have hj := (t.byId_some_iff.mp h).2
    by_cases hji : j = i <;> simp [hj, hji]

theorem updateId_eq_iff (ha : a ∈ t.rows) (f : Write α) :
    t.updateId (Record.id a) f = t ↔ f.apply a = a := by
  constructor
  · intro he
    have hrow := t.byId_updateId (Record.id a) (Record.id a) f
    have hold : t.byId (Record.id a) = some a := t.byId_some_iff.mpr ⟨ha, rfl⟩
    rw [he, if_pos rfl, hold] at hrow
    exact (Option.some.inj hrow).symm
  · intro he
    have hrows : ∀ b ∈ t.rows, (if decide (Record.id b = Record.id a) then f.apply b else b) =
        id b := by
      intro b hb
      split
      · next hid =>
        rw [t.id_injective hb ha (of_decide_eq_true hid)]
        exact he
      · rfl
    refine ext_rows ?_ rfl
    exact (map_congr_left hrows).trans (map_id t.rows)

theorem mem_update :
    a ∈ (t.update q f).rows ↔ ∃ b ∈ t.rows, (if q b then f.apply b else b) = a := by
  simp

theorem valid_append {seq} (h : Valid rows seq) (hid : Record.id a = seq)
    (hkey : ∀ b ∈ rows, Record.key b ≠ Record.key a) : Valid (rows ++ [a]) (seq + 1) := by
  obtain ⟨hs, hb, hu⟩ := h
  refine ⟨?_, ?_, ?_⟩
  · refine pairwise_append.mpr ⟨hs, pairwise_singleton _ _, ?_⟩
    intro x hx y hy
    rw [mem_singleton.mp hy, hid]
    exact hb x hx
  · intro x hx
    rcases mem_append.mp hx with hx | hx
    · exact Nat.lt_succ_of_lt (hb x hx)
    · rw [mem_singleton.mp hx, hid]
      exact Nat.lt_succ_self _
  · rw [map_append, nodup_append]
    refine ⟨hu, by simp, ?_⟩
    intro x hx y hy
    obtain ⟨b, hb', rfl⟩ := mem_map.mp hx
    simp only [map_cons, map_nil, mem_singleton] at hy
    subst y
    exact hkey b hb'

variable {mk : ℕ → α}

theorem insert_some (h : t.insert mk = some u) :
    u.rows = t.rows ++ [mk t.seq] ∧ u.seq = t.seq + 1 ∧
      ∀ b ∈ t.rows, Record.key b ≠ Record.key (mk t.seq) := by
  unfold insert store at h
  split at h
  · next hv =>
    cases h
    refine ⟨rfl, rfl, ?_⟩
    have hu := hv.2.2
    rw [map_append, nodup_append] at hu
    intro b hb
    exact hu.2.2 _ (mem_map_of_mem hb) _ (by simp)
  · cases h

theorem insert_isSome (hid : Record.id (mk t.seq) = t.seq)
    (hkey : ∀ b ∈ t.rows, Record.key b ≠ Record.key (mk t.seq)) : ∃ u, t.insert mk = some u :=
  ⟨⟨_, _, valid_append t.valid hid hkey⟩, dif_pos (valid_append t.valid hid hkey)⟩

theorem insert_none (ha : a ∈ t.rows) (hk : Record.key a = Record.key (mk t.seq)) :
    t.insert mk = none := by
  cases ht : t.insert mk with
  | none => rfl
  | some u =>
    have hnodup := u.valid.2.2
    rw [(t.insert_some ht).1, map_append, nodup_append] at hnodup
    exact absurd hk (hnodup.2.2 _ (mem_map_of_mem ha) _ (by simp))

theorem byId_insert (h : t.insert mk = some u) (hid : Record.id (mk t.seq) = t.seq) (i : ℕ) :
    u.byId i = if i = t.seq then some (mk t.seq) else t.byId i := by
  obtain ⟨hr, _, _⟩ := t.insert_some h
  unfold byId first?
  rw [hr, find?_append]
  by_cases hi : i = t.seq
  · subst i
    have hn := t.byId_seq
    unfold byId first? at hn
    simp [hn, hid]
  · have hne : ¬ Record.id (mk t.seq) = i := fun h => hi (h.symm.trans hid)
    simp [hne, hi]

theorem replace_some (h : t.replace a = some u) :
    u.rows = t.rows.map (fun b => if Record.id b = Record.id a then a else b) ∧ u.seq = t.seq := by
  unfold replace store at h
  split at h
  · cases h
    exact ⟨rfl, rfl⟩
  · cases h

theorem replace_isSome (hb : t.byId (Record.id a) = some b) (hkey : Record.key b = Record.key a) :
    ∃ u, t.replace a = some u := by
  have hm := (t.byId_some_iff.mp hb)
  have hv : Valid (t.rows.map fun c => if Record.id c = Record.id a then a else c) t.seq := by
    refine valid_map t.valid ?_ ?_
    · intro c _
      split
      · next h => exact h.symm
      · rfl
    · intro c hc
      split
      · next h =>
        rw [t.id_injective hc hm.1 (h.trans hm.2.symm)]
        exact hkey.symm
      · rfl
  exact ⟨⟨_, _, hv⟩, dif_pos hv⟩

theorem byId_replace (h : t.replace a = some u) (i : ℕ) :
    u.byId i = if i = Record.id a then (t.byId i).map (fun _ => a) else t.byId i := by
  have hid : ∀ b : α, Record.id (if Record.id b = Record.id a then a else b) = Record.id b := by
    intro b
    split
    · next h => exact h.symm
    · rfl
  have hr := (t.replace_some h).1
  unfold byId first?
  rw [hr, find?_map]
  simp only [Function.comp_def, hid]
  cases hf : t.rows.find? (fun b => decide (Record.id b = i)) with
  | none => simp
  | some b =>
    have hb : Record.id b = i := by simpa using find?_some hf
    by_cases hi : i = Record.id a <;> simp [hb, hi]

theorem count_map_id (ha : t.byId i = some a) (g : α → α) (q : α → Bool) :
    (t.rows.map fun b => if Record.id b = i then g b else b).countP q + (if q a then 1 else 0) =
      t.count q + (if q (g a) then 1 else 0) := by
  obtain ⟨hm, hi⟩ := t.byId_some_iff.mp ha
  have hid : ∀ b ∈ t.rows, Record.id b = i → b = a := fun b hb h =>
    t.id_injective hb hm (h.trans hi.symm)
  have hnd : t.rows.Nodup := t.valid.1.imp fun h e => by subst e; exact Nat.lt_irrefl _ h
  unfold count
  revert hm hid hnd
  induction t.rows with
  | nil => intro hm; cases hm
  | cons b rows ih =>
    intro hm hid hnd
    obtain ⟨hb, hnd'⟩ := nodup_cons.mp hnd
    by_cases hba : b = a
    · subst hba
      have htail : (rows.map fun c => if Record.id c = i then g c else c) = rows := by
        conv_rhs => rw [← map_id rows]
        refine map_congr_left ?_
        intro c hc
        have hci : ¬ Record.id c = i := fun h =>
          hb (hid c (mem_cons_of_mem _ hc) h ▸ hc)
        simp [hci]
      simp only [map_cons, htail, countP_cons, hi, if_true]
      omega
    · have hm' : a ∈ rows := (mem_cons.mp hm).resolve_left (fun h => hba h.symm)
      have hbi : ¬ Record.id b = i := fun h => hba (hid b mem_cons_self h)
      have := ih hm' (fun c hc => hid c (mem_cons_of_mem _ hc)) hnd'
      simp only [map_cons, hbi, if_false, countP_cons]
      omega

theorem mem_delete : a ∈ (t.delete q).rows ↔ a ∈ t.rows ∧ q a = false := by
  simp [delete]

theorem count_le_count_except (q : α → Bool) (i : ℕ) :
    t.count q ≤ t.count (fun a => q a && decide (Record.id a ≠ i)) + 1 := by
  unfold count
  obtain ⟨hids, _⟩ := t.valid
  generalize t.rows = rows at hids
  induction rows with
  | nil => simp
  | cons a rows ih =>
    obtain ⟨ha, hrows⟩ := pairwise_cons.mp hids
    by_cases hi : Record.id a = i
    · have hrest : rows.countP (fun b => q b && decide (Record.id b ≠ i)) = rows.countP q := by
        apply countP_congr
        intro b hb
        have hne : Record.id b ≠ i := by
          have := ha b hb
          omega
        simp [hne]
      rw [countP_cons, countP_cons, hrest]
      split <;> omega
    · have hhead : (q a && decide (Record.id a ≠ i)) = q a := by simp [hi]
      have htail := ih hrows
      rw [countP_cons, countP_cons, hhead]
      omega

theorem count_insert (h : t.insert mk = some u) (q : α → Bool) :
    u.count q = t.count q + (if q (mk t.seq) then 1 else 0) := by
  obtain ⟨hr, _, _⟩ := t.insert_some h
  simp [count, hr, countP_append]

theorem count_updateId (ha : t.byId i = some a) (f : Write α) (q : α → Bool) :
    (t.updateId i f).count q + (if q a then 1 else 0) =
      t.count q + (if q (f.apply a) then 1 else 0) := by
  have hmap := t.count_map_id ha f.apply q
  rw [count, updateId, update_rows]
  simpa only [decide_eq_true_eq] using hmap

theorem count_update_le {c} (h : ∀ a, q (f.apply a) → q a) :
    (t.update c f).count q ≤ t.count q := by
  rw [count, count, update_rows, countP_map]
  refine countP_mono_left ?_
  intro a _ ha
  by_cases hc : c a
  · exact h a (by simpa [hc] using ha)
  · simpa [hc] using ha

section alike

variable {f : Write α} {t u : Table α}

/-- The rows agree once `f` has blotted out some columns. -/
def Alike (f : Write α) (t u : Table α) : Prop :=
  t.rows.map f.apply = u.rows.map f.apply ∧ t.seq = u.seq

variable {rows' : List α}

theorem valid_alike {seq} (h : rows.map f.apply = rows'.map f.apply) :
    Valid rows seq ↔ Valid rows' seq := by
  have hblot : ∀ rows : List α, Valid (rows.map f.apply) seq ↔ Valid rows seq := by
    intro rows
    simp [Valid, pairwise_map, f.id_eq, f.key_eq, Function.comp_def]
  rw [← hblot rows, h, hblot rows']

theorem map_alike {g g'} (hg : ∀ a b, f.apply a = f.apply b → f.apply (g a) = f.apply (g' b))
    (h : rows.map f.apply = rows'.map f.apply) :
    (rows.map g).map f.apply = (rows'.map g').map f.apply := by
  induction rows generalizing rows' with
  | nil =>
    cases rows' with
    | nil => rfl
    | cons b rows' => cases h
  | cons a rows ih =>
    cases rows' with
    | nil => cases h
    | cons b rows' =>
      simp only [map_cons, cons.injEq] at h ⊢
      exact ⟨hg a b h.1, ih h.2⟩

theorem alike_store (h : rows.map f.apply = rows'.map f.apply) (seq : ℕ) :
    Option.Rel (Alike f) (store rows seq) (store rows' seq) := by
  unfold store
  by_cases hv : Valid rows seq
  · rw [dif_pos hv, dif_pos ((valid_alike h).mp hv)]
    exact .some ⟨h, rfl⟩
  · rw [dif_neg hv, dif_neg fun hv' => hv ((valid_alike h).mpr hv')]
    exact .none

theorem Alike.insert (h : Alike f t u) {mk'} (hmk : ∀ i, f.apply (mk i) = f.apply (mk' i)) :
    Option.Rel (Alike f) (t.insert mk) (u.insert mk') := by
  unfold Table.insert
  rw [← h.2]
  refine alike_store ?_ _
  simp [h.1, hmk]

theorem id_of_apply (hab : f.apply a = f.apply b) : Record.id a = Record.id b := by
  rw [← f.id_eq a, hab, f.id_eq b]

theorem Alike.replace (h : Alike f t u) (hab : f.apply a = f.apply b) :
    Option.Rel (Alike f) (t.replace a) (u.replace b) := by
  unfold Table.replace
  rw [← h.2]
  refine alike_store (map_alike ?_ h.1) _
  intro c d hcd
  rw [id_of_apply hab, id_of_apply hcd]
  split
  · exact hab
  · exact hcd

theorem Alike.updateId (h : Alike f t u) {w w'}
    (hw : ∀ a b, f.apply a = f.apply b → f.apply (w.apply a) = f.apply (w'.apply b)) (i : ℕ) :
    Alike f (t.updateId i w) (u.updateId i w') := by
  refine ⟨map_alike ?_ h.1, h.2⟩
  intro a b hab
  simp only [id_of_apply hab]
  split
  · exact hw a b hab
  · exact hab

theorem Alike.byId (h : Alike f t u) (i : ℕ) :
    (t.byId i).map f.apply = (u.byId i).map f.apply := by
  have hblot : ∀ v : Table α, (v.byId i).map f.apply =
      (v.rows.map f.apply).find? fun a => Record.id a = i := by
    intro v
    simp [Table.byId, first?, f.id_eq]
  rw [hblot, hblot, h.1]

end alike

end Table

end RecordTables
