import Mathlib

/-! # A config as a series of QR codes

Each code carries the number of chunks and the position of its own one in a byte each. -/
namespace QrSeries

open List

abbrev Bytes := List UInt8

structure QrChunk where
  count : UInt8
  id : UInt8
  data : Bytes

/-- What is read from a code, with the magic number or without it. -/
inductive QrContent where
  | chunk (c : QrChunk)
  | other (ba : Bytes)

/-- The codes can be read back. What a number that does not fit into a `quint8` is converted to
is left open. -/
structure QrPlatform (Code : Type) where
  encode : QrChunk → Code
  decode : Code → QrContent
  decode_encode : ∀ c, decode (encode c) = .chunk c
  quint8 : ℕ → UInt8
  quint8_toNat : ∀ n < 256, (quint8 n).toNat = n

variable {Code : Type} (P : QrPlatform Code) (extractConfigFromQr : Bytes → Bool) (data : Bytes)

def chunksCount : ℕ := (data.length + 849) / 850

def piece (i : ℕ) : Bytes := (data.drop i).take 850

/-- The loop goes through the multiples of 850, so that the quotient is not rounded. -/
def chunkAt (i : ℕ) : QrChunk := ⟨P.quint8 (chunksCount data), P.quint8 (i / 850), piece data i⟩

def generateQrCodeImageSeries : List Code :=
  (range' 0 (chunksCount data) 850).map fun i => P.encode (chunkAt P data i)

/-- `calls` are the calls of `extractConfigFromQr`. -/
structure Scan where
  isQrCodeProcessed : Bool
  totalQrCodeChunksCount : ℕ
  receivedQrCodeChunksCount : ℕ
  qrCodeChunks : ℕ → Option Bytes
  calls : List Bytes

def Scan.fresh : Scan := ⟨true, 0, 0, fun _ => none, []⟩

def size (chunks : ℕ → Option Bytes) : ℕ :=
  ((Finset.range 256).filter fun i => (chunks i).isSome).card

def Scan.insert (s : Scan) (c : QrChunk) : ℕ → Option Bytes :=
  Function.update (if s.totalQrCodeChunksCount ≠ c.count.toNat then fun _ => none
    else s.qrCodeChunks) c.id.toNat (some c.data)

def assembled (total : ℕ) (chunks : ℕ → Option Bytes) : Bytes :=
  (range total).flatMap fun i => (chunks i).getD []

def parseQrCodeChunk (s : Scan) (code : Code) : Bool × Scan :=
  if !s.isQrCodeProcessed then (false, s)
  else
    match P.decode code with
    | .chunk c =>
      let chunks := s.insert c
      let total := c.count.toNat
      if size chunks = total then
        let data := assembled total chunks
        if extractConfigFromQr data then
          (true, ⟨false, total, size chunks, chunks, s.calls ++ [data]⟩)
        else (false, ⟨true, 0, 0, fun _ => none, s.calls ++ [data]⟩)
      else (false, ⟨true, total, size chunks, chunks, s.calls⟩)
    | .other ba =>
      if extractConfigFromQr ba then
        (true, { s with isQrCodeProcessed := false, calls := s.calls ++ [ba] })
      else (false, { s with calls := s.calls ++ [ba] })

def scan (codes : List Code) : Scan :=
  codes.foldl (fun s code => (parseQrCodeChunk P extractConfigFromQr s code).2) .fresh

theorem mem_series : code ∈ generateQrCodeImageSeries P data ↔
    ∃ j < chunksCount data, code = P.encode (chunkAt P data (850 * j)) := by
  simp only [generateQrCodeImageSeries, mem_map, mem_range', Nat.zero_add]
  constructor
  · rintro ⟨_, ⟨j, hj, rfl⟩, rfl⟩
    exact ⟨j, hj, rfl⟩
  · rintro ⟨j, hj, rfl⟩
    exact ⟨_, ⟨j, hj, rfl⟩, rfl⟩

theorem flatMap_piece :
    ((range n).flatMap fun j => piece data (850 * j)) = data.take (850 * n) := by
  induction n with
  | zero => rfl
  | succ n ih =>
    rw [range_succ, flatMap_append, ih, flatMap_singleton, Nat.mul_succ,
      take_add]
    rfl

variable {P extractConfigFromQr data}

inductive Takes (c : QrChunk) (s : Scan) : Scan → Prop where
  | keep (h : size (s.insert c) ≠ c.count.toNat) :
      Takes c s ⟨true, c.count.toNat, size (s.insert c), s.insert c, s.calls⟩
  | complete {s' : Scan} (h : size (s.insert c) = c.count.toNat)
      (hcalls : s'.calls = s.calls ++ [assembled c.count.toNat (s.insert c)])
      (hcleared : s'.isQrCodeProcessed = true → s'.qrCodeChunks = fun _ => none) : Takes c s s'

variable {s : Scan}

theorem parse_takes (hs : s.isQrCodeProcessed) (c : QrChunk) :
    Takes c s (parseQrCodeChunk P extractConfigFromQr s (P.encode c)).2 := by
  simp only [parseQrCodeChunk, hs, P.decode_encode]
  by_cases hsize : size (s.insert c) = c.count.toNat
  · rw [if_pos hsize]
    cases extractConfigFromQr (assembled c.count.toNat (s.insert c))
    · exact .complete hsize rfl fun _ => rfl
    · exact .complete hsize rfl fun h => by cases h
  · rw [if_neg hsize]
    exact .keep hsize

theorem parse_done (hs : s.isQrCodeProcessed = false) (code : Code) :
    (parseQrCodeChunk P extractConfigFromQr s code).2 = s := by
  simp [parseQrCodeChunk, hs, Bool.not_false]

variable {codes : List Code}

/-- What holds of the fresh scanner and is kept by each code of the series holds after any of
them in any order. -/
theorem scan_induction {J : List Code → Scan → Prop} (hfresh : J [] .fresh)
    (hstep : ∀ codes s j, J codes s → j < chunksCount data →
      J (codes ++ [P.encode (chunkAt P data (850 * j))])
        (parseQrCodeChunk P extractConfigFromQr s (P.encode (chunkAt P data (850 * j)))).2)
    (hcodes : ∀ code ∈ codes, code ∈ generateQrCodeImageSeries P data) :
    J codes (scan P extractConfigFromQr codes) := by
  induction codes using reverseRecOn with
  | nil => exact hfresh
  | append_singleton codes code ih =>
    obtain ⟨j, hj, rfl⟩ := (mem_series P data).mp (hcodes code (by simp))
    unfold scan
    rw [foldl_append]
    exact hstep codes _ j (ih fun c hc => hcodes c (by simp [hc])) hj

/-- The chunks are some of those of the series. -/
def Partial (data : Bytes) (chunks : ℕ → Option Bytes) : Prop :=
  ∀ i b, chunks i = some b → i < chunksCount data ∧ b = piece data (850 * i)

variable {chunks : ℕ → Option Bytes}

theorem Partial.subset (h : Partial data chunks) :
    ((Finset.range 256).filter fun i => (chunks i).isSome) ⊆ Finset.range (chunksCount data) := by
  intro i hi
  obtain ⟨b, hb⟩ := Option.isSome_iff_exists.mp (Finset.mem_filter.mp hi).2
  exact Finset.mem_range.mpr (h i b hb).1

theorem Partial.size_le (h : Partial data chunks) : size chunks ≤ chunksCount data := by
  have hcard := Finset.card_le_card h.subset
  rwa [Finset.card_range] at hcard

theorem Partial.assembled_eq (h : Partial data chunks) (hsize : size chunks = chunksCount data) :
    assembled (chunksCount data) chunks = data := by
  have hall := Finset.eq_of_subset_of_card_le h.subset (by rw [Finset.card_range]; exact hsize.ge)
  have hpieces : ∀ i ∈ range (chunksCount data), (chunks i).getD [] = piece data (850 * i) := by
    intro i hi
    have hmem := (Finset.ext_iff.mp hall i).mpr (Finset.mem_range.mpr (mem_range.mp hi))
    obtain ⟨b, hb⟩ := Option.isSome_iff_exists.mp (Finset.mem_filter.mp hmem).2
    rw [hb, (h i b hb).2, Option.getD_some]
  have hlength : data.length ≤ 850 * chunksCount data := by
    unfold chunksCount
    omega
  rw [assembled, flatMap_congr hpieces, flatMap_piece, take_of_length_le hlength]

structure Scanning (data : Bytes) (s : Scan) : Prop where
  chunks : Partial data s.qrCodeChunks
  size_lt : size s.qrCodeChunks < chunksCount data
  total : s.totalQrCodeChunksCount = chunksCount data ∨ s.qrCodeChunks = fun _ => none

structure Follows (P : QrPlatform Code) (data : Bytes) (codes : List Code) (s : Scan) : Prop where
  calls : ∀ b ∈ s.calls, b = data
  scanning : s.isQrCodeProcessed = true → Scanning data s
  kept : s.calls = [] → s.isQrCodeProcessed = true ∧ ∀ code ∈ codes, ∃ j < chunksCount data,
    code = P.encode (chunkAt P data (850 * j)) ∧ (s.qrCodeChunks j).isSome = true

theorem scanning_none (hne : data ≠ []) (h : s.qrCodeChunks = fun _ => none) : Scanning data s := by
  refine ⟨?_, ?_, .inr h⟩
  · intro i b hb
    rw [h] at hb
    cases hb
  · have hlength := length_pos_iff.mpr hne
    simp only [h, size, Option.isSome_none, Bool.false_eq_true, Finset.filter_false,
      Finset.card_empty, chunksCount]
    omega

section fitting

variable (hfits : chunksCount data < 256) {s : Scan} {j : ℕ}
include hfits

theorem chunkAt_count (i : ℕ) : (chunkAt P data i).count.toNat = chunksCount data :=
  P.quint8_toNat _ hfits

theorem chunkAt_id (hj : j < chunksCount data) : (chunkAt P data (850 * j)).id.toNat = j := by
  change (P.quint8 (850 * j / 850)).toNat = j
  rw [Nat.mul_div_cancel_left j (by decide)]
  exact P.quint8_toNat j (hj.trans hfits)

theorem insert_eq (hs : Scanning data s) (hj : j < chunksCount data) :
    s.insert (chunkAt P data (850 * j)) =
      Function.update s.qrCodeChunks j (some (piece data (850 * j))) := by
  unfold Scan.insert
  rw [chunkAt_count hfits, chunkAt_id hfits hj]
  rcases hs.total with htotal | hnone
  · rw [if_neg (not_not.mpr htotal)]
    rfl
  · rw [hnone, ite_self]
    rfl

theorem partial_insert (hs : Scanning data s) (hj : j < chunksCount data) :
    Partial data (s.insert (chunkAt P data (850 * j))) := by
  rw [insert_eq hfits hs hj]
  intro i b hb
  by_cases hij : i = j
  · subst i
    rw [Function.update_self] at hb
    exact ⟨hj, (Option.some.inj hb).symm⟩
  · rw [Function.update_of_ne hij] at hb
    exact hs.chunks i b hb

variable {codes : List Code}

theorem follows_step (hne : data ≠ []) (h : Follows P data codes s) (hj : j < chunksCount data) :
    Follows P data (codes ++ [P.encode (chunkAt P data (850 * j))])
      (parseQrCodeChunk P extractConfigFromQr s (P.encode (chunkAt P data (850 * j)))).2 := by
  cases hp : s.isQrCodeProcessed with
  | false =>
    rw [parse_done hp]
    refine ⟨h.calls, h.scanning, ?_⟩
    intro hnil
    cases hp.symm.trans (h.kept hnil).1
  | true =>
    have hs := h.scanning hp
    have hsome := partial_insert (P := P) hfits hs hj
    have htakes : Takes _ s (parseQrCodeChunk P extractConfigFromQr s _).2 :=
      parse_takes hp (chunkAt P data (850 * j))
    generalize (parseQrCodeChunk P extractConfigFromQr s _).2 = s' at htakes ⊢
    cases htakes with
    | keep hsize =>
      rw [chunkAt_count hfits] at hsize ⊢
      refine ⟨h.calls, fun _ => ⟨hsome, hsome.size_le.lt_of_ne hsize, .inl rfl⟩, ?_⟩
      intro hnil
      refine ⟨rfl, ?_⟩
      intro code hcode
      dsimp only
      rw [insert_eq hfits hs hj]
      rcases mem_append.mp hcode with hold | hnew
      · obtain ⟨i, hi, rfl, hsome⟩ := (h.kept hnil).2 code hold
        refine ⟨i, hi, rfl, ?_⟩
        by_cases hij : i = j
        · rw [hij, Function.update_self]
          rfl
        · rwa [Function.update_of_ne hij]
      · refine ⟨j, hj, mem_singleton.mp hnew, ?_⟩
        rw [Function.update_self]
        rfl
    | complete hsize hcalls hcleared =>
      rw [chunkAt_count hfits] at hsize hcalls
      rw [hsome.assembled_eq hsize] at hcalls
      refine ⟨?_, fun hon => scanning_none hne (hcleared hon), ?_⟩
      · intro b hb
        rw [hcalls] at hb
        rcases mem_append.mp hb with hold | hnew
        · exact h.calls b hold
        · exact mem_singleton.mp hnew
      · intro hnil
        rw [hcalls] at hnil
        cases append_ne_nil_of_right_ne_nil _ (cons_ne_nil _ _) hnil

theorem series_follows (hne : data ≠ [])
    (hcodes : ∀ code ∈ codes, code ∈ generateQrCodeImageSeries P data) :
    Follows P data codes (scan P extractConfigFromQr codes) := by
  refine scan_induction ⟨?_, ?_, ?_⟩ (fun codes s j h hj => follows_step hfits hne h hj) hcodes
  · exact fun _ hb => (not_mem_nil hb).elim
  · exact fun _ => scanning_none hne rfl
  · exact fun _ => ⟨rfl, fun _ hc => (not_mem_nil hc).elim⟩

/-- Once every code was there, the config has been handed on. -/
theorem Follows.complete (h : Follows P data codes s)
    (hall : ∀ code ∈ generateQrCodeImageSeries P data, code ∈ codes) : data ∈ s.calls := by
  cases hcalls : s.calls with
  | cons b rest =>
    rw [← h.calls b (hcalls ▸ mem_cons_self)]
    exact mem_cons_self
  | nil =>
    obtain ⟨hp, hkept⟩ := h.kept hcalls
    have hsub : Finset.range (chunksCount data) ⊆
        (Finset.range 256).filter fun i => (s.qrCodeChunks i).isSome := by
      intro i hi
      have hi := Finset.mem_range.mp hi
      obtain ⟨j, hj, hcode, hsome⟩ := hkept _ (hall _ ((mem_series P data).mpr ⟨i, hi, rfl⟩))
      have hchunk : chunkAt P data (850 * i) = chunkAt P data (850 * j) := by
        have hread := congrArg P.decode hcode
        rw [P.decode_encode, P.decode_encode] at hread
        exact QrContent.chunk.inj hread
      have hij : i = j := by rw [← chunkAt_id hfits hi, hchunk, chunkAt_id hfits hj]
      exact Finset.mem_filter.mpr ⟨Finset.mem_range.mpr (hi.trans hfits), hij ▸ hsome⟩
    have hcard := Finset.card_le_card hsub
    rw [Finset.card_range] at hcard
    exact absurd hcard (Nat.not_le.mpr (h.scanning hp).size_lt)

end fitting

/-- No chunk is longer than the codes of a series make it, and no more than 255 are put
together. -/
structure Short (s : Scan) : Prop where
  chunks : s.isQrCodeProcessed = true → ∀ i b, s.qrCodeChunks i = some b → b.length ≤ 850
  calls : ∀ b ∈ s.calls, b.length ≤ 255 * 850

theorem short_insert (hs : ∀ i b, s.qrCodeChunks i = some b → b.length ≤ 850) {c}
    (hc : c.data.length ≤ 850) (i : ℕ) (b : Bytes) (hb : s.insert c i = some b) :
    b.length ≤ 850 := by
  unfold Scan.insert at hb
  by_cases hi : i = c.id.toNat
  · rw [hi, Function.update_self] at hb
    exact Option.some.inj hb ▸ hc
  · rw [Function.update_of_ne hi] at hb
    split at hb
    · cases hb
    · exact hs i b hb

theorem length_assembled (h : ∀ i b, chunks i = some b → b.length ≤ 850) (total : ℕ) :
    (assembled total chunks).length ≤ total * 850 := by
  induction total with
  | zero => exact Nat.zero_le _
  | succ total ih =>
    have hlast : ((chunks total).getD []).length ≤ 850 := by
      cases hb : chunks total with
      | none => exact Nat.zero_le _
      | some b => exact h total b hb
    unfold assembled at ih ⊢
    rw [range_succ, flatMap_append, length_append, flatMap_singleton]
    omega

theorem short_step (h : Short s) {c} (hc : c.data.length ≤ 850) :
    Short (parseQrCodeChunk P extractConfigFromQr s (P.encode c)).2 := by
  cases hp : s.isQrCodeProcessed with
  | false => rwa [parse_done hp]
  | true =>
    have hinsert := short_insert (h.chunks hp) hc
    have htakes : Takes c s (parseQrCodeChunk P extractConfigFromQr s (P.encode c)).2 :=
      parse_takes hp c
    generalize (parseQrCodeChunk P extractConfigFromQr s (P.encode c)).2 = s' at htakes ⊢
    cases htakes with
    | keep _ => exact ⟨fun _ => hinsert, h.calls⟩
    | complete _ hcalls hcleared =>
      refine ⟨?_, ?_⟩
      · intro hon i b hb
        rw [hcleared hon] at hb
        cases hb
      · intro b hb
        rw [hcalls] at hb
        rcases mem_append.mp hb with hold | hnew
        · exact h.calls b hold
        · rw [mem_singleton.mp hnew]
          exact (length_assembled hinsert c.count.toNat).trans
            (Nat.mul_le_mul_right 850 (Nat.le_of_lt_succ c.count.toNat_lt))

theorem short_series (hcodes : ∀ code ∈ codes, code ∈ generateQrCodeImageSeries P data) :
    Short (scan P extractConfigFromQr codes) := by
  refine scan_induction (J := fun _ => Short) ⟨?_, ?_⟩ ?_ hcodes
  · exact fun _ _ _ hb => by cases hb
  · exact fun _ hb => (not_mem_nil hb).elim
  · exact fun _ s j h _ => short_step h (length_take_le _ _)

/-- The codes of a series, in any order and with any repetitions, give back the config exactly
if it has at most 255 chunks. -/
theorem series_round_trip_iff (P : QrPlatform Code) (extractConfigFromQr : Bytes → Bool)
    {data : Bytes} (hne : data ≠ []) :
    (∀ codes : List Code, (∀ code ∈ codes, code ∈ generateQrCodeImageSeries P data) →
      (∀ b ∈ (scan P extractConfigFromQr codes).calls, b = data) ∧
        ((∀ code ∈ generateQrCodeImageSeries P data, code ∈ codes) →
          data ∈ (scan P extractConfigFromQr codes).calls)) ↔
      data.length ≤ 255 * 850 := by
  constructor
  · intro h
    have hcall := (h (generateQrCodeImageSeries P data) fun _ hc => hc).2 fun _ hc => hc
    exact (short_series fun _ hc => hc).calls data hcall
  · intro hlength codes hcodes
    have hfits : chunksCount data < 256 := by
      unfold chunksCount
      omega
    have hfollows : Follows P data codes (scan P extractConfigFromQr codes) :=
      series_follows hfits hne hcodes
    exact ⟨hfollows.calls, hfollows.complete hfits⟩

/-- Codes that carry their content as it is, and numbers that are cut to a byte. -/
def plainCodes : QrPlatform QrContent where
  encode := .chunk
  decode := id
  decode_encode _ := rfl
  quint8 := UInt8.ofNat
  quint8_toNat _ h := UInt8.toNat_ofNat_of_lt' h

theorem two_chunks_read : (replicate 851 7 : Bytes) ≠ [] ∧ replicate 851 7 ∈
    (scan plainCodes (fun _ => true)
      (generateQrCodeImageSeries plainCodes (replicate 851 7))).calls := by
  have hne : (replicate 851 7 : Bytes) ≠ [] := cons_ne_nil 7 (replicate 850 7)
  have hlength : (replicate 851 (7 : UInt8)).length ≤ 255 * 850 := by
    rw [length_replicate]
    decide
  exact ⟨hne, ((series_round_trip_iff plainCodes (fun _ => true) hne).mpr hlength _
    fun _ hc => hc).2 fun _ hc => hc⟩

theorem long_config_lost : (replicate 216751 7 : Bytes) ∉
    (scan plainCodes (fun _ => true)
      (generateQrCodeImageSeries plainCodes (replicate 216751 7))).calls := by
  intro h
  have hlength := (short_series fun _ hc => hc).calls _ h
  rw [length_replicate] at hlength
  omega

end QrSeries
