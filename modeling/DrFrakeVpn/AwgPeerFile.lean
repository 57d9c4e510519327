import DrFrakeVpn.VpnCommands

/-! # The AWG config file over a history of peers

The clean-up of a removed peer also takes the blank line of the block behind it, and a second
removal then takes the line end that the next header needs. -/
namespace AwgPeerFile

open BacktrackingRegex List
open AwgConfig

def isBase64 (c : Char) : Bool := c.isAlphanum || c = '+' || c = '/'

/-- 32 bytes in standard base64: the last digit has only four bits to carry. -/
structure Key where
  digits : List Char
  last : Char
  length_eq : digits.length = 42
  base64 : ∀ c ∈ digits, isBase64 c = true
  last_digit : last ∈ "AEIMQUYcgkosw048".toList

def Key.text (k : Key) : List Char := k.digits ++ [k.last, '=']

/-- The address `10.8.x.y`. -/
structure Address where
  x : ℕ
  y : ℕ

def Address.text (a : Address) : List Char :=
  "10.8.".toList ++ (Nat.toDigits 10 a.x ++ '.' :: Nat.toDigits 10 a.y)

structure Peer where
  publicKey : Key
  presharedKey : Key
  address : Address

/-- Text that stays inside one line of one section. -/
def Inline (text : List Char) : Prop := ∀ c ∈ text, c ≠ '\n' ∧ c ≠ '[' ∧ c ≠ '\r'

instance (text : List Char) : Decidable (Inline text) :=
  decidableBAll (fun c => c ≠ '\n' ∧ c ≠ '[' ∧ c ≠ '\r') text

theorem Inline.append {a b} (ha : Inline a) (hb : Inline b) : Inline (a ++ b) := by
  intro c hc
  rcases mem_append.mp hc with h | h
  · exact ha c h
  · exact hb c h

theorem inline_of_isBase64 {c} (h : isBase64 c) : c ≠ '\n' ∧ c ≠ '[' ∧ c ≠ '\r' := by
  refine ⟨?_, ?_, ?_⟩ <;> rintro rfl <;> exact absurd h (by decide)

theorem Key.inline (k : Key) : Inline k.text := by
  have hlast : isBase64 k.last := by
    have hall : "AEIMQUYcgkosw048".toList.all isBase64 := by decide
    exact all_eq_true.mp hall k.last k.last_digit
  refine Inline.append (fun c hc => inline_of_isBase64 (k.base64 c hc)) ?_
  intro c hc
  rcases mem_cons.mp hc with rfl | hc
  · exact inline_of_isBase64 hlast
  · rw [mem_singleton.mp hc]
    decide

variable (n : ℕ)

theorem inline_digits : Inline (Nat.toDigits 10 n) := by
  intro c hc
  have hd : c.isDigit := Nat.isDigit_of_mem_toDigits (by decide) (by decide) hc
  exact inline_of_isBase64 (by simp [isBase64, Char.isAlphanum, hd])

theorem Address.inline (a : Address) : Inline a.text := by
  have hdot : Inline ['.'] := by
    intro c hc
    rw [mem_singleton.mp hc]
    decide
  have hstart : Inline "10.8.".toList := by decide
  exact hstart.append ((inline_digits a.x).append (hdot.append (inline_digits a.y)))

variable (p : Peer)

namespace Peer

def keyText (p : Peer) : List Char := keyLabel ++ p.publicKey.text

def pskText (p : Peer) : List Char := pskLabel ++ p.presharedKey.text

def ipText (p : Peer) : List Char := ipLabel ++ (p.address.text ++ hostMask)

def lines (p : Peer) : List (List Char) := [peerHeader, p.keyText, p.pskText, p.ipText]

def block (p : Peer) : List Char :=
  peerHeader ++ '\n' :: (p.keyText ++ '\n' :: (p.pskText ++ '\n' :: p.ipText))

theorem peerBlock_eq :
    peerBlock p.publicKey.text p.presharedKey.text p.address.text =
      '\n' :: (p.block ++ ['\n']) := by
  simp [peerBlock, block, keyText, pskText, ipText, append_assoc]

theorem inline_keyText : Inline p.keyText :=
  Inline.append (by unfold keyLabel; decide) p.publicKey.inline

theorem inline_pskText : Inline p.pskText :=
  Inline.append (by unfold pskLabel; decide) p.presharedKey.inline

theorem inline_ipText : Inline p.ipText :=
  Inline.append (by unfold ipLabel; decide) (p.address.inline.append (by unfold hostMask; decide))

end Peer

/-- The pattern when the key has no `+` in it. -/
def plainPattern (k : List Char) : Regex Char :=
  .seq (.literal header) (.seq skippedLines (.seq (.literal (keyLine k)) restOfSection))

variable {text : List Char}

theorem parsePlain_literal (h : '+' ∉ text) : parsePlain text = some (.literal text) := by
  have hfold : text.foldr parseSymbol (0, some .empty) = (0, some (.literal text)) := by
    induction text with
    | nil => rfl
    | cons c cs ih =>
      have hc : c ≠ '+' := fun hc => h (hc ▸ mem_cons_self)
      rw [foldr_cons, ih fun hcs => h (mem_cons_of_mem c hcs)]
      simp [parseSymbol, hc, quantified, Regex.literal]
  rw [parsePlain, hfold]

theorem universalNewlines_of_notMem (h : '\r' ∉ text) : universalNewlines text = text := by
  fun_induction universalNewlines text with
  | case1 cs ih => simp at h
  | case2 cs _ ih => simp at h
  | case3 c cs _ _ ih => rw [ih fun hcs => h (mem_cons_of_mem c hcs)]
  | case4 => rfl

variable {k : List Char}

theorem cleanConfig_plain {content} (hk : '+' ∉ k) (hc : '\r' ∉ content) :
    cleanConfig k content = (plainPattern k).deleteAll content := by
  have hlabel : '+' ∉ keyLabel := by unfold keyLabel; decide
  have hline : '+' ∉ keyLine k := by simp [keyLine, hlabel, hk]
  simp only [cleanConfig, cleanPattern, parsePlain_literal hline, Option.map_some,
    universalNewlines_of_notMem hc]
  rfl

def LineStart (s t : List Char) : Prop := t = s ∨ ∃ u, '[' ∉ u ∧ s = u ++ '\n' :: t

variable {s : List Char}

theorem lineStart_of_rests {t} (h : t ∈ skippedLines.rests s) : LineStart s t := by
  refine Relation.ReflTransGen.head_induction_on (Regex.repeats_reaches h) (.inl rfl) ?_
  intro a b hab _ hb
  obtain ⟨c, hc, hb'⟩ := mem_flatMap.mp hab
  obtain ⟨v, hv, hvb⟩ := Regex.mem_rests_many_set hc
  have hv' : '[' ∉ v := fun hmem => by simpa [notBracket] using hvb _ hmem
  rw [Regex.prefix_of_rests_literal hb'] at hv
  rcases hb with rfl | ⟨u, hu, rfl⟩
  · exact .inr ⟨v, hv', hv⟩
  · exact .inr ⟨v ++ '\n' :: u, by simp [hv', hu], by simp [hv]⟩

theorem LineStart.next {line rest t} (h : LineStart (line ++ '\n' :: rest) t)
    (hline : '\n' ∉ line) :
    t = line ++ '\n' :: rest ∨ LineStart rest t := by
  rcases h with h | ⟨u, hu, heq⟩
  · exact .inl h
  rcases append_eq_append_iff.mp heq with ⟨a, ha, hat⟩ | ⟨a, ha, hat⟩
  · cases a with
    | nil => exact .inr (.inl (cons.inj hat).2.symm)
    | cons x a =>
      obtain ⟨hx, hrest⟩ := cons.inj hat
      refine .inr (.inr ⟨a, fun hmem => hu ?_, hrest⟩)
      rw [ha]
      exact mem_append_right _ (mem_cons_of_mem x hmem)
  · cases a with
    | nil => exact .inr (.inl (cons.inj hat).2)
    | cons x a =>
      obtain ⟨hx, _⟩ := cons.inj hat
      exact absurd (by rw [ha, ← hx]; simp) hline

theorem rests_of_not_header (h : ¬ header <+: s) : (plainPattern k).rests s = [] :=
  Regex.rests_literal_seq_eq_nil h

theorem rests_of_other_keys (h : ∀ t, LineStart s t → ¬ keyLine k <+: t) :
    (plainPattern k).rests (header ++ s) = [] := by
  rw [plainPattern, Regex.rests_literal_seq, Regex.rests]
  refine flatMap_eq_nil_iff.mpr fun t ht => ?_
  exact Regex.rests_literal_seq_eq_nil (h t (lineStart_of_rests ht))

theorem head_rests_of_key (k s : List Char) :
    ((plainPattern k).rests (header ++ (keyLine k ++ s))).head? =
      some (s.dropWhile notBracket) := by
  rw [plainPattern, Regex.rests_literal_seq]
  refine Regex.head_rests_seq (Regex.head_rests_lazy) ?_
  rw [Regex.rests_literal_seq]
  exact Regex.head_rests_many_many_set notBracket s

/-! ## The text behind the base config

Each block stands behind one line end and a number of blank lines; a number of line ends
follows the last block. -/

def newlines (n : ℕ) : List Char := replicate n '\n'

def peersText : List (ℕ × Peer) → ℕ → List Char
  | [], tail => newlines tail
  | (blank, p) :: es, tail => newlines (blank + 1) ++ (p.block ++ peersText es tail)

/-- What can follow a finished line. -/
def EndsLine (s : List Char) : Prop := s = [] ∨ ∃ t, s = '\n' :: t

variable (es : List (ℕ × Peer)) (tail : ℕ)

theorem endsLine_peersText : EndsLine (peersText es tail) := by
  cases es with
  | nil =>
    cases tail with
    | zero => exact .inl rfl
    | succ n => exact .inr ⟨newlines n, rfl⟩
  | cons e es => exact .inr ⟨newlines e.1 ++ (e.2.block ++ peersText es tail), rfl⟩

theorem newlines_succ_append : newlines (n + 1) ++ s = newlines n ++ '\n' :: s := by
  rw [newlines, replicate_succ', append_assoc]
  rfl

/-! Lines of a text. -/

def linesOf (text : List Char) : List (List Char) := text.splitOn '\n'

theorem linesOf_append : linesOf (a ++ '\n' :: b) = linesOf a ++ linesOf b :=
  splitOn_append_cons_self a b

theorem linesOf_inline (h : Inline text) : linesOf text = [text] :=
  splitOn_eq_singleton fun hmem => (h _ hmem).1 rfl

theorem peerHeader_eq : ∃ rest, peerHeader = '[' :: rest := by
  have hhead : peerHeader.head? = some '[' := by unfold peerHeader; decide
  exact head?_eq_some_iff.mp hhead

theorem ne_peerHeader (h : Inline text) : text ≠ peerHeader := by
  obtain ⟨rest, hrest⟩ := peerHeader_eq
  intro heq
  exact (h '[' (by rw [heq, hrest]; exact mem_cons_self)).2.1 rfl

theorem newline_notMem_peerHeader : '\n' ∉ peerHeader := by unfold peerHeader; decide

theorem linesOf_peerHeader : linesOf peerHeader = [peerHeader] :=
  splitOn_eq_singleton newline_notMem_peerHeader

theorem linesOf_block : linesOf p.block = p.lines := by
  simp only [Peer.block, linesOf_append, linesOf_peerHeader, linesOf_inline p.inline_keyText,
    linesOf_inline p.inline_pskText, linesOf_inline p.inline_ipText]
  rfl

theorem deleteAll_lines {u} (hu : peerHeader ∉ (linesOf u).tail) (hs : EndsLine s) :
    (plainPattern k).deleteAll (u ++ s) = u ++ (plainPattern k).deleteAll s := by
  have hno : ∀ pre post, u = pre ++ '\n' :: (peerHeader ++ post) → ¬ EndsLine post := by
    rintro pre post rfl hpost
    have hpre : linesOf pre ≠ [] := splitOn_ne_nil _ _
    rw [linesOf_append, tail_append_of_ne_nil hpre] at hu
    refine hu (mem_append_right _ ?_)
    rcases hpost with rfl | ⟨t, rfl⟩
    · rw [append_nil, linesOf_peerHeader]
      exact mem_singleton_self _
    · rw [linesOf_append, linesOf_peerHeader]
      exact mem_cons_self
  refine Regex.deleteAll_append ?_
  rintro v ⟨pre, rfl⟩ hne
  refine rests_of_not_header ?_
  rintro ⟨t, ht⟩
  cases v with
  | nil => exact hne rfl
  | cons c v =>
    rw [header, cons_append, cons_append, append_assoc] at ht
    obtain ⟨rfl, hv⟩ := cons.inj ht
    rcases append_eq_append_iff.mp hv with ⟨a, ha, hat⟩ | ⟨a, ha, hat⟩
    · refine hno pre a (by rw [ha]) ?_
      cases a with
      | nil => exact .inl rfl
      | cons x a => exact .inr ⟨a, by rw [← (cons.inj hat).1]⟩
    · -- the text ends inside the header, and a line end follows
      rcases hs with rfl | ⟨s', rfl⟩
      · simp at hat
      · cases a with
        | nil => exact hno pre [] (by rw [ha]; simp) (.inl rfl)
        | cons x a =>
          have hx : x = '\n' := (cons.inj hat).1.symm
          exact newline_notMem_peerHeader (by rw [ha, hx]; simp)

theorem deleteAll_block (k : List Char) (p : Peer) (hs : EndsLine s) :
    (plainPattern k).deleteAll (p.block ++ s) = p.block ++ (plainPattern k).deleteAll s := by
  refine deleteAll_lines ?_ hs
  rw [linesOf_block]
  simp [Peer.lines, (ne_peerHeader p.inline_keyText).symm, (ne_peerHeader p.inline_pskText).symm,
    (ne_peerHeader p.inline_ipText).symm]

theorem linesOf_newlines : linesOf (newlines n) = replicate (n + 1) [] := by
  induction n with
  | zero => rfl
  | succ n ih =>
    have hsucc : newlines (n + 1) = newlines n ++ '\n' :: [] := replicate_succ'
    rw [hsucc, linesOf_append, ih, replicate_succ' (n := n + 1)]
    rfl

theorem deleteAll_newlines (k : List Char) (n : ℕ) (hs : EndsLine s) :
    (plainPattern k).deleteAll (newlines n ++ s) = newlines n ++ (plainPattern k).deleteAll s := by
  refine deleteAll_lines ?_ hs
  obtain ⟨rest, hrest⟩ := peerHeader_eq
  simp [linesOf_newlines, hrest]

theorem keyLine_not_keyText {p : Peer} (hk : '\n' ∉ k) (hne : p.publicKey.text ≠ k) :
    ¬ keyLine k <+: p.keyText ++ '\n' :: s := by
  rintro ⟨t, ht⟩
  rw [keyLine, Peer.keyText, append_assoc, append_assoc, append_assoc,
    append_cancel_left_eq] at ht
  have hp : '\n' ∉ p.publicKey.text := fun h => (p.publicKey.inline _ h).1 rfl
  refine hne ?_
  rcases append_eq_append_iff.mp ht with ⟨a, ha, hat⟩ | ⟨a, ha, hat⟩
  · cases a with
    | nil => simpa using ha
    | cons x a => exact absurd (by rw [ha, ← (cons.inj hat).1]; simp) hp
  · cases a with
    | nil => simpa using ha.symm
    | cons x a => exact absurd (by rw [ha, ← (cons.inj hat).1]; simp) hk

theorem keyLine_start (k : List Char) : ∃ rest, keyLine k = 'P' :: 'u' :: rest := by
  have htake : keyLabel = 'P' :: 'u' :: keyLabel.drop 2 := by unfold keyLabel; decide
  exact ⟨keyLabel.drop 2 ++ (k ++ ['\n']), by rw [keyLine, htake]; rfl⟩

theorem keyLine_not_pskText (k : List Char) (p : Peer) (s : List Char) :
    ¬ keyLine k <+: p.pskText ++ s := by
  have hlabel : pskLabel = 'P' :: 'r' :: pskLabel.drop 2 := by unfold pskLabel; decide
  obtain ⟨rest, hrest⟩ := keyLine_start k
  rintro ⟨t, ht⟩
  rw [hrest, Peer.pskText, hlabel] at ht
  simp at ht

theorem keyLine_not_ipText (k : List Char) (p : Peer) (s : List Char) :
    ¬ keyLine k <+: p.ipText ++ s := by
  have hlabel : ipLabel = 'A' :: ipLabel.drop 1 := by unfold ipLabel; decide
  obtain ⟨rest, hrest⟩ := keyLine_start k
  rintro ⟨t, ht⟩
  rw [hrest, Peer.ipText, hlabel] at ht
  simp at ht

theorem keyLine_not_newlines {n} {t} (hs : s = [] ∨ ∃ rest, s = '[' :: rest)
    (h : LineStart (newlines n ++ s) t) :
    ¬ keyLine k <+: t := by
  obtain ⟨rest, hrest⟩ := keyLine_start k
  rw [hrest]
  induction n with
  | zero =>
    rcases hs with rfl | ⟨r, rfl⟩
    · rcases h with rfl | ⟨u, _, hu⟩
      · simp [newlines]
      · simp [newlines] at hu
    · rcases h with rfl | ⟨u, hbr, hu⟩
      · rintro ⟨v, hv⟩
        simp [newlines] at hv
      · cases u with
        | nil => simp [newlines] at hu
        | cons x u => simp [newlines] at hu hbr; exact absurd hu.1 hbr.1
  | succ n ih =>
    rcases @LineStart.next [] _ _ h (by simp) with rfl | h
    · rintro ⟨v, hv⟩
      simp at hv
    · exact ih h

theorem peersText_cases : peersText es tail = [] ∨
    ∃ n s, peersText es tail = '\n' :: (newlines n ++ s) ∧ (s = [] ∨ ∃ rest, s = '[' :: rest) := by
  cases es with
  | nil =>
    cases tail with
    | zero => exact .inl rfl
    | succ n => exact .inr ⟨n, [], by simp [peersText, newlines, replicate_succ], .inl rfl⟩
  | cons e es =>
    obtain ⟨rest, hrest⟩ := peerHeader_eq
    exact .inr ⟨e.1, _, rfl, .inr ⟨_, by rw [Peer.block, hrest]; rfl⟩⟩

theorem block_append (s : List Char) : '\n' :: (p.block ++ s) =
    header ++ (p.keyText ++ '\n' :: (p.pskText ++ '\n' :: (p.ipText ++ s))) := by
  simp [Peer.block, header, cons_append]

theorem block_append_own : '\n' :: (p.block ++ s) =
    header ++ (keyLine p.publicKey.text ++ ((p.pskText ++ '\n' :: p.ipText) ++ s)) := by
  simp [block_append, keyLine, Peer.keyText, cons_append]

theorem deleteAll_other (hk : '\n' ∉ k) {p} (hne : p.publicKey.text ≠ k) (n : ℕ)
    (es : List (ℕ × Peer)) (tail : ℕ) :
    (plainPattern k).deleteAll (peersText ((n, p) :: es) tail) =
      newlines (n + 1) ++ (p.block ++ (plainPattern k).deleteAll (peersText es tail)) := by
  have hnone : (plainPattern k).rests ('\n' :: (p.block ++ peersText es tail)) = [] := by
    rw [block_append]
    refine rests_of_other_keys ?_
    intro t ht
    -- the lines of the block one after another, then the blank lines behind it
    rcases ht.next fun h => (p.inline_keyText _ h).1 rfl with rfl | ht
    · exact keyLine_not_keyText hk hne
    rcases ht.next fun h => (p.inline_pskText _ h).1 rfl with rfl | ht
    · exact keyLine_not_pskText k p _
    rcases peersText_cases es tail with hrest | ⟨m, s, hrest, hs⟩
    · rw [hrest, append_nil] at ht
      rcases ht with rfl | ⟨u, _, hu⟩
      · simpa using keyLine_not_ipText k p []
      · exact absurd rfl (p.inline_ipText '\n' (by rw [hu]; simp)).1
    · rw [hrest] at ht
      rcases ht.next fun h => (p.inline_ipText _ h).1 rfl with rfl | ht
      · exact keyLine_not_ipText k p _
      · exact keyLine_not_newlines hs ht
  rw [peersText, newlines_succ_append, deleteAll_newlines k n (.inr ⟨_, rfl⟩),
    Regex.deleteAll_cons hnone, deleteAll_block k p (endsLine_peersText es tail),
    newlines_succ_append]

theorem deleteAll_own :
    (plainPattern p.publicKey.text).deleteAll (peersText ((n, p) :: es) tail) =
      newlines n ++ (plainPattern p.publicKey.text).deleteAll
        ((peersText es tail).dropWhile notBracket) := by
  have hinline : ∀ c ∈ p.pskText ++ '\n' :: p.ipText, notBracket c := by
    intro c hc
    rcases mem_append.mp hc with hc | hc
    · exact decide_eq_true (p.inline_pskText c hc).2.1
    · rcases mem_cons.mp hc with rfl | hc
      · decide
      · exact decide_eq_true (p.inline_ipText c hc).2.1
  have hmatch := head_rests_of_key p.publicKey.text
    ((p.pskText ++ '\n' :: p.ipText) ++ peersText es tail)
  rw [← block_append_own, dropWhile_append_of_pos hinline] at hmatch
  rw [peersText, newlines_succ_append, deleteAll_newlines _ n (.inr ⟨_, rfl⟩),
    Regex.deleteAll_match hmatch]
  have hle := (dropWhile_suffix notBracket (l := peersText es tail)).length_le
  simp only [length_cons, length_append]
  omega

theorem deleteAll_absent (hk : '\n' ∉ k) {es} (h : ∀ e ∈ es, e.2.publicKey.text ≠ k) (tail : ℕ) :
    (plainPattern k).deleteAll (peersText es tail) = peersText es tail := by
  induction es with
  | nil =>
    have := deleteAll_newlines k tail (.inl rfl)
    simpa [peersText] using this
  | cons e es ih =>
    rw [deleteAll_other hk (h e mem_cons_self) e.1 es tail,
      ih fun e' he' => h e' (mem_cons_of_mem e he')]
    rfl

/-- The blocks after the clean-up: the one behind the removed block comes closer by the blank
lines between them. -/
def dropPeer (k : List Char) : List (ℕ × Peer) → ℕ → List (ℕ × Peer) × ℕ
  | [], tail => ([], tail)
  | (n, p) :: es, tail =>
    if p.publicKey.text = k then
      match es with
      | [] => ([], n)
      | (_, q) :: es' => ((n - 1, q) :: es', tail)
    else ((n, p) :: (dropPeer k es tail).1, (dropPeer k es tail).2)

/-- The clean-up keeps every header on a line of its own. -/
def KeepsLines (k : List Char) (es : List (ℕ × Peer)) : Prop :=
  ∀ pre n p post, es = pre ++ (n, p) :: post → p.publicKey.text = k → 0 < n ∨ post = []

theorem dropWhile_newlines (s : List Char) :
    (newlines n ++ s).dropWhile notBracket = s.dropWhile notBracket := by
  refine dropWhile_append_of_pos ?_
  intro c hc
  rw [eq_of_mem_replicate hc]
  decide

theorem dropWhile_block : (p.block ++ s).dropWhile notBracket = p.block ++ s := by
  obtain ⟨rest, hrest⟩ := peerHeader_eq
  rw [Peer.block, hrest]
  exact dropWhile_cons_of_neg (by decide)

theorem deleteAll_peersText (hk : '\n' ∉ k) {es}
    (hdistinct : (es.map fun e => e.2.publicKey.text).Nodup) (hkeeps : KeepsLines k es) (tail : ℕ) :
    (plainPattern k).deleteAll (peersText es tail) =
      peersText (dropPeer k es tail).1 (dropPeer k es tail).2 := by
  induction es with
  | nil => exact deleteAll_absent hk (by simp) tail
  | cons e es ih =>
    obtain ⟨n, p⟩ := e
    rw [map_cons, nodup_cons] at hdistinct
    by_cases hp : p.publicKey.text = k
    · subst hp
      have habsent : ∀ e ∈ es, e.2.publicKey.text ≠ p.publicKey.text := by
        intro e he heq
        exact hdistinct.1 (heq ▸ mem_map_of_mem he)
      rw [deleteAll_own]
      cases es with
      | nil =>
        have hdrop : (peersText [] tail).dropWhile notBracket = [] := by
          simpa [peersText] using dropWhile_newlines tail []
        rw [hdrop]
        simp [dropPeer, peersText]
      | cons e' es =>
        obtain ⟨m, q⟩ := e'
        have hn : 0 < n := by
          rcases hkeeps [] n p _ rfl rfl with h | h
          · exact h
          · cases h
        obtain ⟨n, rfl⟩ := Nat.exists_eq_succ_of_ne_zero hn.ne'
        have hrest := deleteAll_absent hk (fun e he => habsent e (mem_cons_of_mem _ he)) tail
        rw [peersText, dropWhile_newlines, dropWhile_block,
          deleteAll_block _ q (endsLine_peersText es tail), hrest]
        simp [dropPeer, peersText]
    · rw [deleteAll_other hk hp, ih hdistinct.2]
      · simp [dropPeer, hp, peersText]
      · intro pre m q post heq hq
        exact hkeeps ((n, p) :: pre) m q post (by rw [heq]; rfl) hq

def splitSections : List (List Char) → List (List Char) × List (List (List Char))
  | [] => ([], [])
  | l :: ls =>
    if l = peerHeader then ([], (l :: (splitSections ls).1) :: (splitSections ls).2)
    else (l :: (splitSections ls).1, (splitSections ls).2)

/-- Without the blank lines at the end. -/
def trimBlank (ls : List (List Char)) : List (List Char) :=
  (ls.reverse.dropWhile fun l => l = []).reverse

/-- The lines before the first `[Peer]` line, and those of each section that one opens. -/
def sections (text : List Char) : List (List Char) × List (List (List Char)) :=
  (trimBlank (splitSections (linesOf text)).1, (splitSections (linesOf text)).2.map trimBlank)

theorem trimBlank_append_blank :
    trimBlank (ls ++ replicate n []) = trimBlank ls := by
  have hdrop : ∀ xs : List (List Char), (replicate n [] ++ xs).dropWhile (fun l => l = []) =
      xs.dropWhile fun l => l = [] := by
    intro xs
    refine dropWhile_append_of_pos fun l hl => ?_
    rw [eq_of_mem_replicate hl]
    rfl
  rw [trimBlank, reverse_append, reverse_replicate, hdrop, trimBlank]

theorem trimBlank_lines : trimBlank (p.lines ++ replicate n []) = p.lines := by
  have hlabel : ipLabel ≠ [] := by unfold ipLabel; decide
  have hip : p.ipText ≠ [] := by simp [Peer.ipText, hlabel]
  rw [trimBlank_append_blank]
  simp [trimBlank, Peer.lines, hip]

theorem splitSections_append {ls} (h : peerHeader ∉ ls) (rest : List (List Char)) :
    splitSections (ls ++ rest) =
      (ls ++ (splitSections rest).1, (splitSections rest).2) := by
  induction ls with
  | nil => rfl
  | cons l ls ih =>
    rw [mem_cons, not_or] at h
    simp [splitSections, Ne.symm h.1, ih h.2]

def peersLines : List (ℕ × Peer) → ℕ → List (List Char)
  | [], tail => replicate tail []
  | (n, p) :: es, tail => replicate n [] ++ (p.lines ++ peersLines es tail)

theorem linesOf_append_newlines (s : List Char) (n : ℕ) :
    linesOf (s ++ newlines n) = linesOf s ++ replicate n [] := by
  induction n with
  | zero => simp [newlines]
  | succ n ih =>
    have hsucc : newlines (n + 1) = newlines n ++ '\n' :: [] := replicate_succ'
    rw [hsucc, ← append_assoc, linesOf_append, ih, append_assoc, replicate_succ']
    rfl

theorem linesOf_peersText :
    linesOf (s ++ peersText es tail) = linesOf s ++ peersLines es tail := by
  induction es generalizing s with
  | nil => exact linesOf_append_newlines s tail
  | cons e es ih =>
    rw [peersText, newlines_succ_append, ← append_assoc, linesOf_append,
      linesOf_append_newlines, ih, linesOf_block, append_assoc, peersLines]

theorem peerHeader_ne_nil : peerHeader ≠ [] := by
  obtain ⟨rest, hrest⟩ := peerHeader_eq
  simp [hrest]

theorem peerHeader_notMem_blank : peerHeader ∉ replicate n ([] : List Char) :=
  fun h => peerHeader_ne_nil (eq_of_mem_replicate h)

theorem splitSections_peersLines :
    (∃ n, (splitSections (peersLines es tail)).1 = replicate n []) ∧
      (splitSections (peersLines es tail)).2.map trimBlank = es.map fun e => e.2.lines := by
  induction es with
  | nil =>
    have := splitSections_append (peerHeader_notMem_blank tail) []
    rw [append_nil] at this
    rw [peersLines, this]
    exact ⟨⟨tail, by simp [splitSections]⟩, rfl⟩
  | cons e es ih =>
    obtain ⟨n, p⟩ := e
    obtain ⟨⟨m, hm⟩, hmap⟩ := ih
    have hbody : peerHeader ∉ [p.keyText, p.pskText, p.ipText] := by
      simp [(ne_peerHeader p.inline_keyText).symm, (ne_peerHeader p.inline_pskText).symm,
        (ne_peerHeader p.inline_ipText).symm]
    have hsplit : splitSections (p.lines ++ peersLines es tail) =
        ([], (p.lines ++ replicate m []) :: (splitSections (peersLines es tail)).2) := by
      have := splitSections_append hbody (peersLines es tail)
      rw [Peer.lines, cons_append, splitSections, if_pos rfl, this, hm]
      rfl
    rw [peersLines, splitSections_append (peerHeader_notMem_blank n), hsplit]
    exact ⟨⟨n, by simp⟩, by rw [map_cons, trimBlank_lines, hmap]; rfl⟩

theorem sections_peersText {core} (hcore : peerHeader ∉ linesOf core) (es : List (ℕ × Peer))
    (tail : ℕ) : sections (core ++ peersText es tail) =
      (trimBlank (linesOf core), es.map fun e => e.2.lines) := by
  obtain ⟨⟨n, hn⟩, hmap⟩ := splitSections_peersLines es tail
  rw [sections, linesOf_peersText, splitSections_append hcore, hn, hmap, trimBlank_append_blank]

end AwgPeerFile
