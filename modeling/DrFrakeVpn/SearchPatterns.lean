import Mathlib

/-! # Patterns that are searched for

Regular expressions with anchors, alternatives, groups and repetition, read from their text and
searched for anywhere in another text. A text with other operators is no pattern here. -/
namespace SearchPatterns

inductive Pattern where
  | empty
  | textStart
  | textEnd
  | any
  | char (c : Char)
  | seq (p q : Pattern)
  | alt (p q : Pattern)
  | star (p : Pattern)
  deriving DecidableEq, Repr

/-- A place in the text: whether it is the beginning, and what follows. -/
abbrev Place := Bool × List Char

/-- The places after up to `fuel` rounds that each take something. -/
def rounds (next : Place → List Place) : ℕ → Place → List Place
  | 0, s => [s]
  | fuel + 1, s =>
    s :: ((next s).filter fun t => t.2.length < s.2.length).flatMap (rounds next fuel)

namespace Pattern

/-- The places to which the pattern can lead. -/
def ends : Pattern → Place → List Place
  | .empty, s => [s]
  | .textStart, s => if s.1 then [s] else []
  | .textEnd, s => if s.2 = [] then [s] else []
  | .any, (_, []) => []
  | .any, (_, c :: cs) => if c ≠ '\n' then [(false, cs)] else []
  | .char _, (_, []) => []
  | .char c, (_, d :: cs) => if d = c then [(false, cs)] else []
  | .seq p q, s => (p.ends s).flatMap q.ends
  | .alt p q, s => p.ends s ++ q.ends s
  | .star p, s => rounds p.ends s.2.length s

def places (text : List Char) : List Place :=
  (true, text) :: text.tails.tail.map fun rest => (false, rest)

/-- The pattern fits somewhere in the text. -/
def search (p : Pattern) (text : List Char) : Bool := (places text).any fun s => p.ends s ≠ []

def seqs (items : List Pattern) : Pattern := items.foldr .seq .empty

def alts : List Pattern → Pattern
  | [] => .empty
  | [p] => p
  | p :: ps => .alt p (alts ps)

end Pattern

structure Frame where
  branches : List Pattern
  items : List Pattern

def Frame.push (f : Frame) (p : Pattern) : Frame := { f with items := p :: f.items }

def Frame.pattern (f : Frame) : Pattern :=
  Pattern.alts (f.branches ++ [Pattern.seqs f.items.reverse])

structure Reader where
  groups : List Frame
  escaped : Bool

/-- The operators that are not read here. -/
def unsupported : List Char := ['+', '?', '[', '\x7b']

def Reader.item (r : Reader) (p : Pattern) : Option Reader :=
  match r.groups with
  | [] => none
  | f :: fs => some ⟨f.push p :: fs, false⟩

def Reader.feed (r : Reader) (c : Char) : Option Reader :=
  if r.escaped then
    if c.isAlphanum then none else r.item (.char c)
  else if c ∈ unsupported then none
  else match c, r.groups with
    | '\\', fs => some ⟨fs, true⟩
    | '(', fs => some ⟨⟨[], []⟩ :: fs, false⟩
    | ')', f :: g :: fs => some ⟨g.push f.pattern :: fs, false⟩
    | ')', _ => none
    | '|', f :: fs => some ⟨⟨f.branches ++ [Pattern.seqs f.items.reverse], []⟩ :: fs, false⟩
    | '*', ⟨branches, p :: items⟩ :: fs => some ⟨⟨branches, .star p :: items⟩ :: fs, false⟩
    | '*', _ => none
    | '.', _ => r.item .any
    | '^', _ => r.item .textStart
    | '$', _ => r.item .textEnd
    | c, _ => r.item (.char c)

def Reader.feedAll (r : Reader) (cs : List Char) : Option Reader := cs.foldlM Reader.feed r

def start : Reader := ⟨[⟨[], []⟩], false⟩

def parse (text : List Char) : Option Pattern :=
  match start.feedAll text with
  | some ⟨[f], false⟩ => some f.pattern
  | _ => none

/-- `MatchString`; a text that is no pattern fits nowhere. -/
def matchString (pattern text : List Char) : Bool :=
  match parse pattern with
  | some p => p.search text
  | none => false

def special : List Char :=
  ['\\', '.', '+', '*', '?', '(', ')', '|', '[', ']', '\x7b', '\x7d', '^', '$']

def quoted (text : List Char) : List Char :=
  text.flatMap fun c => if c ∈ special then ['\\', c] else [c]

theorem feed_plain {f fs c} (h : c ∉ special) :
    Reader.feed ⟨f :: fs, false⟩ c = some ⟨f.push (.char c) :: fs, false⟩ := by
  simp only [special, List.mem_cons, List.not_mem_nil, or_false, not_or] at h
  obtain ⟨hslash, hdot, hplus, hstar, hopt, hopen, hclose, hbar, hsquare, -, hbrace, -, hcaret,
    hdollar⟩ := h
  have hsupported : c ∉ unsupported := by
    simp [unsupported, hplus, hopt, hsquare, hbrace]
  simp only [Reader.feed, Bool.false_eq_true, if_false, hsupported, Reader.item]
  -- each operator contradicts one of the inequalities
  split <;> first | rfl | contradiction

theorem feedAll_quoted (f : Frame) (fs : List Frame) (text rest : List Char) :
    Reader.feedAll ⟨f :: fs, false⟩ (quoted text ++ rest) =
      Reader.feedAll ⟨⟨f.branches, (text.map Pattern.char).reverse ++ f.items⟩ :: fs,
        false⟩ rest := by
  induction text generalizing f with
  | nil => rfl
  | cons c cs ih =>
    have hstep : Reader.feedAll ⟨f :: fs, false⟩ (quoted (c :: cs) ++ rest) =
        Reader.feedAll ⟨f.push (.char c) :: fs, false⟩ (quoted cs ++ rest) := by
      by_cases hc : c ∈ special
      · have hletter : c.isAlphanum = false := by
          simp only [special, List.mem_cons, List.not_mem_nil, or_false] at hc
          rcases hc with rfl | rfl | rfl | rfl | rfl | rfl | rfl | rfl | rfl | rfl | rfl | rfl |
            rfl | rfl <;> decide
        simp [quoted, hc, Reader.feedAll, Reader.feed, unsupported, Reader.item, hletter]
      · simp only [quoted, List.flatMap_cons, hc, if_false, List.cons_append,
          Reader.feedAll, List.foldlM_cons, feed_plain hc]
        rfl
    rw [hstep, ih]
    simp [Frame.push]

section ends

open Pattern List

theorem ends_seqs_cons :
    (seqs (p :: items)).ends s = (p.ends s).flatMap (seqs items).ends := rfl

theorem ends_seqs_chars (text : List Char) (items : List Pattern) (s t : Place) :
    t ∈ (seqs (text.map Pattern.char ++ items)).ends s ↔
      ∃ rest, s.2 = text ++ rest ∧ t ∈ (seqs items).ends (s.1 && text.isEmpty, rest) := by
  induction text generalizing s with
  | nil => simp
  | cons c cs ih =>
    rw [map_cons, cons_append, ends_seqs_cons, mem_flatMap]
    constructor
    · rintro ⟨u, hu, ht⟩
      obtain ⟨b, text⟩ := s
      cases text with
      | nil => cases hu
      | cons d ds =>
        rw [ends] at hu
        split at hu
        · next hd =>
          rw [mem_singleton] at hu
          subst hu hd
          obtain ⟨rest, hrest, ht⟩ := (ih _).mp ht
          exact ⟨rest, by simpa using hrest, by simpa using ht⟩
        · cases hu
    · rintro ⟨rest, hrest, ht⟩
      obtain ⟨b, text⟩ := s
      simp only at hrest
      subst hrest
      refine ⟨(false, cs ++ rest), by simp [ends], (ih _).mpr ⟨rest, rfl, by simpa using ht⟩⟩

theorem mem_rounds_any (h : t ∈ rounds Pattern.any.ends fuel s) : t.2 <:+ s.2 := by
  induction fuel generalizing s with
  | zero =>
    rw [mem_singleton.mp h]
  | succ fuel ih =>
    rcases mem_cons.mp h with rfl | h
    · exact suffix_refl _
    obtain ⟨u, hu, ht⟩ := mem_flatMap.mp h
    have hnext := mem_of_mem_filter hu
    obtain ⟨b, text⟩ := s
    cases text with
    | nil => cases hnext
    | cons c cs =>
      rw [ends] at hnext
      split at hnext
      · rw [mem_singleton] at hnext
        subst hnext
        exact (ih ht).trans (suffix_cons c cs)
      · cases hnext

theorem rounds_any_reaches {fuel u rest} (hline : '\n' ∉ u) (hfuel : u.length ≤ fuel) (b : Bool) :
    ∃ b', (b', rest) ∈ rounds Pattern.any.ends fuel (b, u ++ rest) := by
  induction u generalizing fuel b with
  | nil =>
    cases fuel with
    | zero => exact ⟨b, mem_singleton_self _⟩
    | succ fuel => exact ⟨b, mem_cons_self⟩
  | cons c cs ih =>
    cases fuel with
    | zero => simp at hfuel
    | succ fuel =>
      have hc : c ≠ '\n' := fun h => hline (h ▸ mem_cons_self)
      obtain ⟨b', hb'⟩ := ih (fun h => hline (mem_cons_of_mem c h))
        (Nat.le_of_succ_le_succ hfuel) false
      refine ⟨b', mem_cons_of_mem _ (mem_flatMap.mpr ⟨(false, cs ++ rest), ?_, hb'⟩)⟩
      simp [ends, hc]

theorem mem_places_suffix (h : s ∈ places text) : s.2 <:+ text := by
  rcases mem_cons.mp h with rfl | h
  · exact suffix_refl text
  · obtain ⟨rest, hrest, rfl⟩ := mem_map.mp h
    exact (mem_tails rest text).mp (mem_of_mem_tail hrest)

end ends

/-- `(^|\.).*\.text$`. -/
def labelPattern (text : List Char) : Pattern :=
  Pattern.seqs (.alt (.seqs [.textStart]) (.seqs [.char '.']) :: .star .any ::
    (('.' :: text).map Pattern.char ++ [.textEnd]))

variable (text : List Char)

theorem parse_label :
    parse ("(^|\\.).*\\.".toList ++ quoted text ++ ['$']) = some (labelPattern text) := by
  have hfixed : start.feedAll ("(^|\\.).*\\.".toList) = some ⟨[⟨[], [.char '.', .star .any,
      .alt (.seqs [.textStart]) (.seqs [.char '.'])]⟩], false⟩ := by rfl
  have hall : start.feedAll ("(^|\\.).*\\.".toList ++ quoted text ++ ['$']) =
      some ⟨[⟨[], .textEnd :: ((text.map Pattern.char).reverse ++ [.char '.', .star .any,
        .alt (.seqs [.textStart]) (.seqs [.char '.'])])⟩], false⟩ := by
    rw [List.append_assoc, Reader.feedAll, List.foldlM_append]
    rw [Reader.feedAll] at hfixed
    rw [hfixed]
    exact feedAll_quoted _ _ text ['$']
  rw [parse, hall]
  simp [Frame.pattern, Pattern.alts, labelPattern]

variable {name : List Char}

theorem search_label (hline : '\n' ∉ name) :
    (labelPattern text).search name ↔ ('.' :: text) <:+ name := by
  unfold Pattern.search labelPattern
  rw [List.any_eq_true]
  constructor
  · rintro ⟨s, hs, hends⟩
    obtain ⟨t, ht⟩ := List.exists_mem_of_ne_nil _ (of_decide_eq_true hends)
    rw [ends_seqs_cons, List.mem_flatMap] at ht
    obtain ⟨u, hu, ht⟩ := ht
    rw [ends_seqs_cons, List.mem_flatMap] at ht
    obtain ⟨v, hv, ht⟩ := ht
    obtain ⟨rest, hrest, ht⟩ := (ends_seqs_chars _ _ _ _).mp ht
    have hrest' : rest = [] := by
      simp only [Pattern.seqs, List.foldr_cons, List.foldr_nil, Pattern.ends] at ht
      by_contra hne
      simp [hne] at ht
    have hus : u.2 <:+ s.2 := by
      obtain ⟨b, rest⟩ := s
      rcases List.mem_append.mp hu with hu | hu
      · -- the beginning of the text
        cases b with
        | false => cases hu
        | true =>
          rw [List.mem_singleton.mp hu]
      · cases rest with
        | nil => cases hu
        | cons c cs =>
          have hchar := hu
          rw [ends_seqs_cons, List.mem_flatMap] at hchar
          obtain ⟨v, hv, hu⟩ := hchar
          rw [List.mem_singleton.mp hu]
          rw [Pattern.ends] at hv
          split at hv
          · rw [List.mem_singleton.mp hv]
            exact List.suffix_cons c cs
          · cases hv
    rw [hrest', List.append_nil] at hrest
    rw [← hrest]
    exact (mem_rounds_any hv).trans (hus.trans (mem_places_suffix hs))
  · rintro ⟨u, rfl⟩
    refine ⟨(true, u ++ '.' :: text), List.mem_cons_self, decide_eq_true ?_⟩
    have hreaches : ∃ b, (b, '.' :: text) ∈ rounds Pattern.any.ends (u ++ '.' :: text).length
        (true, u ++ '.' :: text) :=
      rounds_any_reaches (fun h => hline (List.mem_append_left _ h)) (by simp) true
    obtain ⟨b, hb⟩ := hreaches
    have hend : (b && ('.' :: text).isEmpty, []) ∈ (Pattern.seqs (('.' :: text).map Pattern.char ++
        [.textEnd])).ends (b, '.' :: text) :=
      (ends_seqs_chars _ _ _ _).mpr ⟨[], by simp, List.mem_singleton_self _⟩
    refine List.ne_nil_of_mem (List.mem_flatMap.mpr ⟨(true, u ++ '.' :: text), ?_,
      List.mem_flatMap.mpr ⟨(b, '.' :: text), hb, hend⟩⟩)
    exact List.mem_append_left _ (List.mem_singleton_self _)

theorem matchString_label (hline : '\n' ∉ name) :
    matchString ("(^|\\.).*\\.".toList ++ quoted text ++ ['$']) name ↔
      ('.' :: text) <:+ name := by
  rw [matchString, parse_label]
  exact search_label text hline

end SearchPatterns
