import Mathlib

/-! # Dotted addresses

The text form of an IPv4 address: four decimal numbers up to 255 without leading zeros. -/
namespace DottedAddresses

open List

/-- The number that the digits write, if it fits into a byte. -/
def octet? (cs : List Char) : Option ℕ :=
  let n := Nat.ofDigitChars 10 cs 0
  if cs = Nat.toDigits 10 n ∧ n ≤ 255 then some n else none

def quad? (text : String) : Option (ℕ × ℕ × ℕ × ℕ) :=
  match (text.toList.splitOn '.').map octet? with
  | [some a, some b, some c, some d] => some (a, b, c, d)
  | _ => none

def value : ℕ × ℕ × ℕ × ℕ → ℕ
  | (a, b, c, d) => ((a * 256 + b) * 256 + c) * 256 + d

def dotted (a b c d : ℕ) : String :=
  toString a ++ "." ++ toString b ++ "." ++ toString c ++ "." ++ toString d

theorem octet_digits :
    octet? (Nat.toDigits 10 n) = if n ≤ 255 then some n else none := by
  unfold octet?
  simp [Nat.ofDigitChars_ten_toDigits]

theorem dot_not_digit : '.' ∉ Nat.toDigits 10 n := by
  intro h
  have hdigit := Nat.isDigit_of_mem_toDigits (by decide) (by decide) h
  exact absurd hdigit (by decide)

theorem splitOn_dotted (a b c d : ℕ) : (dotted a b c d).toList.splitOn '.' =
    [Nat.toDigits 10 a, Nat.toDigits 10 b, Nat.toDigits 10 c, Nat.toDigits 10 d] := by
  have htext : (dotted a b c d).toList = ['.'].intercalate
      [Nat.toDigits 10 a, Nat.toDigits 10 b, Nat.toDigits 10 c, Nat.toDigits 10 d] := by
    simp [dotted, intercalate]
  rw [htext]
  apply splitOn_intercalate
  · intro field hfield
    simp only [mem_cons, not_mem_nil, or_false] at hfield
    rcases hfield with rfl | rfl | rfl | rfl <;> exact dot_not_digit
  · simp

theorem quad_dotted (a b c d : ℕ) : quad? (dotted a b c d) =
    if a ≤ 255 ∧ b ≤ 255 ∧ c ≤ 255 ∧ d ≤ 255 then some (a, b, c, d) else none := by
  unfold quad?
  rw [splitOn_dotted]
  simp only [map_cons, map_nil, octet_digits]
  by_cases ha : a ≤ 255
  · by_cases hb : b ≤ 255
    · by_cases hc : c ≤ 255
      · by_cases hd : d ≤ 255
        · simp [ha, hb, hc, hd]
        · simp [hd]
      · simp [hc]
    · simp [hb]
  · simp [ha]

theorem dotted_injective (h : dotted a b c d = dotted a' b' c' d') :
    a = a' ∧ b = b' ∧ c = c' ∧ d = d' := by
  have hfields := splitOn_dotted a b c d
  rw [h, splitOn_dotted] at hfields
  have hnumbers := congrArg (map fun field => Nat.ofDigitChars 10 field 0) hfields
  simp only [map_cons, map_nil, Nat.ofDigitChars_ten_toDigits, cons.injEq,
    and_true] at hnumbers
  obtain ⟨ha, hb, hc, hd⟩ := hnumbers
  exact ⟨ha.symm, hb.symm, hc.symm, hd.symm⟩

theorem mem_dotted (h : ch ∈ (dotted a b c d).toList) :
    ch.isDigit ∨ ch = '.' := by
  have hdigit : ∀ n, ch ∈ Nat.toDigits 10 n → ch.isDigit := fun n hn =>
    Nat.isDigit_of_mem_toDigits (by decide) (by decide) hn
  simp only [dotted, Nat.toString_eq_repr, String.toList_append, Nat.toList_repr, mem_append]
    at h
  rcases h with (((((h | h) | h) | h) | h) | h) | h
  · exact .inl (hdigit a h)
  · exact .inr (mem_singleton.mp h)
  · exact .inl (hdigit b h)
  · exact .inr (mem_singleton.mp h)
  · exact .inl (hdigit c h)
  · exact .inr (mem_singleton.mp h)
  · exact .inl (hdigit d h)

theorem octet_some (h : octet? cs = some n) : cs = Nat.toDigits 10 n ∧ n ≤ 255 := by
  unfold octet? at h
  dsimp only at h
  split at h
  · next hn =>
    cases h
    exact hn
  · cases h

variable {text : String}

theorem quad_some (h : quad? text = some (a, b, c, d)) : text = dotted a b c d := by
  have hfields : (text.toList.splitOn '.').map octet? = [some a, some b, some c, some d] := by
    unfold quad? at h
    split at h
    · next hfields =>
      cases h
      exact hfields
    · cases h
  have hdigits : text.toList.splitOn '.' = (dotted a b c d).toList.splitOn '.' := by
    rw [splitOn_dotted]
    obtain ⟨f, fs, hf, ha, hfs⟩ := map_eq_cons_iff.mp hfields
    obtain ⟨g, gs, rfl, hb, hgs⟩ := map_eq_cons_iff.mp hfs
    obtain ⟨i, is, rfl, hc, his⟩ := map_eq_cons_iff.mp hgs
    obtain ⟨j, js, rfl, hd, hjs⟩ := map_eq_cons_iff.mp his
    rw [hf, map_eq_nil_iff.mp hjs, (octet_some ha).1, (octet_some hb).1, (octet_some hc).1,
      (octet_some hd).1]
  have hjoin : ∀ s : String, ['.'].intercalate (s.toList.splitOn '.') = s.toList :=
    fun s => intercalate_splitOn '.'
  apply String.toList_injective
  rw [← hjoin text, hdigits, hjoin]

theorem quad_le (h : quad? text = some (a, b, c, d)) :
    a ≤ 255 ∧ b ≤ 255 ∧ c ≤ 255 ∧ d ≤ 255 := by
  have hquad := quad_dotted a b c d
  rw [← quad_some h, h] at hquad
  by_contra hbytes
  rw [if_neg hbytes] at hquad
  cases hquad

theorem value_injective {text' n n'} (h : quad? text = some n) (h' : quad? text' = some n')
    (hvalue : value n = value n') : text = text' := by
  obtain ⟨a, b, c, d⟩ := n
  obtain ⟨a', b', c', d'⟩ := n'
  have hle := quad_le h
  have hle' := quad_le h'
  simp only [value] at hvalue
  have hd : d = d' := by omega
  have hc : c = c' := by omega
  have hb : b = b' := by omega
  have ha : a = a' := by omega
  rw [quad_some h, quad_some h', ha, hb, hc, hd]

end DottedAddresses
