import Mathlib

/-! # JSON values, text helpers and HTTP answers as the Go handlers see them -/
namespace GoValues

open List

inductive Json where
  | null
  | bool (b : Bool)
  | num (q : ℚ)
  | str (s : String)
  | arr (items : List Json)
  | obj (fields : List (String × Json))

/-- `m[key]` of a decoded object; the decoder keeps the last of repeated keys. -/
def lookup (fields : List (String × Json)) (key : String) : Option Json :=
  (fields.reverse.find? fun f => f.1 = key).map Prod.snd

/-- `s, _ := v.(string)`. -/
def asString : Option Json → String
  | some (.str s) => s
  | _ => ""

/-- `b, _ := v.(bool)`. -/
def asBool : Option Json → Bool
  | some (.bool b) => b
  | _ => false

/-- `m, ok := v.(map[string]interface{})`. -/
def asMap? : Option Json → Option (List (String × Json))
  | some (.obj fields) => some fields
  | _ => none

/-- `m, _ := v.(map[string]interface{})`; a nil map answers every key with nothing. -/
def asMap (v : Option Json) : List (String × Json) := (asMap? v).getD []

/-- `a, ok := v.([]interface{})`. -/
def asArr? : Option Json → Option (List Json)
  | some (.arr items) => some items
  | _ => none

/-- `a, _ := v.([]interface{})`. -/
def asArr (v : Option Json) : List Json := (asArr? v).getD []

/-- `delete(m, key)`. -/
def deleteField (fields : List (String × Json)) (key : String) : List (String × Json) :=
  fields.filter fun f => f.1 ≠ key

/-- `m[key] = v`. -/
def setField (fields : List (String × Json)) (key : String) (v : Json) : List (String × Json) :=
  deleteField fields key ++ [(key, v)]

variable (fields : List (String × Json))

theorem lookup_deleteField (key k : String) :
    lookup (deleteField fields key) k = if k = key then none else lookup fields k := by
  simp only [lookup, deleteField, ← filter_reverse, find?_filter]
  by_cases hk : k = key
  · subst hk
    simp
  · rw [if_neg hk]
    refine congrArg _ (congrFun (congrArg _ (funext fun f => ?_)) _)
    by_cases hf : f.1 = k
    · simp [hf, hk]
    · simp [hf]

theorem lookup_setField (key : String) (v : Json) (k : String) :
    lookup (setField fields key v) k = if k = key then some v else lookup fields k := by
  by_cases hk : k = key
  · subst hk
    simp [lookup, setField]
  · have hne : ¬ key = k := fun h => hk h.symm
    have hold := lookup_deleteField fields key k
    simp only [lookup, setField, reverse_append, reverse_cons, reverse_nil,
      nil_append, singleton_append, find?_cons, hne, decide_false, hk, if_false]
      at hold ⊢
    exact hold

/-- Decoding a body into `map[string]interface{}`: `none` is text that is no JSON. -/
def bindMap : Option Json → Option (List (String × Json))
  | some (.obj fields) => some fields
  | some .null => some []
  | _ => none

/-- The outcome of an HTTP call: no answer, or a status code with a body. -/
inductive HttpResult where
  | transportError
  | response (status : ℕ) (body : Option Json)

/-- `c.JSON(status, gin.H{..})`. -/
structure Response where
  status : ℕ
  body : List (String × Json)

def respondError (status : ℕ) (message : String) : Response := ⟨status, [("error", .str message)]⟩

/-- `unicode.IsSpace`. -/
def isSpace (c : Char) : Bool :=
  let n := c.toNat
  (9 ≤ n && n ≤ 13) || n = 0x20 || n = 0x85 || n = 0xA0 || n = 0x1680 ||
    (0x2000 ≤ n && n ≤ 0x200A) || n = 0x2028 || n = 0x2029 || n = 0x202F || n = 0x205F ||
    n = 0x3000

/-- `strings.TrimSpace`. -/
def trimSpace (s : String) : String :=
  String.ofList ((s.toList.dropWhile isSpace).reverse.dropWhile isSpace).reverse

/-- Simple case folding of the runes whose orbit has an ASCII letter. -/
def foldRune (c : Char) : Char :=
  if c.toNat = 0x17F then 's' else if c.toNat = 0x212A then 'k' else c.toLower

/-- `strings.EqualFold(s, t)` for an ASCII text `t`. -/
def equalFold (s t : String) : Bool := s.toList.map foldRune = t.toList.map foldRune

/-- `unicode.ToUpper` on the runes whose upper case is ASCII; every other rune stays
outside ASCII, whatever its upper case is. -/
def upperRune (c : Char) : Char :=
  if c.toNat = 0x131 then 'I' else if c.toNat = 0x17F then 'S' else c.toUpper

def toUpper (s : String) : String := String.ofList (s.toList.map upperRune)

/-- `unicode.ToLower` on the runes whose lower case is ASCII. -/
def lowerRune (c : Char) : Char :=
  if c.toNat = 0x130 then 'i' else if c.toNat = 0x212A then 'k' else c.toLower

def toLower (s : String) : String := String.ofList (s.toList.map lowerRune)

theorem toNat_toLower (c : Char) :
    c.toLower.toNat = if 65 ≤ c.toNat ∧ c.toNat ≤ 90 then c.toNat + 32 else c.toNat := by
  have hletter : 'A'.val ≤ c.val ∧ c.val ≤ 'Z'.val ↔ 65 ≤ c.toNat ∧ c.toNat ≤ 90 :=
    and_congr UInt32.le_iff_toNat_le UInt32.le_iff_toNat_le
  unfold Char.toLower
  split
  · next h =>
    rw [if_pos (hletter.mp h)]
    have hadd : (c.val + ('a'.val - 'A'.val)).toNat = (c.toNat + 32) % 2 ^ 32 :=
      UInt32.toNat_add _ _
    have hsmall := (hletter.mp h).2
    exact hadd.trans (Nat.mod_eq_of_lt (by omega))
  · next h => rw [if_neg fun hle => h (hletter.mpr hle)]

/-- Lower case neither makes a rune below the letters nor changes one. -/
theorem lowerRune_eq_iff (hc : c.toNat < 65) (d : Char) : lowerRune d = c ↔ d = c := by
  have hi : 'i'.toNat = 105 := rfl
  have hk : 'k'.toNat = 107 := rfl
  have hlower := toNat_toLower d
  have hnat : ∀ a b : Char, a = b ↔ a.toNat = b.toNat := fun a b => Char.toNat_inj.symm
  unfold lowerRune
  rw [hnat, hnat]
  split
  · omega
  · split
    · omega
    · split at hlower <;> omega

theorem isSpace_lowerRune (c : Char) : isSpace (lowerRune c) = isSpace c := by
  have hlower := toNat_toLower c
  unfold lowerRune
  split
  · next h => simp [isSpace, h]
  · split
    · next h => simp [isSpace, h]
    · unfold isSpace
      rw [hlower]
      split
      · next h =>
        simp
        grind
      · rfl

/-- `strings.Split(s, sep)` for a separator of one rune. -/
def split (s : String) (sep : Char) : List String := (s.toList.splitOn sep).map String.ofList

/-- `strings.Contains`. -/
def contains (s sub : String) : Bool := s.toList.tails.any fun t => sub.toList.isPrefixOf t

/-- `strconv.Atoi` on a 64-bit platform. -/
def atoi? (s : String) : Option ℤ :=
  let (negative, ds) := match s.toList with
    | '-' :: ds => (true, ds)
    | '+' :: ds => (false, ds)
    | ds => (false, ds)
  if ds = [] ∨ ds.all Char.isDigit = false then none
  else
    let n : ℤ := ds.foldl (fun n c => 10 * n + (c.toNat - '0'.toNat : ℕ)) 0
    let z := if negative then -n else n
    if -2 ^ 63 ≤ z ∧ z < 2 ^ 63 then some z else none

theorem foldl_digits (cs : List Char) (n : ℕ) :
    cs.foldl (fun (z : ℤ) c => 10 * z + (c.toNat - '0'.toNat : ℕ)) (n : ℤ) =
      (Nat.ofDigitChars 10 cs n : ℤ) := by
  induction cs generalizing n with
  | nil => rfl
  | cons c cs ih =>
    rw [Nat.ofDigitChars_cons, ← ih]
    rfl

theorem atoi_toString {n : ℕ} (h : n < 2 ^ 63) : atoi? (toString n) = some (n : ℤ) := by
  have hdigits : (toString n).toList = Nat.toDigits 10 n := by
    rw [Nat.toString_eq_repr, Nat.toList_repr]
  have hall : ∀ c ∈ Nat.toDigits 10 n, c.isDigit := fun c hc =>
    Nat.isDigit_of_mem_toDigits (by decide) (by decide) hc
  have hvalue := foldl_digits (Nat.toDigits 10 n) 0
  rw [Nat.ofDigitChars_toDigits (by decide) (by decide)] at hvalue
  unfold atoi?
  rw [hdigits]
  cases hcs : Nat.toDigits 10 n with
  | nil => exact absurd hcs (by simp)
  | cons c cs =>
    rw [hcs] at hall hvalue
    have hc := hall c mem_cons_self
    have hminus : c ≠ '-' := by
      rintro rfl
      cases hc
    have hplus : c ≠ '+' := by
      rintro rfl
      cases hc
    have hnodigit : ¬((c :: cs) = [] ∨ (c :: cs).all Char.isDigit = false) := by
      rintro (hnil | hfalse)
      · cases hnil
      · rw [all_eq_true.mpr hall] at hfalse
        cases hfalse
    split
    rename_i negative ds heq
    split at heq
    · rename_i hcons
      exact absurd (cons.inj hcons).1 hminus
    · rename_i hcons
      exact absurd (cons.inj hcons).1 hplus
    · obtain ⟨rfl, rfl⟩ := Prod.mk.inj heq
      rw [if_neg hnodigit]
      simp only [Int.ofNat_zero] at hvalue
      simp only [hvalue, Bool.false_eq_true, if_false]
      rw [if_pos]
      constructor <;> omega

def hasPrefix (s p : String) : Bool := p.toList.isPrefixOf s.toList

end GoValues
