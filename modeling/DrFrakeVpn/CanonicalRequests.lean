import DrFrakeVpn.TextFields

/-! # The bytes of a request that are signed

The node agent and the backend each build the text that a request's signature is made of. A path
may hold a line break, the other fields may not. -/
namespace CanonicalRequests

open TextFields

abbrev Bytes := List UInt8

def newline : UInt8 := 0x0A

/-- The digits of `hex.EncodeToString`. -/
def hextable : Bytes :=
  [0x30, 0x31, 0x32, 0x33, 0x34, 0x35, 0x36, 0x37, 0x38, 0x39, 0x61, 0x62, 0x63, 0x64, 0x65, 0x66]

def hexPair (v : UInt8) : Bytes :=
  [hextable.getD (v.toNat / 16) 0, hextable.getD (v.toNat % 16) 0]

def encodeToString (src : Bytes) : Bytes := src.flatMap hexPair

/-- `sum` is SHA-256. -/
def canonicalRequest (sum : Bytes → Bytes) (method path timestamp nonce body : Bytes) : Bytes :=
  method ++ [newline] ++ path ++ [newline] ++ timestamp ++ [newline] ++ nonce ++ [newline] ++
    encodeToString (sum body)

def agentCanonicalRequest (sum : Bytes → Bytes) (method path timestamp nonce body : Bytes) :
    Bytes :=
  method ++ [newline] ++ path ++ [newline] ++ timestamp ++ [newline] ++ nonce ++ [newline] ++
    encodeToString (sum body)

theorem hextable_inj : ∀ m < 16, ∀ n < 16, hextable.getD m 0 = hextable.getD n 0 → m = n := by
  decide

theorem hexPair_inj (h : hexPair v = hexPair w) : v = w := by
  obtain ⟨hhigh, htail⟩ := List.cons_eq_cons.mp h
  obtain ⟨hlow, -⟩ := List.cons_eq_cons.mp htail
  have hv := v.toNat_lt
  have hw := w.toNat_lt
  have hdiv := hextable_inj _ (by omega) _ (by omega) hhigh
  have hmod := hextable_inj _ (by omega) _ (by omega) hlow
  exact UInt8.toNat_inj.mp (by omega)

theorem encodeToString_inj (h : encodeToString a = encodeToString b) : a = b := by
  induction a generalizing b with
  | nil =>
    cases b with
    | nil => rfl
    | cons w b => cases h
  | cons v a ih =>
    cases b with
    | nil => cases h
    | cons w b =>
      obtain ⟨hpair, hrest⟩ := List.append_inj h rfl
      rw [hexPair_inj hpair, ih hrest]

theorem newline_notMem_hex (src : Bytes) : newline ∉ encodeToString src := by
  intro h
  obtain ⟨v, -, hv⟩ := List.mem_flatMap.mp h
  have hdigit : ∀ n, n < 16 → hextable.getD n 0 ≠ newline := by decide
  have hlt := v.toNat_lt
  rcases List.mem_pair.mp hv with hv | hv
  · exact hdigit _ (by omega) hv.symm
  · exact hdigit _ (by omega) hv.symm

theorem signature_binds_request (sum : Bytes → Bytes)
    {method path timestamp nonce body method' path' timestamp' nonce' body' : Bytes}
    (hmethod : newline ∉ method) (htimestamp : newline ∉ timestamp) (hnonce : newline ∉ nonce)
    (hmethod' : newline ∉ method') (htimestamp' : newline ∉ timestamp')
    (hnonce' : newline ∉ nonce') :
    (canonicalRequest sum method path timestamp nonce body =
        canonicalRequest sum method' path' timestamp' nonce' body' →
      method = method' ∧ path = path' ∧ timestamp = timestamp' ∧ nonce = nonce' ∧
        sum body = sum body' ∧ (sum.Injective → body = body')) ∧
    agentCanonicalRequest sum method path timestamp nonce body =
      canonicalRequest sum method path timestamp nonce body := by
  refine ⟨?_, rfl⟩
  intro h
  -- the method ends at the first line break, the other fields are cut from the end
  obtain ⟨rfl, hrest⟩ := first_inj hmethod hmethod' (by simpa [canonicalRequest] using h)
  obtain ⟨hfields, hhash⟩ :=
    last_inj (newline_notMem_hex (sum body)) (newline_notMem_hex (sum body'))
      (a := path ++ newline :: (timestamp ++ newline :: nonce))
      (b := path' ++ newline :: (timestamp' ++ newline :: nonce')) (by simpa using hrest)
  obtain ⟨htwo, rfl⟩ := last_inj hnonce hnonce' (a := path ++ newline :: timestamp)
    (b := path' ++ newline :: timestamp') (by simpa using hfields)
  obtain ⟨rfl, rfl⟩ := last_inj htimestamp htimestamp' htwo
  have hsum := encodeToString_inj hhash
  exact ⟨rfl, rfl, rfl, rfl, hsum, fun hinj => hinj hsum⟩

/-- A line break at the end of a path. -/
theorem longer_path_distinct :
    canonicalRequest id [71] [47, 10] [49] [50] [1] ≠
      canonicalRequest id [71] [47] [49] [50] [1] := by
  intro h
  have hpath := ((signature_binds_request id (by decide) (by decide) (by decide) (by decide)
    (by decide) (by decide)).1 h).2.1
  exact absurd hpath (by decide)

end CanonicalRequests
