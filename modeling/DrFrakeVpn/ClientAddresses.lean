import DrFrakeVpn.ConfigDelivery
import DrFrakeVpn.DottedAddresses

/-! # Addresses in the tunnel

`GetConfig` derives the address of a client from the user id: 253 users share a third byte and
the third byte counts up from 1. -/
namespace ClientAddresses

open ConfigDelivery DottedAddresses

/-- The text is an address of 10.8.0.0/16 that is neither that of a network, of the server nor
of a broadcast. -/
def Usable (text : String) : Prop :=
  ∃ c d, quad? text = some (10, 8, c, d) ∧ d ≠ 0 ∧ d ≠ 1 ∧ d ≠ 255

/-- The largest id whose third byte is a byte. -/
def lastUserID : UInt64 := 64515

variable {u : UInt64}

theorem clientIP_eq (hu : 1 ≤ u) :
    clientIP u.toNat = dotted 10 8 ((u.toNat - 1) / 253 + 1) ((u.toNat - 1) % 253 + 2) := by
  have hpos : 1 ≤ u.toNat := UInt64.le_iff_toNat_le.mp hu
  have hlt : u.toNat < 2 ^ 64 := u.toNat_lt
  have hn : (u.toNat + (2 ^ 64 - 1)) % 2 ^ 64 = u.toNat - 1 := by omega
  unfold clientIP
  rw [hn]
  rfl

theorem thirdByte_le_iff : (u.toNat - 1) / 253 + 1 ≤ 255 ↔ u ≤ lastUserID := by
  have hlast : lastUserID.toNat = 64515 := rfl
  rw [UInt64.le_iff_toNat_le, hlast]
  omega

/-- The last byte is always between 2 and 254, so only the third one can be out of range. -/
theorem usable_clientIP_iff (hu : 1 ≤ u) : Usable (clientIP u.toNat) ↔ u ≤ lastUserID := by
  rw [← thirdByte_le_iff, clientIP_eq hu, Usable, quad_dotted]
  constructor
  · rintro ⟨c, d, hquad, -⟩
    by_contra hbyte
    rw [if_neg (by omega)] at hquad
    cases hquad
  · intro hbyte
    rw [if_pos ⟨by decide, by decide, hbyte, by omega⟩]
    exact ⟨_, _, rfl, by omega, by omega, by omega⟩

theorem clientIP_injective (hu : 1 ≤ u) (hv : 1 ≤ v) (h : clientIP u.toNat = clientIP v.toNat) :
    u = v := by
  have hupos : 1 ≤ u.toNat := UInt64.le_iff_toNat_le.mp hu
  have hvpos : 1 ≤ v.toNat := UInt64.le_iff_toNat_le.mp hv
  rw [clientIP_eq hu, clientIP_eq hv] at h
  obtain ⟨-, -, hquotient, hremainder⟩ := dotted_injective h
  apply UInt64.toNat_inj.mp
  have hdivu := Nat.div_add_mod (u.toNat - 1) 253
  have hdivv := Nat.div_add_mod (v.toNat - 1) 253
  omega

/-- Two users have usable addresses of their own exactly if both ids are at most the last one
that fits. -/
theorem addresses_unique_iff {u v : UInt64} (hu : 1 ≤ u) (hv : 1 ≤ v) (huv : u ≠ v) :
    (Usable (clientIP u.toNat) ∧ Usable (clientIP v.toNat) ∧
      clientIP u.toNat ≠ clientIP v.toNat) ↔ u ≤ lastUserID ∧ v ≤ lastUserID := by
  rw [usable_clientIP_iff hu, usable_clientIP_iff hv]
  constructor
  · rintro ⟨hule, hvle, -⟩
    exact ⟨hule, hvle⟩
  · rintro ⟨hule, hvle⟩
    exact ⟨hule, hvle, fun h => huv (clientIP_injective hu hv h)⟩

/-- The first user and the last one that fits. -/
theorem first_and_last_differ :
    clientIP 1 = "10.8.1.2" ∧ clientIP 64515 = "10.8.255.254" ∧ Usable (clientIP 1) ∧
      Usable (clientIP 64515) := by
  obtain ⟨hfirst, hlast, -⟩ :=
    (addresses_unique_iff (show (1 : UInt64) ≤ 1 by decide)
      (show (1 : UInt64) ≤ 64515 by decide) (by decide)).mpr ⟨by decide, by decide⟩
  exact ⟨by decide +kernel, by decide +kernel, hfirst, hlast⟩

/-- The next user gets a text that is no address. -/
theorem next_user_without_address :
    clientIP (64516 : UInt64).toNat = "10.8.256.2" ∧
      quad? (clientIP (64516 : UInt64).toNat) = none ∧
      ¬ Usable (clientIP (64516 : UInt64).toNat) := by
  have hnone : quad? (clientIP (64516 : UInt64).toNat) = none := by decide +kernel
  refine ⟨by decide +kernel, hnone, ?_⟩
  rintro ⟨c, d, hquad, -⟩
  cases hquad

end ClientAddresses
