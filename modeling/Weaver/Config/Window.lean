import Mathlib.Order.Interval.Set.Defs
import Weaver.Config.Acceptance

/-!
# When a snapshot is valid

The validator compares the time in eight places, in loops that stop at the first entry that fails.
`validity_interval` puts them together: the times at which it accepts a snapshot are none, or those
from the latest beginning of a certificate up to the earliest expiry of an entry. Virtual DNS records
are compared with the snapshot's own window, and not with the time.
-/

namespace Weaver

open Checked Wire Collect

section Bounds

variable {α : Type} [LinearOrder α]

theorem foldr_max_le {a b : α} {l : List α} : l.foldr max a ≤ b ↔ a ≤ b ∧ ∀ x ∈ l, x ≤ b := by
  induction l with
  | nil => simp
  | cons y l ih =>
    rw [List.foldr_cons, max_le_iff, ih, List.forall_mem_cons]
    exact and_left_comm

theorem lt_foldr_min {a b : α} {l : List α} : b < l.foldr min a ↔ b < a ∧ ∀ x ∈ l, b < x := by
  induction l with
  | nil => simp
  | cons y l ih =>
    rw [List.foldr_cons, lt_min_iff, ih, List.forall_mem_cons]
    exact and_left_comm

end Bounds

/-! ## The bounds -/

namespace NetworkConfigV1

def admins (c : NetworkConfigV1) : List AdminCertificate :=
  c.adminKeys.filterMap fun key => (AdminCertificate.fromBytes key.certificate).toOption

def memberCertificates (c : NetworkConfigV1) : List MemberCertificate :=
  c.members.filterMap fun raw => (MemberCertificate.fromBytes raw).toOption

def beginnings (c : NetworkConfigV1) : List UInt64 :=
  c.admins.map (fun a => a.payload.notBeforeMs) ++
    c.memberCertificates.map fun m => m.payload.notBeforeMs

def expiries (c : NetworkConfigV1) : List UInt64 :=
  c.admins.map (fun a => a.payload.expiresAtMs) ++
    c.memberCertificates.map (fun m => m.payload.expiresAtMs) ++
    (c.endpointBindings.filterMap fun raw => (EndpointBinding.fromBytes raw).toOption).map
      (fun b => b.payload.expiresAtMs) ++
    (c.appBindings.filterMap fun raw => (AppBinding.fromBytes raw).toOption).map
      (fun b => b.payload.expiresAtMs) ++
    c.relays.map RelayDescriptor.expiresAtMs ++
    c.presenceServices.map PresenceServiceDescriptor.expiresAtMs

def validFrom (c : NetworkConfigV1) : UInt64 := c.beginnings.foldr max c.issuedAtMs

def validUntil (c : NetworkConfigV1) : UInt64 := c.expiries.foldr min c.expiresAtMs

end NetworkConfigV1

variable [Crypto] {c : NetworkConfigV1} {root : NetworkRootPublic} {network : NetworkId}
  {nowMs t : UInt64}

/-! ## The comparisons with the time -/

omit [Crypto] in
theorem mem_readable {P : Type} {F : PayloadFormat P} {l : List Bytes} {a : Signed F} :
    a ∈ (l.filterMap fun raw => (Signed.fromBytes F raw).toOption) ↔ a.toBytes ∈ l := by
  simp only [List.mem_filterMap, toOption_eq_some, Signed.fromBytes_eq_ok, exists_eq_right]

structure NetworkConfigV1.Timely (c : NetworkConfigV1) (t : UInt64) : Prop where
  issued : c.issuedAtMs ≤ t
  unexpired : t < c.expiresAtMs
  admins : ∀ a, c.ListsAdmin a → a.payload.notBeforeMs ≤ t ∧ t < a.payload.expiresAtMs
  members : ∀ m, c.ListsMember m → m.payload.notBeforeMs ≤ t ∧ t < m.payload.expiresAtMs
  endpoints : ∀ b, c.ListsEndpoint b → t < b.payload.expiresAtMs
  bindings : ∀ b, c.ListsBinding b → t < b.payload.expiresAtMs
  relays : ∀ relay ∈ c.relays, t < relay.expiresAtMs
  presence : ∀ service ∈ c.presenceServices, t < service.expiresAtMs

omit [Crypto] in
theorem NetworkConfigV1.mem_admins {a : AdminCertificate} : a ∈ c.admins ↔ c.ListsAdmin a := by
  unfold NetworkConfigV1.admins NetworkConfigV1.ListsAdmin
  simp only [List.mem_filterMap, toOption_eq_some]
  constructor
  · rintro ⟨⟨certificate⟩, hkey, hread⟩
    obtain rfl : certificate = a.toBytes := Signed.fromBytes_eq_ok.mp hread
    exact hkey
  · intro h
    exact ⟨_, h, Signed.fromBytes_eq_ok.mpr rfl⟩

omit [Crypto] in
theorem NetworkConfigV1.timely_iff : c.Timely t ↔ c.validFrom ≤ t ∧ t < c.validUntil := by
  have hmembers : ∀ m, m ∈ c.memberCertificates ↔ c.ListsMember m := fun m => mem_readable
  have hendpoints : ∀ b, b ∈ (c.endpointBindings.filterMap fun raw =>
      (EndpointBinding.fromBytes raw).toOption) ↔ c.ListsEndpoint b := fun b => mem_readable
  have hbindings : ∀ b, b ∈ (c.appBindings.filterMap fun raw =>
      (AppBinding.fromBytes raw).toOption) ↔ c.ListsBinding b := fun b => mem_readable
  unfold NetworkConfigV1.validFrom NetworkConfigV1.validUntil NetworkConfigV1.beginnings
    NetworkConfigV1.expiries
  rw [foldr_max_le, lt_foldr_min]
  simp only [List.forall_mem_append, List.forall_mem_map, NetworkConfigV1.mem_admins, hmembers,
    hendpoints, hbindings]
  constructor
  · intro h
    exact ⟨⟨h.issued, fun a ha => (h.admins a ha).1, fun m hm => (h.members m hm).1⟩, h.unexpired,
      ⟨⟨⟨⟨fun a ha => (h.admins a ha).2, fun m hm => (h.members m hm).2⟩, h.endpoints⟩,
        h.bindings⟩, h.relays⟩, h.presence⟩
  · rintro ⟨⟨hissued, hadmins, hmembers⟩, hunexpired, ⟨⟨⟨⟨hadmins', hmembers'⟩, hendpoints⟩,
      hbindings⟩, hrelays⟩, hpresence⟩
    exact ⟨hissued, hunexpired, fun a ha => ⟨hadmins a ha, hadmins' a ha⟩,
      fun m hm => ⟨hmembers m hm, hmembers' m hm⟩, hendpoints, hbindings, hrelays, hpresence⟩

theorem NetworkConfigV1.Acceptable.timely (h : c.Acceptable root network nowMs) :
    c.Timely nowMs := by
  refine ⟨h.issued, h.unexpired, ?_, ?_, ?_, ?_, fun relay hrelay => (h.relays relay hrelay).2,
    fun service hservice => (h.presence service hservice).2⟩
  · intro a ha
    have hverifies := h.admin_verifies ha
    exact ⟨hverifies.not_before, hverifies.unexpired⟩
  · intro m hm
    have hcurrent := (h.member_accepted hm).current
    exact ⟨hcurrent.not_before, hcurrent.unexpired⟩
  · intro b hb
    obtain ⟨_, -, hverifies⟩ := h.endpoint_accepted hb
    exact hverifies.unexpired
  · intro b hb
    obtain ⟨-, _, _, -, -, hverifies⟩ := h.binding_accepted hb
    exact hverifies.unexpired

theorem NetworkConfigV1.Acceptable.retime (h : c.Acceptable root network nowMs)
    (ht : c.Timely t) : c.Acceptable root network t :=
  { h with
    issued := ht.issued
    unexpired := ht.unexpired
    admins := by
      intro key hkey
      obtain ⟨a, heq, hverifies⟩ := h.admins key hkey
      have hlisted : c.ListsAdmin a := by
        unfold NetworkConfigV1.ListsAdmin
        rw [← heq]
        exact hkey
      obtain ⟨hbegun, hunexpired⟩ := ht.admins a hlisted
      exact ⟨a, heq, { hverifies with not_before := hbegun, unexpired := hunexpired }⟩
    members := by
      intro raw hraw
      obtain ⟨m, rfl, hcurrent, hissued⟩ := h.members raw hraw
      obtain ⟨hbegun, hunexpired⟩ := ht.members m hraw
      exact ⟨m, rfl, { hcurrent with not_before := hbegun, unexpired := hunexpired }, hissued⟩
    endpoints := by
      intro raw hraw
      obtain ⟨b, rfl, m, hm, hverifies⟩ := h.endpoints raw hraw
      exact ⟨b, rfl, m, hm, { hverifies with unexpired := ht.endpoints b hraw }⟩
    bindings := by
      intro raw hraw
      obtain ⟨b, rfl, hlimit, r, m, hr, hm, hverifies⟩ := h.bindings raw hraw
      exact ⟨b, rfl, hlimit, r, m, hr, hm, { hverifies with unexpired := ht.bindings b hraw }⟩
    relays := fun relay hrelay => ⟨(h.relays relay hrelay).1, ht.relays relay hrelay⟩
    presence := fun service hservice =>
      ⟨(h.presence service hservice).1, ht.presence service hservice⟩ }

def NetworkConfigV1.validTimes (c : NetworkConfigV1) (root : NetworkRootPublic)
    (network : NetworkId) : Set UInt64 := {t | ∃ v, c.validate root network t = .ok v}

theorem NetworkConfigV1.mem_validTimes :
    t ∈ c.validTimes root network ↔ c.Acceptable root network t := by
  rw [← NetworkConfigV1.check_eq_ok]
  constructor
  · rintro ⟨v, hv⟩
    exact (NetworkConfigV1.validate_eq_ok.mp hv).1
  · intro h
    exact ⟨⟨c, root, network, t, h⟩, NetworkConfigV1.validate_eq_ok.mpr ⟨h, rfl⟩⟩

/-- The times at which the validator accepts a snapshot are none, or those from the latest beginning
of the snapshot and its certificates up to the earliest expiry of the snapshot and its entries; so
that the snapshot is valid at every time between two at which it is. -/
theorem validity_interval (c : NetworkConfigV1) (root : NetworkRootPublic) (network : NetworkId) :
    (c.validTimes root network = ∅ ∨
      c.validTimes root network = Set.Ico c.validFrom c.validUntil) ∧
    ∀ t₁ t t₂, t₁ ∈ c.validTimes root network → t₂ ∈ c.validTimes root network → t₁ ≤ t →
      t ≤ t₂ → t ∈ c.validTimes root network := by
  -- once it is valid at some time, only the comparisons with the time matter
  have hinterval : ∀ t₀ ∈ c.validTimes root network, ∀ t,
      t ∈ c.validTimes root network ↔ c.validFrom ≤ t ∧ t < c.validUntil := by
    intro t₀ ht₀ t
    rw [← NetworkConfigV1.timely_iff, NetworkConfigV1.mem_validTimes]
    exact ⟨NetworkConfigV1.Acceptable.timely, (NetworkConfigV1.mem_validTimes.mp ht₀).retime⟩
  constructor
  · rcases Set.eq_empty_or_nonempty (c.validTimes root network) with hempty | ⟨t₀, ht₀⟩
    · exact .inl hempty
    · right
      ext t
      exact hinterval t₀ ht₀ t
  · intro t₁ t t₂ ht₁ ht₂ hle₁ hle₂
    obtain ⟨hfrom, -⟩ := (hinterval t₁ ht₁ t₁).mp ht₁
    obtain ⟨-, huntil⟩ := (hinterval t₁ ht₁ t₂).mp ht₂
    exact (hinterval t₁ ht₁ t).mpr ⟨hfrom.trans hle₁, hle₂.trans_lt huntil⟩

end Weaver
