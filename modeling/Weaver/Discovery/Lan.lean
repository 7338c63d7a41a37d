import Weaver.Discovery.LanTag
import Weaver.Discovery.PresenceCodec

/-!
# Recognising LAN tags

`ProtectedLanDiscovery` makes the tags of the endpoints of a configuration, one for each time slot,
and recognises a tag by making those of all known endpoints in three slots. What is hashed has a
fixed layout, so it determines the network, the epoch, the slot and the endpoint.
-/

namespace Weaver

open Checked Wire Collect

variable [Crypto]

omit [Crypto] in
def lanSlotMs : UInt64 := 5 * 60 * 1000

structure ProtectedLanDiscovery where
  networkId : NetworkId
  epoch : UInt64
  seed : Bytes32
  knownEndpoints : List EndpointId

namespace ProtectedLanDiscovery

/-- The loop body of `from_config`. -/
def knownEndpoint (raw : Bytes) : Except DiscoveryError EndpointId := do
  let binding ← (EndpointBinding.fromBytes raw).mapError .crypto
  okOr (EndpointId.fromBytes binding.payload.endpointId) .malformedEndpoint

def fromConfig (config : ValidatedNetworkConfig) :
    Except DiscoveryError ProtectedLanDiscovery := do
  let snapshot := config.asConfig
  let knownEndpoints ← snapshot.endpointBindings.mapM knownEndpoint
  return ⟨snapshot.networkId, snapshot.epoch, snapshot.epochSecrets.lanDiscoverySeed,
    knownEndpoints⟩

/-- What `tag_for_slot` hashes: the key and the message. -/
def tagInput (self : ProtectedLanDiscovery) (endpoint : EndpointId) (slot : UInt64) :
    Bytes32 × Bytes :=
  (self.seed, utf8 "weaver.lan-tag.v1\x00" ++ (self.networkId.asBytes.val ++ (be64 self.epoch ++
    (be64 slot ++ endpoint.asBytes.val))))

omit [Crypto] in
/-- The three slots that `match_tag` tries; the neighbours saturate at the ends of the range. -/
def slotsAt (nowMs : UInt64) : List UInt64 :=
  let current := nowMs / lanSlotMs
  [if current = 0 then 0 else current - 1, current,
    if current = 0xffffffffffffffff then current else current + 1]

section Tags

variable [KeyedHash]

omit [Crypto] in
def tagOf (input : Bytes32 × Bytes) : LanTag :=
  ⟨(KeyedHash.keyedHash input.1 input.2).val.take 16, by
    rw [List.length_take, bytesN_length]; rfl⟩

def tagForSlot (self : ProtectedLanDiscovery) (endpoint : EndpointId) (slot : UInt64) : LanTag :=
  tagOf (self.tagInput endpoint slot)

def tagFor (self : ProtectedLanDiscovery) (endpoint : EndpointId) (nowMs : UInt64) : LanTag :=
  self.tagForSlot endpoint (nowMs / lanSlotMs)

def matchTag (self : ProtectedLanDiscovery) (tag : LanTag) (nowMs : UInt64) : Option EndpointId :=
  self.knownEndpoints.find? fun endpoint =>
    (slotsAt nowMs).any fun slot => self.tagForSlot endpoint slot = tag

end Tags

/-! ## What a tag determines -/

omit [Crypto] in
def Adjacent (t t' : UInt64) : Prop :=
  (t / lanSlotMs).toNat ≤ (t' / lanSlotMs).toNat + 1 ∧
    (t' / lanSlotMs).toNat ≤ (t / lanSlotMs).toNat + 1

omit [Crypto] in
theorem mem_slotsAt {t t' : UInt64} : t / lanSlotMs ∈ slotsAt t' ↔ Adjacent t t' := by
  -- no slot is at the upper end of the range, so only the lower neighbour saturates
  have hmax : ∀ s : UInt64, (s / lanSlotMs).toNat < 2^64 - 1 := by
    intro s
    have hs := s.toNat_lt
    have hslot : lanSlotMs.toNat = 300000 := by decide
    rw [UInt64.toNat_div, hslot]
    omega
  have h := hmax t
  have h' := hmax t'
  unfold slotsAt Adjacent
  generalize t / lanSlotMs = a at *
  generalize t' / lanSlotMs = b at *
  have hb : b ≠ 0xffffffffffffffff := by
    rintro rfl
    exact absurd h' (by decide)
  have hnext : (b + 1).toNat = b.toNat + 1 := by
    rw [UInt64.toNat_add, UInt64.toNat_one]
    omega
  simp only [List.mem_cons, List.not_mem_nil, or_false]
  rw [if_neg hb]
  simp only [← UInt64.toNat_inj, hnext]
  by_cases hzero : b.toNat = 0
  · rw [if_pos (by exact hzero), UInt64.toNat_zero]
    omega
  · have hprevious : (b - 1).toNat = b.toNat - 1 :=
      UInt64.toNat_sub_of_le _ _ (UInt64.le_iff_toNat_le.mpr (by rw [UInt64.toNat_one]; omega))
    rw [if_neg (by exact hzero), hprevious]
    omega

theorem endpoint_ext {e e' : EndpointId} (h : e.asBytes = e'.asBytes) : e = e' :=
  Option.some.inj ((EndpointId.fromBytes_eq_some.mpr h).symm.trans
    (EndpointId.fromBytes_eq_some.mpr rfl))

theorem tagInput_inj {self other : ProtectedLanDiscovery} {e e' : EndpointId} {slot slot' : UInt64}
    (h : self.tagInput e slot = other.tagInput e' slot') :
    (self.networkId = other.networkId ∧ self.epoch = other.epoch ∧ self.seed = other.seed) ∧
      slot = slot' ∧ e = e' := by
  obtain ⟨hseed, hmessage⟩ := Prod.mk.inj h
  obtain ⟨hnetwork, hrest⟩ := List.append_inj (List.append_cancel_left hmessage)
    (by rw [bytesN_length, bytesN_length])
  obtain ⟨hepoch, hrest⟩ := List.append_inj hrest (by rw [be64_length, be64_length])
  obtain ⟨hslot, hendpoint⟩ := List.append_inj hrest (by rw [be64_length, be64_length])
  refine ⟨⟨?_, be64_injective hepoch, hseed⟩, be64_injective hslot, ?_⟩
  · exact congrArg NetworkId.mk (Subtype.ext hnetwork)
  · exact endpoint_ext (Subtype.ext hendpoint)

theorem mem_knownEndpoints {config : ValidatedNetworkConfig} {self : ProtectedLanDiscovery}
    (h : fromConfig config = .ok self) {e : EndpointId} : e ∈ self.knownEndpoints ↔
      ∃ b : EndpointBinding, config.asConfig.ListsEndpoint b ∧
        b.payload.endpointId = e.asBytes := by
  unfold fromConfig at h
  simp only [bind_eq_ok, mapM_eq_ok, pure_eq_ok_iff] at h
  obtain ⟨endpoints, hread, rfl⟩ := h
  have hbound : ∀ {raw known}, knownEndpoint raw = .ok known →
      ∃ b : EndpointBinding, raw = b.toBytes ∧ b.payload.endpointId = known.asBytes := by
    intro raw known hraw
    unfold knownEndpoint at hraw
    simp only [bind_eq_ok, mapError_eq_ok, okOr_eq_ok, EndpointId.fromBytes_eq_some,
      Signed.fromBytes_eq_ok] at hraw
    obtain ⟨b, hb, hknown⟩ := hraw
    exact ⟨b, hb, hknown.symm⟩
  constructor
  · intro he
    obtain ⟨raw, hraw, hknown⟩ := exists_of_mem_right hread he
    obtain ⟨b, rfl, hb⟩ := hbound hknown
    exact ⟨b, hraw, hb⟩
  · rintro ⟨b, hlisted, hb⟩
    obtain ⟨known, hmem, hknown⟩ := exists_of_mem_left hread hlisted
    obtain ⟨b', hbytes, hb'⟩ := hbound hknown
    obtain rfl := Signed.toBytes_injective hbytes
    rwa [endpoint_ext (hb.symm.trans hb')]

variable [KeyedHash]

/-- A tag is recognised as the endpoint that it was made for, if it was made for the same network,
epoch and seed, the endpoint is one of the configuration, and the slots are adjacent; and as no
endpoint otherwise. The hash has no collision of the tag with one that is tried. -/
theorem lan_tag_matches_iff_adjacent {config : ValidatedNetworkConfig}
    {self : ProtectedLanDiscovery} (h : fromConfig config = .ok self)
    (other : ProtectedLanDiscovery) (e : EndpointId) (t t' : UInt64)
    (hcollision : ∀ known ∈ self.knownEndpoints, ∀ slot ∈ slotsAt t',
      self.tagForSlot known slot = other.tagFor e t →
        self.tagInput known slot = other.tagInput e (t / lanSlotMs)) :
    (e ∈ self.knownEndpoints ↔
      ∃ b : EndpointBinding, config.asConfig.ListsEndpoint b ∧ b.payload.endpointId = e.asBytes) ∧
    ∀ found, self.matchTag (other.tagFor e t) t' = some found ↔ found = e ∧
      (self.networkId = other.networkId ∧ self.epoch = other.epoch ∧ self.seed = other.seed) ∧
      e ∈ self.knownEndpoints ∧ Adjacent t t' := by
  have hfound : ∀ {found}, self.matchTag (other.tagFor e t) t' = some found → found = e ∧
      (self.networkId = other.networkId ∧ self.epoch = other.epoch ∧ self.seed = other.seed) ∧
      e ∈ self.knownEndpoints ∧ Adjacent t t' := by
    intro found hmatch
    have hknown := List.mem_of_find?_eq_some hmatch
    have htried : (slotsAt t').any (fun slot => self.tagForSlot found slot = other.tagFor e t) =
        true := List.find?_some (p := fun known => (slotsAt t').any fun slot =>
          self.tagForSlot known slot = other.tagFor e t) hmatch
    obtain ⟨slot, hslot, htag⟩ := List.any_eq_true.mp htried
    obtain ⟨hscope, rfl, rfl⟩ :=
      tagInput_inj (hcollision found hknown slot hslot (of_decide_eq_true htag))
    exact ⟨rfl, hscope, hknown, mem_slotsAt.mp hslot⟩
  refine ⟨mem_knownEndpoints h, fun found => ⟨hfound, ?_⟩⟩
  rintro ⟨rfl, ⟨hnetwork, hepoch, hseed⟩, hknown, hadjacent⟩
  -- the endpoint's own tag is among those that are tried, so that one is found
  have hown : self.tagForSlot found (t / lanSlotMs) = other.tagFor found t := by
    unfold tagFor tagForSlot tagInput
    rw [hnetwork, hepoch, hseed]
  have hsome : (self.matchTag (other.tagFor found t) t').isSome = true :=
    List.find?_isSome.mpr ⟨found, hknown, List.any_eq_true.mpr
      ⟨_, mem_slotsAt.mpr hadjacent, decide_eq_true hown⟩⟩
  obtain ⟨found', hmatch⟩ := Option.isSome_iff_exists.mp hsome
  rw [hmatch, (hfound hmatch).1]

end ProtectedLanDiscovery

end Weaver

namespace Weaver.Sample

open Checked Wire Transparent

section Lan

/-- A keyed hash whose first bytes are the last ones of the message. -/
local instance reversedResidue : KeyedHash :=
  ⟨fun key m => ⟨(residue (key.val ++ m)).val.reverse, by rw [List.length_reverse, bytesN_length]⟩⟩

/-- A member's tag is recognised five minutes later, and not ten minutes later. -/
theorem lan_tag_sample : ∃ config self e, ProtectedLanDiscovery.fromConfig config = .ok self ∧
    self.matchTag (self.tagFor e 1500) 301500 = some e ∧
    self.matchTag (self.tagFor e 1500) 601500 ≠ some e := by
  have hsome : joinedMember.any (fun member =>
      (ProtectedLanDiscovery.fromConfig member.1).toOption.any fun self =>
        decide (member.2.1 ∈ self.knownEndpoints) && [301500, 601500].all fun t =>
          self.knownEndpoints.all fun known => (ProtectedLanDiscovery.slotsAt t).all fun slot =>
            decide (self.tagForSlot known slot = self.tagFor member.2.1 1500 →
              self.tagInput known slot = self.tagInput member.2.1 (1500 / lanSlotMs))) = true := by
    decide +kernel
  obtain ⟨⟨config, e, _⟩, -, hself⟩ := (Option.any_eq_true _ _).mp hsome
  obtain ⟨self, hself, hall⟩ := (Option.any_eq_true _ _).mp hself
  simp only [Bool.and_eq_true, List.all_eq_true, decide_eq_true_eq] at hall
  obtain ⟨hknown, hfree⟩ := hall
  rw [toOption_eq_some] at hself
  have hmatches := fun t ht => (ProtectedLanDiscovery.lan_tag_matches_iff_adjacent hself self e 1500
    t (hfree t ht)).2 e
  refine ⟨config, self, e, hself, (hmatches _ (by simp)).mpr ?_, fun h => ?_⟩
  · exact ⟨rfl, ⟨rfl, rfl, rfl⟩, hknown, by decide, by decide⟩
  · exact absurd ((hmatches _ (by simp)).mp h).2.2.2.2 (by decide)

end Lan

end Weaver.Sample
