import Weaver.Crypto.Transparent
import Weaver.Discovery.Presence
import Weaver.Lib.Hashed

/-!
# The presence cache

`PresenceCache` files the records that were opened in two maps, by address and by endpoint. The two
are changed by insertions, by removals and by a filter each; `PresenceCache.Consistent` says that
they agree, and it holds after every sequence of calls.
-/

namespace Weaver

open Hashed

variable [Crypto]

structure PresenceCache where
  records : Map (NetworkId × ScopedVirtualAddr) PresenceRecord
  endpointRecords : Map (NetworkId × EndpointId) PresenceRecord

namespace PresenceCache

/-- `PresenceCache::default`. -/
def empty : PresenceCache := ⟨∅, ∅⟩

def addressKeys (record : PresenceRecord) : List (NetworkId × ScopedVirtualAddr) :=
  record.virtualAddrs.map fun address => (record.networkId, address)

def current (cache : PresenceCache) (networkId : NetworkId) (endpointId : EndpointId) :
    Option PresenceRecord :=
  cache.endpointRecords.lookup (networkId, endpointId)

def withRecord (cache : PresenceCache) (record : PresenceRecord) : PresenceCache :=
  let previous := cache.current record.networkId record.endpointId
  { records := insertAll (eraseAll cache.records ((previous.map addressKeys).getD []))
      (addressKeys record) record
    endpointRecords := cache.endpointRecords.insert (record.networkId, record.endpointId) record }

/-- The part of `apply` after the comparison with the endpoint's current record. -/
def replace (cache : PresenceCache) (record : PresenceRecord) :
    Except DiscoveryError Bool × PresenceCache :=
  if (record.virtualAddrs.any fun address =>
      (cache.records.lookup (record.networkId, address)).any fun current =>
        current.endpointId ≠ record.endpointId) = true then
    (.error .invalidPresence, cache)
  else (.ok true, cache.withRecord record)

def apply (cache : PresenceCache) (record : PresenceRecord) :
    Except DiscoveryError Bool × PresenceCache :=
  match cache.current record.networkId record.endpointId with
  | some current =>
    if record.sequence < current.sequence ∨
        record.sequence = current.sequence ∧ record ≠ current then
      (.error .rollback, cache)
    else if record = current then (.ok false, cache)
    else cache.replace record
  | none => cache.replace record

def get (cache : PresenceCache) (networkId : NetworkId) (address : ScopedVirtualAddr)
    (nowMs : UInt64) : Option PresenceRecord :=
  (cache.records.lookup (networkId, address)).filter fun record => nowMs < record.expiresAtMs

/-- `PresenceCache::purge_expired`: the endpoints whose record has ended, and the cache without
them. -/
def purgeExpired (cache : PresenceCache) (nowMs : UInt64) : List EndpointId × PresenceCache :=
  ((cache.endpointRecords.entries.filter fun entry => entry.2.expiresAtMs ≤ nowMs).map fun entry =>
      entry.1.2,
    ⟨retain cache.records fun record => nowMs < record.expiresAtMs,
      retain cache.endpointRecords fun record => nowMs < record.expiresAtMs⟩)

def containsEndpoint (cache : PresenceCache) (endpointId : EndpointId) : Bool :=
  cache.endpointRecords.keys.any fun key => key.2 = endpointId

/-! ## What a call does -/

variable {cache : PresenceCache} {record : PresenceRecord}

/-- Another endpoint's record, of which `p` holds, is filed under an address of the record. -/
def Held (cache : PresenceCache) (record : PresenceRecord) (p : PresenceRecord → Prop) : Prop :=
  ∃ address ∈ record.virtualAddrs, ∃ r,
    cache.records.lookup (record.networkId, address) = some r ∧
      r.endpointId ≠ record.endpointId ∧ p r

theorem replace_of_held (h : cache.Held record fun _ => True) :
    cache.replace record = (.error .invalidPresence, cache) := by
  obtain ⟨address, haddress, r, hr, hother, -⟩ := h
  exact if_pos (List.any_eq_true.mpr ⟨address, haddress,
    (Option.any_eq_true _ _).mpr ⟨r, hr, decide_eq_true hother⟩⟩)

theorem replace_of_not_held (h : ¬ cache.Held record fun _ => True) :
    cache.replace record = (.ok true, cache.withRecord record) := by
  refine if_neg fun htaken => h ?_
  obtain ⟨address, haddress, htaken⟩ := List.any_eq_true.mp htaken
  obtain ⟨r, hr, hother⟩ := (Option.any_eq_true _ _).mp htaken
  exact ⟨address, haddress, r, hr, of_decide_eq_true hother, trivial⟩

theorem apply_of_newer (h : ∀ r, cache.current record.networkId record.endpointId = some r →
    r.sequence < record.sequence) : cache.apply record = cache.replace record := by
  unfold apply
  split
  · rename_i r hr
    have hlt := h r hr
    have hold : ¬ (record.sequence < r.sequence ∨ record.sequence = r.sequence ∧ record ≠ r) :=
      fun hor => hor.elim (fun hgt => lt_asymm hlt hgt) fun heq => hlt.ne heq.1.symm
    have hne : record ≠ r := fun heq => hlt.ne (congrArg PresenceRecord.sequence heq).symm
    rw [if_neg hold, if_neg hne]
  · rfl

theorem apply_cases (cache : PresenceCache) (record : PresenceRecord) :
    ((cache.apply record).1 ≠ .ok true ∧ (cache.apply record).2 = cache) ∨
      ((∀ r, cache.current record.networkId record.endpointId = some r →
          r.sequence < record.sequence) ∧
        (∀ address ∈ record.virtualAddrs, ∀ r,
          cache.records.lookup (record.networkId, address) = some r →
            r.endpointId = record.endpointId) ∧
        cache.apply record = (.ok true, cache.withRecord record)) := by
  by_cases hnewer : ∀ r, cache.current record.networkId record.endpointId = some r →
      r.sequence < record.sequence
  · rw [apply_of_newer hnewer]
    by_cases hheld : cache.Held record fun _ => True
    · rw [replace_of_held hheld]
      exact .inl ⟨by simp, rfl⟩
    · refine .inr ⟨hnewer, fun address haddress r hr => ?_, replace_of_not_held hheld⟩
      by_contra hother
      exact hheld ⟨address, haddress, r, hr, hother, trivial⟩
  · push Not at hnewer
    obtain ⟨r, hr, hle⟩ := hnewer
    left
    unfold apply
    rw [hr]
    by_cases hsame : record = r
    · have hold : ¬ (record.sequence < r.sequence ∨ record.sequence = r.sequence ∧ record ≠ r) := by
        simp [hsame]
      simp only [if_neg hold, if_pos hsame]
      exact ⟨by simp, trivial⟩
    · have hold : record.sequence < r.sequence ∨ record.sequence = r.sequence ∧ record ≠ r :=
        hle.lt_or_eq.imp id fun heq => ⟨heq, hsame⟩
      simp only [if_pos hold]
      exact ⟨by simp, trivial⟩

theorem current_withRecord (networkId : NetworkId) (endpointId : EndpointId) :
    (cache.withRecord record).current networkId endpointId =
      if networkId = record.networkId ∧ endpointId = record.endpointId then some record
      else cache.current networkId endpointId := by
  change (cache.endpointRecords.insert (record.networkId, record.endpointId) record).lookup _ = _
  by_cases hkey : (networkId, endpointId) = (record.networkId, record.endpointId)
  · rw [hkey, AList.lookup_insert, if_pos (Prod.mk.inj hkey)]
  · rw [AList.lookup_insert_ne hkey, if_neg fun heq => hkey (Prod.ext heq.1 heq.2)]
    rfl

theorem current_purgeExpired (nowMs : UInt64) (networkId : NetworkId) (endpointId : EndpointId) :
    (cache.purgeExpired nowMs).2.current networkId endpointId =
      (cache.current networkId endpointId).filter fun r => nowMs < r.expiresAtMs :=
  lookup_retain _ _ _

theorem lookup_purgeExpired (nowMs : UInt64) (key : NetworkId × ScopedVirtualAddr) :
    (cache.purgeExpired nowMs).2.records.lookup key =
      (cache.records.lookup key).filter fun r => nowMs < r.expiresAtMs :=
  lookup_retain _ _ _

variable {nowMs : UInt64} {endpointId : EndpointId}

theorem mem_removed :
    endpointId ∈ (cache.purgeExpired nowMs).1 ↔
      ∃ networkId r, cache.current networkId endpointId = some r ∧ r.expiresAtMs ≤ nowMs := by
  simp only [purgeExpired, List.mem_map, List.mem_filter, decide_eq_true_eq]
  constructor
  · rintro ⟨⟨⟨networkId, _⟩, r⟩, ⟨hentry, hexpired⟩, rfl⟩
    exact ⟨networkId, r, AList.mem_lookup_iff.mpr hentry, hexpired⟩
  · rintro ⟨networkId, r, hr, hexpired⟩
    exact ⟨⟨(networkId, endpointId), r⟩, ⟨AList.mem_lookup_iff.mp hr, hexpired⟩, rfl⟩

theorem containsEndpoint_iff : cache.containsEndpoint endpointId = true ↔
    ∃ networkId r, cache.current networkId endpointId = some r := by
  simp only [containsEndpoint, List.any_eq_true, decide_eq_true_eq, ← AList.mem_keys,
    ← AList.lookup_isSome, Option.isSome_iff_exists]
  constructor
  · rintro ⟨⟨networkId, _⟩, ⟨r, hr⟩, rfl⟩
    exact ⟨networkId, r, hr⟩
  · rintro ⟨networkId, r, hr⟩
    exact ⟨(networkId, endpointId), ⟨r, hr⟩, rfl⟩

/-! ## Consistency -/

/-- The maps agree: a record is filed under the addresses that it lists, as long as it is its
endpoint's current one. -/
structure Consistent (cache : PresenceCache) : Prop where
  keyed : ∀ networkId endpointId r, cache.current networkId endpointId = some r →
    r.networkId = networkId ∧ r.endpointId = endpointId
  filed : ∀ networkId address r, cache.records.lookup (networkId, address) = some r ↔
    cache.current networkId r.endpointId = some r ∧ address ∈ r.virtualAddrs

theorem consistent_empty : empty.Consistent := by
  constructor
  · intro networkId endpointId r h
    cases h
  · intro networkId address r
    exact ⟨fun h => (by cases h), fun h => (by cases h.1)⟩

variable {networkId : NetworkId} {address : ScopedVirtualAddr}

theorem mem_addressKeys :
    (networkId, address) ∈ addressKeys record ↔
      networkId = record.networkId ∧ address ∈ record.virtualAddrs := by
  simp only [addressKeys, List.mem_map, Prod.mk.injEq]
  constructor
  · rintro ⟨a, ha, rfl, rfl⟩
    exact ⟨rfl, ha⟩
  · rintro ⟨rfl, ha⟩
    exact ⟨address, ha, rfl, rfl⟩

theorem Consistent.mem_previous (h : cache.Consistent) :
    (networkId, address) ∈
        ((cache.current record.networkId record.endpointId).map addressKeys).getD [] ↔
      ∃ r, cache.current record.networkId record.endpointId = some r ∧
        cache.records.lookup (networkId, address) = some r := by
  cases hcurrent : cache.current record.networkId record.endpointId with
  | none => simp
  | some previous =>
    obtain ⟨hnetwork, hendpoint⟩ := h.keyed _ _ _ hcurrent
    simp only [Option.map_some, Option.getD_some, mem_addressKeys, Option.some.injEq,
      exists_eq_left', h.filed]
    constructor
    · rintro ⟨rfl, haddress⟩
      rw [hnetwork, hendpoint]
      exact ⟨hcurrent, haddress⟩
    · rintro ⟨hfiled, haddress⟩
      exact ⟨(h.keyed _ _ _ hfiled).1.symm, haddress⟩

theorem Consistent.apply (h : cache.Consistent) (record : PresenceRecord) :
    (cache.apply record).2.Consistent := by
  rcases cache.apply_cases record with ⟨-, hsame⟩ | ⟨-, hfree, happly⟩
  · rw [hsame]
    exact h
  rw [happly]
  constructor
  · intro networkId endpointId r hr
    rw [current_withRecord] at hr
    split_ifs at hr with hkey
    · obtain rfl := Option.some.inj hr
      exact ⟨hkey.1.symm, hkey.2.symm⟩
    · exact h.keyed _ _ _ hr
  · intro networkId address r
    rw [current_withRecord]
    simp only [withRecord, lookup_insertAll, lookup_eraseAll, mem_addressKeys, h.mem_previous]
    -- the record's own addresses, those of the one before it, and the others
    by_cases hown : networkId = record.networkId ∧ address ∈ record.virtualAddrs
    · obtain ⟨rfl, haddress⟩ := hown
      rw [if_pos ⟨rfl, haddress⟩, Option.some.injEq]
      constructor
      · rintro rfl
        exact ⟨if_pos ⟨rfl, rfl⟩, haddress⟩
      · rintro ⟨hr, hlisted⟩
        split_ifs at hr with hkey
        · exact Option.some.inj hr
        · exact absurd ⟨rfl, hfree address haddress r ((h.filed _ _ _).mpr ⟨hr, hlisted⟩)⟩ hkey
    rw [if_neg hown]
    by_cases hprevious : ∃ r, cache.current record.networkId record.endpointId = some r ∧
        cache.records.lookup (networkId, address) = some r
    · rw [if_pos hprevious]
      obtain ⟨previous, hlast, hfiled⟩ := hprevious
      refine ⟨fun hr => (by cases hr), fun ⟨hr, hlisted⟩ => ?_⟩
      split_ifs at hr with hkey
      · obtain rfl := Option.some.inj hr
        exact absurd ⟨hkey.1, hlisted⟩ hown
      · obtain rfl := Option.some.inj (hfiled.symm.trans ((h.filed _ _ _).mpr ⟨hr, hlisted⟩))
        obtain ⟨hnetwork, hendpoint⟩ := h.keyed _ _ _ hlast
        exact absurd ⟨(h.keyed _ _ _ hr).1.symm.trans hnetwork, hendpoint⟩ hkey
    · rw [if_neg hprevious, h.filed]
      refine and_congr_left fun hlisted => ?_
      split_ifs with hkey
      · obtain ⟨rfl, hendpoint⟩ := hkey
        rw [hendpoint]
        constructor
        · intro hr
          exact absurd ⟨r, hr, (h.filed _ _ _).mpr ⟨hendpoint ▸ hr, hlisted⟩⟩ hprevious
        · intro hr
          obtain rfl := Option.some.inj hr
          exact absurd ⟨rfl, hlisted⟩ hown
      · rfl

theorem Consistent.purgeExpired (h : cache.Consistent) (nowMs : UInt64) :
    (cache.purgeExpired nowMs).2.Consistent := by
  constructor
  · intro networkId endpointId r hr
    rw [current_purgeExpired, Option.filter_eq_some_iff] at hr
    exact h.keyed _ _ _ hr.1
  · intro networkId address r
    rw [current_purgeExpired, Option.filter_eq_some_iff]
    rw [lookup_purgeExpired, Option.filter_eq_some_iff, h.filed]
    exact and_right_comm

/-! ## Runs -/

inductive Call where
  | apply (record : PresenceRecord)
  | purgeExpired (nowMs : UInt64)

def step (cache : PresenceCache) : Call → PresenceCache
  | .apply record => (cache.apply record).2
  | .purgeExpired nowMs => (cache.purgeExpired nowMs).2

def run (calls : List Call) : PresenceCache := calls.foldl step empty

theorem Consistent.foldl (h : cache.Consistent) (calls : List Call) :
    (calls.foldl step cache).Consistent := by
  induction calls generalizing cache with
  | nil => exact h
  | cons call calls ih =>
    refine ih ?_
    cases call with
    | apply record => exact h.apply record
    | purgeExpired nowMs => exact h.purgeExpired nowMs

/-- After every sequence of calls, the address map has a record exactly under the addresses that it
lists, if it is the current one of its endpoint; no two endpoints own an address; what `get` returns
is such a record that has not ended; and a call of `apply` that does not return `Ok(true)` changes
nothing. -/
theorem presence_cache_consistent (calls : List Call) :
    (∀ networkId address r, (run calls).records.lookup (networkId, address) = some r ↔
      (run calls).current networkId r.endpointId = some r ∧ address ∈ r.virtualAddrs) ∧
    (∀ networkId address endpointId endpointId' r r',
      (run calls).current networkId endpointId = some r →
      (run calls).current networkId endpointId' = some r' →
      address ∈ r.virtualAddrs → address ∈ r'.virtualAddrs → endpointId = endpointId') ∧
    (∀ networkId address nowMs r, (run calls).get networkId address nowMs = some r →
      (run calls).current networkId r.endpointId = some r ∧ address ∈ r.virtualAddrs ∧
        nowMs < r.expiresAtMs) ∧
    ∀ record, ((run calls).apply record).1 ≠ .ok true →
      ((run calls).apply record).2 = run calls := by
  have h : (run calls).Consistent := consistent_empty.foldl calls
  refine ⟨h.filed, ?_, ?_, ?_⟩
  · intro networkId address endpointId endpointId' r r' hr hr' hlisted hlisted'
    obtain ⟨-, rfl⟩ := h.keyed _ _ _ hr
    obtain ⟨-, rfl⟩ := h.keyed _ _ _ hr'
    have hfiled := (h.filed _ _ _).mpr ⟨hr, hlisted⟩
    rw [(h.filed _ _ _).mpr ⟨hr', hlisted'⟩] at hfiled
    rw [Option.some.inj hfiled]
  · intro networkId address nowMs r hr
    obtain ⟨hfiled, hunexpired⟩ := Option.filter_eq_some_iff.mp hr
    obtain ⟨hcurrent, hlisted⟩ := (h.filed _ _ _).mp hfiled
    exact ⟨hcurrent, hlisted, of_decide_eq_true hunexpired⟩
  · intro record hrefused
    rcases (run calls).apply_cases record with ⟨-, hsame⟩ | ⟨-, -, happly⟩
    · exact hsame
    · exact absurd (congrArg Prod.fst happly) hrefused

/-! ## Records that have ended -/

theorem held_purgeExpired (nowMs : UInt64) :
    (cache.purgeExpired nowMs).2.Held record (fun _ => True) ↔
      cache.Held record fun r => nowMs < r.expiresAtMs := by
  unfold Held
  simp only [lookup_purgeExpired, Option.filter_eq_some_iff, decide_eq_true_eq]
  constructor
  · rintro ⟨address, haddress, r, ⟨hr, hlive⟩, hother, -⟩
    exact ⟨address, haddress, r, hr, hother, hlive⟩
  · rintro ⟨address, haddress, r, hr, hother, hlive⟩
    exact ⟨address, haddress, r, ⟨hr, hlive⟩, hother, trivial⟩

theorem get_purgeExpired {t : UInt64} (ht : nowMs ≤ t) (networkId : NetworkId)
    (address : ScopedVirtualAddr) :
    (cache.purgeExpired nowMs).2.get networkId address t = cache.get networkId address t := by
  unfold get
  rw [lookup_purgeExpired, Option.filter_filter]
  congr 1
  funext r
  by_cases hr : t < r.expiresAtMs
  · simp [hr, ht.trans_lt hr]
  · simp [hr]

theorem Consistent.get_withRecord_purgeExpired (h : cache.Consistent) {t : UInt64} (ht : nowMs ≤ t)
    (networkId : NetworkId) (address : ScopedVirtualAddr) :
    ((cache.purgeExpired nowMs).2.withRecord record).get networkId address t =
      (cache.withRecord record).get networkId address t := by
  have hget : (cache.purgeExpired nowMs).2.get networkId address t =
      cache.get networkId address t := get_purgeExpired ht networkId address
  have hprevious : (networkId, address) ∈ (((cache.purgeExpired nowMs).2.current record.networkId
        record.endpointId).map addressKeys).getD [] ↔
      ∃ r, (cache.current record.networkId record.endpointId = some r ∧
        cache.records.lookup (networkId, address) = some r) ∧ nowMs < r.expiresAtMs := by
    rw [(h.purgeExpired nowMs).mem_previous]
    simp only [current_purgeExpired, lookup_purgeExpired, Option.filter_eq_some_iff,
      decide_eq_true_eq]
    exact exists_congr fun r =>
      ⟨fun h => ⟨⟨h.1.1, h.2.1⟩, h.1.2⟩, fun h => ⟨⟨h.1.1, h.2⟩, h.1.2, h.2⟩⟩
  unfold get at hget ⊢
  simp only [withRecord, lookup_insertAll, lookup_eraseAll, h.mem_previous]
  split_ifs with hown hboth hplain hplain
  · rfl
  · rfl
  · obtain ⟨r, hr, -⟩ := hprevious.mp hboth
    exact absurd ⟨r, hr⟩ hplain
  · -- the endpoint's record before has ended, and the addresses are free with it
    obtain ⟨r, hcurrent, hr⟩ := hplain
    have hended : ¬ t < r.expiresAtMs := fun hlive =>
      hboth (hprevious.mpr ⟨r, ⟨hcurrent, hr⟩, ht.trans_lt hlive⟩)
    rw [hget, hr]
    exact Option.filter_some_neg (by simpa using hended)
  · exact hget

end PresenceCache

end Weaver

namespace Weaver.Sample

open PresenceCache Transparent

def serverRecord (endpoint : UInt8) (expiresAtMs : UInt64) : PresenceRecord :=
  { networkId := ⟨fill 9⟩, epoch := 1, virtualAddrs := [.server ⟨fill 7⟩], memberId := ⟨fill 8⟩
    endpointId := ⟨fill endpoint, rfl⟩, candidates := [], capabilities := 0
    sequence := 1, issuedAtMs := 0, expiresAtMs }

end Weaver.Sample
