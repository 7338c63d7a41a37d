import Weaver.Discovery.Cache
import Weaver.Discovery.PresenceCodec

/-!
# The presence directory and the address lookup

`PresenceDirectory` opens encrypted records, files them in its cache and publishes their candidates
in the address lookup, which it shares with the LAN discovery.

Two things can go wrong. The cache forgets the sequence number of a record that has ended, so that
an older record that lives longer is accepted again (`presence_not_rolled_back` says when it is not).
And the cache is changed before the candidates are parsed, so that a record with a relay URL that
does not parse is cached and not published (`directory_tracks` says that otherwise the two agree).
-/

namespace Weaver

open Checked Hashed

/-! ## The lookup -/

/-- `TransportAddr`, with a relay by the text of its URL. -/
inductive TransportAddr where
  | ip (address : IpSocket)
  | relay (url : String)
deriving DecidableEq

/-- `LookupEntry`, with the data that its channel holds. -/
structure LookupEntry where
  lan : Option (List IpSocket)
  presence : Option (List TransportAddr)
  published : Option (List TransportAddr)

def LookupEntry.new : LookupEntry := ⟨none, none, none⟩

def LookupEntry.merged (entry : LookupEntry) : Option (List TransportAddr) :=
  let transports := (entry.lan.getD []).map .ip ++ entry.presence.getD []
  if transports = [] then none else some transports

def LookupEntry.publishMerged (entry : LookupEntry) : LookupEntry :=
  { entry with published := entry.merged }

variable [Crypto]

structure LanObservation where
  endpointId : EndpointId
  addresses : List IpSocket
  expired : Bool

def LanObservation.lan (observation : LanObservation) : Option (List IpSocket) :=
  if observation.expired = true ∨ observation.addresses = [] then none
  else some observation.addresses

structure WeaverAddressLookup where
  networkId : NetworkId
  entries : Map EndpointId LookupEntry

namespace WeaverAddressLookup

def entry (lookup : WeaverAddressLookup) (endpointId : EndpointId) : LookupEntry :=
  (lookup.entries.lookup endpointId).getD .new

def withEntry (lookup : WeaverAddressLookup) (endpointId : EndpointId) (entry : LookupEntry) :
    WeaverAddressLookup :=
  { lookup with entries := lookup.entries.insert endpointId entry }

def applyLanObservation (lookup : WeaverAddressLookup) (observation : LanObservation) :
    WeaverAddressLookup :=
  lookup.withEntry observation.endpointId
    { lookup.entry observation.endpointId with lan := observation.lan }.publishMerged

def parseCandidate : DiscoveryCandidate → Except DiscoveryError TransportAddr
  | .ip address => .ok (.ip address)
  | .relay url => do
    failIf (Crypto.relayUrl url = false) .invalidPresence
    return .relay url

def applyPresence (lookup : WeaverAddressLookup) (record : PresenceRecord) :
    Except DiscoveryError WeaverAddressLookup := do
  failIf (record.networkId ≠ lookup.networkId) .wrongNetwork
  let transports ← record.candidates.mapM parseCandidate
  return lookup.withEntry record.endpointId { lookup.entry record.endpointId with
    presence := if transports = [] then none else some transports }.publishMerged

def clearPresence (lookup : WeaverAddressLookup) (endpointId : EndpointId) : WeaverAddressLookup :=
  match lookup.entries.lookup endpointId with
  | some entry => lookup.withEntry endpointId { entry with presence := none }.publishMerged
  | none => lookup

end WeaverAddressLookup

/-! ## The directory -/

/-- `PresenceDirectory`. `PresenceDirectory::new` asserts that the lookup is one for the directory's
network. -/
structure PresenceDirectory where
  cache : PresenceCache
  lookup : WeaverAddressLookup

namespace PresenceDirectory

variable [KeyedHash]

/-- `PresenceDirectory::new`, with a new lookup. -/
def new (networkId : NetworkId) : PresenceDirectory := ⟨.empty, ⟨networkId, ∅⟩⟩

/-- The part of `apply_encrypted` after the record is opened. -/
def publish (d : PresenceDirectory) (record : PresenceRecord) :
    Except DiscoveryError Bool × PresenceDirectory :=
  match d.cache.apply record with
  | (.ok true, cache) =>
    match d.lookup.applyPresence record with
    | .ok lookup => (.ok true, ⟨cache, lookup⟩)
    | .error e => (.error e, { d with cache })
  | (result, cache) => (result, { d with cache })

def applyEncrypted (d : PresenceDirectory) (config : ValidatedNetworkConfig)
    (encrypted : EncryptedPresenceRecord) (nowMs : UInt64) :
    Except DiscoveryError Bool × PresenceDirectory :=
  if config.asConfig.networkId ≠ d.lookup.networkId then (.error .wrongNetwork, d)
  else
    match encrypted.open config nowMs with
    | .ok record => d.publish record
    | .error e => (.error e, d)

def purgeExpired (d : PresenceDirectory) (nowMs : UInt64) : PresenceDirectory :=
  let (removed, cache) := d.cache.purgeExpired nowMs
  ⟨cache, removed.foldl (fun lookup endpointId =>
    if cache.containsEndpoint endpointId = true then lookup
    else lookup.clearPresence endpointId) d.lookup⟩

/-! ## Runs -/

inductive Call where
  | applyEncrypted (config : ValidatedNetworkConfig) (encrypted : EncryptedPresenceRecord)
      (nowMs : UInt64)
  | purgeExpired (nowMs : UInt64)
  | applyLanObservation (observation : LanObservation)

def Call.opened : Call → Option PresenceRecord
  | .applyEncrypted config encrypted nowMs => (encrypted.open config nowMs).toOption
  | _ => none

def Call.time : Call → Option UInt64
  | .applyEncrypted _ _ nowMs => some nowMs
  | .purgeExpired nowMs => some nowMs
  | .applyLanObservation _ => none

/-- What a call returns, if it is one of `apply_encrypted`, and the directory after it. -/
def step (d : PresenceDirectory) : Call → Option (Except DiscoveryError Bool) × PresenceDirectory
  | .applyEncrypted config encrypted nowMs =>
    ((d.applyEncrypted config encrypted nowMs).1, (d.applyEncrypted config encrypted nowMs).2)
  | .purgeExpired nowMs => (none, d.purgeExpired nowMs)
  | .applyLanObservation observation =>
    (none, { d with lookup := d.lookup.applyLanObservation observation })

def after (networkId : NetworkId) : List Call → PresenceDirectory
  | [] => new networkId
  | call :: earlier => ((after networkId earlier).step call).2

/-- The records that were accepted with `Ok(true)`, the last one first. -/
def accepted (networkId : NetworkId) : List Call → List PresenceRecord
  | [] => []
  | call :: earlier =>
    (if ((after networkId earlier).step call).1 = some (.ok true) then call.opened.toList else []) ++
      accepted networkId earlier

/-! ## What a call does -/

variable {d : PresenceDirectory} {config : ValidatedNetworkConfig}
  {encrypted : EncryptedPresenceRecord} {nowMs : UInt64} {networkId : NetworkId}

theorem open_spec {record : PresenceRecord} (h : encrypted.open config nowMs = .ok record) :
    record.networkId = config.asConfig.networkId ∧ nowMs < record.expiresAtMs := by
  simp only [EncryptedPresenceRecord.open, EncryptedPresenceRecord.checkOpened, bind_eq_ok,
    failIf_eq_ok, exists_and_left, exists_const, pure_eq_ok_iff, not_or, not_le, ne_eq,
    not_not] at h
  obtain ⟨-, _, -, -, _, -, _, -, ⟨hnetwork, -, -, hexpires, -⟩, _, -, -, _, -, -, -, _, -, _, -,
    rfl⟩ := h
  exact ⟨hnetwork, hexpires⟩

/-- A call of `apply_encrypted` leaves the directory as it is, or it opens a record that replaces an
older one in the cache, and publishes it if its candidates parse. -/
theorem applyEncrypted_cases (d : PresenceDirectory) (config : ValidatedNetworkConfig)
    (encrypted : EncryptedPresenceRecord) (nowMs : UInt64) :
    ((d.applyEncrypted config encrypted nowMs).1 ≠ .ok true ∧
        (d.applyEncrypted config encrypted nowMs).2 = d) ∨
      ∃ record, encrypted.open config nowMs = .ok record ∧
        record.networkId = d.lookup.networkId ∧ nowMs < record.expiresAtMs ∧
        (∀ r, d.cache.current record.networkId record.endpointId = some r →
          r.sequence < record.sequence) ∧
        (d.applyEncrypted config encrypted nowMs).2.cache = d.cache.withRecord record ∧
        ((∃ transports,
            record.candidates.mapM WeaverAddressLookup.parseCandidate = .ok transports ∧
            (d.applyEncrypted config encrypted nowMs).1 = .ok true ∧
            (d.applyEncrypted config encrypted nowMs).2.lookup = d.lookup.withEntry
              record.endpointId { d.lookup.entry record.endpointId with
                presence := if transports = [] then none else some transports }.publishMerged) ∨
          (∃ e, record.candidates.mapM WeaverAddressLookup.parseCandidate = .error e) ∧
            (d.applyEncrypted config encrypted nowMs).2.lookup = d.lookup) := by
  unfold applyEncrypted
  split_ifs with hnetwork
  · exact .inl ⟨by simp, rfl⟩
  rw [not_not] at hnetwork
  cases hopen : encrypted.open config nowMs with
  | error e => exact .inl ⟨by simp, rfl⟩
  | ok record =>
    obtain ⟨hrecord, hexpires⟩ := open_spec hopen
    simp only [publish]
    rcases hresult : d.cache.apply record with ⟨result, cache⟩
    rcases d.cache.apply_cases record with ⟨hrefused, hsame⟩ | ⟨hnewer, -, happly⟩
    · rw [hresult] at hrefused hsame
      obtain rfl : cache = d.cache := hsame
      refine .inl ?_
      match result, hrefused with
      | .error e, _ => exact ⟨by simp, rfl⟩
      | .ok false, _ => exact ⟨by simp, rfl⟩
    · rw [hresult] at happly
      obtain ⟨rfl, rfl⟩ := Prod.mk.inj happly
      refine .inr ⟨record, rfl, hrecord.trans hnetwork, hexpires, hnewer, ?_⟩
      have hcheck : ¬ record.networkId ≠ d.lookup.networkId := not_not.mpr (hrecord.trans hnetwork)
      simp only [WeaverAddressLookup.applyPresence, failIf_neg hcheck, ok_bind]
      cases hparse : record.candidates.mapM WeaverAddressLookup.parseCandidate with
      | error e => exact ⟨rfl, .inr ⟨⟨e, rfl⟩, rfl⟩⟩
      | ok transports => exact ⟨rfl, .inl ⟨transports, rfl, rfl, rfl⟩⟩

theorem step_cache (d : PresenceDirectory) (call : Call) :
    ((d.step call).1 ≠ some (.ok true) ∧ (d.step call).2.cache = d.cache) ∨
      (∃ record nowMs, call.opened = some record ∧ call.time = some nowMs ∧
        record.networkId = d.lookup.networkId ∧ nowMs < record.expiresAtMs ∧
        (∀ r, d.cache.current record.networkId record.endpointId = some r →
          r.sequence < record.sequence) ∧
        (d.step call).2.cache = d.cache.withRecord record) ∨
      ∃ nowMs, call.time = some nowMs ∧ (d.step call).1 = none ∧
        (d.step call).2.cache = (d.cache.purgeExpired nowMs).2 := by
  cases call with
  | applyEncrypted config encrypted nowMs =>
    rcases d.applyEncrypted_cases config encrypted nowMs with
      ⟨hresult, hsame⟩ | ⟨record, hopen, hnetwork, hexpires, hnewer, hcache, -⟩
    · exact .inl ⟨fun h => hresult (Option.some.inj h), congrArg cache hsame⟩
    · exact .inr (.inl ⟨record, nowMs, toOption_eq_some.mpr hopen, rfl, hnetwork, hexpires, hnewer,
        hcache⟩)
  | purgeExpired nowMs => exact .inr (.inr ⟨nowMs, rfl, rfl, rfl⟩)
  | applyLanObservation observation => exact .inl ⟨by simp [step], rfl⟩

end PresenceDirectory

/-! ## The lookup's entries -/

namespace WeaverAddressLookup

variable {lookup : WeaverAddressLookup}

theorem entry_withEntry (endpointId endpointId' : EndpointId) (entry : LookupEntry) :
    (lookup.withEntry endpointId entry).entry endpointId' =
      if endpointId' = endpointId then entry else lookup.entry endpointId' := by
  change ((lookup.entries.insert endpointId entry).lookup endpointId').getD _ = _
  split_ifs with hsame
  · rw [hsame, AList.lookup_insert]
    rfl
  · rw [AList.lookup_insert_ne hsame]
    rfl

theorem entry_clearPresence (endpointId endpointId' : EndpointId) :
    (lookup.clearPresence endpointId).entry endpointId' =
      if endpointId' = endpointId then
        { lookup.entry endpointId with presence := none }.publishMerged
      else lookup.entry endpointId' := by
  unfold clearPresence
  split
  · next found hfound =>
    have hentry : lookup.entry endpointId = found := congrArg (Option.getD · LookupEntry.new) hfound
    rw [entry_withEntry, hentry]
  · next hnone =>
    have hentry : lookup.entry endpointId = .new := congrArg (Option.getD · LookupEntry.new) hnone
    split_ifs with hsame
    · rw [hsame, hentry]
      rfl
    · rfl

theorem entry_foldl_clearPresence (removed : List EndpointId) (kept : EndpointId → Bool)
    (endpointId : EndpointId) :
    (removed.foldl (fun lookup e => if kept e = true then lookup else lookup.clearPresence e)
        lookup).entry endpointId =
      if endpointId ∈ removed ∧ kept endpointId = false then
        { lookup.entry endpointId with presence := none }.publishMerged
      else lookup.entry endpointId := by
  induction removed generalizing lookup with
  | nil => simp
  | cons e removed ih =>
    rw [List.foldl_cons, ih]
    by_cases hkept : kept e = true
    · rw [if_pos hkept]
      have hmem : (endpointId ∈ e :: removed ∧ kept endpointId = false) ↔
          endpointId ∈ removed ∧ kept endpointId = false := by
        refine and_congr_left fun hfree => ?_
        rw [List.mem_cons, or_iff_right]
        rintro rfl
        rw [hkept] at hfree
        cases hfree
      simp only [hmem]
    · rw [if_neg hkept, entry_clearPresence]
      rw [Bool.not_eq_true] at hkept
      by_cases hsame : endpointId = e
      · have hmem : e ∈ e :: removed ∧ kept e = false := ⟨List.mem_cons_self, hkept⟩
        rw [hsame, if_pos rfl, if_pos hmem]
        split_ifs <;> rfl
      · rw [if_neg hsame]
        simp [hsame]

end WeaverAddressLookup

namespace PresenceDirectory

variable [KeyedHash] (networkId : NetworkId) (calls : List Call)

structure Filed (d : PresenceDirectory) : Prop where
  network : d.lookup.networkId = networkId
  keyed : ∀ n endpointId r, d.cache.current n endpointId = some r →
    n = networkId ∧ r.endpointId = endpointId

omit [KeyedHash] in
theorem foldl_networkId (removed : List EndpointId) (kept : EndpointId → Bool)
    (lookup : WeaverAddressLookup) :
    (removed.foldl (fun lookup e => if kept e = true then lookup else lookup.clearPresence e)
      lookup).networkId = lookup.networkId := by
  induction removed generalizing lookup with
  | nil => rfl
  | cons e removed ih =>
    rw [List.foldl_cons, ih]
    unfold WeaverAddressLookup.clearPresence
    split_ifs
    · rfl
    · split <;> rfl

theorem step_networkId (d : PresenceDirectory) (call : Call) :
    (d.step call).2.lookup.networkId = d.lookup.networkId := by
  cases call with
  | applyEncrypted config encrypted nowMs =>
    rcases d.applyEncrypted_cases config encrypted nowMs with
      ⟨-, hsame⟩ | ⟨_, -, -, -, -, -, ⟨_, -, -, hlookup⟩ | ⟨-, hlookup⟩⟩
    · exact congrArg (fun d => d.lookup.networkId) hsame
    · exact (congrArg WeaverAddressLookup.networkId hlookup).trans rfl
    · exact congrArg WeaverAddressLookup.networkId hlookup
  | purgeExpired nowMs => exact foldl_networkId _ _ _
  | applyLanObservation observation => rfl

theorem filed_after : Filed networkId (after networkId calls) := by
  induction calls with
  | nil => exact ⟨rfl, fun _ _ _ h => (by cases h)⟩
  | cons call earlier ih =>
    refine ⟨(step_networkId _ call).trans ih.network, fun n endpointId r hr => ?_⟩
    rcases (after networkId earlier).step_cache call with
      ⟨-, hcache⟩ | ⟨record, _, -, -, hnetwork, -, -, hcache⟩ | ⟨_, -, -, hcache⟩
    · rw [after, hcache] at hr
      exact ih.keyed _ _ _ hr
    · rw [after, hcache, PresenceCache.current_withRecord] at hr
      split_ifs at hr with hkey
      · obtain rfl := Option.some.inj hr
        exact ⟨hkey.1.trans (hnetwork.trans ih.network), hkey.2.symm⟩
      · exact ih.keyed _ _ _ hr
    · rw [after, hcache, PresenceCache.current_purgeExpired, Option.filter_eq_some_iff] at hr
      exact ih.keyed _ _ _ hr.1

/-! ## Sequence numbers -/

/-- What is left of the sequence numbers that were accepted: the endpoint's current record has no
lower one, or a record with no lower one has ended since. -/
structure Remembers : Prop where
  opened : ∀ n endpointId r, (after networkId calls).cache.current n endpointId = some r →
    r ∈ calls.filterMap Call.opened
  accepted : ∀ a ∈ accepted networkId calls,
    (∃ r, (after networkId calls).cache.current networkId a.endpointId = some r ∧
      a.sequence ≤ r.sequence) ∨
    ∃ r ∈ calls.filterMap Call.opened, r.endpointId = a.endpointId ∧ a.sequence ≤ r.sequence ∧
      ∃ t ∈ calls.filterMap Call.time, r.expiresAtMs ≤ t

theorem remembers : Remembers networkId calls := by
  induction calls with
  | nil => exact ⟨fun _ _ _ h => (by cases h), fun _ h => (by cases h)⟩
  | cons call earlier ih =>
    have hopened : earlier.filterMap Call.opened ⊆ (call :: earlier).filterMap Call.opened :=
      ((List.sublist_cons_self call earlier).filterMap _).subset
    have htimes : earlier.filterMap Call.time ⊆ (call :: earlier).filterMap Call.time :=
      ((List.sublist_cons_self call earlier).filterMap _).subset
    have hended : ∀ {a : PresenceRecord}, (∃ r ∈ earlier.filterMap Call.opened,
        r.endpointId = a.endpointId ∧ a.sequence ≤ r.sequence ∧
          ∃ t ∈ earlier.filterMap Call.time, r.expiresAtMs ≤ t) →
        ∃ r ∈ (call :: earlier).filterMap Call.opened, r.endpointId = a.endpointId ∧
          a.sequence ≤ r.sequence ∧ ∃ t ∈ (call :: earlier).filterMap Call.time,
            r.expiresAtMs ≤ t := by
      rintro a ⟨r, hr, hendpoint, hle, t, ht, hexpired⟩
      exact ⟨r, hopened hr, hendpoint, hle, t, htimes ht, hexpired⟩
    rcases (after networkId earlier).step_cache call with ⟨hresult, hcache⟩ |
      ⟨record, nowMs, hrecord, -, hnetwork, -, hnewer, hcache⟩ | ⟨nowMs, htime, hresult, hcache⟩
    · constructor
      · intro n endpointId r hr
        rw [after, hcache] at hr
        exact hopened (ih.opened _ _ _ hr)
      · intro a ha
        rw [PresenceDirectory.accepted, if_neg hresult, List.nil_append] at ha
        rw [after, hcache]
        exact (ih.accepted a ha).imp_right hended
    · rw [(filed_after networkId earlier).network] at hnetwork
      rw [hnetwork] at hnewer
      have hmem : record ∈ (call :: earlier).filterMap Call.opened :=
        List.mem_filterMap.mpr ⟨call, List.mem_cons_self, hrecord⟩
      constructor
      · intro n endpointId r hr
        rw [after, hcache, PresenceCache.current_withRecord] at hr
        split_ifs at hr
        · obtain rfl := Option.some.inj hr
          exact hmem
        · exact hopened (ih.opened _ _ _ hr)
      · intro a ha
        rw [after, hcache, PresenceCache.current_withRecord, hnetwork]
        simp only [true_and]
        rw [PresenceDirectory.accepted, hrecord] at ha
        rcases List.mem_append.mp ha with hnew | hold
        · split_ifs at hnew
          · obtain rfl := List.mem_singleton.mp hnew
            exact .inl ⟨a, if_pos rfl, le_rfl⟩
          · cases hnew
        · refine (ih.accepted a hold).imp ?_ hended
          rintro ⟨r, hr, hle⟩
          by_cases hsame : a.endpointId = record.endpointId
          · rw [hsame] at hr
            exact ⟨record, if_pos hsame, hle.trans (hnewer r hr).le⟩
          · exact ⟨r, (if_neg hsame).trans hr, hle⟩
    · constructor
      · intro n endpointId r hr
        rw [after, hcache, PresenceCache.current_purgeExpired, Option.filter_eq_some_iff] at hr
        exact hopened (ih.opened _ _ _ hr.1)
      · intro a ha
        rw [PresenceDirectory.accepted, hresult, if_neg (by simp), List.nil_append] at ha
        rw [after, hcache, PresenceCache.current_purgeExpired]
        rcases ih.accepted a ha with ⟨r, hr, hle⟩ | hgone
        · by_cases hlives : nowMs < r.expiresAtMs
          · exact .inl ⟨r, Option.filter_eq_some_iff.mpr ⟨hr, decide_eq_true hlives⟩, hle⟩
          · exact .inr ⟨r, hopened (ih.opened _ _ _ hr),
              ((filed_after networkId earlier).keyed _ _ _ hr).2, hle, nowMs,
              List.mem_filterMap.mpr ⟨call, List.mem_cons_self, htime⟩, not_lt.mp hlives⟩
        · exact .inr (hended hgone)

/-- In every run with a clock that does not go back, in which of two records of an endpoint the one
with the lower sequence number does not live longer, the sequence numbers of the records of an
endpoint that are accepted increase. -/
theorem presence_not_rolled_back
    (hclock : (calls.filterMap Call.time).Pairwise fun later earlier => earlier ≤ later)
    (hlives : ∀ r ∈ calls.filterMap Call.opened, ∀ r' ∈ calls.filterMap Call.opened,
      r.endpointId = r'.endpointId → r.sequence ≤ r'.sequence → r.expiresAtMs ≤ r'.expiresAtMs) :
    (accepted networkId calls).Pairwise fun later earlier =>
      later.endpointId = earlier.endpointId → earlier.sequence < later.sequence := by
  induction calls with
  | nil => exact .nil
  | cons call earlier ih =>
    have hopened : earlier.filterMap Call.opened ⊆ (call :: earlier).filterMap Call.opened :=
      ((List.sublist_cons_self call earlier).filterMap _).subset
    have hearlier := ih (hclock.sublist ((List.sublist_cons_self call earlier).filterMap _))
      fun r hr r' hr' => hlives r (hopened hr) r' (hopened hr')
    rw [accepted]
    split_ifs with hresult
    · rcases (after networkId earlier).step_cache call with ⟨hrefused, -⟩ |
        ⟨record, nowMs, hrecord, htime, hnetwork, hexpires, hnewer, -⟩ | ⟨_, -, hnone, -⟩
      · exact absurd hresult hrefused
      · rw [hrecord]
        refine List.pairwise_cons.mpr ⟨fun a ha hsame => ?_, hearlier⟩
        rw [hnetwork, (filed_after networkId earlier).network] at hnewer
        rcases (remembers networkId earlier).accepted a ha with
          ⟨r, hr, hle⟩ | ⟨r, hr, hendpoint, hle, t, ht, hexpired⟩
        · rw [← hsame] at hr
          exact hle.trans_lt (hnewer r hr)
        · -- a record that was opened after `r` ended would end before `r`
          by_contra hnot
          have hends := hlives record (List.mem_filterMap.mpr ⟨call, List.mem_cons_self, hrecord⟩) r
            (hopened hr) (hsame.trans hendpoint.symm) ((not_lt.mp hnot).trans hle)
          rw [List.filterMap_cons_some htime, List.pairwise_cons] at hclock
          exact absurd (hexpires.trans_le (hends.trans (hexpired.trans (hclock.1 t ht))))
            (lt_irrefl _)
      · rw [hnone] at hresult
        cases hresult
    · exact hearlier

/-! ## The directory and the lookup -/

def presencePart (record : Option PresenceRecord) : Option (List TransportAddr) :=
  record.bind fun r =>
    (r.candidates.mapM WeaverAddressLookup.parseCandidate).toOption.filter (· ≠ [])

def lanPart : List Call → EndpointId → Option (List IpSocket)
  | [], _ => none
  | .applyLanObservation observation :: earlier, endpointId =>
    if endpointId = observation.endpointId then observation.lan else lanPart earlier endpointId
  | .applyEncrypted .. :: earlier, endpointId => lanPart earlier endpointId
  | .purgeExpired _ :: earlier, endpointId => lanPart earlier endpointId

def Call.Parses (call : Call) : Prop :=
  ∀ r, call.opened = some r →
    ∃ transports, r.candidates.mapM WeaverAddressLookup.parseCandidate = .ok transports

/-- The entry that has the candidates of the cached record and the addresses, and publishes both. -/
def trackingEntry (record : Option PresenceRecord) (lan : Option (List IpSocket)) : LookupEntry :=
  LookupEntry.publishMerged ⟨lan, presencePart record, none⟩

def Tracks (endpointId : EndpointId) : Prop :=
  (after networkId calls).lookup.entry endpointId = trackingEntry
    ((after networkId calls).cache.current networkId endpointId) (lanPart calls endpointId)

omit [KeyedHash] in
theorem entry_purgeExpired {d : PresenceDirectory} (h : Filed networkId d) (nowMs : UInt64)
    (endpointId : EndpointId) :
    (d.purgeExpired nowMs).lookup.entry endpointId =
      if (d.cache.current networkId endpointId).any (fun r => r.expiresAtMs ≤ nowMs) = true then
        { d.lookup.entry endpointId with presence := none }.publishMerged
      else d.lookup.entry endpointId := by
  have hremoved : (endpointId ∈ (d.cache.purgeExpired nowMs).1 ∧
      (d.cache.purgeExpired nowMs).2.containsEndpoint endpointId = false) ↔
      (d.cache.current networkId endpointId).any (fun r => r.expiresAtMs ≤ nowMs) = true := by
    rw [PresenceCache.mem_removed, ← Bool.not_eq_true, PresenceCache.containsEndpoint_iff,
      Option.any_eq_true]
    simp only [PresenceCache.current_purgeExpired, Option.filter_eq_some_iff, decide_eq_true_eq]
    constructor
    · rintro ⟨⟨n, r, hr, hexpired⟩, -⟩
      obtain ⟨rfl, -⟩ := h.keyed _ _ _ hr
      exact ⟨r, hr, hexpired⟩
    · rintro ⟨r, hr, hexpired⟩
      refine ⟨⟨networkId, r, hr, hexpired⟩, ?_⟩
      rintro ⟨n, r', hr', hlives⟩
      obtain ⟨rfl, -⟩ := h.keyed _ _ _ hr'
      obtain rfl := Option.some.inj (hr.symm.trans hr')
      exact absurd hlives (not_lt.mpr hexpired)
  exact (WeaverAddressLookup.entry_foldl_clearPresence _ _ _).trans (if_congr hremoved rfl rfl)

theorem Tracks.cons {call : Call} (hparses : call.Parses) {endpointId : EndpointId}
    (h : Tracks networkId calls endpointId) : Tracks networkId (call :: calls) endpointId := by
  have hfiled := filed_after networkId calls
  unfold Tracks at h ⊢
  cases call with
  | applyEncrypted config encrypted nowMs =>
    rw [after, step, lanPart]
    rcases (after networkId calls).applyEncrypted_cases config encrypted nowMs with ⟨-, hsame⟩ |
      ⟨record, hopen, hnetwork, -, -, hcache, hlookup⟩
    · rw [hsame]
      exact h
    obtain ⟨transports, hparse⟩ := hparses record (toOption_eq_some.mpr hopen)
    rcases hlookup with ⟨transports', hparse', -, hlookup⟩ | ⟨⟨e, herror⟩, -⟩
    · obtain rfl := Except.ok.inj (hparse.symm.trans hparse')
      rw [hfiled.network] at hnetwork
      rw [hlookup, hcache, WeaverAddressLookup.entry_withEntry, PresenceCache.current_withRecord,
        hnetwork]
      have hpart : presencePart (some record) =
          if transports = [] then none else some transports := by
        unfold presencePart
        rw [Option.bind_some, hparse]
        by_cases hempty : transports = [] <;> simp [Except.toOption, hempty]
      by_cases hsame : endpointId = record.endpointId
      · subst hsame
        simp only [and_self, if_true]
        rw [h, trackingEntry, trackingEntry, hpart]
        rfl
      · simp only [hsame, and_false, if_false]
        exact h
    · rw [hparse] at herror
      cases herror
  | purgeExpired nowMs =>
    refine (entry_purgeExpired networkId hfiled nowMs endpointId).trans ?_
    change _ = trackingEntry ((PresenceCache.purgeExpired _ nowMs).2.current _ _) _
    rw [PresenceCache.current_purgeExpired, lanPart, h]
    cases (after networkId calls).cache.current networkId endpointId with
    | none => rfl
    | some r =>
      by_cases hlives : nowMs < r.expiresAtMs
      · have hkept : (some r).filter (fun r => decide (nowMs < r.expiresAtMs)) = some r :=
          Option.filter_eq_some_iff.mpr ⟨rfl, decide_eq_true hlives⟩
        rw [hkept, if_neg (by simpa using hlives)]
      · have hgone : (some r).filter (fun r => decide (nowMs < r.expiresAtMs)) = none := by
          simpa using hlives
        rw [hgone, if_pos (by simpa using hlives)]
        rfl
  | applyLanObservation observation =>
    refine (WeaverAddressLookup.entry_withEntry _ _ _).trans ?_
    change _ = trackingEntry ((after networkId calls).cache.current networkId endpointId) _
    rw [lanPart]
    split_ifs with hsame
    · rw [← hsame, h]
      rfl
    · exact h

/-- In every run in which the relay URLs of the records that open parse, every entry of the lookup
has the candidates of the endpoint's cached record and the addresses of its last observation and
publishes both, and a call of `apply_encrypted` that fails changes nothing. -/
theorem directory_tracks (hparses : ∀ call ∈ calls, call.Parses) :
    (∀ endpointId, let entry := (after networkId calls).lookup.entry endpointId
      entry.presence = presencePart ((after networkId calls).cache.current networkId endpointId) ∧
        entry.lan = lanPart calls endpointId ∧ entry.published = entry.merged) ∧
    ∀ config encrypted nowMs e, (Call.applyEncrypted config encrypted nowMs).Parses →
      ((after networkId calls).applyEncrypted config encrypted nowMs).1 = .error e →
      ((after networkId calls).applyEncrypted config encrypted nowMs).2 = after networkId calls := by
  constructor
  · intro endpointId
    have htracks : Tracks networkId calls endpointId := by
      induction calls with
      | nil => rfl
      | cons call earlier ih =>
        exact (ih fun c hc => hparses c (List.mem_cons_of_mem _ hc)).cons networkId earlier
          (hparses call List.mem_cons_self)
    unfold Tracks at htracks
    rw [htracks]
    exact ⟨rfl, rfl, rfl⟩
  · intro config encrypted nowMs e hparse herror
    rcases (after networkId calls).applyEncrypted_cases config encrypted nowMs with ⟨-, hsame⟩ |
      ⟨record, hopen, -, -, -, -, ⟨_, -, hok, -⟩ | ⟨⟨e', hfails⟩, -⟩⟩
    · exact hsame
    · rw [hok] at herror
      cases herror
    · obtain ⟨transports, hparsed⟩ := hparse record (toOption_eq_some.mpr hopen)
      rw [hparsed] at hfails
      cases hfails

end PresenceDirectory

end Weaver

namespace Weaver.Sample

open Checked Transparent PresenceDirectory

def announcing (config : ValidatedNetworkConfig) (endpointId : EndpointId)
    (address : ScopedVirtualAddr) (candidates : List DiscoveryCandidate)
    (sequence expiresAtMs nowMs : UInt64) : Option Call := do
  let r ← (EncryptedPresenceRecord.seal config ⟨fill 40⟩ endpointId [address] candidates 0 sequence
    1200 expiresAtMs (some ⟨List.replicate 24 7, length_sevens⟩)).toOption
  return .applyEncrypted config r nowMs

/-- The member announces itself for long, and then again for a short time. Once the second record
has ended, the first one is played back. The calls, the last one first. -/
def replaying : Option (List Call) := do
  let (config, endpointId, address) ← joinedMember
  let before ← announcing config endpointId address [linkLocal] 0 1900 1500
  let first ← announcing config endpointId address [linkLocal] 1 3000 1500
  let second ← announcing config endpointId address [linkLocal] 2 2000 1500
  let again ← announcing config endpointId address [linkLocal] 1 3000 2500
  return [again, .purgeExpired 2500, second, first, before]

def parses (call : Call) : Bool := call.opened.all fun r =>
  (r.candidates.mapM WeaverAddressLookup.parseCandidate).toOption.isSome

theorem parses_spec {call : Call} (h : parses call = true) : call.Parses := by
  intro r hr
  obtain ⟨transports, hparse⟩ :=
    Option.isSome_iff_exists.mp ((Option.all_eq_true _ _).mp h r hr)
  exact ⟨transports, toOption_eq_some.mp hparse⟩

theorem replaying_spec : ∃ calls, replaying = some calls ∧
    ((calls.filterMap Call.time).Pairwise fun later earlier => earlier ≤ later) ∧
    (¬ (accepted root.public.networkId calls).Pairwise fun later earlier =>
      later.endpointId = earlier.endpointId → earlier.sequence < later.sequence) ∧
    ((∀ r ∈ (calls.drop 3).filterMap Call.opened, ∀ r' ∈ (calls.drop 3).filterMap Call.opened,
      r.endpointId = r'.endpointId → r.sequence ≤ r'.sequence → r.expiresAtMs ≤ r'.expiresAtMs) ∧
    (accepted root.public.networkId (calls.drop 3)).length = 2) ∧
    ∀ call ∈ calls, parses call = true := by
  have hsome : replaying.any (fun calls => decide (
      ((calls.filterMap Call.time).Pairwise fun later earlier => earlier ≤ later) ∧
      (¬ (accepted root.public.networkId calls).Pairwise fun later earlier =>
        later.endpointId = earlier.endpointId → earlier.sequence < later.sequence) ∧
      ((∀ r ∈ (calls.drop 3).filterMap Call.opened, ∀ r' ∈ (calls.drop 3).filterMap Call.opened,
        r.endpointId = r'.endpointId → r.sequence ≤ r'.sequence → r.expiresAtMs ≤ r'.expiresAtMs) ∧
      (accepted root.public.networkId (calls.drop 3)).length = 2) ∧
      ∀ call ∈ calls, parses call = true)) = true := by
    decide +kernel
  obtain ⟨calls, hcalls, h⟩ := (Option.any_eq_true _ _).mp hsome
  exact ⟨calls, hcalls, of_decide_eq_true h⟩

theorem presence_not_rolled_back_sample : ∃ calls,
    (accepted root.public.networkId calls).length = 2 ∧
      (accepted root.public.networkId calls).Pairwise fun later earlier =>
        later.endpointId = earlier.endpointId → earlier.sequence < later.sequence := by
  obtain ⟨calls, -, hclock, -, ⟨hlives, hlength⟩, -⟩ := replaying_spec
  exact ⟨calls.drop 3, hlength, presence_not_rolled_back _ _
    (hclock.sublist ((List.drop_sublist 3 calls).filterMap _)) hlives⟩

theorem replay_accepted : ∃ calls,
    ((calls.filterMap Call.time).Pairwise fun later earlier => earlier ≤ later) ∧
      ¬ (accepted root.public.networkId calls).Pairwise fun later earlier =>
        later.endpointId = earlier.endpointId → earlier.sequence < later.sequence := by
  obtain ⟨calls, -, hclock, hreplayed, -⟩ := replaying_spec
  exact ⟨calls, hclock, hreplayed⟩

theorem directory_tracks_sample : ∃ calls, replaying = some calls ∧ ∀ endpointId,
    ((after root.public.networkId calls).lookup.entry endpointId).presence =
      presencePart ((after root.public.networkId calls).cache.current root.public.networkId
        endpointId) := by
  obtain ⟨calls, hcalls, -, -, -, hparses⟩ := replaying_spec
  exact ⟨calls, hcalls, fun endpointId => ((directory_tracks root.public.networkId calls
    fun call hcall => parses_spec (hparses call hcall)).1 endpointId).1⟩

/-- A record with a relay URL that does not parse is refused with an error, and is cached, while the
lookup has nothing of it. -/
theorem unparsable_relay_cached : ∃ config encrypted endpointId,
    let networkId := root.public.networkId
    let outcome := (PresenceDirectory.new networkId).applyEncrypted config encrypted 1500
    outcome.1 = .error .invalidPresence ∧
      (PresenceDirectory.new networkId).cache.current networkId endpointId = none ∧
      (outcome.2.cache.current networkId endpointId).isSome = true ∧
      (outcome.2.lookup.entry endpointId).presence = none := by
  have hsome : joinedMember.any (fun (config, endpointId, address) =>
      (sealPresence config endpointId address [.relay "relay"]).toOption.any fun encrypted =>
        let networkId := root.public.networkId
        let outcome := (PresenceDirectory.new networkId).applyEncrypted config encrypted 1500
        decide (outcome.1 = .error .invalidPresence ∧
          (PresenceDirectory.new networkId).cache.current networkId endpointId = none ∧
          (outcome.2.cache.current networkId endpointId).isSome = true ∧
          (outcome.2.lookup.entry endpointId).presence = none)) = true := by
    decide +kernel
  obtain ⟨⟨config, endpointId, address⟩, -, h⟩ := (Option.any_eq_true _ _).mp hsome
  obtain ⟨encrypted, -, h⟩ := (Option.any_eq_true _ _).mp h
  exact ⟨config, encrypted, endpointId, of_decide_eq_true h⟩

end Weaver.Sample
