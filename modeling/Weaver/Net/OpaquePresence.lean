import Mathlib.Data.PNat.Defs
import Weaver.Crypto.Transparent
import Weaver.Discovery.Presence
import Weaver.Lib.Hashed

/-!
# The store of the presence service

The service of `weaver-net` with which members leave their encrypted presence records and query those
of others. It cannot open a record: it files the bytes under an epoch and an opaque key, for the
endpoint that brought them, until they expire or that endpoint replaces them.

A run is a list of calls, the last one first. A call reads the clock before it locks the store, so
that its reading need not be later than those before it. `Latest` says what was accepted last under a
key: `presence_query_latest` that a query returns it, `presence_owner_renews` that while it lasts
only its owner replaces it, and `presence_store_bounded` how much the store may come to hold.
-/

namespace Weaver

open Wire Hashed

def maxPresenceRecordBytes : ℕ := 16 * 1024

/-- The `io::Error`s of the store. -/
inductive PresenceStoreError where
  | invalidInput (text : String)
  | permissionDenied (text : String)
  | outOfMemory (text : String)

/-- An epoch and an opaque key. -/
abbrev PresenceKey := UInt64 × BytesN 24

variable [Crypto]

structure StoredPresence where
  owner : EndpointId
  expiresAtMs : UInt64
  record : Bytes

/-- `MemoryOpaquePresenceStore`, whose constructor asserts that the capacity is positive. -/
structure MemoryOpaquePresenceStore where
  capacity : ℕ+
  records : Map PresenceKey StoredPresence

/-- The arguments of `publish`: what the peer brings, and the clock. -/
structure Publication extends StoredPresence where
  key : PresenceKey
  nowMs : UInt64

inductive PresenceCall where
  | publish (p : Publication)
  | query (key : PresenceKey) (nowMs : UInt64)

def PresenceCall.nowMs : PresenceCall → UInt64
  | .publish p => p.nowMs
  | .query _ nowMs => nowMs

namespace MemoryOpaquePresenceStore

def new (capacity : ℕ+) : MemoryOpaquePresenceStore := ⟨capacity, ∅⟩

variable (store : MemoryOpaquePresenceStore) (p : Publication) (key : PresenceKey) (nowMs : UInt64)

/-- The call of `retain` with which `publish` and `query` begin. -/
def purge : MemoryOpaquePresenceStore :=
  { store with records := retain store.records fun value => decide (nowMs < value.expiresAtMs) }

def publish : Except PresenceStoreError Unit × MemoryOpaquePresenceStore :=
  if p.record = [] ∨ maxPresenceRecordBytes < p.record.length ∨ p.expiresAtMs ≤ p.nowMs ∨
      maxPresenceTtlMs < p.expiresAtMs - p.nowMs then
    (.error (.invalidInput "invalid opaque presence record"), store)
  else
    let kept := store.purge p.nowMs
    if (kept.records.lookup p.key).any (fun current => decide (current.owner ≠ p.owner)) = true then
      (.error (.permissionDenied "opaque presence key is owned by another endpoint"), kept)
    else if (kept.records.lookup p.key).isNone = true ∧
        kept.capacity ≤ kept.records.keys.length then
      (.error (.outOfMemory "opaque presence store is full"), kept)
    else (.ok (), { kept with records := kept.records.insert p.key p.toStoredPresence })

def query : Option (UInt64 × Bytes) × MemoryOpaquePresenceStore :=
  let kept := store.purge nowMs
  ((kept.records.lookup key).map fun value => (value.expiresAtMs, value.record), kept)

def step : PresenceCall → MemoryOpaquePresenceStore
  | .publish p => (store.publish p).2
  | .query key nowMs => (store.query key nowMs).2

/-- The store after the calls. -/
def after (capacity : ℕ+) : List PresenceCall → MemoryOpaquePresenceStore
  | [] => new capacity
  | call :: earlier => (after capacity earlier).step call

/-! ## What a call does -/

/-- When a publication is accepted. -/
structure Admits : Prop where
  nonempty : p.record ≠ []
  fits : p.record.length ≤ maxPresenceRecordBytes
  unexpired : p.nowMs < p.expiresAtMs
  brief : p.expiresAtMs - p.nowMs ≤ maxPresenceTtlMs
  owned : ∀ v, (store.purge p.nowMs).records.lookup p.key = some v → v.owner = p.owner
  room : (store.purge p.nowMs).records.lookup p.key = none →
    (store.purge p.nowMs).records.keys.length < store.capacity

theorem publish_cases :
    (store.Admits p ∧ store.publish p = (.ok (), { store.purge p.nowMs with
        records := (store.purge p.nowMs).records.insert p.key p.toStoredPresence })) ∨
      ¬ store.Admits p ∧ ∃ e kept, (kept = store ∨ kept = store.purge p.nowMs) ∧
        store.publish p = (.error e, kept) := by
  unfold publish
  dsimp only
  split_ifs with hinvalid howner hfull
  · refine .inr ⟨?_, _, _, .inl rfl, rfl⟩
    rintro ⟨hnonempty, hfits, hunexpired, hbrief, -, -⟩
    rcases hinvalid with h | h | h | h
    · exact hnonempty h
    · exact h.not_ge hfits
    · exact h.not_gt hunexpired
    · exact h.not_ge hbrief
  · refine .inr ⟨fun h => ?_, _, _, .inr rfl, rfl⟩
    obtain ⟨v, hv, hother⟩ := Option.any_eq_true _ _ |>.mp howner
    exact of_decide_eq_true hother (h.owned v hv)
  · refine .inr ⟨fun h => ?_, _, _, .inr rfl, rfl⟩
    exact (h.room (Option.isNone_iff_eq_none.mp hfull.1)).not_ge hfull.2
  · simp only [not_or, not_lt, not_le] at hinvalid
    refine .inl ⟨⟨hinvalid.1, hinvalid.2.1, hinvalid.2.2.1, hinvalid.2.2.2, ?_, ?_⟩, rfl⟩
    · intro v hv
      simpa [hv] using howner
    · intro hnone
      exact lt_of_not_ge fun hle => hfull ⟨Option.isNone_iff_eq_none.mpr hnone, hle⟩

theorem publish_eq_ok : (store.publish p).1 = .ok () ↔ store.Admits p := by
  rcases store.publish_cases p with ⟨hadmits, hpublish⟩ | ⟨hrefused, e, kept, -, hpublish⟩
  · exact iff_of_true (congrArg Prod.fst hpublish) hadmits
  · exact iff_of_false (by rw [hpublish]; nofun) hrefused

theorem lookup_purge_eq_some {v : StoredPresence} :
    (store.purge nowMs).records.lookup key = some v ↔
      store.records.lookup key = some v ∧ nowMs < v.expiresAtMs := by
  rw [purge, lookup_retain, Option.filter_eq_some_iff, decide_eq_true_iff]

theorem step_size (call : PresenceCall) (h : store.records.keys.length ≤ store.capacity) :
    (store.step call).capacity = store.capacity ∧
      (store.step call).records.keys.length ≤ store.capacity := by
  have hpurge : ∀ nowMs, (store.purge nowMs).records.keys.length ≤ store.capacity :=
    fun _ => (length_keys_retain ..).trans h
  cases call with
  | query key nowMs => exact ⟨rfl, hpurge nowMs⟩
  | publish p =>
    rw [step]
    rcases store.publish_cases p with ⟨hadmits, hpublish⟩ | ⟨-, e, kept, rfl | rfl, hpublish⟩
    · rw [hpublish]
      exact ⟨rfl, length_keys_insert (hpurge p.nowMs) hadmits.room _⟩
    · rw [hpublish]
      exact ⟨rfl, h⟩
    · rw [hpublish]
      exact ⟨rfl, hpurge p.nowMs⟩

/-- The call publishes `v` under the key, and the store accepts it. -/
def Accepts (call : PresenceCall) (v : StoredPresence) : Prop :=
  ∃ p, call = .publish p ∧ p.key = key ∧ p.toStoredPresence = v ∧ store.Admits p

/-- A call that brings nothing under a key leaves what is filed under it, or takes it away when it
has expired. -/
theorem lookup_step (call : PresenceCall) :
    (∃ v, store.Accepts key call v ∧ (store.step call).records.lookup key = some v) ∨
      (∀ v, ¬ store.Accepts key call v) ∧
        ((store.step call).records.lookup key = store.records.lookup key ∨
          (store.step call).records.lookup key =
            (store.purge call.nowMs).records.lookup key) := by
  cases call with
  | query k nowMs =>
    refine .inr ⟨?_, .inr rfl⟩
    rintro v ⟨_, hcall, -⟩
    cases hcall
  | publish p =>
    rw [step]
    rcases store.publish_cases p with ⟨hadmits, hpublish⟩ | ⟨hrefused, e, kept, hkept, hpublish⟩
    · rw [hpublish]
      by_cases hk : key = p.key
      · subst hk
        exact .inl ⟨p.toStoredPresence, ⟨p, rfl, rfl, rfl, hadmits⟩, AList.lookup_insert _⟩
      · refine .inr ⟨?_, .inr (AList.lookup_insert_ne hk)⟩
        rintro v ⟨_, hcall, hkey, -⟩
        cases hcall
        exact hk hkey.symm
    · rw [hpublish]
      refine .inr ⟨?_, ?_⟩
      · rintro v ⟨_, hcall, -, -, hadmits⟩
        cases hcall
        exact hrefused hadmits
      -- A refused publication has purged the store, unless its form was wrong.
      · rcases hkept with rfl | rfl
        · exact .inl rfl
        · exact .inr rfl

/-! ## Runs -/

/-- The publication `v` is the last one that was accepted under the key, before the calls `later`. -/
inductive Latest (capacity : ℕ+) (v : StoredPresence) : List PresenceCall → List PresenceCall → Prop
  | accepted {call : PresenceCall} {earlier : List PresenceCall}
      (h : (after capacity earlier).Accepts key call v) : Latest capacity v [] (call :: earlier)
  | kept {call : PresenceCall} {later earlier : List PresenceCall}
      (h : Latest capacity v later earlier)
      (hnone : ∀ v', ¬ (after capacity earlier).Accepts key call v') :
      Latest capacity v (call :: later) (call :: earlier)

variable {key} {capacity : ℕ+} {calls later : List PresenceCall} {v : StoredPresence}

theorem latest_of_lookup (h : (after capacity calls).records.lookup key = some v) :
    ∃ later, Latest key capacity v later calls := by
  induction calls with
  | nil => cases h
  | cons call earlier ih =>
    rw [after] at h
    rcases (after capacity earlier).lookup_step key call with
      ⟨v', haccepts, hlookup⟩ | ⟨hnone, hsame⟩
    · obtain rfl := Option.some.inj (h.symm.trans hlookup)
      exact ⟨[], .accepted haccepts⟩
    · have hbefore : (after capacity earlier).records.lookup key = some v := by
        rcases hsame with hsame | hsame
        · rw [← hsame, h]
        · exact ((lookup_purge_eq_some ..).mp (hsame ▸ h)).1
      obtain ⟨later, hlatest⟩ := ih hbefore
      exact ⟨call :: later, .kept hlatest hnone⟩

theorem Latest.lookup (h : Latest key capacity v later calls)
    (hlasts : ∀ call ∈ later, call.nowMs < v.expiresAtMs) :
    (after capacity calls).records.lookup key = some v := by
  -- The induction is on the calls since the publication.
  induction h with
  | @accepted call earlier haccepts =>
    rcases (after capacity earlier).lookup_step key call with
      ⟨v', ⟨_, hcall', -, rfl, -⟩, hlookup⟩ | ⟨hnone, -⟩
    · obtain ⟨_, hcall, -, rfl, -⟩ := haccepts
      rw [after, hlookup, PresenceCall.publish.inj (hcall.symm.trans hcall')]
    · exact absurd haccepts (hnone v)
  | @kept call later earlier _ hnone ih =>
    have hbefore := ih fun c hc => hlasts c (List.mem_cons_of_mem _ hc)
    rcases (after capacity earlier).lookup_step key call with
      ⟨v', haccepts, -⟩ | ⟨-, hsame | hsame⟩
    · exact absurd haccepts (hnone v')
    · rw [after, hsame, hbefore]
    · rw [after, hsame]
      exact (lookup_purge_eq_some ..).mpr ⟨hbefore, hlasts call List.mem_cons_self⟩

theorem Latest.fits (h : Latest key capacity v later calls) :
    v.record.length ≤ maxPresenceRecordBytes := by
  induction h with
  | accepted h =>
    obtain ⟨_, -, -, rfl, hadmits⟩ := h
    exact hadmits.fits
  | kept _ _ ih => exact ih

theorem after_size (calls : List PresenceCall) : (after capacity calls).capacity = capacity ∧
    (after capacity calls).records.keys.length ≤ capacity := by
  induction calls with
  | nil => exact ⟨rfl, Nat.zero_le _⟩
  | cons call earlier ih =>
    obtain ⟨hcapacity, hsize⟩ := ih
    have hstep := step_size (after capacity earlier) call (by rwa [hcapacity])
    rwa [hcapacity] at hstep

/-- Whatever was called and whatever the clock read, a query finds nothing, or the last publication
that was accepted under its key, which has not expired. And it does find the last one, when neither
its own reading of the clock nor one since then reaches the expiry. -/
theorem presence_query_latest (capacity : ℕ+) (calls : List PresenceCall) (key : PresenceKey)
    (nowMs : UInt64) :
    (((after capacity calls).query key nowMs).1 = none ∨
      ∃ v later, Latest key capacity v later calls ∧ nowMs < v.expiresAtMs ∧
        ((after capacity calls).query key nowMs).1 = some (v.expiresAtMs, v.record)) ∧
    ∀ v later, Latest key capacity v later calls →
      (∀ call ∈ later, call.nowMs < v.expiresAtMs) → nowMs < v.expiresAtMs →
      ((after capacity calls).query key nowMs).1 = some (v.expiresAtMs, v.record) := by
  unfold query
  dsimp only
  refine ⟨?_, ?_⟩
  · rcases hfound : ((after capacity calls).purge nowMs).records.lookup key with _ | v
    · exact .inl rfl
    · obtain ⟨hv, hunexpired⟩ := (lookup_purge_eq_some ..).mp hfound
      obtain ⟨later, hlatest⟩ := latest_of_lookup hv
      exact .inr ⟨v, later, hlatest, hunexpired, rfl⟩
  · intro v later hlatest hlasts hunexpired
    rw [(lookup_purge_eq_some ..).mpr ⟨hlatest.lookup hlasts, hunexpired⟩]
    rfl

/-- While the last publication under a key lasts, another one is accepted exactly when it comes from
the same endpoint, has a record within the limit and expires within the limit. So nobody else
replaces it, and a full store does not keep its owner from renewing it. -/
theorem presence_owner_renews (hlatest : Latest p.key capacity v later calls)
    (hlasts : ∀ call ∈ later, call.nowMs < v.expiresAtMs) (hunexpired : p.nowMs < v.expiresAtMs) :
    ((after capacity calls).publish p).1 = .ok () ↔
      p.owner = v.owner ∧ p.record ≠ [] ∧ p.record.length ≤ maxPresenceRecordBytes ∧
        p.nowMs < p.expiresAtMs ∧ p.expiresAtMs - p.nowMs ≤ maxPresenceTtlMs := by
  have hlookup := (lookup_purge_eq_some ..).mpr ⟨hlatest.lookup hlasts, hunexpired⟩
  rw [publish_eq_ok]
  constructor
  · intro h
    exact ⟨(h.owned v hlookup).symm, h.nonempty, h.fits, h.unexpired, h.brief⟩
  · rintro ⟨howner, hnonempty, hfits, hafter, hbrief⟩
    refine ⟨hnonempty, hfits, hafter, hbrief, ?_, ?_⟩
    · intro v' hv'
      rw [← Option.some.inj (hlookup.symm.trans hv'), howner]
    · intro hnone
      cases hlookup.symm.trans hnone

/-- The store never holds more records than its capacity, each of at most 16 KiB. -/
theorem presence_store_bounded (capacity : ℕ+) (calls : List PresenceCall) :
    (after capacity calls).records.keys.length ≤ capacity ∧
      ∀ key v, (after capacity calls).records.lookup key = some v →
        v.record.length ≤ maxPresenceRecordBytes := by
  refine ⟨(after_size calls).2, ?_⟩
  intro key v hv
  obtain ⟨later, hlatest⟩ := latest_of_lookup hv
  exact hlatest.fits

end MemoryOpaquePresenceStore

end Weaver

namespace Weaver.Sample

open Wire Transparent MemoryOpaquePresenceStore

def holder : EndpointId :=
  ⟨Crypto.endpointPublic (zeroes 32), Crypto.validEndpoint_endpointPublic _⟩

def held : Publication := ⟨⟨holder, 2000, [1]⟩, (7, zeroes 24), 1000⟩

/-- In a store with room for one record, which it holds, the record is renewed. -/
theorem presence_owner_renews_sample :
    Latest held.key 1 held.toStoredPresence [] [.publish held] ∧
      ((after 1 [.publish held]).publish { held with expiresAtMs := 3000, nowMs := 1500 }).1 =
        .ok () := by
  have hlatest : Latest held.key 1 held.toStoredPresence [] [.publish held] :=
    .accepted ⟨held, rfl, rfl, rfl, (publish_eq_ok ..).mp rfl⟩
  refine ⟨hlatest, (presence_owner_renews _ hlatest nofun (by decide)).mpr ?_⟩
  exact ⟨rfl, by decide, by decide, by decide, by decide⟩

end Weaver.Sample
