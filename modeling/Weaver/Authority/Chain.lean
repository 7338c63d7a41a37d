import Weaver.Authority.Calls

/-!
# The chain of committed envelopes

What the authority's records look like: the history holds one envelope for each revision up to the
current one, each envelope names its predecessor by its hash, and the two current records hold the
last envelope and its head (`Chain`).

Two kinds of batches touch an authority's scope. A batch of a revision puts the next envelope in
place (`Advance`), and `Advance.chain` shows that it can do so only on the last envelope: the
history's record of the new revision was missing, so the envelope that the new one extends is the
last one, whatever the committing handle had cached. All other batches leave the chain's records
alone (`Chain.of_same`).
-/

namespace Weaver

open Checked Wire Versioned Program

/-! ## The keys -/

theorem keyEnvelope_length : keyEnvelope.asBytes.length = 28 := by decide

theorem keyHead_length : keyHead.asBytes.length = 24 := by decide

theorem historyKey_length (r : UInt64) : (historyKey r).asBytes.length = 36 := by
  change (keyHistoryPrefix ++ be64 r).length = 36
  rw [List.length_append, keyHistoryPrefix_length, be64_length]

theorem invitationKey_length (id : Bytes32) : (invitationKey id).asBytes.length = 56 := by
  change (invitationKeyPrefix ++ id.val).length = 56
  rw [List.length_append, invitationKeyPrefix_length, id.property]

theorem StoreKey.ne_of_length {k l : StoreKey} (h : k.asBytes.length ≠ l.asBytes.length) :
    k ≠ l := by
  intro heq
  rw [heq] at h
  exact h rfl

theorem keyEnvelope_ne_historyKey (r : UInt64) : keyEnvelope ≠ historyKey r := by
  refine StoreKey.ne_of_length ?_
  rw [keyEnvelope_length, historyKey_length]
  decide

theorem keyHead_ne_historyKey (r : UInt64) : keyHead ≠ historyKey r := by
  refine StoreKey.ne_of_length ?_
  rw [keyHead_length, historyKey_length]
  decide

theorem invitationKey_ne_keyEnvelope (id : Bytes32) : invitationKey id ≠ keyEnvelope := by
  refine StoreKey.ne_of_length ?_
  rw [invitationKey_length, keyEnvelope_length]
  decide

theorem invitationKey_ne_keyHead (id : Bytes32) : invitationKey id ≠ keyHead := by
  refine StoreKey.ne_of_length ?_
  rw [invitationKey_length, keyHead_length]
  decide

theorem invitationKey_ne_historyKey (id : Bytes32) (r : UInt64) :
    invitationKey id ≠ historyKey r := by
  refine StoreKey.ne_of_length ?_
  rw [invitationKey_length, historyKey_length]
  decide

theorem historyKey_injective {r s : UInt64} (h : historyKey r = historyKey s) : r = s := by
  have hbytes : keyHistoryPrefix ++ be64 r = keyHistoryPrefix ++ be64 s :=
    congrArg StoreKey.asBytes h
  exact be64_injective (List.append_cancel_left hbytes)

theorem invitationKey_injective {i j : Bytes32} (h : invitationKey i = invitationKey j) :
    i = j := by
  have hbytes : invitationKeyPrefix ++ i.val = invitationKeyPrefix ++ j.val :=
    congrArg StoreKey.asBytes h
  exact Subtype.ext (List.append_cancel_left hbytes)

/-! ## The chain -/

def Committed (n : NetworkId) (w : Stores) (e : EncryptedConfigEnvelope) : Prop :=
  EncryptedConfigEnvelope.fromBytes e.toBytes = .ok e ∧
    ∃ v, w.record (.authority n) (historyKey e.revision) = some ⟨v, e.toBytes⟩

variable {n : NetworkId} {w w' : Stores}

variable {e : EncryptedConfigEnvelope}

theorem Committed.unique {e' : EncryptedConfigEnvelope} (h : Committed n w e)
    (h' : Committed n w e') (hrev : e.revision = e'.revision) : e = e' := by
  obtain ⟨hparse, v, hrec⟩ := h
  obtain ⟨hparse', v', hrec'⟩ := h'
  rw [hrev, hrec'] at hrec
  have hbytes : e'.toBytes = e.toBytes := congrArg Entry.value (Option.some.inj hrec)
  rw [hbytes, hparse] at hparse'
  exact Except.ok.inj hparse'

variable [Crypto]

structure Extends (e e' : EncryptedConfigEnvelope) : Prop where
  revision : e'.revision.toNat = e.revision.toNat + 1
  previous : e'.previousHash = e.envelopeHash
  epoch : e.epoch ≤ e'.epoch

/-- The authority's records of a network hold a chain of envelopes that ends with `last`. -/
structure Chain (n : NetworkId) (w : Stores) (last : EncryptedConfigEnvelope) : Prop where
  /-- The history holds an envelope for every revision up to the last one. -/
  present : ∀ r ≤ last.revision, ∃ e, Committed n w e ∧ e.revision = r
  beyond : ∀ r, last.revision < r → w.record (.authority n) (historyKey r) = none
  linked : ∀ e e', Committed n w e → Committed n w e' →
    e'.revision.toNat = e.revision.toNat + 1 → Extends e e'
  committed : Committed n w last
  /-- `KEY_ENVELOPE` holds the last envelope. -/
  envelope : ∃ v, w.record (.authority n) keyEnvelope = some ⟨v, last.toBytes⟩
  /-- `KEY_HEAD` holds the epoch, the revision and the hash of the last envelope. -/
  head : ∃ v, w.record (.authority n) keyHead = some ⟨v, encodeHead last.head⟩

variable {last : EncryptedConfigEnvelope}

theorem Chain.of_record (h : Chain n w last) {r : UInt64} {rec : VersionedBytes}
    (hrec : w.record (.authority n) (historyKey r) = some rec) :
    ∃ e, Committed n w e ∧ e.revision = r ∧ rec.bytes = e.toBytes := by
  have hle : r ≤ last.revision := by
    by_contra hlt
    rw [h.beyond r (not_le.mp hlt)] at hrec
    cases hrec
  obtain ⟨e, hcommitted, hrev⟩ := h.present r hle
  obtain ⟨v, hrec'⟩ := hcommitted.2
  refine ⟨e, hcommitted, hrev, ?_⟩
  rw [hrev, hrec] at hrec'
  rw [Option.some.inj hrec']

theorem Chain.revision_le (h : Chain n w last) (he : Committed n w e) :
    e.revision ≤ last.revision := by
  by_contra hlt
  obtain ⟨-, v, hrec⟩ := he
  rw [h.beyond e.revision (not_le.mp hlt)] at hrec
  cases hrec

theorem Chain.predecessor (h : Chain n w last) (he : Committed n w e) {k : ℕ}
    (hk : e.revision.toNat = k + 1) :
    ∃ e₀, Committed n w e₀ ∧ e₀.revision.toNat = k := by
  have hle := h.revision_le he
  rw [UInt64.le_iff_toNat_le] at hle
  have hlt : k < UInt64.size := by
    have hsize := e.revision.toNat_lt_size
    omega
  have hnat : (UInt64.ofNat k).toNat = k := UInt64.toNat_ofNat_of_lt' hlt
  obtain ⟨e₀, he₀, hrevision⟩ := h.present (UInt64.ofNat k) (by rw [UInt64.le_iff_toNat_le]; omega)
  refine ⟨e₀, he₀, ?_⟩
  rw [hrevision, hnat]

theorem Chain.last_unique {last' : EncryptedConfigEnvelope} (h : Chain n w last)
    (h' : Chain n w last') : last = last' :=
  h.committed.unique h'.committed
    (le_antisymm (h'.revision_le h.committed) (h.revision_le h'.committed))

theorem Chain.of_same (h : Chain n w last)
    (henvelope : w'.record (.authority n) keyEnvelope = w.record (.authority n) keyEnvelope)
    (hhead : w'.record (.authority n) keyHead = w.record (.authority n) keyHead)
    (hhistory : ∀ r, w'.record (.authority n) (historyKey r) =
      w.record (.authority n) (historyKey r)) : Chain n w' last := by
  have hcommitted : ∀ e, Committed n w' e ↔ Committed n w e := by
    intro e
    unfold Committed
    rw [hhistory]
  refine ⟨?_, ?_, ?_, (hcommitted last).mpr h.committed, ?_, ?_⟩
  · intro r hr
    obtain ⟨e, he, hrev⟩ := h.present r hr
    exact ⟨e, (hcommitted e).mpr he, hrev⟩
  · intro r hr
    rw [hhistory]
    exact h.beyond r hr
  · intro e e' he he'
    exact h.linked e e' ((hcommitted e).mp he) ((hcommitted e').mp he')
  · rw [henvelope]
    exact h.envelope
  · rw [hhead]
    exact h.head

/-! ## A new revision -/

structure Advance (n : NetworkId) (w w' : Stores) (e : EncryptedConfigEnvelope) : Prop where
  missing : w.record (.authority n) (historyKey e.revision) = none
  envelope : ∃ v, w'.record (.authority n) keyEnvelope = some ⟨v, e.toBytes⟩
  head : ∃ v, w'.record (.authority n) keyHead = some ⟨v, encodeHead e.head⟩
  history : ∃ v, w'.record (.authority n) (historyKey e.revision) = some ⟨v, e.toBytes⟩
  others : ∀ r, r ≠ e.revision → w'.record (.authority n) (historyKey r) =
    w.record (.authority n) (historyKey r)

theorem Advance.committed_of {e₀ : EncryptedConfigEnvelope} (h : Advance n w w' e)
    (he₀ : Committed n w e₀) : Committed n w' e₀ := by
  obtain ⟨hparse, v, hrec⟩ := he₀
  have hne : e₀.revision ≠ e.revision := by
    intro heq
    rw [heq, h.missing] at hrec
    cases hrec
  refine ⟨hparse, v, ?_⟩
  rw [h.others _ hne]
  exact hrec

theorem Advance.committed_iff (h : Advance n w w' e)
    (hparse : EncryptedConfigEnvelope.fromBytes e.toBytes = .ok e) (x : EncryptedConfigEnvelope) :
    Committed n w' x ↔ x = e ∨ Committed n w x := by
  have hnew : Committed n w' e := ⟨hparse, h.history⟩
  constructor
  · intro hx
    by_cases hrevision : x.revision = e.revision
    · exact .inl (hx.unique hnew hrevision)
    · obtain ⟨hxparse, v, hrecord⟩ := hx
      rw [h.others _ hrevision] at hrecord
      exact .inr ⟨hxparse, v, hrecord⟩
  · intro hx
    rcases hx with rfl | hx
    · exact hnew
    · exact h.committed_of hx

theorem Advance.chain {e' : EncryptedConfigEnvelope} (h : Advance n w w' e')
    (hchain : Chain n w last) (he : Committed n w e) (hext : Extends e e')
    (hparse : EncryptedConfigEnvelope.fromBytes e'.toBytes = .ok e') :
    e = last ∧ Chain n w' e' := by
  have hle := hchain.revision_le he
  have hrev := hext.revision
  -- the record of the new revision was missing, so the chain ended before it
  have hlt : last.revision < e'.revision := by
    by_contra hge
    obtain ⟨e₁, he₁, hrev₁⟩ := hchain.present e'.revision (not_lt.mp hge)
    obtain ⟨-, v, hrec⟩ := he₁
    rw [hrev₁, h.missing] at hrec
    cases hrec
  rw [UInt64.le_iff_toNat_le] at hle
  rw [UInt64.lt_iff_toNat_lt] at hlt
  have hlast : e.revision = last.revision := UInt64.toNat_inj.mp (by omega)
  obtain rfl := he.unique hchain.committed hlast
  have hnew : Committed n w' e' := ⟨hparse, h.history⟩
  have hcases : ∀ x, Committed n w' x → x = e' ∨ Committed n w x :=
    fun x => (h.committed_iff hparse x).mp
  refine ⟨rfl, ?_, ?_, ?_, hnew, h.envelope, h.head⟩
  · intro r hr
    by_cases hreq : r = e'.revision
    · exact ⟨e', hnew, hreq.symm⟩
    · have hne : r.toNat ≠ e'.revision.toNat := fun heq => hreq (UInt64.toNat_inj.mp heq)
      rw [UInt64.le_iff_toNat_le] at hr
      have hr' : r ≤ e.revision := by
        rw [UInt64.le_iff_toNat_le]
        omega
      obtain ⟨x, hx, hxrev⟩ := hchain.present r hr'
      exact ⟨x, h.committed_of hx, hxrev⟩
  · intro r hr
    have hne : r ≠ e'.revision := ne_of_gt hr
    rw [h.others r hne]
    refine hchain.beyond r ?_
    rw [UInt64.lt_iff_toNat_lt] at hr ⊢
    omega
  · intro x y hx hy hxy
    rcases hcases y hy with rfl | hy'
    · -- the new envelope follows the last one only
      rcases hcases x hx with rfl | hx'
      · omega
      · have hxe : x.revision = e.revision := UInt64.toNat_inj.mp (by omega)
        obtain rfl := hx'.unique he hxe
        exact hext
    · have hyle := hchain.revision_le hy'
      rw [UInt64.le_iff_toNat_le] at hyle
      rcases hcases x hx with rfl | hx'
      · omega
      · exact hchain.linked x y hx' hy' hxy

end Weaver
