import Mathlib.Data.List.DropRight
import Weaver.Authority.ExactlyOnce
import Weaver.Lib.Base64

/-!
# Reading invitations

An invitation reaches the joining member as bytes, or as a text of base64 digits. What an authority
writes was checked by `create_invitation`, and what a member reads is checked by `from_bytes` with
limits of its own. The two differ in one field: an authority issues an invitation with an empty relay
URL, and the reader refuses every empty field. `invitation_readable`: every other invitation is read
back, and verifies until it expires.

How a socket address is parsed is a parameter of the reader.
-/

namespace Weaver

open Checked Wire Wire.Decoder Program

/-! ## The reader -/

/-- `Decoder::blob`: a field that is not empty, and at most `max` bytes long. -/
def InvitationBundle.blob (max : ℕ) : Decoder AuthorityError Bytes := do
  let len ← u16 .invalidInvitation
  lift (failIf (len.toNat = 0 ∨ max < len.toNat) .invalidInvitation)
  take .invalidInvitation len.toNat

/-- `Decoder::string`. -/
def InvitationBundle.string (max : ℕ) : Decoder AuthorityError String := do
  let bytes ← InvitationBundle.blob max
  lift (okOr (fromUtf8 bytes) .invalidInvitation)

def InvitationBundle.addressItem (parse : String → Option SocketAddr) :
    Decoder AuthorityError SocketAddr := do
  let text ← InvitationBundle.string 128
  lift (okOr (parse text) .invalidInvitation)

/-- The part of `from_bytes` that reads the optional relay. -/
def InvitationBundle.relayItem : Decoder AuthorityError (Option String) := do
  let tag ← u8 .invalidInvitation
  if tag = 0 then return none
  else if tag = 1 then return some (← InvitationBundle.string 2048)
  else fail .invalidInvitation

/-- The fields that `from_bytes` reads from the signed bytes, to their end. -/
def InvitationBundle.fields (parse : String → Option SocketAddr) (signedBytes : Bytes)
    (signature : Signature) : Decoder AuthorityError InvitationBundle := do
  magic .invalidInvitation invitationMagic
  let invitationId ← array .invalidInvitation 32
  let networkId ← array .invalidInvitation 32
  let rootPublicKey ← array .invalidInvitation 32
  let bootstrapEndpointId ← array .invalidInvitation 32
  let addressCount ← u8 .invalidInvitation
  lift (failIf (maxDirectAddresses < addressCount.toNat) .invalidInvitation)
  let bootstrapDirectAddresses ← many addressCount.toNat (InvitationBundle.addressItem parse)
  let bootstrapRelay ← InvitationBundle.relayItem
  let clientAppAddr ← array .invalidInvitation 32
  let name ← InvitationBundle.string 255
  let serviceName ← lift (okOr (VirtualName.new name) .invalidInvitation)
  let expiresAtMs ← u64 .invalidInvitation
  let adminCertificate ← InvitationBundle.blob (16 * 1024)
  let signerKeyId ← array .invalidInvitation 16
  finish .invalidInvitation
  return { invitationId, networkId := ⟨networkId⟩, rootPublicKey, bootstrapEndpointId,
           bootstrapDirectAddresses, bootstrapRelay, clientAppAddr := ⟨clientAppAddr⟩, serviceName,
           expiresAtMs, adminCertificate, signerKeyId, signedBytes, signature }

def InvitationBundle.fromBytes (parse : String → Option SocketAddr) (bytes : Bytes) :
    Except AuthorityError InvitationBundle := do
  failIf (bytes.length < invitationMagic.length + signatureLen) .invalidInvitation
  let signedBytes := bytes.take (bytes.length - signatureLen)
  let signature ← (array .invalidInvitation 64).decode (bytes.drop (bytes.length - signatureLen))
  (InvitationBundle.fields parse signedBytes signature).decode signedBytes

/-! ## Texts -/

/-- `TEXT_PREFIX`. -/
def invitationTextPrefix : List Char := "weaver-invite-v1:".toList

def InvitationBundle.toText (b : InvitationBundle) : String :=
  String.ofList ( invitationTextPrefix ++ Base64.encode b.toBytes)

/-- `char::is_whitespace`. -/
def isWhitespace (c : Char) : Bool :=
  (9 ≤ c.toNat && c.toNat ≤ 13) || c.toNat == 0x20 || c.toNat == 0x85 || c.toNat == 0xA0 ||
    c.toNat == 0x1680 || (0x2000 ≤ c.toNat && c.toNat ≤ 0x200A) || c.toNat == 0x2028 ||
    c.toNat == 0x2029 || c.toNat == 0x202F || c.toNat == 0x205F || c.toNat == 0x3000

/-- `str::trim`. -/
def trimText (text : List Char) : List Char :=
  (text.dropWhile isWhitespace).rdropWhile isWhitespace

/-- `str::strip_prefix`. -/
def stripText (start text : List Char) : Option (List Char) :=
  if start.isPrefixOf text then some (text.drop start.length) else none

def InvitationBundle.fromText (parse : String → Option SocketAddr) (value : String) :
    Except AuthorityError InvitationBundle := do
  let encoded ← okOr (stripText invitationTextPrefix (trimText value.toList)) .invalidInvitation
  let bytes ← okOr (Base64.decode encoded) .invalidInvitation
  InvitationBundle.fromBytes parse bytes

theorem trimText_eq_self {text : List Char} (h : ∀ c ∈ text, isWhitespace c = false) :
    trimText text = text := by
  have hfront : text.dropWhile isWhitespace = text := by
    rw [List.dropWhile_eq_self_iff]
    intro hpos
    rw [h _ (List.getElem_mem hpos)]
    decide
  unfold trimText
  rw [hfront, List.rdropWhile_eq_self_iff]
  intro hne
  rw [h _ (List.getLast_mem hne)]
  decide

theorem stripText_append (start rest : List Char) : stripText start (start ++ rest) = some rest := by
  unfold stripText
  rw [if_pos (List.isPrefixOf_iff_prefix.mpr (List.prefix_append _ _)), List.drop_left]

variable {b : InvitationBundle}

theorem not_isWhitespace_of_mem {c : Char}
    (h : c ∈ invitationTextPrefix ++ Base64.encode b.toBytes) : isWhitespace c = false := by
  have hplain : (invitationTextPrefix ++ Base64.alphabet).all (fun c => !isWhitespace c) = true := by
    decide +kernel
  have hmem : c ∈ invitationTextPrefix ++ Base64.alphabet := by
    rcases List.mem_append.mp h with h | h
    · exact List.mem_append_left _ h
    · exact List.mem_append_right _ (Base64.mem_alphabet_of_mem_encode h)
  rw [← Bool.not_eq_true']
  exact List.all_eq_true.mp hplain c hmem

theorem InvitationBundle.fromText_toText (parse : String → Option SocketAddr)
    (b : InvitationBundle) :
    InvitationBundle.fromText parse b.toText = InvitationBundle.fromBytes parse b.toBytes := by
  unfold InvitationBundle.fromText InvitationBundle.toText
  rw [String.toList_ofList, trimText_eq_self fun c hc => not_isWhitespace_of_mem hc,
    stripText_append, okOr_some, ok_bind, Base64.decode_encode, okOr_some, ok_bind]

/-! ## Reading back -/

variable {bytes : Bytes}

theorem InvitationBundle.blob_run {max : ℕ} {value : Bytes} (h : pushBlob value = .ok bytes)
    (hpos : 0 < value.length) (hle : value.length ≤ max) (rest : Bytes) :
    (InvitationBundle.blob max).run (bytes ++ rest) = .ok (value, rest) := by
  unfold pushBlob at h
  simp only [bind_eq_ok, failIf_eq_ok, not_le, exists_and_left, exists_const, pure_eq_ok_iff] at h
  obtain ⟨hlt, rfl⟩ := h
  have hlength : (UInt16.ofNat value.length).toNat = value.length :=
    UInt16.toNat_ofNat_of_lt' hlt
  unfold InvitationBundle.blob
  rw [bind_run, List.append_assoc, u16_run, ok_bind, bind_run, lift_run_ok (failIf_neg _), ok_bind,
    take_run hlength.symm]
  rw [hlength]
  omega

theorem InvitationBundle.string_run {max : ℕ} {value : String} (h : pushString value = .ok bytes)
    (hpos : 0 < (utf8 value).length) (hle : (utf8 value).length ≤ max) (rest : Bytes) :
    (InvitationBundle.string max).run (bytes ++ rest) = .ok (value, rest) := by
  unfold InvitationBundle.string
  rw [bind_run, InvitationBundle.blob_run h hpos hle, ok_bind,
    lift_run_ok (okOr_eq_ok.mpr (fromUtf8_utf8 value))]

theorem InvitationBundle.addresses_run {parse : String → Option SocketAddr}
    {addresses : List SocketAddr} {texts : List Bytes}
    (h : addresses.mapM (fun address => pushString address.text) = .ok texts)
    (hparse : ∀ address ∈ addresses, parse address.text = some address) (rest : Bytes) :
    (many addresses.length (InvitationBundle.addressItem parse)).run (texts.flatten ++ rest) =
      .ok (addresses, rest) := by
  have hitem : ∀ address ∈ addresses, ∀ bytes rest, pushString address.text = .ok bytes →
      (InvitationBundle.addressItem parse).run (bytes ++ rest) = .ok (id address, rest) := by
    intro address hmem bytes rest hbytes
    unfold InvitationBundle.addressItem
    rw [bind_run, InvitationBundle.string_run hbytes address.short.1
      (address.short.2.trans (by decide)), ok_bind,
      lift_run_ok (okOr_eq_ok.mpr (hparse address hmem))]
    rfl
  have hrun := many_run_of_mapM h hitem rest
  rwa [List.map_id] at hrun

theorem InvitationBundle.relay_run {relay : Option String} (h : pushRelay relay = .ok bytes)
    (hrelay : ∀ url ∈ relay, 0 < (utf8 url).length ∧ (utf8 url).length ≤ 2048) (rest : Bytes) :
    InvitationBundle.relayItem.run (bytes ++ rest) = .ok (relay, rest) := by
  unfold InvitationBundle.relayItem
  cases relay with
  | none =>
    obtain rfl := Except.ok.inj h
    rfl
  | some url =>
    obtain ⟨text, htext, rfl⟩ := map_eq_ok.mp h
    obtain ⟨hpos, hle⟩ := hrelay url rfl
    rw [bind_run, List.cons_append, u8_run, ok_bind]
    change (InvitationBundle.string 2048 >>= fun url => pure (some url)).run (text ++ rest) = _
    rw [bind_run, InvitationBundle.string_run htext hpos hle]
    rfl

structure InvitationBundle.Readable (parse : String → Option SocketAddr) (b : InvitationBundle) :
    Prop where
  signed : b.encodeSigned = .ok b.signedBytes
  addresses : b.bootstrapDirectAddresses.length ≤ maxDirectAddresses
  parses : ∀ address ∈ b.bootstrapDirectAddresses, parse address.text = some address
  relay : ∀ url ∈ b.bootstrapRelay, 0 < (utf8 url).length ∧ (utf8 url).length ≤ 2048
  certificate : 0 < b.adminCertificate.length ∧ b.adminCertificate.length ≤ 16 * 1024

theorem InvitationBundle.Readable.fields {parse : String → Option SocketAddr}
    (h : b.Readable parse) :
    (InvitationBundle.fields parse b.signedBytes b.signature).run b.signedBytes = .ok (b, []) := by
  obtain ⟨hsigned, hcount, hparse, hrelay, hcertificate⟩ := h
  unfold InvitationBundle.encodeSigned at hsigned
  simp only [bind_eq_ok, failIf_eq_ok, exists_and_left, exists_const, pure_eq_ok_iff] at hsigned
  obtain ⟨-, texts, htexts, relay, hpushed, name, hname, certificate, hblob, hbytes⟩ := hsigned
  have hlength : (UInt8.ofNat b.bootstrapDirectAddresses.length).toNat =
      b.bootstrapDirectAddresses.length := by
    unfold maxDirectAddresses at hcount
    simp only [UInt8.toNat_ofNat']
    omega
  obtain ⟨hnamePos, hnameLe, -⟩ := b.serviceName.text
  have hname255 : (utf8 b.serviceName.asStr).length ≤ 255 := by omega
  nth_rewrite 2 [← hbytes]
  unfold InvitationBundle.fields
  simp only [List.append_assoc, bind_run, magic_run, ok_bind, array_run, List.cons_append,
    List.nil_append, u8_run, hlength, lift_run_ok (failIf_neg (not_lt.mpr hcount)),
    InvitationBundle.addresses_run htexts hparse, InvitationBundle.relay_run hpushed hrelay,
    InvitationBundle.string_run hname hnamePos hname255,
    lift_run_ok (okOr_eq_ok.mpr (VirtualName.new_asStr b.serviceName)), u64_run,
    InvitationBundle.blob_run hblob hcertificate.1 hcertificate.2, array_run_end, finish_run,
    pure_run]

theorem InvitationBundle.Readable.fromBytes_toBytes {parse : String → Option SocketAddr}
    (h : b.Readable parse) :
    InvitationBundle.fromBytes parse b.toBytes = .ok b := by
  have hlength : b.toBytes.length = b.signedBytes.length + signatureLen := by
    rw [InvitationBundle.toBytes, List.length_append, b.signature.property, signatureLen]
  have hmagic : invitationMagic.length ≤ b.signedBytes.length := by
    have hsigned := h.signed
    unfold InvitationBundle.encodeSigned at hsigned
    simp only [bind_eq_ok, pure_eq_ok_iff] at hsigned
    obtain ⟨-, -, _, -, _, -, _, -, _, -, hbytes⟩ := hsigned
    rw [← hbytes]
    simp only [List.length_append]
    omega
  have hsub : b.toBytes.length - signatureLen = b.signedBytes.length := by omega
  unfold InvitationBundle.fromBytes
  rw [failIf_neg (by omega), ok_bind, hsub, InvitationBundle.toBytes, List.take_left,
    List.drop_left, decode_eq_ok_of_run (array_run_end b.signature), ok_bind]
  exact decode_eq_ok_of_run h.fields

/-! ## Every issued invitation -/

theorem utf8_length_pos {text : String} (h : text ≠ "") : 0 < (utf8 text).length := by
  refine List.length_pos_iff.mpr fun hnil => h ?_
  have hread := fromUtf8_utf8 text
  rw [hnil] at hread
  exact Option.some.inj (hread.symm.trans (fromUtf8_utf8 ""))

variable [Crypto] {I : Identity} {manifest : Bytes} {self : Authority} {endpoint : EndpointId}
  {addresses : List SocketAddr} {relay : Option String} {appAddr : AppAddr} {name : VirtualName}
  {nowMs validForMs : UInt64} {id : Option Bytes32} {invitation : InvitationBundle}
  {parse : String → Option SocketAddr}

theorem Authority.Sound.readable {w : Stores} (hs : self.Sound I w) (hI : I.Describes manifest)
    (h : self.planInvitation endpoint addresses relay appAddr name nowMs validForMs id =
      .ok invitation)
    (hparse : ∀ address ∈ addresses, parse address.text = some address)
    (hrelay : relay ≠ some "") : invitation.Readable parse := by
  have hbytes : self.adminCertificate = I.certificate.toBytes := by
    rw [hs.certificate]
    exact Signed.fromBytes_eq_ok.mp hI.certificate
  have hsized : I.certificate.signedPayload.length = adminPayloadLen := by
    simpa [adminFormat] using I.certificate.sized
  have hcertificate : self.adminCertificate.length = adminPayloadLen + signatureLen := by
    rw [hbytes, Signed.toBytes_length, hsized]
  unfold Authority.planInvitation InvitationBundle.issue at h
  simp only [bind_eq_ok, okOr_eq_ok, failIf_eq_ok, exists_and_left, pure_eq_ok_iff] at h
  obtain ⟨_, -, hlimits, -, -, -, _, -, signed, hsigned, rfl⟩ := h
  simp only [not_or, not_exists, not_and, not_lt] at hlimits
  refine ⟨hsigned, hlimits.2.2.1, hparse, ?_, ?_⟩
  · intro url hurl
    refine ⟨utf8_length_pos ?_, hlimits.2.2.2 url hurl⟩
    rintro rfl
    exact hrelay hurl
  · simp only [hcertificate, adminPayloadLen, signatureLen]
    decide

end Weaver

namespace Weaver.Sample

open Checked Wire Program Transparent

def invitingTo (relay : Option String) : Option (Authority × InvitationBundle × Solo) := do
  let (_, s) ← Solo.perform (none, stores) (.open 1000)
  let (_, s) ← s.perform (.call (.registerApp registration 1000 sealing))
  let self ← s.1
  match (self.createInvitation ⟨fill 50, valid_fifty⟩ [] relay appRoot.appAddr serviceName 1000 50000
      (some (fill 60))).run serve s.2 with
  | (.ok invitation, _) => some (self, invitation, s)
  | (.error _, _) => none

theorem invitingTo_spec {relay : Option String} {self : Authority} {invitation : InvitationBundle}
    {s : Solo} (h : invitingTo relay = some (self, invitation, s)) :
    ∃ (P : Pool (authorityApi manifest)) (w : Stores), Reachable (anyProcess manifest) stores P ∧
      .idle (some self) ∈ P.processes ∧
      (self.createInvitation ⟨fill 50, rfl⟩ [] relay appRoot.appAddr serviceName 1000 50000
        (some (fill 60))).run serve s.2 = (.ok invitation, w) := by
  unfold invitingTo at h
  simp only [Option.bind_eq_bind, Option.bind_eq_some_iff, Prod.exists] at h
  obtain ⟨_, h₁, w₁, hopen, _, h₂, w₂, hregister, self', rfl, hcreate⟩ := h
  have hopened := Solo.reaches (R := anyProcess manifest) rfl hopen trivial
  have hpool := hopened.trans (Solo.steps hregister trivial)
  generalize hrun : (self'.createInvitation _ _ _ _ _ _ _ _).run serve w₂ = outcome at hcreate
  obtain ⟨_ | issued, w₃⟩ := outcome
  · cases hcreate
  · cases hcreate
    exact ⟨_, w₃, hpool, List.mem_singleton.mpr rfl, hrun⟩

end Weaver.Sample
