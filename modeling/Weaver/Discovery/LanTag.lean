import Weaver.Config.SnapshotCodec
import Weaver.Discovery.Presence
import Weaver.Store.SecretFile

/-!
# Protected LAN tags

A node announces itself on a local network by a tag that only members can recognise: a keyed hash of
its endpoint and of the current time slot. The tag is written as hexadecimal text, which is read by
a loop over pairs of bytes; the relay reads hashes with a second copy of that loop.

The library's integer parser takes a sign before the digits. So a pair may be a plus sign and one
digit, and the loops accept texts that are not hexadecimal.
-/

namespace Weaver

open Checked Wire

/-! ## Reading hexadecimal text -/

/-- `char::to_digit`, of the character with the code, for the radix 16. -/
def toDigit (code : UInt8) : Option ℕ :=
  if 48 ≤ code ∧ code ≤ 57 then some (code.toNat - 48)
  else if 97 ≤ code ∧ code ≤ 102 then some (code.toNat - 87)
  else if 65 ≤ code ∧ code ≤ 70 then some (code.toNat - 55)
  else none

/-- The loop of `u8::from_str_radix` over the digits. -/
def accumulate (value : ℕ) : Bytes → Option UInt8
  | [] => some (UInt8.ofNat value)
  | code :: rest => do
    let digit ← toDigit code
    if value * 16 + digit < 256 then accumulate (value * 16 + digit) rest else none

/-- `u8::from_str_radix(_, 16)`. A single sign is refused, and a plus sign before the digits is
skipped. -/
def fromStrRadix16 : Bytes → Option UInt8
  | [] => none
  | [43] => none
  | [45] => none
  | 43 :: digits => accumulate 0 digits
  | digits => accumulate 0 digits

/-- `chunks_exact(2)`. -/
def chunksExact2 : Bytes → List Bytes
  | a :: b :: rest => [a, b] :: chunksExact2 rest
  | _ => []

inductive HexError where
  | length
  | utf8
  | digits
deriving DecidableEq

def readPair (pair : Bytes) : Except HexError UInt8 := do
  let text ← okOr (fromUtf8 pair) .utf8
  okOr (fromStrRadix16 (utf8 text)) .digits

/-- The loop over the pairs. A write outside of the array panics, which is `none` here. -/
def decodePairs {n : ℕ} (index : ℕ) (out : BytesN n) :
    List Bytes → Option (Except HexError (BytesN n))
  | [] => some (.ok out)
  | pair :: rest =>
    match readPair pair with
    | .error e => some (.error e)
    | .ok byte =>
      if index < n then
        decodePairs (index + 1) ⟨out.val.set index byte, by rw [List.length_set, out.property]⟩ rest
      else none

/-- Text of `n` pairs, into an array of zeros. -/
def decodeHex (n : ℕ) (text : Bytes) : Option (Except HexError (BytesN n)) :=
  if text.length = n * 2 then
    decodePairs 0 ⟨List.replicate n 0, List.length_replicate⟩ (chunksExact2 text)
  else some (.error .length)

/-- `decode_hex_32` of the relay. -/
def decodeHex32 (value : String) : Option (Except HexError Bytes32) := decodeHex 32 (utf8 value)

structure LanTag where
  asBytes : BytesN 16
deriving DecidableEq

def LanTag.txtValue (tag : LanTag) : String := "t=" ++ hexEncode tag.asBytes.val

def LanTag.fromTxt (value : String) : Option (Except DiscoveryError LanTag) :=
  if (utf8 value).take 2 = utf8 "t=" then
    (decodeHex 16 ((utf8 value).drop 2)).map fun result =>
      (result.map LanTag.mk).mapError fun _ => .malformedTag
  else some (.error .malformedTag)

/-! ## Hexadecimal digits -/

def hexDigits : List Char := "0123456789abcdefABCDEF".toList

def digitOf (c : Char) : ℕ := hexDigits.idxOf c.toLower

def denoted : List Char → Bytes
  | a :: b :: rest => UInt8.ofNat (digitOf a * 16 + digitOf b) :: denoted rest
  | _ => []

def code (c : Char) : UInt8 := UInt8.ofNat c.toNat

theorem digit_spec {c : Char} (h : c ∈ hexDigits) :
    toDigit (code c) = some (digitOf c) ∧ digitOf c < 16 ∧ code c ≠ 43 ∧
      String.utf8EncodeChar c = [code c] := by
  have hall : hexDigits.all (fun c => decide (toDigit (code c) = some (digitOf c) ∧
      digitOf c < 16 ∧ code c ≠ 43 ∧ String.utf8EncodeChar c = [code c])) = true := by
    decide +kernel
  exact of_decide_eq_true (List.all_eq_true.mp hall c h)

theorem exists_digit {k : UInt8} {x : ℕ} (h : toDigit k = some x) :
    ∃ c ∈ hexDigits, code c = k := by
  have hall : ∀ n < 256, (toDigit (UInt8.ofNat n)).isSome = true →
      (hexDigits.any fun c => code c == UInt8.ofNat n) = true := by decide +kernel
  have hk := hall k.toNat k.toNat_lt
  rw [UInt8.ofNat_toNat, h] at hk
  obtain ⟨c, hc, hcode⟩ := List.any_eq_true.mp (hk rfl)
  exact ⟨c, hc, beq_iff_eq.mp hcode⟩

theorem utf8_ofList_of_hex {digits : List Char} (h : ∀ c ∈ digits, c ∈ hexDigits) :
    utf8 (String.ofList digits) = digits.map code := by
  have hbytes : utf8 (String.ofList digits) = digits.flatMap String.utf8EncodeChar := by
    simp [utf8, String.toByteArray_ofList, List.utf8Encode]
  rw [hbytes, List.map_eq_flatMap]
  exact List.flatMap_congr fun c hc => (digit_spec (h c hc)).2.2.2

/-! ## What the loop accepts -/

theorem readPair_digits {a b : Char} (ha : a ∈ hexDigits) (hb : b ∈ hexDigits) :
    readPair [code a, code b] = .ok (UInt8.ofNat (digitOf a * 16 + digitOf b)) := by
  have hall : (hexDigits.all fun a => hexDigits.all fun b => decide (
      fromStrRadix16 [code a, code b] = some (UInt8.ofNat (digitOf a * 16 + digitOf b)))) = true := by
    decide +kernel
  have hpair := of_decide_eq_true (List.all_eq_true.mp (List.all_eq_true.mp hall a ha) b hb)
  have htext : utf8 (String.ofList [a, b]) = [code a, code b] :=
    utf8_ofList_of_hex (by simp [ha, hb])
  unfold readPair
  rw [← htext, fromUtf8_utf8, okOr_some, ok_bind, htext, hpair]
  rfl

theorem digits_of_readPair {a b byte : UInt8} (h : readPair [a, b] = .ok byte) (hplus : a ≠ 43) :
    ∃ x ∈ hexDigits, ∃ y ∈ hexDigits, a = code x ∧ b = code y := by
  unfold readPair at h
  simp only [bind_eq_ok, okOr_eq_ok] at h
  obtain ⟨text, htext, hradix⟩ := h
  rw [utf8_of_fromUtf8 htext] at hradix
  have hsteps : accumulate 0 [a, b] = some byte := by
    unfold fromStrRadix16 at hradix
    split at hradix <;> simp_all
  simp only [accumulate, Option.bind_eq_bind, Option.bind_eq_some_iff] at hsteps
  obtain ⟨x, hx, hrest⟩ := hsteps
  split_ifs at hrest
  obtain ⟨y, hy, -⟩ := Option.bind_eq_some_iff.mp hrest
  obtain ⟨c, hc, rfl⟩ := exists_digit hx
  obtain ⟨d, hd, rfl⟩ := exists_digit hy
  exact ⟨c, hc, d, hd, rfl, rfl⟩

theorem decodePairs_spec {n : ℕ} (pairs : List Bytes) (index : ℕ) (out : BytesN n)
    (h : index + pairs.length = n) : ∃ r, decodePairs index out pairs = some r ∧
      r.map Subtype.val = (pairs.mapM readPair).map (out.val.take index ++ ·) := by
  induction pairs generalizing index out with
  | nil =>
    refine ⟨_, rfl, ?_⟩
    have hall : out.val.take index = out.val :=
      List.take_of_length_le (by rw [out.property]; exact h.ge)
    simp [Except.map, hall, pure, Except.pure]
  | cons pair rest ih =>
    rw [List.length_cons] at h
    unfold decodePairs
    rw [List.mapM_cons]
    cases hpair : readPair pair with
    | error e => exact ⟨_, rfl, rfl⟩
    | ok byte =>
      have hindex : index < n := by omega
      simp only [if_pos hindex]
      obtain ⟨r, hr, hvalue⟩ := ih (index + 1)
        ⟨out.val.set index byte, by rw [List.length_set, out.property]⟩ (by omega)
      refine ⟨r, hr, hvalue.trans ?_⟩
      have htake : (out.val.set index byte).take (index + 1) = out.val.take index ++ [byte] := by
        rw [List.take_add_one, List.take_set_of_le le_rfl,
          List.getElem?_set_self (by rw [out.property]; exact hindex)]
        rfl
      rw [htake]
      cases rest.mapM readPair with
      | error e => rfl
      | ok bytes => simp [Except.map, bind, Except.bind, pure, Except.pure]

theorem length_chunksExact2 (text : Bytes) : (chunksExact2 text).length = text.length / 2 := by
  induction text using chunksExact2.induct with
  | case1 a b rest ih =>
    rw [chunksExact2, List.length_cons, ih, List.length_cons, List.length_cons]
    omega
  | case2 text hne =>
    match text, hne with
    | [], _ => rfl
    | [_], _ => simp [chunksExact2]
    | a :: b :: rest, hne => exact absurd rfl (hne a b rest)

theorem mapM_readPair_digits {digits : List Char} (heven : digits.length % 2 = 0)
    (h : ∀ c ∈ digits, c ∈ hexDigits) :
    (chunksExact2 (digits.map code)).mapM readPair = .ok (denoted digits) := by
  induction digits using denoted.induct with
  | case1 a b rest ih =>
    have hrest := ih (by simp only [List.length_cons] at heven; omega)
      fun c hc => h c (List.mem_cons_of_mem _ (List.mem_cons_of_mem _ hc))
    rw [List.map_cons, List.map_cons, chunksExact2, List.mapM_cons, hrest,
      readPair_digits (h a (by simp)) (h b (by simp))]
    rfl
  | case2 digits hne =>
    match digits, hne with
    | [], _ => rfl
    | [_], _ => simp at heven
    | a :: b :: rest, hne => exact absurd rfl (hne a b rest)

theorem digits_of_mapM {text bytes : Bytes} (heven : text.length % 2 = 0)
    (h : (chunksExact2 text).mapM readPair = .ok bytes) (hplus : ∀ i, text[2 * i]? ≠ some 43) :
    ∃ digits : List Char, text = digits.map code ∧ ∀ c ∈ digits, c ∈ hexDigits := by
  induction text using chunksExact2.induct generalizing bytes with
  | case1 a b rest ih =>
    rw [chunksExact2, List.mapM_cons] at h
    simp only [bind_eq_ok] at h
    obtain ⟨byte, hpair, tail, htail, -⟩ := h
    obtain ⟨x, hx, y, hy, rfl, rfl⟩ := digits_of_readPair hpair fun ha => hplus 0 (by simp [ha])
    obtain ⟨digits, rfl, hdigits⟩ := ih (by simp only [List.length_cons] at heven; omega) htail
      fun i => by simpa [Nat.mul_succ] using hplus (i + 1)
    exact ⟨x :: y :: digits, rfl, by simpa [hx, hy] using hdigits⟩
  | case2 text hne =>
    rcases text with _ | ⟨a, _ | ⟨b, rest⟩⟩
    · exact ⟨[], rfl, by simp⟩
    · exact absurd heven (by rw [List.length_singleton]; decide)
    · exact absurd rfl (hne a b rest)

theorem decodeHex_spec (n : ℕ) (text : Bytes) : ∃ r, decodeHex n text = some r ∧
    ((∀ i, text[2 * i]? ≠ some 43) → ∀ v, r = .ok v ↔
      ∃ digits : List Char, text = utf8 (String.ofList digits) ∧ digits.length = n * 2 ∧
        (∀ c ∈ digits, c ∈ hexDigits) ∧ v.val = denoted digits) := by
  unfold decodeHex
  by_cases hlength : text.length = n * 2
  · rw [if_pos hlength]
    have heven : text.length % 2 = 0 := by omega
    obtain ⟨r, hr, hvalue⟩ := decodePairs_spec (chunksExact2 text) 0
      (⟨List.replicate n 0, List.length_replicate⟩ : BytesN n)
      (by rw [length_chunksExact2]; omega)
    refine ⟨r, hr, fun hplus v => ⟨?_, ?_⟩⟩
    · rintro rfl
      cases hread : (chunksExact2 text).mapM readPair with
      | error e =>
        rw [hread] at hvalue
        cases hvalue
      | ok bytes =>
        rw [hread] at hvalue
        have hv : v.val = bytes := Except.ok.inj hvalue
        obtain ⟨digits, rfl, hdigits⟩ := digits_of_mapM heven hread hplus
        rw [List.length_map] at hlength heven
        rw [mapM_readPair_digits heven hdigits] at hread
        exact ⟨digits, (utf8_ofList_of_hex hdigits).symm, hlength, hdigits,
          hv.trans (Except.ok.inj hread).symm⟩
    · rintro ⟨digits, rfl, hcount, hdigits, hv⟩
      rw [utf8_ofList_of_hex hdigits, mapM_readPair_digits (by omega) hdigits] at hvalue
      cases r with
      | error e => cases hvalue
      | ok v' =>
        have hv' : v'.val = denoted digits := Except.ok.inj hvalue
        rw [Subtype.ext (hv'.trans hv.symm)]
  · rw [if_neg hlength]
    refine ⟨_, rfl, fun _ v => ⟨fun h => (by cases h), ?_⟩⟩
    rintro ⟨digits, rfl, hcount, hdigits, -⟩
    rw [utf8_ofList_of_hex hdigits, List.length_map] at hlength
    exact absurd hcount hlength

theorem not_plus_of_hex {digits : List Char} (h : ∀ c ∈ digits, c ∈ hexDigits) (i : ℕ) :
    (utf8 (String.ofList digits))[2 * i]? ≠ some 43 := by
  intro heq
  rw [utf8_ofList_of_hex h] at heq
  obtain ⟨c, hc, hcode⟩ := List.mem_map.mp (List.mem_of_getElem? heq)
  exact (digit_spec (h c hc)).2.2.1 hcode

theorem byteDigits_spec (byte : UInt8) : (∀ c ∈ byteDigits byte, c ∈ hexDigits) ∧
    denoted (byteDigits byte) = [byte] := by
  have hall : ∀ n < 256, ((byteDigits (UInt8.ofNat n)).all fun c => decide (c ∈ hexDigits)) = true ∧
      denoted (byteDigits (UInt8.ofNat n)) = [UInt8.ofNat n] := by decide +kernel
  have hbyte := hall byte.toNat byte.toNat_lt
  rw [UInt8.ofNat_toNat] at hbyte
  exact ⟨fun c hc => of_decide_eq_true (List.all_eq_true.mp hbyte.1 c hc), hbyte.2⟩

theorem denoted_flatMap (bytes : Bytes) : denoted (bytes.flatMap byteDigits) = bytes := by
  induction bytes with
  | nil => rfl
  | cons byte rest ih =>
    have hbyte := (byteDigits_spec byte).2
    rw [List.flatMap_cons, byteDigits, List.cons_append, List.cons_append, List.nil_append, denoted,
      ih]
    exact congrArg (· ++ rest) hbyte

theorem utf8_append (a b : String) : utf8 (a ++ b) = utf8 a ++ utf8 b := by
  simp [utf8, String.toByteArray_append]

theorem utf8_inj {a b : String} (h : utf8 a = utf8 b) : a = b := by
  have hread := fromUtf8_utf8 a
  rw [h, fromUtf8_utf8] at hread
  exact (Option.some.inj hread).symm

theorem LanTag.fromTxt_eq_ok {value : String} {tag : LanTag} : fromTxt value = some (.ok tag) ↔
    ∃ hex, utf8 value = utf8 "t=" ++ hex ∧ decodeHex 16 hex = some (.ok tag.asBytes) := by
  unfold fromTxt
  constructor
  · intro h
    split_ifs at h with hmarked
    · obtain ⟨r, hr, hresult⟩ := Option.map_eq_some_iff.mp h
      refine ⟨(utf8 value).drop 2, ?_, ?_⟩
      · rw [← hmarked, List.take_append_drop]
      · cases r with
        | error e => cases hresult
        | ok v =>
          obtain rfl : LanTag.mk v = tag := Except.ok.inj hresult
          exact hr
    · cases h
  · rintro ⟨hex, hvalue, hhex⟩
    have htake : (utf8 value).take 2 = utf8 "t=" := by
      rw [hvalue]
      exact List.take_left' rfl
    have hdrop : (utf8 value).drop 2 = hex := by
      rw [hvalue]
      exact List.drop_left' rfl
    rw [if_pos htake, hdrop, hhex]
    rfl

end Weaver

namespace Weaver.Sample

open Wire

end Weaver.Sample
