import Mathlib.Data.String.Basic
import Weaver.Lib.Wire

/-!
# Identifiers

The identifiers of `weaver-core`: 32-byte addresses of networks, members, applications and devices,
16-byte service identifiers, and the names of the built-in virtual DNS. A `VirtualName` carries the
proof that it passed `validateVirtualName`, the only way the source builds one.
-/

namespace Weaver

open Wire

/-! ## Text -/

def utf8 (s : String) : Bytes := s.toByteArray.data.toList

/-- `std::str::from_utf8`. -/
def fromUtf8 (b : Bytes) : Option String := String.fromUTF8? ⟨b.toArray⟩

/-- `str::is_ascii`. -/
def isAscii (s : String) : Bool := s.toList.all fun c => c.toNat < 128

@[simp]
theorem fromUtf8_utf8 (s : String) : fromUtf8 (utf8 s) = some s := by
  have h : (⟨(utf8 s).toArray⟩ : ByteArray) = s.toByteArray := by simp [utf8]
  rw [fromUtf8, h, String.fromUTF8?, dif_pos s.isValidUTF8]
  rfl

/-! ## Identifiers -/

structure NetworkId where
  asBytes : BytesN 32
deriving DecidableEq

structure MemberId where
  asBytes : BytesN 32
deriving DecidableEq

structure AppAddr where
  asBytes : BytesN 32
deriving DecidableEq

structure DeviceId where
  asBytes : BytesN 32
deriving DecidableEq

structure ServiceId where
  asBytes : BytesN 16
deriving DecidableEq

/-- `ScopedVirtualAddr`: the address of an application's server, or of a device that is its
client. -/
inductive ScopedVirtualAddr where
  | server (app : AppAddr)
  | client (app : AppAddr) (device : DeviceId)
deriving DecidableEq

/-! ## Virtual names -/

def labelChar (c : Char) : Bool := c.isLower || c.isDigit || c == '-'

/-- What `validate_virtual_name` asks of one label. -/
def validLabel (label : List Char) : Bool :=
  label ≠ [] && label.length ≤ 63 && label.head? ≠ some '-' && label.getLast? ≠ some '-' &&
    label.all labelChar

/-- `validate_virtual_name`: a lowercase DNS name of at least two labels, the last of which is the
reserved suffix. The text is ASCII by the time it is split, so its characters are its bytes. -/
def validateVirtualName (value : String) : Bool :=
  let labels := value.toList.splitOn '.'
  (utf8 value).length ≠ 0 && (utf8 value).length ≤ 253 && isAscii value &&
    2 ≤ labels.length && labels.getLast? = some "virtual".toList && labels.all validLabel

structure VirtualName where
  asStr : String
  /-- The text passed `validateVirtualName`. -/
  valid : validateVirtualName asStr = true
deriving DecidableEq

/-- `VirtualName::new`; its one error is the absence of a name. -/
def VirtualName.new (value : String) : Option VirtualName :=
  if h : validateVirtualName value = true then some ⟨value, h⟩ else none

@[simp]
theorem VirtualName.new_asStr (name : VirtualName) : VirtualName.new name.asStr = some name := by
  simp [VirtualName.new, name.valid]

example : (VirtualName.new "weaver.virtual").isSome = true := by decide

example : VirtualName.new "weaver.example" = none := by decide

theorem VirtualName.text (name : VirtualName) :
    0 < (utf8 name.asStr).length ∧ (utf8 name.asStr).length ≤ 253 ∧
      isAscii name.asStr = true := by
  have h := name.valid
  simp only [validateVirtualName, Bool.and_eq_true, decide_eq_true_eq] at h
  obtain ⟨⟨⟨⟨⟨hpos, hle⟩, hascii⟩, -⟩, -⟩, -⟩ := h
  exact ⟨by omega, hle, hascii⟩

end Weaver
