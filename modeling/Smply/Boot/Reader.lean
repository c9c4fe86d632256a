import Smply.Image.Slots

namespace Smply.Boot

def imageMagic : Nat := 0x96F3B83D
def imageHeaderSize : Nat := 32
def tlvInfoMagic : Nat := 0x6907
def tlvProtInfoMagic : Nat := 0x6908
def tlvSha256 : Nat := 0x10
def imageNonBootable : Nat := 0x10
def areaHeaderSize : Nat := 4

/-- Every read is made where the bytes have been checked to be there. -/
def byteAt (bytes : Bytes) (offset : Nat) : Nat := (bytes.getD offset 0).toNat

def read16 (bytes : Bytes) (offset : Nat) : Nat := byteAt bytes offset ||| byteAt bytes (offset + 1) <<< 8

def read32 (bytes : Bytes) (offset : Nat) : Nat :=
  byteAt bytes offset ||| byteAt bytes (offset + 1) <<< 8 ||| byteAt bytes (offset + 2) <<< 16 |||
    byteAt bytes (offset + 3) <<< 24

/-- Whether the 64-bit sum neither wraps nor passes `limit`. -/
def fits (base add limit : Nat) : Bool :=
  let last := (base + add) % 2 ^ 64
  base ≤ last && last ≤ limit

structure SlotImage where
  version : Bytes
  hash : Bytes := []
  bootable : Bool := true
  deriving DecidableEq, Repr

def decimal (value : Nat) : Bytes := (Nat.toDigits 10 value).map fun digit => UInt8.ofNat digit.toNat

/-- `img_mgmt_ver_str()`: the build number is left out when it is zero. -/
def versionText (content : Bytes) : Bytes :=
  let text := decimal (byteAt content 20) ++ [ImageVersion.dot] ++ decimal (byteAt content 21) ++ [ImageVersion.dot] ++
    decimal (read16 content 22)
  let build := read32 content 24
  if build ≠ 0 then text ++ [ImageVersion.dot] ++ decimal build else text

/-- The entries of one area from `entry` on, with the turns left. A turn moves at least four bytes on. -/
def scanEntries (content : Bytes) (magic areaEnd : Nat) : Nat → Nat → Bytes → Bytes
  | 0, _, hash => hash
  | left + 1, entry, hash =>
    if !fits entry areaHeaderSize areaEnd then hash
    else
      let length := read16 content (entry + 2)
      let value := entry + areaHeaderSize
      if !fits value length areaEnd then hash
      else
        let hash := if read16 content entry = tlvSha256 ∧ magic = tlvInfoMagic then (content.drop value).take length
          else hash
        scanEntries content magic areaEnd left (value + length) hash

/-- The hash lives in the unprotected area, which follows the protected one when there is one. -/
def scanAreas (content : Bytes) : Nat → Nat → Bytes → Bytes
  | 0, _, hash => hash
  | left + 1, offset, hash =>
    if !fits offset areaHeaderSize content.length then hash
    else
      let magic := read16 content offset
      let total := read16 content (offset + 2)
      if magic ≠ tlvInfoMagic ∧ magic ≠ tlvProtInfoMagic then hash
      else if total < areaHeaderSize ∨ !fits offset total content.length then hash
      else
        let areaEnd := offset + total
        let hash := scanEntries content magic areaEnd content.length (offset + areaHeaderSize) hash
        if magic = tlvInfoMagic then hash else scanAreas content left areaEnd hash

def describe (content : Bytes) : Option SlotImage :=
  if content.length < imageHeaderSize ∨ read32 content 0 ≠ imageMagic then none
  else
    let headerSize := read16 content 8
    let imageSize := read32 content 12
    some
      { version := versionText content
        bootable := read32 content 16 &&& imageNonBootable == 0
        hash := if !fits headerSize imageSize (2 ^ 64 - 1) then [] else scanAreas content 2 (headerSize + imageSize) [] }

theorem lt_of_fits {entry areaEnd : Nat} (room : fits entry areaHeaderSize areaEnd = true) : entry < areaEnd := by
  unfold fits areaHeaderSize at room
  simp at room
  omega

theorem scanEntries_enough (content : Bytes) (magic areaEnd left entry : Nat) (hash : Bytes)
    (enough : areaEnd - entry ≤ left) :
    scanEntries content magic areaEnd (left + 1) entry hash = scanEntries content magic areaEnd left entry hash := by
  induction left generalizing entry hash with
  | zero =>
    rw [scanEntries, scanEntries, if_pos]
    by_contra room
    have before := @lt_of_fits entry areaEnd (by simpa using room)
    omega
  | succ left ih =>
    rw [scanEntries]
    conv_rhs => rw [scanEntries]
    by_cases room : fits entry areaHeaderSize areaEnd = true
    · have before := lt_of_fits room
      have shorter : areaEnd - (entry + areaHeaderSize + read16 content (entry + 2)) ≤ left := by
        simp only [areaHeaderSize]
        omega
      simp only [ih _ _ shorter]
    · simp only [room, Bool.not_false, ↓reduceIte]

structure HeaderVersion where
  major : Nat := 0
  minor : Nat := 0
  revision : Nat := 0
  deriving DecidableEq, Repr

def HeaderVersion.lt (first second : HeaderVersion) : Bool :=
  if first.major ≠ second.major then first.major < second.major
  else if first.minor ≠ second.minor then first.minor < second.minor
  else first.revision < second.revision

/-- Read whenever a whole header is there, magic or not. -/
def headerVersion (content : Bytes) : Option HeaderVersion :=
  if content.length < imageHeaderSize then none
  else some { major := byteAt content 20, minor := byteAt content 21, revision := read16 content 22 }

end Smply.Boot
