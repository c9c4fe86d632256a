import Smply.Cbor.Reader
import Smply.Dfu.Types

namespace Smply

namespace Limits

def maxImages : Nat := 16
def maxSlotsPerImage : Nat := 8
def maxEchoLength : Nat := 128
def maxBootloaderNameLength : Nat := 32
def maxStatisticsNameLength : Nat := 64
def maxStatisticsGroups : Nat := 128
def maxStatisticsFields : Nat := 256

end Limits

structure SlotDescriptor where
  slot : UInt32 := 0
  size : Option UInt32 := none
  uploadImageId : Option UInt32 := none
  openError : Option Int := none

structure ImageSlotsInfo where
  image : UInt32 := 0
  slots : List SlotDescriptor := []
  maxImageSize : Option UInt32 := none

structure SlotInfo where
  images : List ImageSlotsInfo := []

structure McumgrParameters where
  bufSize : UInt32 := 0
  bufCount : UInt32 := 0

structure StatisticsField where
  name : Bytes
  value : UInt64

structure StatisticsGroup where
  name : Bytes := []
  fields : List StatisticsField := []

def StatisticsGroup.find (group : StatisticsGroup) (fieldName : Bytes) : Option StatisticsField :=
  group.fields.find? fun field => field.name == fieldName

structure SettingValue where
  value : Bytes := []
  maxSize : Option UInt32 := none

def ImageHash.from (bytes : Bytes) : Result ImageHash :=
  if bytes.isEmpty then
    .error (.at .cborDecode "image: empty hash")
  else if bound : bytes.length ≤ Limits.maxImageHashLength then
    .ok ⟨bytes, bound⟩
  else
    .error (.at .cborDecode "image: hash too long")

namespace Cbor

def narrowUint (value : UInt64) : Option UInt32 := if value.toNat < 2 ^ 32 then some value.toUInt32 else none

def narrowInt (value : Int) : Option Int := if -2 ^ 31 ≤ value ∧ value < 2 ^ 31 then some value else none

def narrow {α β : Type} (checked : α → Option β) (value : α) (site : String) : Result β :=
  match checked value with
  | some narrowed => .ok narrowed
  | none => .error (badDecode site)

def narrowAny {α β : Type} (checked : α → Option β) (value : Option α) (site : String) : Result (Option β) :=
  match value with
  | some value => (narrow checked value site).map some
  | none => .ok none

open Reader

section
variable {Context : Type} (qcbor : Qcbor Context)

def checked {α : Type} (decoded : Result α) : Read Context (Result α) :=
  onSuccess status fun _ => return decoded

def decodeSlot : Read Context (Result ImageSlot) := do
  let image ← uint qcbor "image"
  let slot ← uint qcbor "slot"
  let version ← text qcbor "version"
  let hash ← bytes qcbor "hash"
  let bootable ← boolean qcbor "bootable"
  let pending ← boolean qcbor "pending"
  let confirmed ← boolean qcbor "confirmed"
  let active ← boolean qcbor "active"
  let permanent ← boolean qcbor "permanent"
  checked do
    let some slot := slot | throw (badDecode "image: state entry has no slot")
    let some version := version | throw (badDecode "image: state entry has no version")
    if version.length > Limits.maxVersionStringLength then
      throw (badDecode "image: version string too long")
    let imageNumber ← narrow narrowUint (image.getD 0) "image: image number out of range"
    let slotNumber ← narrow narrowUint slot "image: slot number out of range"
    let hash ← match hash with
      | some hash => (ImageHash.from hash).map some
      | none => pure none
    return {
      image := imageNumber, slot := slotNumber, version := version, hash := hash
      bootable := bootable.getD false, pending := pending.getD false, confirmed := confirmed.getD false
      active := active.getD false, permanent := permanent.getD false }

def decodeSlotDescriptor : Read Context (Result SlotDescriptor) := do
  let slot ← uint qcbor "slot"
  let size ← uint qcbor "size"
  let uploadImageId ← uint qcbor "upload_image_id"
  let openError ← integer qcbor "rc"
  checked do
    let some slot := slot | throw (badDecode "image: slot-info entry has no slot")
    let slotNumber ← narrow narrowUint slot "image: slot number out of range"
    let size ← narrowAny narrowUint size "image: slot size out of range"
    let uploadImageId ← narrowAny narrowUint uploadImageId "image: upload image id out of range"
    let openError ← narrowAny narrowInt openError "image: slot rc out of range"
    return { slot := slotNumber, size := size, uploadImageId := uploadImageId, openError := openError }

def decodeSlotsImage : Read Context (Result ImageSlotsInfo) := do
  let image ← uint qcbor "image"
  let maxImageSize ← uint qcbor "max_image_size"
  let fields : Result ImageSlotsInfo := do
    let imageNumber ← narrow narrowUint (image.getD 0) "image: image number out of range"
    let maxImageSize ← narrowAny narrowUint maxImageSize "image: max image size out of range"
    return { image := imageNumber, maxImageSize := maxImageSize }
  onSuccess (checked fields) fun entry =>
    forEachMapInArray qcbor "slots" Limits.maxSlotsPerImage (fun entry : ImageSlotsInfo =>
      onSuccess (decodeSlotDescriptor qcbor) fun descriptor =>
        return .ok { entry with slots := entry.slots ++ [descriptor] }) entry

def decodeState : Read Context (Result ImageState) :=
  let images := forEachMapInArray qcbor "images" Limits.maxImages (fun state : ImageState =>
    onSuccess (decodeSlot qcbor) fun slot => return .ok { state with slots := state.slots ++ [slot] }) {}
  onSuccess images fun state => do
    let split ← integer qcbor "splitStatus"
    let _ ← leaveMap qcbor
    checked do
      let splitStatus ← narrowAny narrowInt split "image: splitStatus out of range"
      return { state with splitStatus := splitStatus }

def decodeSlotInfo : Read Context (Result SlotInfo) :=
  let images := forEachMapInArray qcbor "images" Limits.maxImages (fun info : SlotInfo =>
    onSuccess (decodeSlotsImage qcbor) fun entry => return .ok { info with images := info.images ++ [entry] }) {}
  onSuccess images fun info => do
    let _ ← leaveMap qcbor
    checked (.ok info)

def decodeParameters : Read Context (Result McumgrParameters) := do
  let bufSize ← uint qcbor "buf_size"
  let bufCount ← uint qcbor "buf_count"
  let _ ← leaveMap qcbor
  checked do
    let some bufSize := bufSize | throw (badDecode "os: parameters incomplete")
    let some bufCount := bufCount | throw (badDecode "os: parameters incomplete")
    let some size := narrowUint bufSize | throw (badDecode "os: parameters out of range")
    let some count := narrowUint bufCount | throw (badDecode "os: parameters out of range")
    return { bufSize := size, bufCount := count }

def decodeText (key : String) (limit : Nat) (missing tooLong : String) : Read Context (Result Bytes) := do
  let value ← text qcbor key
  let _ ← leaveMap qcbor
  checked do
    let some value := value | throw (badDecode missing)
    if value.length > limit then
      throw (badDecode tooLong)
    return value

def decodeEcho : Read Context (Result Bytes) :=
  decodeText qcbor "r" Limits.maxEchoLength "os: echo reply has no text" "os: echo reply too long"

def decodeBootloaderName : Read Context (Result Bytes) :=
  decodeText qcbor "bootloader" Limits.maxBootloaderNameLength "os: bootloader info has no name"
    "os: bootloader name too long"

/-- MCUboot's ten modes, in the order of their numbers. -/
def mcubootModes : List Dfu.McubootMode :=
  [.singleSlot, .swapUsingScratch, .upgradeOnly, .swapUsingMove, .directXip, .directXipWithRevert, .ramLoad,
    .firmwareLoader, .singleSlotRamLoad, .swapUsingOffset]

def modeFrom (raw : Int) : Dfu.McubootMode := if raw < 0 then .unknown else mcubootModes.getD raw.toNat .unknown

def decodeBootloaderMode : Read Context (Result Dfu.BootloaderMode) := do
  let mode ← integer qcbor "mode"
  let noDowngrade ← boolean qcbor "no-downgrade"
  let _ ← leaveMap qcbor
  checked do
    let some mode := mode | throw (badDecode "os: bootloader info has no mode")
    return { mode := modeFrom mode, rawMode := mode, noDowngrade := noDowngrade.getD false }

def decodeList : Read Context (Result (List Bytes)) := do
  let present ← forEachTextInArray qcbor "stat_list" Limits.maxStatisticsGroups (fun names name =>
    if name.length > Limits.maxStatisticsNameLength then .error (badDecode "stat: group name too long")
    else .ok (names ++ [name])) []
  let _ ← leaveMap qcbor
  checked do
    let some names ← present | throw (badDecode "stat: list has no stat_list")
    return names

def decodeGroup : Read Context (Result StatisticsGroup) := do
  let name ← text qcbor "name"
  let present ← forEachUintInMap qcbor "fields" Limits.maxStatisticsFields (fun (group : StatisticsGroup) field value =>
    if field.length > Limits.maxStatisticsNameLength then .error (badDecode "stat: field name too long")
    else if (group.find field).isSome then .error (badDecode "stat: duplicate field name")
    else .ok { group with fields := group.fields ++ [⟨field, value⟩] }) {}
  let _ ← leaveMap qcbor
  checked do
    let some group ← present | throw (badDecode "stat: group data incomplete")
    let some name := name | throw (badDecode "stat: group data incomplete")
    if name.length > Limits.maxStatisticsNameLength then
      throw (badDecode "stat: group name too long")
    return { group with name := name }

def decodeValue (limit : Nat) : Read Context (Result SettingValue) := do
  let value ← bytes qcbor "val"
  let maxSize ← uint qcbor "max_size"
  let _ ← leaveMap qcbor
  checked do
    let some value := value | throw (badDecode "settings: read reply has no value")
    if value.length > limit then
      throw (badDecode "settings: value too long")
    let maxSize ← narrowAny narrowUint maxSize "settings: max_size out of range"
    return { value := value, maxSize := maxSize }

def decodeUpload : Read Context (Result (Option UInt64 × Option Bool)) := do
  let off ← uint qcbor "off"
  let match_ ← boolean qcbor "match"
  let _ ← leaveMap qcbor
  checked (.ok (off, match_))

/-- What `complete` does with the payload of a response: the map is opened, and the fields are decoded. -/
def decodeResponse {α : Type} (payload : Bytes) (decode : Read Context (Result α)) :
    Result α × Reader Context :=
  (onSuccess (enterMap qcbor) fun _ => decode).run (Reader.new qcbor payload Limits.maxCborNesting)

end

end Cbor

end Smply
