import Smply.Core.Error
import Smply.Systems.Checked

namespace Smply.Package

open List

open Systems (demand)

variable {span : Bytes} {archive : Bytes} {directory : Directory} {cursor : Nat}

/-- How a reader of an archive ends early. Reading outside a span is undefined in the source. -/
inductive Fault where
  | failed (error : Error)
  | outside
  deriving DecidableEq, Repr

abbrev Reads (α : Type) := Except Fault α

def malformed (what : String) : Fault := .failed (Error.at .malformedMessage what)

def unsupported (what : String) : Fault := .failed (Error.at .invalidArgument what)

def localHeaderSignature : Nat := 0x04034B50
def centralHeaderSignature : Nat := 0x02014B50
def endOfCentralDirectorySignature : Nat := 0x06054B50
def localHeaderSize : Nat := 30
def centralHeaderSize : Nat := 46
def endOfCentralDirectorySize : Nat := 22
def maxCommentLength : Nat := 0xFFFF
def maxZipEntries : Nat := 32
def maxZipNameLength : Nat := 255

/-- Subtraction of sizes wraps around. Their sums stay far below 2^64. -/
def sizeSub (first second : Nat) : Nat := if second ≤ first then first - second else first + 2 ^ 64 - second

def le16 (bytes : Bytes) (at_ : Nat) : Reads Nat :=
  match bytes.drop at_ with
  | low :: high :: _ => .ok (low.toNat ||| high.toNat <<< 8)
  | _ => .error .outside

def le32 (bytes : Bytes) (at_ : Nat) : Reads Nat := do
  let low ← le16 bytes at_
  let high ← le16 bytes (at_ + 2)
  return low ||| high <<< 16

def subspan (bytes : Bytes) (offset count : Nat) : Reads Bytes :=
  if offset + count ≤ bytes.length then .ok ((bytes.drop offset).take count) else .error .outside

def crcBit (value : UInt32) : UInt32 := if value &&& 1 ≠ 0 then (value >>> 1) ^^^ 0xEDB88320 else value >>> 1

def crcTable : List UInt32 :=
  (List.range 256).map fun index =>
    crcBit (crcBit (crcBit (crcBit (crcBit (crcBit (crcBit (crcBit (UInt32.ofNat index))))))))

def crcByte (crc : UInt32) (byte : UInt8) : UInt32 :=
  crcTable.getD ((crc ^^^ byte.toUInt32) &&& 0xFF).toNat 0 ^^^ (crc >>> 8)

def crc32 (data : Bytes) : UInt32 := data.foldl crcByte 0xFFFFFFFF ^^^ 0xFFFFFFFF

example : crc32 [0x31, 0x32, 0x33, 0x34, 0x35, 0x36, 0x37, 0x38, 0x39] = 0xCBF43926 := by decide +kernel

structure Directory where
  offset : Nat := 0
  size : Nat := 0
  entries : Nat := 0
  deriving DecidableEq, Repr

structure View where
  start : Nat
  size : Nat
  deriving DecidableEq, Repr

def View.bytes (view : View) (archive : Bytes) : Bytes := (archive.drop view.start).take view.size

structure ZipEntry where
  name : Bytes
  data : View
  deriving DecidableEq, Repr

def isEndRecord (archive : Bytes) (last at_ : Nat) : Reads Bool := do
  let signature ← le32 archive at_
  if signature ≠ endOfCentralDirectorySignature then return false
  let comment ← le16 archive (at_ + 20)
  return comment = sizeSub last at_

def directoryAt (archive : Bytes) (at_ : Nat) : Reads Directory := do
  let disk ← le16 archive (at_ + 4)
  let directoryDisk ← le16 archive (at_ + 6)
  let onDisk ← le16 archive (at_ + 8)
  let total ← le16 archive (at_ + 10)
  let size ← le32 archive (at_ + 12)
  let offset ← le32 archive (at_ + 16)
  demand (¬ (total = 0xFFFF ∨ size = 0xFFFFFFFF ∨ offset = 0xFFFFFFFF))
    (unsupported "zip: zip64 archives are not supported")
  demand (¬ (disk ≠ 0 ∨ directoryDisk ≠ 0 ∨ onDisk ≠ total))
    (unsupported "zip: archives spanning several disks are not supported")
  demand (¬ total > maxZipEntries) (.failed (Error.at .messageTooLarge "zip: too many entries"))
  demand (¬ (offset > at_ ∨ size > sizeSub at_ offset)) (malformed "zip: central directory outside the archive")
  return { offset := offset, size := size, entries := total }

def searchBack (archive : Bytes) (last first : Nat) : Nat → Reads Directory
  | 0 => .error (malformed "zip: no end of central directory record")
  | at_ + 1 =>
    if at_ + 1 > first then do
      if ← isEndRecord archive last at_ then directoryAt archive at_
      else searchBack archive last first at_
    else .error (malformed "zip: no end of central directory record")

def findDirectory (archive : Bytes) : Reads Directory := do
  demand (¬ archive.length < endOfCentralDirectorySize)
    (malformed "zip: shorter than an end of central directory record")
  let last := sizeSub archive.length endOfCentralDirectorySize
  let first := if last > maxCommentLength then sizeSub last maxCommentLength else 0
  searchBack archive last first (last + 1)

def encrypted (flags : Nat) : Bool := (flags &&& (0x0001 ||| 0x0040)) != 0

def readEntry (archive : Bytes) (directory : Directory) (cursor : Nat) : Reads (ZipEntry × Nat) := do
  let end_ := directory.offset + directory.size
  demand (¬ centralHeaderSize > sizeSub end_ cursor) (malformed "zip: bad central directory header")
  let signature ← le32 archive cursor
  demand (signature = centralHeaderSignature) (malformed "zip: bad central directory header")
  let header ← subspan archive cursor centralHeaderSize
  let flags ← le16 header 8
  let method ← le16 header 10
  let crc ← le32 header 16
  let compressed ← le32 header 20
  let uncompressed ← le32 header 24
  let nameLength ← le16 header 28
  let extraLength ← le16 header 30
  let commentLength ← le16 header 32
  let variable_ := nameLength + extraLength + commentLength
  let local_ ← le32 header 42
  demand (¬ variable_ > sizeSub (sizeSub end_ cursor) centralHeaderSize)
    (malformed "zip: central directory header overruns the directory")
  demand (¬ (nameLength = 0 ∨ nameLength > maxZipNameLength)) (malformed "zip: entry name empty or too long")
  let name ← subspan archive (cursor + centralHeaderSize) nameLength
  demand (encrypted flags = false) (unsupported "zip: encrypted entries are not supported")
  demand (method ≠ 8) (unsupported "zip: deflated entries are not supported; the package must be stored")
  demand (method = 0) (unsupported "zip: compressed entries are not supported")
  demand (compressed = uncompressed) (malformed "zip: stored entry with two different sizes")
  -- The local header, and the data after it, must lie before the directory.
  demand (¬ (local_ > directory.offset ∨ localHeaderSize > sizeSub directory.offset local_))
    (malformed "zip: bad local header")
  let localSignature ← le32 archive local_
  demand (localSignature = localHeaderSignature) (malformed "zip: bad local header")
  let localName ← le16 archive (local_ + 26)
  let localExtra ← le16 archive (local_ + 28)
  let room := sizeSub (sizeSub directory.offset local_) localHeaderSize
  demand (¬ (localName ≠ nameLength ∨ localName + localExtra > room ∨
    compressed > sizeSub (sizeSub room localName) localExtra)) (malformed "zip: entry overruns the archive")
  let localNameBytes ← subspan archive (local_ + localHeaderSize) localName
  demand (localNameBytes = name) (malformed "zip: local and central names disagree")
  let data ← subspan archive (local_ + localHeaderSize + localName + localExtra) compressed
  demand ((crc32 data).toNat = crc) (malformed "zip: CRC-32 mismatch")
  return ({ name := name, data := ⟨local_ + localHeaderSize + localName + localExtra, compressed⟩ },
    cursor + centralHeaderSize + variable_)

def readEntries (archive : Bytes) (directory : Directory) : Nat → Nat → List ZipEntry → Reads (List ZipEntry)
  | 0, _, entries => return entries
  | left + 1, cursor, entries => do
    let (entry, cursor) ← readEntry archive directory cursor
    -- A directory: nothing to read.
    if entry.name.getLast? = some 0x2F then readEntries archive directory left cursor entries
    else do
      demand (¬ entries.any fun other => other.name == entry.name) (malformed "zip: a name appears twice")
      readEntries archive directory left cursor (entries ++ [entry])

def readStoredZip (archive : Bytes) : Reads (List ZipEntry) := do
  let directory ← findDirectory archive
  readEntries archive directory directory.entries directory.offset []

theorem sizeSub_of_le {first second : Nat} (le : second ≤ first) : sizeSub first second = first - second := if_pos le

/-- The computation reads nothing outside its spans, and ends with `post` if it succeeds. -/
abbrev Inside {α : Type} (post : α → Prop) (result : Reads α) : Prop := Systems.Meets (· ≠ Fault.outside) post result

section
variable {bytes : Bytes} {at_ : Nat}

theorem le16_total (room : at_ + 2 ≤ bytes.length) : ∃ value, le16 bytes at_ = .ok value ∧ value < 2 ^ 16 := by
  have length : (bytes.drop at_).length = bytes.length - at_ := length_drop
  unfold le16
  rcases found : bytes.drop at_ with _ | ⟨low, _ | ⟨high, rest⟩⟩
  · rw [found, length_nil] at length
    omega
  · rw [found, length_singleton] at length
    omega
  · refine ⟨_, rfl, ?_⟩
    have first := low.toNat_lt
    have second := high.toNat_lt
    apply Nat.or_lt_two_pow
    · omega
    · rw [Nat.shiftLeft_eq]
      omega

theorem le32_total (room : at_ + 4 ≤ bytes.length) : ∃ value, le32 bytes at_ = .ok value ∧ value < 2 ^ 32 := by
  obtain ⟨low, first, small⟩ := @le16_total bytes at_ (by omega)
  obtain ⟨high, second, large⟩ := @le16_total bytes (at_ + 2) (by omega)
  refine ⟨low ||| high <<< 16, ?_, ?_⟩
  · unfold le32
    rw [first, second]
    rfl
  apply Nat.or_lt_two_pow
  · omega
  · rw [Nat.shiftLeft_eq]
    omega

theorem le16_inside (room : at_ + 2 ≤ bytes.length) :
    Inside (fun value => le16 bytes at_ = .ok value ∧ value < 2 ^ 16) (le16 bytes at_) := by
  obtain ⟨value, found, bound⟩ := le16_total room
  rw [found]
  exact ⟨rfl, bound⟩

theorem le32_inside (room : at_ + 4 ≤ bytes.length) :
    Inside (fun value => le32 bytes at_ = .ok value ∧ value < 2 ^ 32) (le32 bytes at_) := by
  obtain ⟨value, found, bound⟩ := le32_total room
  rw [found]
  exact ⟨rfl, bound⟩

theorem subspan_inside {offset count : Nat} (room : offset + count ≤ bytes.length) :
    Inside (fun span => subspan bytes offset count = .ok span ∧ span = (bytes.drop offset).take count)
      (subspan bytes offset count) := by
  unfold subspan
  rw [if_pos room]
  exact ⟨rfl, rfl⟩

theorem subspan_length {offset count : Nat} (found : subspan bytes offset count = .ok span) :
    span.length = count := by
  unfold subspan at found
  split at found
  · cases found
    rw [length_take, length_drop]
    omega
  · cases found

section
variable {offset count field : Nat} (found : subspan bytes offset count = .ok span)
include found

theorem le16_subspan (within : field + 2 ≤ count) : le16 span field = le16 bytes (offset + field) := by
  unfold subspan at found
  split at found
  · cases found
    unfold le16
    rw [drop_take, drop_drop]
    obtain ⟨left, enough⟩ : ∃ left, count - field = left + 2 := ⟨count - field - 2, by omega⟩
    rw [enough]
    rcases bytes.drop (offset + field) with _ | ⟨low, _ | ⟨high, rest⟩⟩ <;> rfl
  · cases found

theorem le32_subspan (within : field + 4 ≤ count) : le32 span field = le32 bytes (offset + field) := by
  unfold le32
  rw [le16_subspan found (by omega), le16_subspan found (by omega), Nat.add_assoc]

end

end

theorem malformed_inside (what : String) : malformed what ≠ .outside := nofun

theorem unsupported_inside (what : String) : unsupported what ≠ .outside := nofun

section
variable {archive : Bytes} {at_ last first : Nat}

theorem isEndRecord_total (room : at_ + endOfCentralDirectorySize ≤ archive.length) :
    ∃ found, isEndRecord archive last at_ = .ok found := by
  simp only [endOfCentralDirectorySize] at room
  obtain ⟨signature, signed, _⟩ := @le32_total archive at_ (by omega)
  obtain ⟨comment, length, _⟩ := @le16_total archive (at_ + 20) (by omega)
  unfold isEndRecord
  rw [signed, length]
  by_cases other : signature ≠ endOfCentralDirectorySignature
  · exact ⟨false, if_pos other⟩
  · exact ⟨_, if_neg other⟩

theorem directoryAt_inside (room : at_ + endOfCentralDirectorySize ≤ archive.length) :
    Inside (fun directory => directory.offset + directory.size ≤ at_) (directoryAt archive at_) := by
  unfold directoryAt
  simp only [endOfCentralDirectorySize] at room
  refine (le16_inside (by omega)).bind fun disk _ => ?_
  refine (le16_inside (by omega)).bind fun directoryDisk _ => ?_
  refine (le16_inside (by omega)).bind fun onDisk _ => ?_
  refine (le16_inside (by omega)).bind fun total _ => ?_
  refine (le32_inside (by omega)).bind fun size _ => ?_
  refine (le32_inside (by omega)).bind fun offset _ => ?_
  refine .demand_bind (unsupported_inside _) fun _ => ?_
  refine .demand_bind (unsupported_inside _) fun _ => ?_
  refine .demand_bind nofun fun _ => ?_
  refine .demand_bind (malformed_inside _) fun inside => ?_
  rw [not_or, Nat.not_lt, Nat.not_lt] at inside
  rw [sizeSub_of_le inside.1] at inside
  show offset + size ≤ at_
  omega

theorem searchBack_inside (places : Nat) (room : places + endOfCentralDirectorySize ≤ archive.length + 1) :
    Inside (fun directory => directory.offset + directory.size ≤ archive.length)
      (searchBack archive last first places) := by
  induction places with
  | zero => exact malformed_inside _
  | succ at_ ih =>
    unfold searchBack
    split
    · obtain ⟨found, judged⟩ := @isEndRecord_total archive at_ last (by omega)
      rw [judged]
      cases found
      · exact ih (by omega)
      refine Systems.Meets.mono (directoryAt_inside (by omega)) fun directory within => ?_
      simp only [endOfCentralDirectorySize] at room
      omega
    · exact malformed_inside _

theorem findDirectory_inside (archive : Bytes) :
    Inside (fun directory => directory.offset + directory.size ≤ archive.length) (findDirectory archive) := by
  unfold findDirectory
  refine .demand_bind (malformed_inside _) fun long => ?_
  rw [Nat.not_lt] at long
  dsimp only
  rw [sizeSub_of_le long]
  exact searchBack_inside _ (by omega)

end

/-- What is recorded of an entry: its central header at `cursor` in the directory, its local header and data before
that. -/
structure Recorded (archive : Bytes) (directory : Directory) (cursor : Nat) (entry : ZipEntry) : Prop where
  central : directory.offset ≤ cursor ∧
    cursor + centralHeaderSize + entry.name.length ≤ directory.offset + directory.size
  centralSignature : le32 archive cursor = .ok centralHeaderSignature
  centralName : le16 archive (cursor + 28) = .ok entry.name.length ∧
    subspan archive (cursor + centralHeaderSize) entry.name.length = .ok entry.name
  size : le32 archive (cursor + 20) = .ok entry.data.size
  crc : le32 archive (cursor + 16) = .ok (crc32 (entry.data.bytes archive)).toNat
  located : ∃ local_ extra, le32 archive (cursor + 42) = .ok local_ ∧
    le32 archive local_ = .ok localHeaderSignature ∧
    le16 archive (local_ + 26) = .ok entry.name.length ∧
    subspan archive (local_ + localHeaderSize) entry.name.length = .ok entry.name ∧
    le16 archive (local_ + 28) = .ok extra ∧
    entry.data.start = local_ + localHeaderSize + entry.name.length + extra
  before : entry.data.start + entry.data.size ≤ directory.offset

theorem readEntry_inside (room : directory.offset + directory.size ≤ archive.length) (start : directory.offset ≤ cursor)
    (within : cursor ≤ directory.offset + directory.size) :
    Inside (fun result => Recorded archive directory cursor result.1 ∧ result.1.name ≠ [] ∧
      directory.offset ≤ result.2 ∧ result.2 ≤ directory.offset + directory.size)
      (readEntry archive directory cursor) := by
  unfold readEntry
  dsimp only
  rw [sizeSub_of_le within]
  refine .demand_bind (malformed_inside _) fun headed => ?_
  simp only [centralHeaderSize, Nat.not_lt] at headed ⊢
  refine (le32_inside (by omega)).bind fun signature signed => ?_
  refine .demand_bind (malformed_inside _) fun signs => ?_
  subst signs
  refine (subspan_inside (by omega)).bind fun header ⟨spanned, _⟩ => ?_
  have length := subspan_length spanned
  refine (le16_inside (by omega)).bind fun flags _ => ?_
  refine (le16_inside (by omega)).bind fun method _ => ?_
  refine (le32_inside (by omega)).bind fun crc recorded => ?_
  refine (le32_inside (by omega)).bind fun compressed sized => ?_
  refine (le32_inside (by omega)).bind fun uncompressed _ => ?_
  refine (le16_inside (by omega)).bind fun nameLength named => ?_
  refine (le16_inside (by omega)).bind fun extraLength _ => ?_
  refine (le16_inside (by omega)).bind fun commentLength _ => ?_
  refine (le32_inside (by omega)).bind fun local_ located => ?_
  rw [sizeSub_of_le headed]
  refine .demand_bind (malformed_inside _) fun overruns => ?_
  refine .demand_bind (malformed_inside _) fun sizes => ?_
  refine (subspan_inside (by omega)).bind fun name ⟨written, _⟩ => ?_
  refine .demand_bind (unsupported_inside _) fun _ => ?_
  refine .demand_bind (unsupported_inside _) fun _ => ?_
  refine .demand_bind (unsupported_inside _) fun _ => ?_
  refine .demand_bind (malformed_inside _) fun _ => ?_
  refine .demand_bind (malformed_inside _) fun low => ?_
  rw [not_or, Nat.not_lt] at low
  obtain ⟨low, spare⟩ := low
  simp only [localHeaderSize] at spare ⊢
  rw [sizeSub_of_le low, Nat.not_lt] at spare
  refine (le32_inside (by omega)).bind fun localSignature localSigned => ?_
  refine .demand_bind (malformed_inside _) fun signs => ?_
  subst signs
  refine (le16_inside (by omega)).bind fun localName localNamed => ?_
  refine (le16_inside (by omega)).bind fun localExtra extras => ?_
  refine .demand_bind (malformed_inside _) fun fits => ?_
  rw [sizeSub_of_le low, sizeSub_of_le spare, not_or, not_or, not_not, Nat.not_lt, Nat.not_lt] at fits
  obtain ⟨rfl, fits, whole⟩ := fits
  have nameFits : localName ≤ directory.offset - local_ - 30 := by omega
  have extraFits : localExtra ≤ directory.offset - local_ - 30 - localName := by omega
  rw [sizeSub_of_le nameFits, sizeSub_of_le extraFits] at whole
  refine (subspan_inside (by omega)).bind fun localNameBytes ⟨localWritten, _⟩ => ?_
  refine .demand_bind (malformed_inside _) fun agrees => ?_
  subst agrees
  refine (subspan_inside (by omega)).bind fun data ⟨_, viewed⟩ => ?_
  refine .demand_bind (malformed_inside _) fun checked => ?_
  have nameLength := subspan_length written
  rw [le32_subspan spanned (by omega)] at recorded sized located
  rw [le16_subspan spanned (by omega)] at named
  have data_eq : data = View.bytes ⟨local_ + 30 + localName + localExtra, compressed⟩ archive := viewed
  refine ⟨⟨⟨start, ?_⟩, signed.1, ?_, sized.1, ?_, ⟨local_, localExtra, located.1, localSigned.1, ?_⟩, ?_⟩, ?_, ?_, ?_⟩
  · simp only [centralHeaderSize, nameLength]
    omega
  · simp only [centralHeaderSize, nameLength]
    exact ⟨named.1, written⟩
  · rw [recorded.1, ← checked, data_eq]
  · simp only [localHeaderSize, nameLength]
    exact ⟨localNamed.1, localWritten, extras.1, trivial⟩
  · show local_ + 30 + localName + localExtra + compressed ≤ directory.offset
    omega
  · rintro rfl
    rw [length_nil] at nameLength
    omega
  · show directory.offset ≤ cursor + 46 + _
    omega
  · show cursor + 46 + (localName + extraLength + commentLength) ≤ _
    omega

structure Listed (archive : Bytes) (directory : Directory) (entries : List ZipEntry) : Prop where
  recorded : ∀ entry ∈ entries, ∃ cursor, Recorded archive directory cursor entry
  distinct : (entries.map (·.name)).Nodup

theorem Listed.add {entries : List ZipEntry} {entry : ZipEntry} (listed : Listed archive directory entries)
    (recorded : Recorded archive directory cursor entry)
    (fresh : ¬ entries.any fun other => other.name == entry.name) : Listed archive directory (entries ++ [entry]) := by
  constructor
  · intro other member
    rcases mem_append.mp member with member | member
    · exact listed.recorded other member
    · rw [mem_singleton.mp member]
      exact ⟨cursor, recorded⟩
  · rw [map_append, nodup_append]
    refine ⟨listed.distinct, by simp, ?_⟩
    intro name member other last same
    obtain ⟨twin, found, rfl⟩ := mem_map.mp member
    rw [map_singleton, mem_singleton] at last
    apply fresh
    rw [any_eq_true]
    exact ⟨twin, found, by simpa using same.trans last⟩

theorem readEntries_inside (room : directory.offset + directory.size ≤ archive.length) (left : Nat)
    {entries : List ZipEntry}
    (start : directory.offset ≤ cursor) (within : cursor ≤ directory.offset + directory.size)
    (listed : Listed archive directory entries) :
    Inside (Listed archive directory) (readEntries archive directory left cursor entries) := by
  induction left generalizing cursor entries with
  | zero => exact listed
  | succ _ ih =>
    unfold readEntries
    refine (readEntry_inside room start within).bind fun (entry, next) ⟨recorded, _, after, inside⟩ => ?_
    dsimp only
    split
    · exact ih after inside listed
    · exact .demand_bind (malformed_inside _) fun fresh => ih after inside (listed.add recorded fresh)

theorem readStoredZip_inside (archive : Bytes) :
    Inside (fun entries => ∃ directory, findDirectory archive = .ok directory ∧
      directory.offset + directory.size ≤ archive.length ∧ Listed archive directory entries)
      (readStoredZip archive) := by
  have found := findDirectory_inside archive
  unfold readStoredZip
  cases searched : findDirectory archive with
  | error => exact found.of_error searched
  | ok directory =>
    have room := found.of_ok searched
    refine Systems.Meets.mono (readEntries_inside room directory.entries (Nat.le_refl _) (Nat.le_add_right ..) ?_)
      fun entries listed => ⟨directory, rfl, room, listed⟩
    exact ⟨by simp, by simp⟩

end Smply.Package
