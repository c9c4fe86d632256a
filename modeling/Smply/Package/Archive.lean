import Smply.Package.StoredZip

namespace Smply.Package

open List

open Systems (demand ok_bind bind_goes demand_goes)

variable {at_ value base : Nat} {record : Bytes}

def u16 (value : Nat) : Bytes := [UInt8.ofNat (value % 256), UInt8.ofNat (value / 256)]

def u32 (value : Nat) : Bytes := u16 (value % 65536) ++ u16 (value / 65536)

structure StoredFile where
  name : Bytes
  data : Bytes
  madeBy : UInt16 := 20
  needed : UInt16 := 20
  flags : UInt16 := 0
  time : UInt16 := 0
  date : UInt16 := 0x21
  disk : UInt16 := 0
  internal : UInt16 := 0
  external : UInt32 := 0
  plain : encrypted flags.toNat = false := by decide

def localHeader (file : StoredFile) : Bytes :=
  u32 localHeaderSignature ++ u16 file.needed.toNat ++ u16 file.flags.toNat ++ u16 0 ++ u16 file.time.toNat ++
    u16 file.date.toNat ++ u32 (crc32 file.data).toNat ++ u32 file.data.length ++ u32 file.data.length ++
    u16 file.name.length ++ u16 0

def localRecord (file : StoredFile) : Bytes := localHeader file ++ file.name ++ file.data

def centralHeader (offset : Nat) (file : StoredFile) : Bytes :=
  u32 centralHeaderSignature ++ u16 file.madeBy.toNat ++ u16 file.needed.toNat ++ u16 file.flags.toNat ++ u16 0 ++
    u16 file.time.toNat ++ u16 file.date.toNat ++ u32 (crc32 file.data).toNat ++ u32 file.data.length ++
    u32 file.data.length ++ u16 file.name.length ++ u16 0 ++ u16 0 ++ u16 file.disk.toNat ++
    u16 file.internal.toNat ++ u32 file.external.toNat ++ u32 offset

def locals (files : List StoredFile) : Bytes := files.flatMap localRecord

def centrals : Nat → List StoredFile → Bytes
  | _, [] => []
  | offset, file :: rest => centralHeader offset file ++ file.name ++ centrals (offset + (localRecord file).length) rest

def endRecord (count size offset : Nat) (comment : Bytes) : Bytes :=
  u32 endOfCentralDirectorySignature ++ u16 0 ++ u16 0 ++ u16 count ++ u16 count ++ u32 size ++ u32 offset ++
    u16 comment.length

def build (files : List StoredFile) (comment : Bytes) : Bytes :=
  locals files ++ centrals 0 files ++
    endRecord files.length (centrals 0 files).length (locals files).length comment ++ comment

def endPlace (files : List StoredFile) : Nat := (locals files).length + (centrals 0 files).length

section

theorem bytes_value (bound : value < 2 ^ 16) :
    (UInt8.ofNat (value % 256)).toNat ||| (UInt8.ofNat (value / 256)).toNat <<< 8 = value := by
  have low : (UInt8.ofNat (value % 256)).toNat = value % 256 := by
    rw [UInt8.toNat_ofNat']
    omega
  have high : (UInt8.ofNat (value / 256)).toNat = value / 256 := by
    rw [UInt8.toNat_ofNat']
    omega
  rw [low, high, Nat.or_comm, ← Nat.shiftLeft_add_eq_or_of_lt (by omega), Nat.shiftLeft_eq]
  omega

theorem halves_value (value : Nat) : value % 65536 ||| (value / 65536) <<< 16 = value := by
  rw [Nat.or_comm, ← Nat.shiftLeft_add_eq_or_of_lt (by omega), Nat.shiftLeft_eq]
  omega

variable {bytes rest : Bytes} {at_ value : Nat}

theorem le16_of_drop (found : bytes.drop at_ = u16 value ++ rest) (bound : value < 2 ^ 16) :
    le16 bytes at_ = .ok value := by
  unfold le16
  rw [found]
  show Except.ok _ = Except.ok value
  rw [bytes_value bound]

theorem le32_of_drop (found : bytes.drop at_ = u32 value ++ rest) (bound : value < 2 ^ 32) :
    le32 bytes at_ = .ok value := by
  have first : le16 bytes at_ = .ok (value % 65536) := by
    rw [u32, append_assoc] at found
    exact le16_of_drop found (by omega)
  have second : le16 bytes (at_ + 2) = .ok (value / 65536) := by
    have later : bytes.drop (at_ + 2) = u16 (value / 65536) ++ rest := by
      rw [← drop_drop, found]
      rfl
    exact le16_of_drop later (by omega)
  unfold le32
  rw [first, ok_bind, second, ok_bind, halves_value]
  rfl

theorem subspan_of_drop {span : Bytes} (found : bytes.drop at_ = span ++ rest) (inside : at_ ≤ bytes.length) :
    subspan bytes at_ span.length = .ok span := by
  have length := congrArg List.length found
  rw [length_drop, length_append] at length
  unfold subspan
  rw [if_pos (by omega), found, take_left]

section
variable (found : bytes.drop base = record)
include found

theorem le16_field {field : Nat} : le16 bytes (base + field) = le16 record field := by
  unfold le16
  rw [← drop_drop, found]

theorem le32_field {field : Nat} : le32 bytes (base + field) = le32 record field := by
  unfold le32
  rw [le16_field found, Nat.add_assoc, le16_field found]

theorem le32_record : le32 bytes base = le32 record 0 := by
  rw [← found, ← le32_field rfl, Nat.add_zero]

end

theorem le16_here (bound : value < 2 ^ 16) : le16 (u16 value ++ rest) 0 = .ok value := le16_of_drop rfl bound

theorem le32_here (bound : value < 2 ^ 32) : le32 (u32 value ++ rest) 0 = .ok value := le32_of_drop rfl bound

theorem le16_after_u16 (field : Nat) : le16 (u16 value ++ rest) (field + 2) = le16 rest field := rfl

theorem le16_after_u32 (field : Nat) : le16 (u32 value ++ rest) (field + 4) = le16 rest field := rfl

theorem le32_after_u16 (field : Nat) : le32 (u16 value ++ rest) (field + 2) = le32 rest field := rfl

theorem le32_after_u32 (field : Nat) : le32 (u32 value ++ rest) (field + 4) = le32 rest field := rfl

end

@[simp] theorem length_u16 (value : Nat) : (u16 value).length = 2 := rfl

@[simp] theorem length_u32 (value : Nat) : (u32 value).length = 4 := rfl

@[simp] theorem length_localHeader (file : StoredFile) : (localHeader file).length = localHeaderSize := by
  simp [localHeader, localHeaderSize]

@[simp] theorem length_centralHeader (offset : Nat) (file : StoredFile) :
    (centralHeader offset file).length = centralHeaderSize := by
  simp [centralHeader, centralHeaderSize]

@[simp] theorem length_endRecord (count size offset : Nat) (comment : Bytes) :
    (endRecord count size offset comment).length = endOfCentralDirectorySize := by
  simp [endRecord, endOfCentralDirectorySize]

theorem length_localRecord (file : StoredFile) :
    (localRecord file).length = localHeaderSize + file.name.length + file.data.length := by
  rw [localRecord, length_append, length_append, length_localHeader]

section
variable {file : StoredFile} {offset : Nat} {rest : Bytes}

theorem centralHeader_fields (short : file.name.length < 2 ^ 16) (small : file.data.length < 2 ^ 32)
    (near : offset < 2 ^ 32) : le32 (centralHeader offset file ++ rest) 0 = .ok centralHeaderSignature ∧
      le16 (centralHeader offset file ++ rest) 8 = .ok file.flags.toNat ∧
      le16 (centralHeader offset file ++ rest) 10 = .ok 0 ∧
      le32 (centralHeader offset file ++ rest) 16 = .ok (crc32 file.data).toNat ∧
      le32 (centralHeader offset file ++ rest) 20 = .ok file.data.length ∧
      le32 (centralHeader offset file ++ rest) 24 = .ok file.data.length ∧
      le16 (centralHeader offset file ++ rest) 28 = .ok file.name.length ∧
      le16 (centralHeader offset file ++ rest) 30 = .ok 0 ∧ le16 (centralHeader offset file ++ rest) 32 = .ok 0 ∧
      le32 (centralHeader offset file ++ rest) 42 = .ok offset := by
  have flags := file.flags.toNat_lt
  have crc := (crc32 file.data).toNat_lt
  have zero : 0 < 2 ^ 16 := by decide
  simp only [centralHeader, append_assoc, le16_after_u16, le16_after_u32, le32_after_u16, le32_after_u32,
    le16_here flags, le16_here zero, le32_here crc, le32_here small, le16_here short, le32_here near, and_true]
  exact le32_here (by decide)

theorem localHeader_fields (short : file.name.length < 2 ^ 16) :
    le32 (localHeader file ++ rest) 0 = .ok localHeaderSignature ∧
      le16 (localHeader file ++ rest) 26 = .ok file.name.length ∧ le16 (localHeader file ++ rest) 28 = .ok 0 := by
  have zero : 0 < 2 ^ 16 := by decide
  simp only [localHeader, append_assoc, le16_after_u16, le16_after_u32, le16_here short, le16_here zero, and_true]
  exact le32_here (by decide)

theorem endRecord_fields {count size : Nat} {comment : Bytes} (few : count < 2 ^ 16) (small : size < 2 ^ 32)
    (near : offset < 2 ^ 32) (short : comment.length < 2 ^ 16) :
    le32 (endRecord count size offset comment ++ rest) 0 = .ok endOfCentralDirectorySignature ∧
      le16 (endRecord count size offset comment ++ rest) 4 = .ok 0 ∧
      le16 (endRecord count size offset comment ++ rest) 6 = .ok 0 ∧
      le16 (endRecord count size offset comment ++ rest) 8 = .ok count ∧
      le16 (endRecord count size offset comment ++ rest) 10 = .ok count ∧
      le32 (endRecord count size offset comment ++ rest) 12 = .ok size ∧
      le32 (endRecord count size offset comment ++ rest) 16 = .ok offset ∧
      le16 (endRecord count size offset comment ++ rest) 20 = .ok comment.length := by
  have zero : 0 < 2 ^ 16 := by decide
  simp only [endRecord, append_assoc, le16_after_u16, le16_after_u32, le32_after_u16, le32_after_u32,
    le16_here few, le16_here zero, le32_here small, le32_here near, le16_here short, and_true]
  exact le32_here (by decide)

end

/-- What the reader has to find for a file: its central header at `cursor`, its local header and data at `offset`. -/
structure Stands (archive : Bytes) (directory : Directory) (file : StoredFile) (cursor offset : Nat) : Prop where
  central : ∃ rest, archive.drop cursor = centralHeader offset file ++ (file.name ++ rest)
  local_ : ∃ rest, archive.drop offset = localHeader file ++ (file.name ++ (file.data ++ rest))
  inside : cursor + centralHeaderSize + file.name.length ≤ directory.offset + directory.size
  before : offset + localHeaderSize + file.name.length + file.data.length ≤ directory.offset
  room : directory.offset + directory.size ≤ archive.length
  near : directory.offset < 2 ^ 32

def entryOf (file : StoredFile) (offset : Nat) : ZipEntry :=
  { name := file.name, data := ⟨offset + localHeaderSize + file.name.length, file.data.length⟩ }

section
variable {archive : Bytes} {directory : Directory} {file : StoredFile} {cursor offset : Nat}

section
variable (stands : Stands archive directory file cursor offset)
include stands

theorem Stands.local_name : subspan archive (offset + localHeaderSize) file.name.length = .ok file.name := by
  obtain ⟨rest, found⟩ := stands.local_
  have before := stands.before
  have room := stands.room
  have name : archive.drop (offset + localHeaderSize) = file.name ++ (file.data ++ rest) := by
    rw [← drop_drop, found, ← length_localHeader file, drop_left]
  exact subspan_of_drop name (by omega)

theorem Stands.data :
    subspan archive (offset + localHeaderSize + file.name.length) file.data.length = .ok file.data := by
  obtain ⟨rest, found⟩ := stands.local_
  have before := stands.before
  have room := stands.room
  have data : archive.drop (offset + localHeaderSize + file.name.length) = file.data ++ rest := by
    rw [← drop_drop, ← drop_drop, found, ← length_localHeader file, drop_left, drop_left]
  exact subspan_of_drop data (by omega)

theorem Stands.bytes : (entryOf file offset).data.bytes archive = file.data := by
  have data := stands.data
  unfold subspan at data
  split at data
  · exact Except.ok.inj data
  · cases data

theorem Stands.header : subspan archive cursor centralHeaderSize = .ok (centralHeader offset file) := by
  obtain ⟨rest, found⟩ := stands.central
  have inside := stands.inside
  have room := stands.room
  have span := subspan_of_drop found (by omega)
  rwa [length_centralHeader] at span

theorem Stands.name : subspan archive (cursor + centralHeaderSize) file.name.length = .ok file.name := by
  obtain ⟨rest, found⟩ := stands.central
  have inside := stands.inside
  have room := stands.room
  have name : archive.drop (cursor + centralHeaderSize) = file.name ++ rest := by
    rw [← drop_drop, found, ← length_centralHeader offset file, drop_left]
  exact subspan_of_drop name (by omega)

theorem readEntry_stands (some_ : file.name ≠ []) (short : file.name.length ≤ maxZipNameLength) :
    readEntry archive directory cursor =
      .ok (entryOf file offset, cursor + centralHeaderSize + file.name.length) := by
  have inside := stands.inside
  have before := stands.before
  have near := stands.near
  have positive := length_pos_iff.mpr some_
  simp only [maxZipNameLength] at short
  obtain ⟨rest, found⟩ := stands.local_
  obtain ⟨others, central⟩ := stands.central
  obtain ⟨signature, _⟩ := @centralHeader_fields file offset (file.name ++ others) (by omega) (by omega) (by omega)
  obtain ⟨_, flags, method, crc, compressed, uncompressed, name, extra, comment, place⟩ :=
    @centralHeader_fields file offset [] (by omega) (by omega) (by omega)
  obtain ⟨localSignature, localName, localExtra⟩ :=
    @localHeader_fields file (file.name ++ (file.data ++ rest)) (by omega)
  rw [append_nil] at flags method crc compressed uncompressed name extra comment place
  have within : cursor ≤ directory.offset + directory.size := by omega
  have whole : centralHeaderSize ≤ directory.offset + directory.size - cursor := by omega
  have low : offset ≤ directory.offset := by omega
  have spare : localHeaderSize ≤ directory.offset - offset := by omega
  have nameFits : file.name.length ≤ directory.offset - offset - localHeaderSize := by omega
  unfold readEntry
  dsimp only
  refine demand_goes (by rw [sizeSub_of_le within]; omega) ?_
  refine bind_goes ((le32_record central).trans signature) ?_
  refine demand_goes rfl ?_
  refine bind_goes stands.header ?_
  refine bind_goes flags (bind_goes method (bind_goes crc (bind_goes compressed (bind_goes uncompressed ?_))))
  refine bind_goes name (bind_goes extra (bind_goes comment (bind_goes place ?_)))
  refine demand_goes (by rw [sizeSub_of_le within, sizeSub_of_le whole]; omega) ?_
  refine demand_goes (by simp only [maxZipNameLength]; omega) ?_
  refine bind_goes stands.name ?_
  refine demand_goes file.plain (demand_goes (by decide) (demand_goes rfl (demand_goes rfl ?_)))
  refine demand_goes (by rw [sizeSub_of_le low]; omega) ?_
  refine bind_goes ((le32_record found).trans localSignature) ?_
  refine demand_goes rfl ?_
  refine bind_goes ((le16_field found).trans localName) (bind_goes ((le16_field found).trans localExtra) ?_)
  refine demand_goes ?_ ?_
  · rw [sizeSub_of_le low, sizeSub_of_le spare, sizeSub_of_le nameFits, sizeSub_of_le (Nat.zero_le _)]
    omega
  refine bind_goes stands.local_name (demand_goes rfl (bind_goes stands.data (demand_goes rfl ?_)))
  rfl

end

theorem readEntries_stands (left : List StoredFile) (cursor offset : Nat) (entries : List ZipEntry)
    (stands : ∀ done file rest, left = done ++ file :: rest → Stands archive directory file
      (cursor + (centrals offset done).length) (offset + (locals done).length))
    (named : ∀ file ∈ left, file.name ≠ [] ∧ file.name.length ≤ maxZipNameLength ∧ file.name.getLast? ≠ some 0x2F)
    (distinct : (entries.map (·.name) ++ left.map (·.name)).Nodup) :
    ∃ read, readEntries archive directory left.length cursor entries = .ok (entries ++ read) ∧
      read.map (fun entry => (entry.name, entry.data.bytes archive)) = left.map fun file => (file.name, file.data) := by
  induction left generalizing cursor offset entries with
  | nil => exact ⟨[], by rw [append_nil]; rfl, rfl⟩
  | cons file rest ih =>
    have here : Stands archive directory file cursor offset := by simpa [locals, centrals] using stands [] file rest rfl
    obtain ⟨some_, short, plain⟩ := named file mem_cons_self
    have fresh : ¬ entries.any fun other => other.name == (entryOf file offset).name := by
      intro twice
      obtain ⟨other, member, same⟩ := any_eq_true.mp twice
      have apart := (nodup_append.mp distinct).2.2
      exact apart _ (mem_map_of_mem member) _ mem_cons_self (by simpa [entryOf] using same)
    obtain ⟨read, goes, same⟩ := ih (cursor + centralHeaderSize + file.name.length)
      (offset + (localRecord file).length) (entries ++ [entryOf file offset]) (fun done other others split => by
        have later := stands (file :: done) other others (by rw [split]; rfl)
        simpa [centrals, locals, Nat.add_assoc] using later)
      (fun other member => named other (mem_cons_of_mem _ member)) (by simpa [entryOf] using distinct)
    refine ⟨entryOf file offset :: read, ?_, ?_⟩
    · rw [length_cons, readEntries]
      refine bind_goes (readEntry_stands here some_ short) ?_
      refine (if_neg plain).trans (demand_goes fresh ?_)
      rw [goes, append_assoc]
      rfl
    · rw [map_cons, map_cons, same, here.bytes]
      rfl

end

theorem locals_append (first second : List StoredFile) : locals (first ++ second) = locals first ++ locals second :=
  flatMap_append

theorem centrals_append (offset : Nat) (first second : List StoredFile) :
    centrals offset (first ++ second) = centrals offset first ++ centrals (offset + (locals first).length) second := by
  induction first generalizing offset with
  | nil => rfl
  | cons _ _ ih => simp [centrals, locals, ih, Nat.add_assoc]

theorem length_centrals_le (offset : Nat) (files : List StoredFile)
    (short : ∀ file ∈ files, file.name.length ≤ maxZipNameLength) :
    (centrals offset files).length ≤ files.length * (centralHeaderSize + maxZipNameLength) := by
  induction files generalizing offset with
  | nil => exact Nat.zero_le _
  | cons file _ ih =>
    have here := short file mem_cons_self
    have later := ih (offset + (localRecord file).length) fun other member => short other (mem_cons_of_mem _ member)
    simp only [centrals, length_append, length_centralHeader, length_cons, Nat.succ_mul]
    omega

structure Packable (files : List StoredFile) (comment : Bytes) : Prop where
  few : files.length ≤ maxZipEntries
  named : ∀ file ∈ files, file.name ≠ [] ∧ file.name.length ≤ maxZipNameLength ∧ file.name.getLast? ≠ some 0x2F
  distinct : (files.map (·.name)).Nodup
  size : (locals files).length < 2 ^ 32 - 1
  comment : comment.length ≤ maxCommentLength

section
variable {files : List StoredFile} {comment : Bytes}

theorem length_build (files : List StoredFile) (comment : Bytes) :
    (build files comment).length = endPlace files + endOfCentralDirectorySize + comment.length := by
  simp only [build, endPlace, length_append, length_endRecord]

def directoryOf (files : List StoredFile) : Directory :=
  { offset := (locals files).length, size := (centrals 0 files).length, entries := files.length }

theorem Packable.stands (packable : Packable files comment) {done rest : List StoredFile} {file : StoredFile}
    (split : files = done ++ file :: rest) :
    Stands (build files comment) (directoryOf files) file ((locals files).length + (centrals 0 done).length)
      (locals done).length := by
  have whole : locals files = locals done ++ (localRecord file ++ locals rest) := by
    rw [split, locals_append]
    rfl
  have listed : centrals 0 files = centrals 0 done ++ (centralHeader (locals done).length file ++ (file.name ++
      centrals ((locals done).length + (localRecord file).length) rest)) := by
    rw [split, centrals_append, Nat.zero_add, centrals, append_assoc]
  refine ⟨?_, ?_, ?_, ?_, ?_, ?_⟩
  · refine ⟨centrals ((locals done).length + (localRecord file).length) rest ++
      (endRecord files.length (centrals 0 files).length (locals files).length comment ++ comment), ?_⟩
    rw [build, ← drop_drop, append_assoc, append_assoc, drop_left]
    nth_rewrite 1 [listed]
    rw [append_assoc, drop_left]
    simp only [append_assoc]
  · refine ⟨locals rest ++ (centrals 0 files ++
      (endRecord files.length (centrals 0 files).length (locals files).length comment ++ comment)), ?_⟩
    rw [build]
    nth_rewrite 1 [whole]
    simp only [append_assoc, drop_left, localRecord]
  · have length := congrArg List.length listed
    simp only [length_append, length_centralHeader] at length
    simp only [directoryOf]
    omega
  · have length := congrArg List.length whole
    simp only [length_append, length_localRecord] at length
    simp only [directoryOf]
    omega
  · rw [length_build, directoryOf, endPlace]
    simp only
    omega
  · have size := packable.size
    simp only [directoryOf]
    omega

theorem build_drop_end (files : List StoredFile) (comment : Bytes) : (build files comment).drop (endPlace files) =
      endRecord files.length (centrals 0 files).length (locals files).length comment ++ comment := by
  rw [build, endPlace, ← length_append, append_assoc, drop_left]

theorem isEndRecord_end (packable : Packable files comment) :
    isEndRecord (build files comment) (endPlace files + comment.length) (endPlace files) = .ok true := by
  have few := packable.few
  have size := packable.size
  have short := packable.comment
  have small := length_centrals_le 0 files fun file member => (packable.named file member).2.1
  simp only [maxZipEntries, maxCommentLength, centralHeaderSize, maxZipNameLength] at few short small
  have drop := build_drop_end files comment
  obtain ⟨signature, _, _, _, _, _, _, length⟩ := @endRecord_fields (locals files).length comment files.length
    (centrals 0 files).length comment (by omega) (by omega) (by omega) (by omega)
  unfold isEndRecord
  refine bind_goes ((le32_record drop).trans signature) ?_
  rw [if_neg (by simp)]
  refine bind_goes ((le16_field drop).trans length) ?_
  rw [sizeSub_of_le (Nat.le_add_right ..), Nat.add_sub_cancel_left]
  simp [pure, Except.pure]

theorem directoryAt_end (packable : Packable files comment) :
    directoryAt (build files comment) (endPlace files) = .ok (directoryOf files) := by
  have few := packable.few
  have size := packable.size
  have short := packable.comment
  have small := length_centrals_le 0 files fun file member => (packable.named file member).2.1
  simp only [maxZipEntries, maxCommentLength, centralHeaderSize, maxZipNameLength] at few short small
  have drop := build_drop_end files comment
  obtain ⟨_, disk, directoryDisk, onDisk, total, long, place, _⟩ := @endRecord_fields (locals files).length comment
    files.length (centrals 0 files).length comment (by omega) (by omega) (by omega) (by omega)
  unfold directoryAt
  refine bind_goes ((le16_field drop).trans disk) (bind_goes ((le16_field drop).trans directoryDisk) ?_)
  refine bind_goes ((le16_field drop).trans onDisk) (bind_goes ((le16_field drop).trans total) ?_)
  refine bind_goes ((le32_field drop).trans long) (bind_goes ((le32_field drop).trans place) ?_)
  refine demand_goes (by omega) (demand_goes (by omega) (demand_goes (by simp only [maxZipEntries]; omega) ?_))
  refine demand_goes ?_ rfl
  have low : (locals files).length ≤ endPlace files := Nat.le_add_right ..
  rw [sizeSub_of_le low]
  simp only [endPlace]
  omega

theorem searchBack_skips {archive : Bytes} {last first place : Nat} (reaches : first ≤ place)
    (room : last + endOfCentralDirectorySize ≤ archive.length)
    (unread : ∀ at_, place < at_ → at_ ≤ last → isEndRecord archive last at_ ≠ .ok true) (skipped : Nat)
    (within : place + skipped ≤ last) :
    searchBack archive last first (place + skipped + 1) = searchBack archive last first (place + 1) := by
  induction skipped with
  | zero => rfl
  | succ skipped ih =>
    obtain ⟨found, judged⟩ := @isEndRecord_total archive (place + (skipped + 1)) last (by omega)
    have other : found = false := by
      by_contra yes
      rw [Bool.not_eq_false] at yes
      exact unread (place + (skipped + 1)) (by omega) within (by rw [judged, yes])
    rw [← ih (by omega), searchBack, if_pos (by omega)]
    refine bind_goes judged ?_
    rw [other]
    rfl

/-- No place after the start of the end record reads as an end record whose comment reaches to the end. -/
def EndsOnce (files : List StoredFile) (comment : Bytes) : Prop :=
  ∀ at_, endPlace files < at_ → at_ ≤ endPlace files + comment.length →
    isEndRecord (build files comment) (endPlace files + comment.length) at_ ≠ .ok true

theorem findDirectory_build (packable : Packable files comment) (once : EndsOnce files comment) :
    findDirectory (build files comment) = .ok (directoryOf files) := by
  have length := length_build files comment
  have short := packable.comment
  have last : sizeSub (build files comment).length endOfCentralDirectorySize = endPlace files + comment.length := by
    rw [sizeSub_of_le (by omega)]
    omega
  unfold findDirectory
  refine demand_goes (by omega) ?_
  dsimp only
  rw [last]
  have reaches : (if endPlace files + comment.length > maxCommentLength then
      sizeSub (endPlace files + comment.length) maxCommentLength else 0) ≤ endPlace files := by
    split
    · rw [sizeSub_of_le (by omega)]
      omega
    · exact Nat.zero_le _
  rw [searchBack_skips reaches (by omega) once comment.length (Nat.le_refl _), searchBack, if_pos (by omega)]
  refine bind_goes (isEndRecord_end packable) ?_
  exact directoryAt_end packable

theorem readStoredZip_build (packable : Packable files comment) (once : EndsOnce files comment) :
    ∃ entries, readStoredZip (build files comment) = .ok entries ∧
      entries.map (fun entry => (entry.name, entry.data.bytes (build files comment))) =
        files.map fun file => (file.name, file.data) := by
  have stands (done : List StoredFile) (file : StoredFile) (rest : List StoredFile) (split : files = done ++ file :: rest) :
      Stands (build files comment) (directoryOf files) file ((locals files).length + (centrals 0 done).length)
        (0 + (locals done).length) := by
    rw [Nat.zero_add]
    exact packable.stands split
  obtain ⟨entries, read, same⟩ := readEntries_stands files (locals files).length 0 [] stands packable.named
    (by simpa using packable.distinct)
  refine ⟨entries, ?_, same⟩
  unfold readStoredZip
  exact bind_goes (findDirectory_build packable once) read

end

/-- The reader stays inside its bytes, returns what is recorded, no name twice, and reads every archive that is laid
out. -/
theorem storedZip_sound_and_complete : (∀ archive, readStoredZip archive ≠ .error .outside) ∧
      (∀ archive entries, readStoredZip archive = .ok entries → ∃ directory, findDirectory archive = .ok directory ∧
        directory.offset + directory.size ≤ archive.length ∧
        (∀ entry ∈ entries, ∃ cursor, Recorded archive directory cursor entry) ∧ (entries.map (·.name)).Nodup) ∧
      ∀ files comment, Packable files comment → EndsOnce files comment →
        ∃ entries, readStoredZip (build files comment) = .ok entries ∧
          entries.map (fun entry => (entry.name, entry.data.bytes (build files comment))) =
            files.map fun file => (file.name, file.data) := by
  refine ⟨fun archive outside => ?_, fun archive entries read => ?_, fun files comment => readStoredZip_build⟩
  · exact (readStoredZip_inside archive).of_error outside rfl
  · obtain ⟨directory, found, room, listed⟩ := (readStoredZip_inside archive).of_ok read
    exact ⟨directory, found, room, listed.recorded, listed.distinct⟩

def emptyFile : StoredFile := { name := [0x61], data := [] }

def twoFiles : List StoredFile := [{ name := [0x61], data := [1, 2, 3] }, { name := [0x62, 0x63], data := [0x50, 0x4B] }]

/-- A comment with the signature of an end record, whose own length is not that of what follows. -/
def signedComment : Bytes := u32 endOfCentralDirectorySignature ++ List.replicate 20 7

theorem storedZip_reads_back_commented : ∃ entries, readStoredZip (build twoFiles signedComment) = .ok entries ∧
      entries.map (fun entry => (entry.name, entry.data.bytes (build twoFiles signedComment))) =
        [([0x61], [1, 2, 3]), ([0x62, 0x63], [0x50, 0x4B])] := by
  have packable : Packable twoFiles signedComment := by
    refine ⟨?_, ?_, ?_, ?_, ?_⟩ <;> decide +kernel
  have once : EndsOnce twoFiles signedComment := by
    have none_ : ∀ step < signedComment.length, (isEndRecord (build twoFiles signedComment)
        (endPlace twoFiles + signedComment.length) (endPlace twoFiles + 1 + step)).toOption ≠ some true := by
      decide +kernel
    intro at_ after within found
    have other := none_ (at_ - (endPlace twoFiles + 1)) (by omega)
    rw [Nat.add_sub_cancel' after, found] at other
    exact other rfl
  exact storedZip_sound_and_complete.2.2 twoFiles signedComment packable once

theorem le16_first {bytes : Bytes} (found : le16 bytes at_ = .ok value) :
    ∃ first rest, bytes.drop at_ = first :: rest ∧ first.toNat = value % 256 ∧ value < 2 ^ 16 := by
  unfold le16 at found
  split at found
  · rename_i low high rest split
    have small := low.toNat_lt
    have large := high.toNat_lt
    refine ⟨low, high :: rest, split, ?_⟩
    rw [← Except.ok.inj found, Nat.or_comm, ← Nat.shiftLeft_add_eq_or_of_lt (by omega), Nat.shiftLeft_eq]
    omega
  · cases found

theorem le32_first {bytes : Bytes} (found : le32 bytes at_ = .ok value) :
    ∃ first rest, bytes.drop at_ = first :: rest ∧ first.toNat = value % 256 := by
  unfold le32 at found
  cases lower : le16 bytes at_ with
  | error =>
    rw [lower] at found
    cases found
  | ok =>
    rw [lower, ok_bind] at found
    cases upper : le16 bytes (at_ + 2) with
    | error =>
      rw [upper] at found
      cases found
    | ok =>
      rw [upper, ok_bind] at found
      obtain ⟨first, rest, split, is, bound⟩ := le16_first lower
      refine ⟨first, rest, split, ?_⟩
      rw [← Except.ok.inj found, is, Nat.or_comm, ← Nat.shiftLeft_add_eq_or_of_lt (by omega), Nat.shiftLeft_eq]
      omega

theorem isEndRecord_first {archive : Bytes} {last : Nat} (found : isEndRecord archive last at_ = .ok true) :
    0x50 ∈ archive.drop at_ := by
  unfold isEndRecord at found
  cases read : le32 archive at_ with
  | error =>
    rw [read] at found
    cases found
  | ok signature =>
    rw [read, ok_bind] at found
    by_cases other : signature ≠ endOfCentralDirectorySignature
    · rw [if_pos other] at found
      cases found
    rw [not_not] at other
    obtain ⟨first, rest, split, is⟩ := le32_first read
    have byte : first = 0x50 := by
      apply UInt8.toNat_inj.mp
      rw [is, other]
      rfl
    rw [split, byte]
    exact mem_cons_self

section

/-- A comment whose length reads as the first half of a signature, and which goes on with the other half. -/
def hiddenEnd : Bytes := [0x05, 0x06] ++ List.replicate 16 0 ++ [0x3C, 0x4B] ++ List.replicate 19260 0

theorem length_hiddenEnd : hiddenEnd.length = 19280 := by
  simp only [hiddenEnd, length_append, length_replicate, length_cons, length_nil]

theorem hiddenEnd_bytes {byte : UInt8} (member : byte ∈ hiddenEnd) : byte ≠ 0x50 := by
  simp only [hiddenEnd, mem_append, mem_cons, mem_replicate, not_mem_nil, or_false] at member
  rcases member with (((rfl | rfl) | ⟨_, rfl⟩) | (rfl | rfl)) | ⟨_, rfl⟩ <;> decide

theorem endPlace_empty : endPlace [emptyFile] = 78 := by
  simp [endPlace, locals, centrals, length_localRecord, emptyFile, localHeaderSize, centralHeaderSize]

theorem hidden_packable : Packable [emptyFile] hiddenEnd :=
  ⟨by decide, by simp [emptyFile, maxZipNameLength], by simp,
    by simp [locals, length_localRecord, emptyFile, localHeaderSize], by rw [length_hiddenEnd]; decide⟩

theorem hidden_drop : (build [emptyFile] hiddenEnd).drop 98 = [0x50, 0x4B] ++ hiddenEnd := by
  have drop := build_drop_end [emptyFile] hiddenEnd
  rw [endPlace_empty] at drop
  rw [show 98 = 78 + 20 from rfl, ← drop_drop, drop, endRecord, length_hiddenEnd]
  rfl

theorem hidden_unread {last : Nat} (after : 98 < at_) :
    isEndRecord (build [emptyFile] hiddenEnd) last at_ ≠ .ok true := by
  intro found
  have member := isEndRecord_first found
  have tail : (build [emptyFile] hiddenEnd).drop at_ = (0x4B :: hiddenEnd).drop (at_ - 99) := by
    rw [show at_ = 98 + 1 + (at_ - 99) by omega, ← drop_drop, ← drop_drop, hidden_drop]
    simp
  rw [tail] at member
  rcases mem_cons.mp (mem_of_mem_drop member) with same | inside
  · cases same
  · exact hiddenEnd_bytes inside rfl

theorem hidden_found : isEndRecord (build [emptyFile] hiddenEnd) 19358 98 = .ok true := by
  unfold isEndRecord
  refine bind_goes ((le32_record hidden_drop).trans (rfl : _ = Except.ok endOfCentralDirectorySignature)) ?_
  rw [if_neg (by simp)]
  exact bind_goes ((le16_field hidden_drop).trans (rfl : _ = Except.ok 19260)) rfl

theorem hidden_directory : directoryAt (build [emptyFile] hiddenEnd) 98 = .ok {} := by
  unfold directoryAt
  refine bind_goes ((le16_field hidden_drop).trans (rfl : _ = Except.ok 0)) ?_
  refine bind_goes ((le16_field hidden_drop).trans (rfl : _ = Except.ok 0)) ?_
  refine bind_goes ((le16_field hidden_drop).trans (rfl : _ = Except.ok 0)) ?_
  refine bind_goes ((le16_field hidden_drop).trans (rfl : _ = Except.ok 0)) ?_
  refine bind_goes ((le32_field hidden_drop).trans (rfl : _ = Except.ok 0)) ?_
  refine bind_goes ((le32_field hidden_drop).trans (rfl : _ = Except.ok 0)) ?_
  rfl

/-- The comment alone is not enough: an end record may begin in the length of the comment. -/
theorem hidden_end_misread : ∃ files comment, Packable files comment ∧ (build files comment).length < 2 ^ 32 - 1 ∧
    (∀ at_, endPlace files + endOfCentralDirectorySize ≤ at_ → at_ ≤ endPlace files + comment.length →
      isEndRecord (build files comment) (endPlace files + comment.length) at_ ≠ .ok true) ∧
    files ≠ [] ∧ readStoredZip (build files comment) = .ok [] := by
  have length := length_build [emptyFile] hiddenEnd
  rw [length_hiddenEnd, endPlace_empty, endOfCentralDirectorySize] at length
  refine ⟨[emptyFile], hiddenEnd, hidden_packable, by omega, fun at_ inside _ => ?_, by simp, ?_⟩
  · rw [endPlace_empty, endOfCentralDirectorySize] at inside
    exact hidden_unread (by omega)
  have last : sizeSub (build [emptyFile] hiddenEnd).length endOfCentralDirectorySize = 19358 := by
    rw [length]
    rfl
  have found : findDirectory (build [emptyFile] hiddenEnd) = .ok {} := by
    unfold findDirectory
    refine demand_goes (by simp only [endOfCentralDirectorySize]; omega) ?_
    dsimp only
    rw [last, if_neg (by simp only [maxCommentLength]; omega)]
    rw [@searchBack_skips _ 19358 0 98 (Nat.zero_le _) (by simp only [endOfCentralDirectorySize]; omega)
      (fun at_ after _ => hidden_unread after) 19260 (by omega)]
    rw [searchBack, if_pos (by omega)]
    exact bind_goes hidden_found hidden_directory
  unfold readStoredZip
  exact bind_goes found rfl

end

end Smply.Package
