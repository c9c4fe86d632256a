import Smply.Core.Error

namespace Smply.Smp

inductive Operation where
  | read
  | readResponse
  | write
  | writeResponse
  deriving DecidableEq, Repr

inductive Version where
  | v1
  | v2
  deriving DecidableEq, Repr

def Operation.toByte : Operation → UInt8
  | .read => 0
  | .readResponse => 1
  | .write => 2
  | .writeResponse => 3

-- The cast is only reached by bits that passed the check against `maxOperation`.
def Operation.ofByte (bits : UInt8) : Operation :=
  if bits = 0 then .read else if bits = 1 then .readResponse else if bits = 2 then .write else .writeResponse

def Version.toByte : Version → UInt8
  | .v1 => 0
  | .v2 => 1

def Version.ofByte (bits : UInt8) : Version := if bits = 0 then .v1 else .v2

def responseTo : Operation → Operation
  | .read => .readResponse
  | .write => .writeResponse
  | .readResponse => .readResponse
  | .writeResponse => .writeResponse

def headerSize : Nat := 8

structure Header where
  op : Operation := .read
  version : Version := .v1
  flags : UInt8 := 0
  length : UInt16 := 0
  group : Group := 0
  seq : UInt8 := 0
  command : UInt8 := 0
  deriving DecidableEq, Repr

def Header.totalSize (header : Header) : Nat := headerSize + header.length.toNat

def reservedMask : UInt8 := 0xE0
def versionMask : UInt8 := 0x03
def versionShift : UInt8 := 3
def operationMask : UInt8 := 0x07
def maxOperation : UInt8 := 3
def maxVersion : UInt8 := 1

def readBe16 (high low : UInt8) : UInt16 := (high.toUInt16 <<< 8) ||| low.toUInt16

def highByte (value : UInt16) : UInt8 := ((value >>> 8) &&& 0xFF).toUInt8

def lowByte (value : UInt16) : UInt8 := (value &&& 0xFF).toUInt8

def byte0 (op : Operation) (version : Version) : UInt8 :=
  let versionBits := version.toByte &&& versionMask
  let opBits := op.toByte &&& operationMask
  (versionBits <<< versionShift) ||| opBits

def encode (header : Header) : Bytes :=
  [byte0 header.op header.version, header.flags, highByte header.length, lowByte header.length,
    highByte header.group, lowByte header.group, header.seq, header.command]

/-- The dynamic-span overload: anything past the first eight bytes is ignored. -/
def decodeHeader : Bytes → Result Header
  | byte0 :: flags :: length1 :: length0 :: group1 :: group0 :: seq :: command :: _ =>
    if byte0 &&& reservedMask ≠ 0 then
      .error (.at .malformedMessage "smp header: reserved bits set")
    else
      let versionBits := (byte0 >>> versionShift) &&& versionMask
      if versionBits > maxVersion then
        .error (.at .unsupportedSmpVersion "smp header: reserved version")
      else
        let opBits := byte0 &&& operationMask
        if opBits > maxOperation then
          .error (.at .malformedMessage "smp header: unknown operation")
        else
          .ok { op := .ofByte opBits, version := .ofByte versionBits, flags := flags,
                length := readBe16 length1 length0, group := readBe16 group1 group0, seq := seq,
                command := command }
  | _ => .error (.at .malformedMessage "smp header: truncated")

theorem readBe16_bytes (value : UInt16) : readBe16 (highByte value) (lowByte value) = value := by
  have bound := value.toNat_lt
  have mask (n : Nat) : n &&& 255 = n % 256 := Nat.and_two_pow_sub_one_eq_mod n 8
  have high : (highByte value).toNat = value.toNat / 256 := by
    simp [highByte, mask, Nat.shiftRight_eq_div_pow]
    omega
  have low : (lowByte value).toNat = value.toNat % 256 := by simp [lowByte, mask]
  apply UInt16.toNat_inj.mp
  have shifted : (value.toNat / 256) <<< 8 % 65536 = (value.toNat / 256) <<< 8 := by
    rw [Nat.shiftLeft_eq]
    omega
  simp only [readBe16, UInt16.toNat_or, UInt16.toNat_shiftLeft, UInt8.toNat_toUInt16, high, low]
  simp only [UInt16.reduceToNat, Nat.reduceMod, Nat.reducePow, shifted]
  rw [← Nat.shiftLeft_add_eq_or_of_lt (Nat.mod_lt _ (by decide)), Nat.shiftLeft_eq]
  omega

theorem encode_length (header : Header) : (encode header).length = headerSize := rfl

theorem byte0_accepted (op : Operation) (version : Version) :
    byte0 op version &&& reservedMask = 0 ∧ ¬ maxVersion < (byte0 op version >>> versionShift) &&& versionMask ∧
      ¬ maxOperation < byte0 op version &&& operationMask := by
  cases op <;> cases version <;> decide

theorem byte0_fields (op : Operation) (version : Version) :
    Operation.ofByte (byte0 op version &&& operationMask) = op ∧
      Version.ofByte ((byte0 op version >>> versionShift) &&& versionMask) = version := by
  cases op <;> cases version <;> decide

theorem decodeHeader_encode (header : Header) (rest : Bytes) : decodeHeader (encode header ++ rest) = .ok header := by
  obtain ⟨reserved, version, operation⟩ := byte0_accepted header.op header.version
  obtain ⟨sameOp, sameVersion⟩ := byte0_fields header.op header.version
  simp only [encode, decodeHeader, List.cons_append, reserved, version, operation, sameOp, sameVersion,
    readBe16_bytes, ne_eq, not_true_eq_false, ↓reduceIte]

theorem decodeHeader_append {bytes : Bytes} (long : headerSize ≤ bytes.length) (rest : Bytes) :
    decodeHeader (bytes ++ rest) = decodeHeader bytes := by
  match bytes, long with
  | _ :: _ :: _ :: _ :: _ :: _ :: _ :: _ :: _, _ => rfl

end Smply.Smp
