import Smply.Core.Error

namespace Smply.Transport

def crcBit (crc : UInt16) : UInt16 :=
  if crc &&& 0x8000 ≠ 0 then (crc <<< 1) ^^^ 0x1021 else crc <<< 1

def crcByte (crc : UInt16) (value : UInt8) : UInt16 :=
  crcBit (crcBit (crcBit (crcBit (crcBit (crcBit (crcBit (crcBit (crc ^^^ (value.toUInt16 <<< 8)))))))))

def crc16Xmodem (seed : UInt16) (data : Bytes) : UInt16 := data.foldl crcByte seed

def bigEndian (number : UInt16) : Bytes := [((number >>> 8) &&& 0xFF).toUInt8, (number &&& 0xFF).toUInt8]

theorem crc_high_cancels (crc : UInt16) :
    crc ^^^ (((crc >>> 8) &&& 0xFF).toUInt8.toUInt16 <<< 8) = (crc &&& 0xFF).toUInt8.toUInt16 := by
  apply UInt16.toBitVec_inj.mp
  apply BitVec.eq_of_getLsbD_eq
  intro i bound
  simp only [UInt16.toBitVec_xor, UInt16.toBitVec_shiftLeft, UInt8.toBitVec_toUInt16, UInt16.toBitVec_toUInt8,
    UInt16.toBitVec_and, UInt16.toBitVec_shiftRight, BitVec.getLsbD_xor]
  interval_cases i <;> simp

theorem crcByte_low (low : UInt8) (crc : UInt16) (same : crc ^^^ (low.toUInt16 <<< 8) = 0) : crcByte crc low = 0 := by
  rw [crcByte, same]
  decide

theorem crcBits_low (low : UInt8) :
    crcBit (crcBit (crcBit (crcBit (crcBit (crcBit (crcBit (crcBit low.toUInt16))))))) = low.toUInt16 <<< 8 := by
  have all : ∀ n : Fin 256, crcBit (crcBit (crcBit (crcBit (crcBit (crcBit (crcBit (crcBit
      (UInt8.ofFin n).toUInt16))))))) = (UInt8.ofFin n).toUInt16 <<< 8 := by
    decide +kernel
  exact all low.toFin

theorem crc16Xmodem_append (seed : UInt16) (first second : Bytes) :
    crc16Xmodem seed (first ++ second) = crc16Xmodem (crc16Xmodem seed first) second := List.foldl_append

theorem crc16Xmodem_bigEndian (crc : UInt16) : crc16Xmodem crc (bigEndian crc) = 0 := by
  show crcByte (crcByte crc ((crc >>> 8) &&& 0xFF).toUInt8) (crc &&& 0xFF).toUInt8 = 0
  apply crcByte_low
  rw [crcByte, crc_high_cancels, crcBits_low, UInt16.xor_self]

theorem crc16Xmodem_residue (packet : Bytes) : crc16Xmodem 0 (packet ++ bigEndian (crc16Xmodem 0 packet)) = 0 := by
  rw [crc16Xmodem_append, crc16Xmodem_bigEndian]

theorem crcBit_bit (crc : UInt16) {i : Nat} (bound : i < 16) : (crcBit crc).toBitVec.getLsbD i =
    ((decide (0 < i) && crc.toBitVec.getLsbD (i - 1)) ^^ (crc.toBitVec.getLsbD 15 && (0x1021#16).getLsbD i)) := by
  have high : crc &&& 0x8000 ≠ 0 ↔ crc.toBitVec.getLsbD 15 = true := by
    rw [ne_eq, ← UInt16.toBitVec_inj, UInt16.toBitVec_and, show (0x8000 : UInt16).toBitVec = BitVec.twoPow 16 15 from rfl,
      BitVec.and_twoPow]
    split <;> simp_all
  have shifted : (crc <<< 1).toBitVec.getLsbD i = (decide (0 < i) && crc.toBitVec.getLsbD (i - 1)) := by
    rw [UInt16.toBitVec_shiftLeft]
    exact (BitVec.getLsbD_shiftLeft ..).trans (by cases i <;> simp_all)
  unfold crcBit
  split
  · rename_i set_
    rw [UInt16.toBitVec_xor, BitVec.getLsbD_xor, shifted, high.mp set_, Bool.true_and]
    rfl
  · rename_i clear
    rw [shifted, Bool.eq_false_iff.mpr (mt high.mpr clear), Bool.false_and, Bool.xor_false]

theorem crcBit_injective {crc other : UInt16} (same : crcBit crc = crcBit other) : crc = other := by
  have bits {i : Nat} (bound : i < 16) := (crcBit_bit crc bound).symm.trans (same ▸ crcBit_bit other bound)
  have top : crc.toBitVec.getLsbD 15 = other.toBitVec.getLsbD 15 := by simpa using @bits 0 (by decide)
  refine UInt16.toBitVec_inj.mp (BitVec.eq_of_getLsbD_eq fun i bound => ?_)
  by_cases last : i = 15
  · rw [last, top]
  · have bit := @bits (i + 1) (by omega)
    rw [top, Bool.xor_left_inj] at bit
    simpa using bit

theorem crcByte_injective {crc other : UInt16} {value value' : UInt8}
    (same : crcByte crc value = crcByte other value') :
    crc ^^^ (value.toUInt16 <<< 8) = other ^^^ (value'.toUInt16 <<< 8) :=
  crcBit_injective (crcBit_injective (crcBit_injective (crcBit_injective (crcBit_injective (crcBit_injective
    (crcBit_injective (crcBit_injective same)))))))

theorem crc16Xmodem_injective {data : Bytes} {seed other : UInt16}
    (same : crc16Xmodem seed data = crc16Xmodem other data) :
    seed = other := by
  induction data generalizing seed other with
  | nil => exact same
  | cons value rest ih => exact (UInt16.xor_left_inj _).mp (crcByte_injective (ih same))

/-- A checksum is computed piece by piece, and leaves no residue exactly on a packet with its checksum. -/
theorem crc16Xmodem_checks (packet : Bytes) (crc : UInt16) :
    (∀ first second, crc16Xmodem (crc16Xmodem 0 first) second = crc16Xmodem 0 (first ++ second)) ∧
    (crc16Xmodem 0 (packet ++ bigEndian crc) = 0 ↔ crc = crc16Xmodem 0 packet) := by
  refine ⟨fun first second => (crc16Xmodem_append 0 first second).symm, fun zero => ?_, fun is => ?_⟩
  · rw [crc16Xmodem_append] at zero
    exact (crc16Xmodem_injective (zero.trans (crc16Xmodem_bigEndian crc).symm)).symm
  · rw [is, crc16Xmodem_residue]

end Smply.Transport
