import Smply.Systems.Blocks
import Smply.Core.Error

namespace Smply.Image

open List Systems

def roundConstants : List UInt32 :=
  [0x428A2F98, 0x71374491, 0xB5C0FBCF, 0xE9B5DBA5, 0x3956C25B, 0x59F111F1, 0x923F82A4, 0xAB1C5ED5, 0xD807AA98,
    0x12835B01, 0x243185BE, 0x550C7DC3, 0x72BE5D74, 0x80DEB1FE, 0x9BDC06A7, 0xC19BF174, 0xE49B69C1, 0xEFBE4786,
    0x0FC19DC6, 0x240CA1CC, 0x2DE92C6F, 0x4A7484AA, 0x5CB0A9DC, 0x76F988DA, 0x983E5152, 0xA831C66D, 0xB00327C8,
    0xBF597FC7, 0xC6E00BF3, 0xD5A79147, 0x06CA6351, 0x14292967, 0x27B70A85, 0x2E1B2138, 0x4D2C6DFC, 0x53380D13,
    0x650A7354, 0x766A0ABB, 0x81C2C92E, 0x92722C85, 0xA2BFE8A1, 0xA81A664B, 0xC24B8B70, 0xC76C51A3, 0xD192E819,
    0xD6990624, 0xF40E3585, 0x106AA070, 0x19A4C116, 0x1E376C08, 0x2748774C, 0x34B0BCB5, 0x391C0CB3, 0x4ED8AA4A,
    0x5B9CCA4F, 0x682E6FF3, 0x748F82EE, 0x78A5636F, 0x84C87814, 0x8CC70208, 0x90BEFFFA, 0xA4506CEB, 0xBEF9A3F7,
    0xC67178F2]

def rotateRight (value bits : UInt32) : UInt32 := (value >>> bits) ||| (value <<< (32 - bits))

def loadBe32 : Bytes → UInt32
  | b0 :: b1 :: b2 :: b3 :: _ => (b0.toUInt32 <<< 24) ||| (b1.toUInt32 <<< 16) ||| (b2.toUInt32 <<< 8) ||| b3.toUInt32
  | _ => 0

def storeBe32 (value : UInt32) : Bytes :=
  [((value >>> 24) &&& 0xFF).toUInt8, ((value >>> 16) &&& 0xFF).toUInt8, ((value >>> 8) &&& 0xFF).toUInt8,
    (value &&& 0xFF).toUInt8]

structure HashState where
  a : UInt32 := 0x6A09E667
  b : UInt32 := 0xBB67AE85
  c : UInt32 := 0x3C6EF372
  d : UInt32 := 0xA54FF53A
  e : UInt32 := 0x510E527F
  f : UInt32 := 0x9B05688C
  g : UInt32 := 0x1F83D9AB
  h : UInt32 := 0x5BE0CD19

/-- A turn of the loop that fills the schedule. -/
def extend (schedule : List UInt32) (i : Nat) : List UInt32 :=
  let s0 := rotateRight schedule[i - 15]! 7 ^^^ rotateRight schedule[i - 15]! 18 ^^^ (schedule[i - 15]! >>> 3)
  let s1 := rotateRight schedule[i - 2]! 17 ^^^ rotateRight schedule[i - 2]! 19 ^^^ (schedule[i - 2]! >>> 10)
  schedule ++ [schedule[i - 16]! + s0 + schedule[i - 7]! + s1]

def schedule (block : Bytes) : List UInt32 :=
  (range' 16 48).foldl extend ((range 16).map fun i => loadBe32 (block.drop (i * 4)))

namespace HashState

def round (s : HashState) (constant scheduled : UInt32) : HashState :=
  let sigma1 := rotateRight s.e 6 ^^^ rotateRight s.e 11 ^^^ rotateRight s.e 25
  let choose := (s.e &&& s.f) ^^^ (~~~s.e &&& s.g)
  let temp1 := s.h + sigma1 + choose + constant + scheduled
  let sigma0 := rotateRight s.a 2 ^^^ rotateRight s.a 13 ^^^ rotateRight s.a 22
  let majority := (s.a &&& s.b) ^^^ (s.a &&& s.c) ^^^ (s.b &&& s.c)
  let temp2 := sigma0 + majority
  ⟨temp1 + temp2, s.a, s.b, s.c, s.d + temp1, s.e, s.f, s.g⟩

def compress (s : HashState) (block : Bytes) : HashState :=
  let t := (roundConstants.zip (schedule block)).foldl (fun s turn => s.round turn.1 turn.2) s
  ⟨s.a + t.a, s.b + t.b, s.c + t.c, s.d + t.d, s.e + t.e, s.f + t.f, s.g + t.g, s.h + t.h⟩

def bytes (s : HashState) : Bytes := [s.a, s.b, s.c, s.d, s.e, s.f, s.g, s.h].flatMap storeBe32

end HashState

open HashState

def blockSize : Nat := 64

/-- `buffer` is the part of the source's buffer that is filled; the rest of it is written before it is read. -/
structure Sha256 where
  state : HashState := {}
  length : UInt64 := 0
  buffer : Bytes := []

namespace Sha256

/-- `update` from a block's boundary on. -/
def updateBlocks (hasher : Sha256) (data : Bytes) : Sha256 :=
  let (state, rest) := absorb compress blockSize hasher.state data
  { hasher with state := state, buffer := rest }

def update (hasher : Sha256) (data : Bytes) : Sha256 :=
  let hasher := { hasher with length := hasher.length + UInt64.ofNat data.length }
  if hasher.buffer.length ≠ 0 then
    let wanted := min (blockSize - hasher.buffer.length) data.length
    let buffer := hasher.buffer ++ data.take wanted
    if buffer.length < blockSize then { hasher with buffer := buffer }
    else { hasher with state := hasher.state.compress buffer, buffer := [] }.updateBlocks (data.drop wanted)
  else hasher.updateBlocks data

def finish (hasher : Sha256) : Bytes :=
  let bitLength := hasher.length * 8
  let buffer := hasher.buffer ++ [0x80]
  let (state, buffer) : HashState × Bytes :=
    if buffer.length > blockSize - 8 then
      (hasher.state.compress (buffer ++ replicate (blockSize - buffer.length) (0 : UInt8)), [])
    else (hasher.state, buffer)
  let block := buffer ++ replicate (blockSize - 8 - buffer.length) (0 : UInt8) ++
    storeBe32 (bitLength >>> 32).toUInt32 ++ storeBe32 (bitLength &&& 0xFFFFFFFF).toUInt32
  (state.compress block).bytes

end Sha256

def streamChunk : Nat := 4096

/-- The loop of `sha256`. -/
def sha256From (total : Nat) (read : Nat → Nat → Result Bytes) (offset : Nat) (hasher : Sha256) :
    Result Bytes :=
  if offset < total then
    let wanted := min (total - offset) streamChunk
    match read offset wanted with
    | .error error => .error error
    | .ok bytes =>
      if bytes.length ≠ wanted then
        .error (.at .invalidArgument "image: source returned a short read")
      else
        sha256From total read (offset + wanted) (hasher.update bytes)
  else
    .ok hasher.finish
termination_by total - offset
decreasing_by
  rw [streamChunk]
  omega

def sha256 (total : Nat) (read : Nat → Nat → Result Bytes) : Result Bytes := sha256From total read 0 {}

/-! The words of one block and its sixty-four turns, as FIPS 180-4 states them (3.2, 4.1.2, 6.2.2). -/

namespace Fips

def rotr (n : Nat) (x : UInt32) : UInt32 := ⟨x.toBitVec.rotateRight n⟩

def ch (x y z : UInt32) : UInt32 := (x &&& y) ^^^ (~~~x &&& z)

def maj (x y z : UInt32) : UInt32 := (x &&& y) ^^^ (x &&& z) ^^^ (y &&& z)

/-- The message schedule. -/
def word (block : Bytes) (t : Nat) : UInt32 :=
  if t < 16 then loadBe32 (block.drop (4 * t))
  else
    let x := word block (t - 2)
    let y := word block (t - 15)
    (rotr 17 x ^^^ rotr 19 x ^^^ (x >>> 10)) + word block (t - 7) + (rotr 7 y ^^^ rotr 18 y ^^^ (y >>> 3)) +
      word block (t - 16)

/-- The working variables after `t` turns. -/
def turns (s : HashState) (block : Bytes) : Nat → HashState
  | 0 => s
  | t + 1 =>
    let ⟨a, b, c, d, e, f, g, h⟩ := turns s block t
    let t1 := h + (rotr 6 e ^^^ rotr 11 e ^^^ rotr 25 e) + ch e f g + roundConstants[t]! + word block t
    let t2 := (rotr 2 a ^^^ rotr 13 a ^^^ rotr 22 a) + maj a b c
    ⟨t1 + t2, a, b, c, d + t1, e, f, g⟩

def next (s : HashState) (block : Bytes) : HashState :=
  let ⟨a, b, c, d, e, f, g, h⟩ := turns s block 64
  ⟨a + s.a, b + s.b, c + s.c, d + s.d, e + s.e, f + s.f, g + s.g, h + s.h⟩

theorem extend_words (block : Bytes) (n : Nat) :
    extend ((range (16 + n)).map (word block)) (16 + n) = (range (16 + n + 1)).map (word block) := by
  have at_ {i : Nat} (before : i < 16 + n) : ((range (16 + n)).map (word block))[i]! = word block i := by
    simp [before]
  rw [extend, at_ (by omega), at_ (by omega), at_ (by omega), at_ (by omega), range_succ, map_append, map_singleton,
    word.eq_def block (16 + n), if_neg (by omega)]
  congr 2
  change _ + (rotr 7 _ ^^^ rotr 18 _ ^^^ _) + _ + (rotr 17 _ ^^^ rotr 19 _ ^^^ _) = _
  ac_rfl

theorem schedule_words (block : Bytes) : schedule block = (range 64).map (word block) := by
  have filled (n : Nat) : (range' 16 n).foldl extend ((range 16).map fun i => loadBe32 (block.drop (i * 4))) =
      (range (16 + n)).map (word block) := by
    induction n with
    | zero =>
      apply map_congr_left
      intro i small
      rw [word, if_pos (mem_range.mp small), Nat.mul_comm]
    | succ n ih => rw [range'_1_concat, foldl_concat, ih, extend_words, Nat.add_assoc]
  exact filled 48

theorem compress_next : compress = next := by
  funext s block
  have turned (n : Nat) :
      (range n).foldl (fun s t => s.round roundConstants[t]! (word block t)) s = turns s block n := by
    induction n with
    | zero => rfl
    | succ n ih =>
      rw [range_succ, foldl_concat, ih]
      rfl
  have constants : roundConstants = (range 64).map (roundConstants[·]!) := rfl
  rw [compress, schedule_words, constants, zip_map', foldl_map]
  simp only [turned, next, UInt32.add_comm]

end Fips

/-- FIPS 180-4, 5.1.1: a one bit, zeros up to eight bytes before the end of a block, and the length in bits. -/
def padding (length : Nat) : Bytes :=
  0x80 :: replicate ((119 - length % 64) % 64) 0 ++
    (storeBe32 (.ofNat (8 * length / 2 ^ 32)) ++ storeBe32 (.ofNat (8 * length)))

/-- The digest of a whole message, as FIPS 180-4 defines it. -/
def digest (message : Bytes) : Bytes :=
  (absorb Fips.next blockSize {} (message ++ padding message.length)).1.bytes

/-- The hasher has been given the message. -/
def Sha256.Holds (hasher : Sha256) (message : Bytes) : Prop :=
  absorb compress blockSize {} message = (hasher.state, hasher.buffer) ∧ hasher.length = .ofNat message.length

theorem bitLength_words {length : Nat} (short : length < 2 ^ 61) :
    ((UInt64.ofNat length * 8) >>> 32).toUInt32 = UInt32.ofNat (8 * length / 2 ^ 32) ∧
      (UInt64.ofNat length * 8 &&& 0xFFFFFFFF).toUInt32 = UInt32.ofNat (8 * length) := by
  have word (n : Nat) : n &&& 4294967295 = n % 4294967296 := Nat.and_two_pow_sub_one_eq_mod n 32
  constructor
  · apply UInt32.toNat_inj.mp
    simp [Nat.shiftRight_eq_div_pow]
    omega
  · apply UInt32.toNat_inj.mp
    simp [word]
    omega

namespace Sha256.Holds

variable {hasher : Sha256} {message : Bytes} (holds : hasher.Holds message)
include holds

theorem length_buffer : hasher.buffer.length = message.length % blockSize := by
  have rest := length_absorb compress blockSize {} message (by decide)
  rw [holds.1] at rest
  exact rest

theorem update (data : Bytes) : (hasher.update data).Holds (message ++ data) := by
  have short : hasher.buffer.length < blockSize := holds.length_buffer ▸ Nat.mod_lt _ (by decide)
  have length : hasher.length + UInt64.ofNat data.length = .ofNat (message ++ data).length := by
    rw [holds.2, length_append, UInt64.ofNat_add]
  unfold Holds
  rw [absorb_append, holds.1]
  dsimp only [Sha256.update]
  generalize is : min (blockSize - hasher.buffer.length) data.length = wanted
  split
  · split
    · rename_i unfilled
      rw [length_append, length_take] at unfilled
      rw [take_of_length_le (by omega), absorb_short]
      · exact ⟨rfl, length⟩
      · rw [length_append]
        omega
    · rename_i filled
      have whole : (hasher.buffer ++ data.take wanted).length = blockSize := by
        rw [length_append, length_take] at filled ⊢
        omega
      refine ⟨?_, length⟩
      nth_rewrite 1 [← take_append_drop wanted data]
      rw [← append_assoc, absorb_block _ _ _ whole (by decide)]
      rfl
  · rename_i empty
    rw [ne_eq, not_not, length_eq_zero_iff] at empty
    refine ⟨?_, length⟩
    rw [empty]
    rfl

theorem finish (short : message.length < 2 ^ 61) : hasher.finish = digest message := by
  have rest := holds.length_buffer
  obtain ⟨high, low⟩ := bitLength_words short
  rw [← holds.2] at high low
  rw [digest, ← Fips.compress_next, padding, ← high, ← low, absorb_append, holds.1]
  dsimp only [Sha256.finish]
  generalize is : storeBe32 ((hasher.length * 8) >>> 32).toUInt32 = first
  generalize was : storeBe32 (hasher.length * 8 &&& 0xFFFFFFFF).toUInt32 = second
  have four : first.length = 4 ∧ second.length = 4 := ⟨is ▸ rfl, was ▸ rfl⟩
  simp only [length_append, length_singleton, blockSize] at rest ⊢
  split
  · -- The length does not fit behind the marker, and goes into a block of its own.
    have zeros : (119 - message.length % 64) % 64 = 64 - (hasher.buffer.length + 1) + 56 := by omega
    have parts : hasher.buffer ++ (0x80 :: replicate ((119 - message.length % 64) % 64) 0 ++ (first ++ second)) =
        hasher.buffer ++ [0x80] ++ replicate (64 - (hasher.buffer.length + 1)) 0 ++
          (replicate 56 0 ++ first ++ second) := by
      rw [zeros, replicate_add]
      simp
    rw [parts, absorb_block _ _ _ (by simp; omega) (by decide), absorb_whole _ _ _ (by simp [four]) (by decide)]
    rfl
  · have zeros : (119 - message.length % 64) % 64 = 56 - (hasher.buffer.length + 1) := by omega
    have parts : hasher.buffer ++ (0x80 :: replicate ((119 - message.length % 64) % 64) 0 ++ (first ++ second)) =
        hasher.buffer ++ [0x80] ++ replicate (56 - (hasher.buffer.length + 1)) 0 ++ first ++ second := by
      rw [zeros]
      simp
    rw [parts, absorb_whole _ _ _ (by simp [four]; omega) (by decide)]
    simp

end Sha256.Holds

/-- The reads return what the source holds. -/
def Reads (content : Bytes) (read : Nat → Nat → Result Bytes) : Prop :=
  ∀ offset length, offset + length ≤ content.length → read offset length = .ok ((content.drop offset).take length)

end Smply.Image
