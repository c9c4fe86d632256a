import Smply.Core.Error

namespace Smply.Transport

open List

variable {value : Nat}

def base64EncodedSize (raw : Nat) : Nat := (raw + 2) / 3 * 4

def base64MaxDecodedSize (chars : Nat) : Nat := chars / 4 * 3

def alphabet : Bytes :=
  ['A', 'B', 'C', 'D', 'E', 'F', 'G', 'H', 'I', 'J', 'K', 'L', 'M', 'N', 'O', 'P', 'Q', 'R', 'S', 'T', 'U', 'V', 'W', 'X',
    'Y', 'Z', 'a', 'b', 'c', 'd', 'e', 'f', 'g', 'h', 'i', 'j', 'k', 'l', 'm', 'n', 'o', 'p', 'q', 'r', 's', 't', 'u',
    'v', 'w', 'x', 'y', 'z', '0', '1', '2', '3', '4', '5', '6', '7', '8', '9', '+', '/'].map fun char => char.toUInt8

def padding : UInt8 := '='.toUInt8

def symbol (value : Nat) : UInt8 := alphabet.getD value 0

def base64Value (symbol : UInt8) : Option Nat := alphabet.idxOf? symbol

def encodeTriple (left : Nat) (b0 b1 b2 : UInt8) : Bytes :=
  let triple := b0.toNat <<< 16 ||| b1.toNat <<< 8 ||| b2.toNat
  [symbol ((triple >>> 18) &&& 0x3F), symbol ((triple >>> 12) &&& 0x3F),
    if left > 1 then symbol ((triple >>> 6) &&& 0x3F) else padding, if left > 2 then symbol (triple &&& 0x3F) else padding]

def encodeFrom : Bytes → Bytes
  | [] => []
  | [b0] => encodeTriple 1 b0 0 0
  | [b0, b1] => encodeTriple 2 b0 b1 0
  | b0 :: b1 :: b2 :: rest => encodeTriple (rest.length + 3) b0 b1 b2 ++ encodeFrom rest

/-- `base64_encode` into a buffer of `room` bytes: what it writes. -/
def base64Encode (input : Bytes) (room : Nat) : Bytes :=
  if base64EncodedSize input.length = 0 ∨ room < base64EncodedSize input.length then [] else encodeFrom input

/-- The decoder's inner loop over one quartet, from symbol `j` on: the bits gathered, and how many bytes they hold. -/
def gather (finalQuartet : Bool) : Nat → Nat → Bytes → Option (Nat × Nat)
  | _, quad, [] => some (quad, 3)
  | j, quad, symbol :: rest =>
    if symbol = padding then
      if !finalQuartet ∨ j < 2 then
        none
      else if j = 2 ∧ rest.head? ≠ some padding then
        none
      else
        some (quad <<< ((4 - j) * 6), j - 1)
    else
      match base64Value symbol with
      | none => none
      | some value => gather finalQuartet (j + 1) (quad <<< 6 ||| value) rest

def spread (quad bytesHere : Nat) : Bytes :=
  (List.range bytesHere).map fun k => UInt8.ofNat ((quad >>> (16 - 8 * k)) &&& 0xFF)

def decodeFrom : Bytes → Option Bytes
  | [] => some []
  | s0 :: s1 :: s2 :: s3 :: rest => do
    let (quad, bytesHere) ← gather rest.isEmpty 0 0 [s0, s1, s2, s3]
    let later ← decodeFrom rest
    some (spread quad bytesHere ++ later)
  | _ => none

/-- `base64_decode` into a buffer of `room` bytes. -/
def base64Decode (input : Bytes) (room : Nat) : Option Bytes :=
  if input.length % 4 ≠ 0 then
    none
  else if room < base64MaxDecodedSize input.length then
    none
  else
    decodeFrom input

theorem base64Value_symbol (small : value < 64) : base64Value (symbol value) = some value := by
  revert value
  decide

theorem symbol_ne_padding (small : value < 64) : symbol value ≠ padding := by
  revert value
  decide

theorem gather_symbol (finalQuartet : Bool) (j quad : Nat) (small : value < 64) (rest : Bytes) :
    gather finalQuartet j quad (symbol value :: rest) = gather finalQuartet (j + 1) (quad * 64 + value) rest := by
  have shifted : quad <<< 6 ||| value = quad * 64 + value := by
    rw [← Nat.shiftLeft_add_eq_or_of_lt (by omega), Nat.shiftLeft_eq]
  rw [gather, if_neg (symbol_ne_padding small), base64Value_symbol small]
  simp only [shifted]

theorem triple_eq (b0 b1 b2 : UInt8) :
    b0.toNat <<< 16 ||| b1.toNat <<< 8 ||| b2.toNat = b0.toNat * 65536 + b1.toNat * 256 + b2.toNat := by
  have small1 := b1.toNat_lt
  have small2 := b2.toNat_lt
  have high : b0.toNat <<< 16 ||| b1.toNat <<< 8 = (b0.toNat * 256 + b1.toNat) <<< 8 := by
    rw [← Nat.shiftLeft_add_eq_or_of_lt (by simp only [Nat.shiftLeft_eq]; omega)]
    simp only [Nat.shiftLeft_eq]
    omega
  rw [high, ← Nat.shiftLeft_add_eq_or_of_lt (by omega), Nat.shiftLeft_eq]
  omega

theorem sixBits (number : Nat) : number &&& 0x3F = number % 64 := by
  rw [show 0x3F = 2 ^ 6 - 1 from rfl, Nat.and_two_pow_sub_one_eq_mod]

theorem eightBits (number shift : Nat) : (number >>> shift) &&& 0xFF = number / 2 ^ shift % 256 := by
  rw [Nat.shiftRight_eq_div_pow, show 0xFF = 2 ^ 8 - 1 from rfl, Nat.and_two_pow_sub_one_eq_mod]

theorem spread_three (b0 b1 b2 : UInt8) : spread (b0.toNat * 65536 + b1.toNat * 256 + b2.toNat) 3 = [b0, b1, b2] := by
  have small0 := b0.toNat_lt
  have small1 := b1.toNat_lt
  have small2 := b2.toNat_lt
  have first : (b0.toNat * 65536 + b1.toNat * 256 + b2.toNat) / 2 ^ 16 % 256 = b0.toNat := by omega
  have second : (b0.toNat * 65536 + b1.toNat * 256 + b2.toNat) / 2 ^ 8 % 256 = b1.toNat := by omega
  have third : (b0.toNat * 65536 + b1.toNat * 256 + b2.toNat) / 2 ^ 0 % 256 = b2.toNat := by omega
  simp only [spread, range_succ, range_zero, nil_append, cons_append, map_cons, map_nil,
    eightBits, Nat.mul_zero, Nat.sub_zero, Nat.mul_one, first, second, third, Nat.reduceMul, Nat.reduceSub,
    UInt8.ofNat_toNat]

theorem spread_take (b0 b1 : UInt8) :
    spread (b0.toNat * 65536) 1 = [b0] ∧ spread (b0.toNat * 65536 + b1.toNat * 256) 2 = [b0, b1] := by
  have one := spread_three b0 0 0
  have two := spread_three b0 b1 0
  simp only [spread, range_succ, range_zero, nil_append, cons_append, map_cons, map_nil,
    UInt8.toNat_zero, Nat.zero_mul, Nat.add_zero, List.cons.injEq] at one two ⊢
  exact ⟨⟨one.1, trivial⟩, two.1, two.2.1, trivial⟩

theorem gather_encodeTriple (finalQuartet : Bool) {left : Nat} (whole : 2 < left) (b0 b1 b2 : UInt8) :
    gather finalQuartet 0 0 (encodeTriple left b0 b1 b2) = some (b0.toNat * 65536 + b1.toNat * 256 + b2.toNat, 3) := by
  have small0 := b0.toNat_lt
  have small1 := b1.toNat_lt
  have small2 := b2.toNat_lt
  simp only [encodeTriple, triple_eq, sixBits, Nat.shiftRight_eq_div_pow]
  rw [if_pos (by omega), if_pos (by omega), gather_symbol _ _ _ (by omega), gather_symbol _ _ _ (by omega),
    gather_symbol _ _ _ (by omega), gather_symbol _ _ _ (by omega), gather]
  have bits : (((0 * 64 + (b0.toNat * 65536 + b1.toNat * 256 + b2.toNat) / 2 ^ 18 % 64) * 64 +
      (b0.toNat * 65536 + b1.toNat * 256 + b2.toNat) / 2 ^ 12 % 64) * 64 +
      (b0.toNat * 65536 + b1.toNat * 256 + b2.toNat) / 2 ^ 6 % 64) * 64 +
      (b0.toNat * 65536 + b1.toNat * 256 + b2.toNat) % 64 = b0.toNat * 65536 + b1.toNat * 256 + b2.toNat := by
    omega
  rw [bits]

theorem gather_one (b0 : UInt8) : gather true 0 0 (encodeTriple 1 b0 0 0) = some (b0.toNat * 65536, 1) := by
  have small0 := b0.toNat_lt
  simp only [encodeTriple, triple_eq, sixBits, Nat.shiftRight_eq_div_pow]
  rw [if_neg (by omega), if_neg (by omega), gather_symbol _ _ _ (by omega), gather_symbol _ _ _ (by omega)]
  simp only [gather, Bool.not_true, Bool.false_eq_true, false_or, head?_cons]
  simp [Nat.shiftLeft_eq]
  omega

theorem gather_two (b0 b1 : UInt8) :
    gather true 0 0 (encodeTriple 2 b0 b1 0) = some (b0.toNat * 65536 + b1.toNat * 256, 2) := by
  have small0 := b0.toNat_lt
  have small1 := b1.toNat_lt
  simp only [encodeTriple, triple_eq, sixBits, Nat.shiftRight_eq_div_pow]
  rw [if_pos (by omega), if_neg (by omega), gather_symbol _ _ _ (by omega), gather_symbol _ _ _ (by omega),
    gather_symbol _ _ _ (by omega)]
  simp [gather, Nat.shiftLeft_eq]
  omega

theorem decodeFrom_append {quartet : Bytes} (four : quartet.length = 4) (rest : Bytes) :
    decodeFrom (quartet ++ rest) = (gather rest.isEmpty 0 0 quartet).bind fun (quad, bytesHere) =>
      (decodeFrom rest).map (spread quad bytesHere ++ ·) := by
  match quartet, four with
  | [s0, s1, s2, s3], _ =>
    show decodeFrom (s0 :: s1 :: s2 :: s3 :: rest) = _
    rw [decodeFrom]
    cases gather rest.isEmpty 0 0 [s0, s1, s2, s3] with
    | none => rfl
    | some => cases decodeFrom rest <;> rfl

theorem decodeFrom_encodeFrom (raw : Bytes) : decodeFrom (encodeFrom raw) = some raw := by
  induction raw using encodeFrom.induct with
  | case1 => rfl
  | case2 b0 =>
    have decoded := @decodeFrom_append (encodeTriple 1 b0 0 0) rfl []
    rw [append_nil, isEmpty_nil, gather_one] at decoded
    rw [encodeFrom, decoded]
    simp [decodeFrom, spread_take b0 0]
  | case3 b0 b1 =>
    have decoded := @decodeFrom_append (encodeTriple 2 b0 b1 0) rfl []
    rw [append_nil, isEmpty_nil, gather_two] at decoded
    rw [encodeFrom, decoded]
    simp [decodeFrom, spread_take b0 b1]
  | case4 _ _ _ _ ih =>
    rw [encodeFrom, decodeFrom_append rfl, gather_encodeTriple _ (by omega), ih]
    simp [spread_three]

theorem encodeFrom_append {first : Bytes} (whole : first.length % 3 = 0) (second : Bytes) :
    encodeFrom (first ++ second) = encodeFrom first ++ encodeFrom second := by
  induction first using encodeFrom.induct with
  | case1 => rfl
  | case2 | case3 => simp at whole
  | case4 b0 b1 b2 rest ih =>
    have same (left : Nat) (long : 2 < left) : encodeTriple left b0 b1 b2 = encodeTriple 3 b0 b1 b2 := by
      rw [encodeTriple, encodeTriple, if_pos (by omega), if_pos long, if_pos (by omega), if_pos (by omega)]
    have later := ih (by simp only [length_cons] at whole; omega)
    simp only [cons_append, encodeFrom, later, append_assoc]
    rw [same _ (by omega), same (rest.length + 3) (by omega)]

theorem encodeFrom_length (raw : Bytes) : (encodeFrom raw).length = base64EncodedSize raw.length := by
  induction raw using encodeFrom.induct with
  | case1 => rfl
  | case2 | case3 => simp [encodeFrom, encodeTriple, base64EncodedSize]
  | case4 b0 b1 b2 rest ih =>
    have four : (encodeTriple (rest.length + 3) b0 b1 b2).length = 4 := rfl
    rw [encodeFrom, length_append, four, ih]
    simp only [base64EncodedSize, length_cons]
    omega

/-- A byte that may stand in a line: neither `'\n'` nor `'\r'`. -/
def isPlain (byte : UInt8) : Bool := byte != '\n'.toUInt8 && byte != '\r'.toUInt8

theorem encodeTriple_plain (left : Nat) (b0 b1 b2 : UInt8) :
    ∀ char ∈ encodeTriple left b0 b1 b2, isPlain char = true := by
  have plain {value : Nat} (small : value < 64) : isPlain (symbol value) = true := by
    revert value
    decide
  have bits (number : Nat) : isPlain (symbol (number &&& 0x3F)) = true := by
    rw [sixBits]
    exact plain (Nat.mod_lt _ (by decide))
  intro char member
  simp only [encodeTriple, mem_cons, not_mem_nil, or_false] at member
  rcases member with rfl | rfl | rfl | rfl
  · exact bits _
  · exact bits _
  · split
    · exact bits _
    · decide
  · split
    · exact bits _
    · decide

theorem encodeFrom_plain (raw : Bytes) : ∀ char ∈ encodeFrom raw, isPlain char = true := by
  induction raw using encodeFrom.induct with
  | case1 => exact fun _ => nofun
  | case2 b0 => exact encodeTriple_plain 1 b0 0 0
  | case3 b0 b1 => exact encodeTriple_plain 2 b0 b1 0
  | case4 b0 b1 b2 _ ih =>
    intro char member
    rcases mem_append.mp member with here | later
    · exact encodeTriple_plain _ b0 b1 b2 char here
    · exact ih char later

theorem base64Encode_group {group : Bytes} {room : Nat} (some_ : group ≠ [])
    (fits : base64EncodedSize group.length ≤ room) :
    base64Encode group room = encodeFrom group := by
  have positive := length_pos_iff.mpr some_
  have needed : base64EncodedSize group.length ≠ 0 := by
    unfold base64EncodedSize
    omega
  rw [base64Encode, if_neg (by omega)]

theorem base64Decode_encodeFrom {raw : Bytes} {room : Nat} (fits : (raw.length + 2) / 3 * 3 ≤ room) :
    base64Decode (encodeFrom raw) room = some raw := by
  have quartets : base64EncodedSize raw.length % 4 = 0 := Nat.mul_mod_left ..
  have bounded : base64MaxDecodedSize (base64EncodedSize raw.length) ≤ room := by
    simp only [base64MaxDecodedSize, base64EncodedSize]
    omega
  rw [base64Decode, encodeFrom_length, if_neg (by omega), if_neg (by omega)]
  exact decodeFrom_encodeFrom raw

/-- Whole quartets over the alphabet, the last one with up to two characters of padding, and the bytes they hold. -/
inductive Quartets : Bytes → Nat → Prop
  | nil : Quartets [] 0
  | one {s0 s1} : s0 ∈ alphabet → s1 ∈ alphabet → Quartets [s0, s1, padding, padding] 1
  | two {s0 s1 s2} : s0 ∈ alphabet → s1 ∈ alphabet → s2 ∈ alphabet → Quartets [s0, s1, s2, padding] 2
  | three {s0 s1 s2 s3 rest count} : s0 ∈ alphabet → s1 ∈ alphabet → s2 ∈ alphabet → s3 ∈ alphabet →
    Quartets rest count → Quartets (s0 :: s1 :: s2 :: s3 :: rest) (count + 3)

theorem mem_alphabet {char : UInt8} (member : char ∈ alphabet) : ∃ value < 64, char = symbol value := by
  obtain ⟨value, small, rfl⟩ := getElem_of_mem member
  exact ⟨value, small, (getElem_eq_getD 0)⟩

theorem gather_cases {finalQuartet : Bool} {j quad bits bytesHere : Nat} {symbol : UInt8} {rest : Bytes}
    (gathered : gather finalQuartet j quad (symbol :: rest) = some (bits, bytesHere)) :
    (symbol ∈ alphabet ∧ ∃ quad', gather finalQuartet (j + 1) quad' rest = some (bits, bytesHere)) ∨
    symbol = padding ∧ finalQuartet = true ∧ 2 ≤ j ∧ (j = 2 → rest.head? = some padding) ∧ bytesHere = j - 1 := by
  rw [gather] at gathered
  split at gathered
  · split at gathered
    · cases gathered
    split at gathered
    · cases gathered
    · cases gathered
      rename_i pad early alone
      exact .inr ⟨pad, Bool.eq_true_of_not_eq_false fun no => early (.inl (by rw [no]; rfl)),
        Nat.le_of_not_lt fun less => early (.inr less), fun two => by_contra fun other => alone ⟨two, other⟩, rfl⟩
  · split at gathered
    · cases gathered
    · rename_i found
      exact .inl ⟨isSome_idxOf?.mp (Option.isSome_of_eq_some found), _, gathered⟩

theorem decodeFrom_quartets {input raw : Bytes} (decoded : decodeFrom input = some raw) :
    Quartets input raw.length := by
  induction input using decodeFrom.induct generalizing raw with
  | case1 =>
    cases decoded
    exact .nil
  | case2 s0 s1 s2 s3 rest ih =>
    rw [decodeFrom] at decoded
    obtain ⟨⟨quad, bytesHere⟩, gathered, decoded⟩ := Option.bind_eq_some_iff.mp decoded
    obtain ⟨later, decodedLater, same⟩ := Option.bind_eq_some_iff.mp decoded
    cases same
    have size : (spread quad bytesHere ++ later).length = later.length + bytesHere := by simp [spread, Nat.add_comm]
    have last {bytesHere} (empty : rest.isEmpty = true) : rest = [] ∧ later.length + bytesHere = bytesHere := by
      have := isEmpty_iff.mp empty
      subst this
      cases decodedLater
      simp
    rw [size]
    obtain ⟨in0, _, gathered⟩ | ⟨_, _, late, _⟩ := gather_cases gathered
    · obtain ⟨in1, _, gathered⟩ | ⟨_, _, late, _⟩ := gather_cases gathered
      · obtain ⟨in2, _, gathered⟩ | ⟨rfl, empty, _, next, rfl⟩ := gather_cases gathered
        · obtain ⟨in3, _, gathered⟩ | ⟨rfl, empty, _, _, rfl⟩ := gather_cases gathered
          · cases gathered
            exact .three in0 in1 in2 in3 (ih decodedLater)
          · obtain ⟨rfl, sum⟩ := last empty
            rw [sum]
            exact .two in0 in1 in2
        · obtain ⟨rfl, sum⟩ := last empty
          cases next rfl
          rw [sum]
          exact .one in0 in1
      · omega
    · omega
  | case3 input none_ more =>
    rw [decodeFrom] at decoded
    · cases decoded
    · assumption
    · assumption

theorem Quartets.decoded {input : Bytes} {count : Nat} (quartets : Quartets input count) :
    ∃ raw, decodeFrom input = some raw ∧ raw.length = count := by
  induction quartets with
  | nil => exact ⟨[], rfl, rfl⟩
  | one in0 in1 =>
    obtain ⟨⟨_, small0, rfl⟩, _, small1, rfl⟩ := And.intro (mem_alphabet in0) (mem_alphabet in1)
    rw [decodeFrom, gather_symbol _ _ _ small0, gather_symbol _ _ _ small1]
    simp [gather, decodeFrom, spread]
  | two in0 in1 in2 =>
    obtain ⟨⟨_, small0, rfl⟩, ⟨_, small1, rfl⟩, _, small2, rfl⟩ :=
      And.intro (mem_alphabet in0) (And.intro (mem_alphabet in1) (mem_alphabet in2))
    rw [decodeFrom, gather_symbol _ _ _ small0, gather_symbol _ _ _ small1, gather_symbol _ _ _ small2]
    simp [gather, decodeFrom, spread]
  | three in0 in1 in2 in3 _ ih =>
    obtain ⟨⟨_, small0, rfl⟩, _, small1, rfl⟩ := And.intro (mem_alphabet in0) (mem_alphabet in1)
    obtain ⟨⟨_, small2, rfl⟩, _, small3, rfl⟩ := And.intro (mem_alphabet in2) (mem_alphabet in3)
    obtain ⟨raw, decoded, size⟩ := ih
    rw [decodeFrom, gather_symbol _ _ _ small0, gather_symbol _ _ _ small1, gather_symbol _ _ _ small2,
      gather_symbol _ _ _ small3, decoded]
    simp [gather, spread, size, Nat.add_comm]

theorem Quartets.whole {input : Bytes} {count : Nat} (quartets : Quartets input count) : input.length % 4 = 0 := by
  induction quartets with
  | nil | one | two => simp
  | three _ _ _ _ _ ih =>
    simp only [length_cons]
    omega

/-- With room enough the decoder gives back what was encoded, and it accepts the quartets of base64 and nothing else. -/
theorem base64Decode_strict {input : Bytes} {room : Nat} (enough : base64MaxDecodedSize input.length ≤ room) :
    (∀ raw space, base64EncodedSize raw.length ≤ space → input = base64Encode raw space →
      base64Decode input room = some raw) ∧
    ∀ count, (∃ raw, base64Decode input room = some raw ∧ raw.length = count) ↔ Quartets input count := by
  have unchecked : base64Decode input room = decodeFrom input := by
    rw [base64Decode, if_neg (Nat.not_lt.mpr enough)]
    refine ite_eq_right_iff.mpr fun part => (Option.eq_none_iff_forall_ne_some.mpr fun raw decoded => ?_).symm
    exact part (decodeFrom_quartets decoded).whole
  rw [unchecked]
  refine ⟨fun raw space fits is => ?_, fun count => ⟨fun ⟨raw, decoded, size⟩ => ?_, fun quartets => ?_⟩⟩
  · cases raw with
    | nil => exact is ▸ rfl
    | cons byte raw => rw [is, base64Encode_group (cons_ne_nil _ _) fits, decodeFrom_encodeFrom]
  · exact size ▸ decodeFrom_quartets decoded
  · exact quartets.decoded

theorem base64Decode_strict_two : base64Decode (base64Encode [77, 97] 4) 3 = some [77, 97] :=
  (@base64Decode_strict (base64Encode [77, 97] 4) 3 (by decide)).1 _ 4 (by decide) rfl

end Smply.Transport
