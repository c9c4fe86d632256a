import Smply.Transport.Delivery

namespace Smply.Transport

open List

namespace SerialFramer

variable {room : Nat} {framer : SerialFramer}

theorem encodeTriplets_whole (room triplets : Nat) (out : Bytes) (framer : SerialFramer)
    (inside : framer.offset + 3 * triplets ≤ framer.packet.length) (fits : out.length + 4 * triplets ≤ room) :
    encodeTriplets room triplets (out, framer) =
      (out ++ encodeFrom ((framer.packet.drop framer.offset).take (3 * triplets)),
        { framer with offset := framer.offset + 3 * triplets }) := by
  induction triplets generalizing out framer with
  | zero => simp [encodeTriplets, encodeFrom]
  | succ triplets ih =>
    let group := (framer.packet.drop framer.offset).take 3
    have three : group.length = 3 := by
      rw [length_take, length_drop]
      omega
    have four : (encodeFrom group).length = 4 := by
      rw [encodeFrom_length, three]
      rfl
    have encoded : base64Encode group (room - out.length) = encodeFrom group := by
      refine base64Encode_group (fun none_ => ?_) ?_
      · rw [none_] at three
        cases three
      · rw [three, base64EncodedSize]
        omega
    have later := ih (out ++ encodeFrom group) { framer with offset := framer.offset + 3 }
      (by dsimp only; omega) (by rw [length_append, four]; omega)
    have split : (framer.packet.drop framer.offset).take (3 * (triplets + 1)) =
        group ++ (framer.packet.drop (framer.offset + 3)).take (3 * triplets) := by
      rw [show 3 * (triplets + 1) = 3 + 3 * triplets by omega, take_add, drop_drop]
    rw [encodeTriplets, encoded, later, split, encodeFrom_append (by rw [three]), append_assoc]
    simp only [show framer.offset + 3 + 3 * triplets = framer.offset + 3 * (triplets + 1) by omega]

theorem drop_getD {packet : Bytes} {offset : Nat} (inside : offset < packet.length) :
    packet.drop offset = packet.getD offset 0 :: packet.drop (offset + 1) := by
  rw [drop_eq_getElem_cons inside, getD_eq_getElem _ _ inside]

theorem encodeTail_whole (framer : SerialFramer) (inside : framer.offset ≤ framer.packet.length)
    (short : framer.packet.length ≤ framer.offset + 2)
    (fits : base64EncodedSize (framer.packet.length - framer.offset + 2) ≤ room) : framer.encodeTail room =
      (encodeFrom (framer.packet.drop framer.offset ++ bigEndian framer.crc),
        { framer with offset := framer.packet.length }) := by
  have wrote {room : Nat} (group : Bytes) (fits : 4 ≤ room) (some_ : group ≠ []) (small : group.length ≤ 3) :
      base64Encode group room = encodeFrom group := by
    refine base64Encode_group some_ ?_
    simp only [base64EncodedSize]
    omega
  have ended (offset : Nat) (past : framer.packet.length ≤ offset) : framer.packet.drop offset = [] :=
    drop_eq_nil_of_le past
  unfold base64EncodedSize at fits
  rw [encodeTail]
  dsimp only
  by_cases none_ : framer.packet.length - framer.offset = 0
  · rw [if_pos none_, wrote _ (by omega) (by simp) (by simp), ended _ (by omega),
      show framer.packet.length = framer.offset by omega]
    rfl
  rw [if_neg none_, drop_getD (by omega)]
  by_cases one : framer.packet.length - framer.offset = 1
  · rw [if_pos one, wrote _ (by omega) (by simp) (by simp), ended _ (by omega),
      show framer.packet.length = framer.offset + 1 by omega]
    rfl
  rw [if_neg one, wrote _ (by omega) (by simp) (by simp), drop_getD (by omega), ended _ (by omega),
    show framer.packet.length = framer.offset + 2 by omega]
  rw [wrote _ (by rw [encodeFrom_length]; simp [base64EncodedSize]; omega) (by simp) (by simp)]
  rfl

def budgetOf (first : Bool) : Nat := if first then 90 else 93

theorem planFrame_spec (size offset : Nat) (first : Bool) (left : Nat)
    (remains : left = size - (if first then offset + 1 else offset)) :
    ((planFrame size offset first).carriesCrc = true ∧ left + 2 ≤ budgetOf first ∧
        (planFrame size offset first).triplets = left / 3) ∨
      ((planFrame size offset first).carriesCrc = false ∧ 3 * (planFrame size offset first).triplets < left ∧
        3 * (planFrame size offset first).triplets ≤ budgetOf first) := by
  have budget : (if first = true then maxRawPerFrame - 3 else maxRawPerFrame) = budgetOf first := by
    cases first <;> rfl
  have wide : 90 ≤ budgetOf first := by cases first <;> decide
  have whole : budgetOf first % 3 = 0 := by cases first <;> rfl
  simp only [planFrame, budget, ← remains]
  by_cases fits : budgetOf first ≥ left
  · rw [if_pos fits]
    by_cases tight : budgetOf first - left ≤ 1
    · rw [if_pos tight]
      right
      refine ⟨rfl, ?_⟩
      dsimp only
      split <;> omega
    · rw [if_neg tight]
      left
      refine ⟨rfl, by omega, ?_⟩
      dsimp only
      split <;> omega
  · rw [if_neg fits]
    right
    refine ⟨rfl, ?_⟩
    dsimp only
    rw [if_neg (by omega)]
    omega

def headOf (framer : SerialFramer) : Bytes :=
  if framer.first then bigEndian (UInt16.ofNat (framer.packet.length + 2)) else []

structure Next (framer : SerialFramer) (raw : Bytes) (after : SerialFramer) : Prop where
  packet : after.packet = framer.packet
  crc : after.crc = framer.crc
  first : after.first = false
  some_ : raw ≠ []
  small : raw.length ≤ maxRawPerFrame
  opens : framer.first = true → 3 ≤ raw.length
  goes : ((planFrame framer.packet.length framer.offset framer.first).carriesCrc = true ∧
      after.offset = framer.packet.length ∧
      raw = framer.headOf ++ (framer.packet.drop framer.offset ++ bigEndian framer.crc)) ∨
    ((planFrame framer.packet.length framer.offset framer.first).carriesCrc = false ∧
      after.offset = (if framer.first then framer.offset + 1 else framer.offset) +
        3 * (planFrame framer.packet.length framer.offset framer.first).triplets ∧
      after.offset < framer.packet.length ∧
      raw ++ framer.packet.drop after.offset = framer.headOf ++ framer.packet.drop framer.offset)

def startOf (framer : SerialFramer) : Nat := if framer.first then framer.offset + 1 else framer.offset

/-- What the next frame holds before them: in the opening frame the length and the first byte. -/
def leadOf (framer : SerialFramer) : Bytes :=
  if framer.first then bigEndian (UInt16.ofNat (framer.packet.length + 2)) ++ [framer.packet.getD 0 0] else []

theorem leadOf_length (framer : SerialFramer) : (leadOf framer).length + budgetOf framer.first = 93 ∧
    (leadOf framer).length % 3 = 0 := by
  unfold leadOf budgetOf
  cases framer.first <;> simp [bigEndian]

section
variable (framer : SerialFramer) (more : framer.offset < framer.packet.length)
include more

theorem leadOf_drop (begins : framer.first = true → framer.offset = 0) :
    leadOf framer ++ framer.packet.drop framer.startOf = framer.headOf ++ framer.packet.drop framer.offset := by
  unfold leadOf startOf headOf
  cases opening : framer.first with
  | false => rfl
  | true =>
    have zero := begins opening
    rw [zero] at more ⊢
    simp only [↓reduceIte]
    rw [append_assoc, drop_getD more]
    rfl

theorem nextFrame_eq (fits : maxFrame ≤ room) {plan : FramePlan}
    (planned : planFrame framer.packet.length framer.offset framer.first = plan) :
    framer.nextFrame room =
      let (out, framer') := encodeTriplets room plan.triplets
        (markerOf framer.first ++ encodeFrom (leadOf framer), { framer with offset := framer.startOf })
      let (tail, framer') := if plan.carriesCrc then framer'.encodeTail (room - out.length) else ([], framer')
      (out ++ tail ++ [newline], { framer' with first := false }) := by
  have undone : ¬ (framer.done = true ∨ room < maxFrame) := by
    simp only [done, decide_eq_true_eq]
    omega
  have bound : maxFrame = 127 := rfl
  have lead : base64Encode (bigEndian (UInt16.ofNat (framer.packet.length + 2)) ++ [framer.packet.getD 0 0])
      (room - packetMarker.length) =
      encodeFrom (bigEndian (UInt16.ofNat (framer.packet.length + 2)) ++ [framer.packet.getD 0 0]) := by
    have two : packetMarker.length = 2 := rfl
    refine base64Encode_group (by simp) ?_
    simp only [bigEndian, length_append, length_cons, length_nil, base64EncodedSize, two]
    omega
  rw [nextFrame, if_neg undone, planned]
  obtain ⟨packet, crc, offset, first⟩ := framer
  cases first with
  | false => rfl
  | true =>
    simp only [↓reduceIte, lead]
    rfl

theorem nextFrame_next (begins : framer.first = true → framer.offset = 0) (fits : maxFrame ≤ room) :
    ∃ raw, (framer.nextFrame room).1 = written framer.first raw ∧ Next framer raw (framer.nextFrame room).2 := by
  have bound : maxFrame = 127 := rfl
  have raw93 : maxRawPerFrame = 93 := rfl
  obtain ⟨leads, whole⟩ := leadOf_length framer
  have joined := leadOf_drop framer more begins
  have inside : framer.startOf ≤ framer.packet.length := by
    unfold startOf
    split <;> omega
  have marker : (markerOf framer.first).length = 2 := by cases framer.first <;> rfl
  have spec := planFrame_spec framer.packet.length framer.offset framer.first (framer.packet.length - framer.startOf) rfl
  generalize planned : planFrame framer.packet.length framer.offset framer.first = plan at spec
  obtain ⟨triplets, carries⟩ := plan
  dsimp only at spec
  have middle : 3 * triplets ≤ framer.packet.length - framer.startOf ∧ 3 * triplets ≤ budgetOf framer.first := by
    omega
  have lead : (encodeFrom (leadOf framer)).length = 4 * ((leadOf framer).length / 3) := by
    rw [encodeFrom_length, base64EncodedSize]
    omega
  have wrote := encodeTriplets_whole room triplets (markerOf framer.first ++ encodeFrom (leadOf framer))
    { framer with offset := framer.startOf } (by dsimp only; omega)
    (by rw [length_append, lead, marker]; omega)
  rw [nextFrame_eq framer more fits planned]
  dsimp only at wrote ⊢
  rw [wrote]
  generalize held : (framer.packet.drop framer.startOf).take (3 * triplets) = group
  have whole' : group.length = 3 * triplets := by
    rw [← held, length_take, length_drop]
    omega
  have rest : framer.packet.drop framer.startOf = group ++ framer.packet.drop (framer.startOf + 3 * triplets) := by
    rw [← held, ← drop_drop, take_append_drop]
  have opens (first : framer.first = true) : 3 ≤ (leadOf framer).length := by
    rw [budgetOf, if_pos first] at leads
    omega
  cases carries with
  | false =>
    obtain ⟨absurd_, _⟩ | ⟨_, leaves, _⟩ := spec
    · cases absurd_
    have positive : 0 < (leadOf framer ++ group).length := by
      rw [length_append, whole']
      cases first : framer.first with
      | true =>
        have three := opens first
        omega
      | false =>
        rw [first] at planned
        have moves := @planFrame_moves framer.packet.length framer.offset more (by rw [planned])
        rw [planned] at moves
        dsimp only at moves
        omega
    refine ⟨leadOf framer ++ group, ?_, rfl, rfl, rfl, length_pos_iff.mp positive, ?_, fun first => ?_, .inr ?_⟩
    · simp only [Bool.false_eq_true, ↓reduceIte, written, frameOf, encodeFrom_append whole, append_assoc, nil_append]
    · rw [length_append]
      omega
    · have three := opens first
      rw [length_append]
      omega
    · rw [planned]
      refine ⟨rfl, rfl, ?_, ?_⟩
      · simp only [Bool.false_eq_true, ↓reduceIte]
        omega
      · simp only [Bool.false_eq_true, ↓reduceIte]
        rw [append_assoc, ← rest, joined]
  | true =>
    obtain ⟨_, fits', last⟩ | ⟨absurd_, _⟩ := spec
    case inr => cases absurd_
    have room' : (markerOf framer.first ++ encodeFrom (leadOf framer) ++ encodeFrom group).length =
        2 + 4 * ((leadOf framer).length / 3) + 4 * triplets := by
      rw [length_append, length_append, lead, marker, encodeFrom_length, whole', base64EncodedSize]
      omega
    have tail := encodeTail_whole { framer with offset := framer.startOf + 3 * triplets }
      (by dsimp only; omega) (by dsimp only; omega)
      (show base64EncodedSize (framer.packet.length - (framer.startOf + 3 * triplets) + 2) ≤
        room - (markerOf framer.first ++ encodeFrom (leadOf framer) ++ encodeFrom group).length by
          rw [room', base64EncodedSize]
          omega)
    dsimp only at tail
    have length : (framer.packet.drop (framer.startOf + 3 * triplets) ++ bigEndian framer.crc).length =
        framer.packet.length - (framer.startOf + 3 * triplets) + 2 := by
      rw [length_append, length_drop]
      rfl
    have raw : framer.headOf ++ (framer.packet.drop framer.offset ++ bigEndian framer.crc) =
        leadOf framer ++ (group ++ (framer.packet.drop (framer.startOf + 3 * triplets) ++ bigEndian framer.crc)) := by
      rw [← append_assoc, ← joined, rest]
      simp only [append_assoc]
    have size : (framer.headOf ++ (framer.packet.drop framer.offset ++ bigEndian framer.crc)).length =
        (leadOf framer).length + (3 * triplets + (framer.packet.length - (framer.startOf + 3 * triplets) + 2)) := by
      rw [raw, length_append, length_append, length, whole']
    refine ⟨framer.headOf ++ (framer.packet.drop framer.offset ++ bigEndian framer.crc), ?_, ?_, ?_, ?_,
      length_pos_iff.mp (by omega), by omega, fun first => ?_, .inl ?_⟩
    · simp only [↓reduceIte, tail]
      have last := @encodeFrom_append group (by omega)
        (framer.packet.drop (framer.startOf + 3 * triplets) ++ bigEndian framer.crc)
      rw [raw, written, frameOf, encodeFrom_append whole, last]
      simp only [append_assoc]
    · simp only [↓reduceIte, tail]
    · simp only [↓reduceIte, tail]
    · rfl
    · have three := opens first
      omega
    · rw [planned]
      simp only [↓reduceIte, tail]
      exact ⟨trivial, trivial, trivial⟩

end

theorem written_length {first : Bool} {raw : Bytes} (small : raw.length ≤ maxRawPerFrame) :
    (written first raw).length ≤ maxFrame := by
  have bound : maxFrame = 127 := rfl
  have raw93 : maxRawPerFrame = 93 := rfl
  have two : markerSize = 2 := rfl
  rw [written, length_append, frameOf_length, length_singleton, base64EncodedSize]
  omega

theorem writeFrames_succ {turns : Nat} (more : framer.offset < framer.packet.length) :
    framer.writeFrames (turns + 1) room =
      ((framer.nextFrame room).2.writeFrames turns (room - (framer.nextFrame room).1.length)).map
        ((framer.nextFrame room).1 :: ·) := by
  have undone : ¬ framer.done = true := by simpa [done] using more
  rw [writeFrames, if_neg undone]

theorem writeFrames_done {turns : Nat} (ended : framer.packet.length ≤ framer.offset) :
    framer.writeFrames turns room = some [] := by
  have done_ : framer.done = true := by simpa [done] using ended
  cases turns <;> rw [writeFrames, if_pos done_]

theorem countFrom_more {size offset : Nat} (first : Bool) (more : offset < size) :
    countFrom size offset first = countFrom size
      (if (planFrame size offset first).carriesCrc then size
        else (if first then offset + 1 else offset) + 3 * (planFrame size offset first).triplets) false + 1 := by
  rw [countFrom, if_pos more]
  exact Nat.add_comm ..

theorem writeFrames_step (framer : SerialFramer) (more : framer.offset < framer.packet.length)
    (begins : framer.first = true → framer.offset = 0) {room : Nat}
    (fits : countFrom framer.packet.length framer.offset framer.first * maxFrame ≤ room) :
    ∃ raw after left, Next framer raw after ∧ countFrom framer.packet.length after.offset false * maxFrame ≤ left ∧
      framer.writeFrames (countFrom framer.packet.length framer.offset framer.first) room =
        (after.writeFrames (countFrom framer.packet.length after.offset false) left).map (written framer.first raw :: ·) := by
  have one := countFrom_more framer.first more
  rw [one, Nat.add_mul, Nat.one_mul] at fits
  obtain ⟨raw, wrote, next⟩ := nextFrame_next framer more begins (by omega : maxFrame ≤ room)
  have length := @written_length framer.first raw next.small
  have goes : (if (planFrame framer.packet.length framer.offset framer.first).carriesCrc then framer.packet.length
      else (if framer.first then framer.offset + 1 else framer.offset) +
        3 * (planFrame framer.packet.length framer.offset framer.first).triplets) =
      (framer.nextFrame room).2.offset := by
    rcases next.goes with ⟨carries, last, _⟩ | ⟨goesOn, further, _⟩
    · rw [carries, last]
      rfl
    · rw [goesOn, further]
      rfl
  rw [goes] at one fits
  refine ⟨raw, (framer.nextFrame room).2, room - (framer.nextFrame room).1.length, next, ?_, ?_⟩
  · rw [wrote]
    omega
  · rw [one, writeFrames_succ more, wrote]

theorem writeFrames_fragments (framer : SerialFramer) (later : framer.first = false)
    (more : framer.offset < framer.packet.length)
    (fits : countFrom framer.packet.length framer.offset false * maxFrame ≤ room) :
    ∃ raws, framer.writeFrames (countFrom framer.packet.length framer.offset false) room =
        some (raws.map (written false)) ∧
      Pieces raws (framer.packet.drop framer.offset ++ bigEndian framer.crc) := by
  induction size : framer.packet.length - framer.offset using Nat.strongRecOn generalizing framer room with
  | ind _ ih =>
    obtain ⟨raw, after, left, next, fits', turn⟩ := @writeFrames_step framer more (by simp [later]) room (later ▸ fits)
    rw [later] at turn
    have headless : framer.headOf = [] := by simp [headOf, later]
    rcases next.goes with ⟨_, last, whole⟩ | ⟨_, further, inside, whole⟩
    · refine ⟨[raw], ?_, ?_, ?_⟩
      · rw [turn, writeFrames_done (by rw [next.packet, last])]
        rfl
      · rw [flatten_singleton, whole, headless]
        rfl
      · intro other member
        obtain rfl := mem_singleton.mp member
        exact ⟨next.some_, next.small⟩
    · have positive := length_pos_iff.mpr next.some_
      rw [headless, nil_append] at whole
      have length := congrArg List.length whole
      rw [length_append, length_drop, length_drop] at length
      obtain ⟨raws, wrote, pieces⟩ := ih (framer.packet.length - after.offset) (by omega) after next.first
        (next.packet.symm ▸ inside) (next.packet.symm ▸ fits') (by rw [next.packet])
      rw [next.packet] at wrote
      rw [next.packet, next.crc] at pieces
      refine ⟨raw :: raws, ?_, ?_, ?_⟩
      · rw [turn, wrote]
        rfl
      · rw [flatten_cons, pieces.joined, ← append_assoc, whole]
      · intro other member
        rcases mem_cons.mp member with rfl | member
        · exact ⟨next.some_, next.small⟩
        · exact pieces.small other member

end SerialFramer

theorem messageFrames_carries {packet : Bytes} (some_ : 1 ≤ packet.length) (narrow : packet.length ≤ maxSerialPacket) :
    ∃ frames, messageFrames packet = some frames ∧ Carries packet frames := by
  let framer : SerialFramer := { packet := packet, crc := crc16Xmodem 0 packet }
  have same : SerialFramer.new packet = framer := by rw [SerialFramer.new, if_neg (by omega)]
  obtain ⟨raw, after, left, next, fits, turn⟩ :=
    @SerialFramer.writeFrames_step framer some_ (fun _ => rfl) (framer.count * maxFrame) (Nat.le_refl _)
  have begun : messageFrames packet =
      (after.writeFrames (SerialFramer.countFrom packet.length after.offset false) left).map (written true raw :: ·) := by
    rw [messageFrames, same]
    exact turn
  have own := next.packet
  have sum := next.crc
  rcases next.goes with ⟨_, last, whole⟩ | ⟨_, _, inside, whole⟩
  · refine ⟨[written true raw], ?_, .frames raw [] (next.opens rfl) ⟨?_, ?_⟩⟩
    · rw [begun, SerialFramer.writeFrames_done (by rw [next.packet, last])]
      rfl
    · rw [flatten_singleton, whole]
      rfl
    · intro other member
      obtain rfl := mem_singleton.mp member
      exact ⟨next.some_, next.small⟩
  · obtain ⟨raws, wrote, pieces⟩ := after.writeFrames_fragments next.first (own.symm ▸ inside)
      (next.packet.symm ▸ fits)
    rw [own] at wrote
    rw [own, sum] at pieces
    refine ⟨written true raw :: raws.map (written false), ?_, .frames raw raws (next.opens rfl) ⟨?_, ?_⟩⟩
    · rw [begun, wrote]
      rfl
    · have joined : raw ++ packet.drop after.offset = bigEndian (UInt16.ofNat (packet.length + 2)) ++ packet := whole
      rw [flatten_cons, pieces.joined, ← append_assoc, joined, bodyOf, append_assoc]
    · intro other member
      rcases mem_cons.mp member with rfl | member
      · exact ⟨next.some_, next.small⟩
      · exact pieces.small other member

theorem frames_sent {maxPacket : Nat} {packets : List Bytes} (passes : ∀ packet ∈ packets, Passes maxPacket packet) :
    ∃ frames : List (List Bytes), packets.map messageFrames = frames.map some ∧ Sent maxPacket frames.flatten packets := by
  induction packets with
  | nil => exact ⟨[], rfl, .nil⟩
  | cons packet _ ih =>
    obtain ⟨later, wrote, sent⟩ := ih fun other member => passes other (.tail _ member)
    have fits := passes packet (.head _)
    obtain ⟨frames, own, carries⟩ := messageFrames_carries fits.some_ fits.narrow
    refine ⟨frames :: later, ?_, .cons fits carries sent⟩
    rw [map_cons, own, wrote, map_cons]

/-- Packets written by `frame_message`, with lines of the console before any frame, and read in any pieces, are given
out in order. -/
theorem inbound_delivers_packets (maxPacket : Nat) (packets : List Bytes)
    (passes : ∀ packet ∈ packets, Passes maxPacket packet) :
    ∃ frames : List (List Bytes), packets.map messageFrames = frames.map some ∧
      packets.map frameMessage = frames.map (fun written => some written.flatten) ∧
      ∀ stream, Laced frames.flatten stream → ∀ chunks : List Bytes, chunks.flatten = stream →
        ((SerialInbound.new maxPacket).feedAll chunks).1 = packets := by
  obtain ⟨frames, wrote, sent⟩ := frames_sent passes
  refine ⟨frames, wrote, ?_, fun stream laced chunks cut => ?_⟩
  · have joined := congrArg (map (Option.map flatten)) wrote
    rw [map_map, map_map] at joined
    exact joined
  · rw [SerialInbound.feedAll_flatten, cut]
    exact laced.delivered rfl rfl rfl (.fresh sent)

theorem Laced.plain (frames : List Bytes) : Laced frames frames.flatten := by
  induction frames with
  | nil => exact .nil
  | cons frame _ ih => exact .frame frame ih

theorem inbound_delivers_two : ∃ frames : List (List Bytes),
    [[1], List.replicate 200 2].map frameMessage = frames.map (fun written => some written.flatten) ∧
      ((SerialInbound.new 16384).feedAll [[0x4C, 0x4F, 0x47, newline] ++ frames.flatten.flatten]).1 =
        [[1], List.replicate 200 2] := by
  have passes : ∀ packet ∈ [[1], replicate 200 2], Passes 16384 packet := by
    intro packet member
    rcases mem_cons.mp member with rfl | member
    · exact ⟨by decide, by decide, by decide⟩
    obtain rfl := mem_singleton.mp member
    have length : (replicate 200 (2 : UInt8)).length = 200 := length_replicate
    have bound : maxSerialPacket = 65533 := rfl
    exact ⟨by omega, by omega, by omega⟩
  obtain ⟨frames, _, joined, delivers⟩ := inbound_delivers_packets 16384 _ passes
  refine ⟨frames, joined, delivers _ ?_ _ (flatten_singleton)⟩
  exact .console [0x4C, 0x4F, 0x47] (by decide) (.plain frames.flatten)

end Smply.Transport
