import Smply.Transport.Serial

namespace Smply.Transport

open List SerialDeframer

namespace LineSplitter

variable {line : Bytes} (splitter : LineSplitter)

theorem nextLine_append (first second : Bytes) :
    splitter.nextLine (first ++ second) =
      match splitter.nextLine first with
      | (none, _, after) => after.nextLine second
      | (some line, rest, after) => (some line, rest ++ second, after) := by
  induction first generalizing splitter with
  | nil => rfl
  | cons _ _ ih =>
    simp only [cons_append, nextLine]
    split
    · split
      · exact ih _
      split
      · exact ih _
      · exact ih _
    · split
      · exact ih _
      · rfl

section
variable (inner : ∀ value ∈ line, value ≠ newline)
include inner

theorem nextLine_fits (whole : splitter.discarding = false)
    (fits : splitter.line.length + line.length ≤ splitter.maxLine) (rest : Bytes) :
    splitter.nextLine (line ++ newline :: rest) =
      (some (if (splitter.line ++ line).getLast? = some carriageReturn then (splitter.line ++ line).dropLast
        else splitter.line ++ line), rest, { splitter with line := [] }) := by
  induction line generalizing splitter with
  | nil => simp [nextLine, whole]
  | cons value line ih =>
    rw [length_cons] at fits
    have later := ih { splitter with line := splitter.line ++ [value] } (fun other member => inner other (.tail _ member))
      whole (by simp only [length_append, length_singleton]; omega)
    rw [cons_append, nextLine, if_pos (inner value (.head _)), if_neg (by simp [whole]), if_neg (by omega), later]
    simp only [append_assoc, singleton_append]

theorem nextLine_discards (dropping : splitter.discarding = true)
    (rest : Bytes) : splitter.nextLine (line ++ newline :: rest) =
      nextLine { splitter with discarding := false, dropped := splitter.dropped + 1 } rest := by
  induction line with
  | nil => simp [nextLine, dropping]
  | cons value _ ih =>
    rw [cons_append, nextLine, if_pos (inner value (.head _)), if_pos dropping]
    exact ih fun other member => inner other (.tail _ member)

theorem nextLine_overlong (whole : splitter.discarding = false)
    (bounded : splitter.line.length ≤ splitter.maxLine) (long : splitter.maxLine < splitter.line.length + line.length)
    (rest : Bytes) : splitter.nextLine (line ++ newline :: rest) =
      nextLine { splitter with line := [], dropped := splitter.dropped + 1 } rest := by
  induction line generalizing splitter with
  | nil =>
    rw [length_nil] at long
    omega
  | cons value line ih =>
    rw [length_cons] at long
    have others (other : UInt8) (member : other ∈ line) : other ≠ newline := inner other (.tail _ member)
    rw [cons_append, nextLine, if_pos (inner value (.head _)), if_neg (by simp [whole])]
    by_cases full : splitter.line.length = splitter.maxLine
    · rw [if_pos full, nextLine_discards _ others rfl, ← whole]
    rw [if_neg full]
    exact ih { splitter with line := splitter.line ++ [value] } others whole
      (by simp only [length_append, length_singleton]; omega)
      (by simp only [length_append, length_singleton]; omega)

end

end LineSplitter

namespace SerialInbound

theorem feed_none {inbound : SerialInbound} {chunk rest : Bytes} {splitter : LineSplitter}
    (found : inbound.splitter.nextLine chunk = (none, rest, splitter)) :
    inbound.feed chunk = ([], { inbound with splitter := splitter }) := by
  rw [feed]
  split <;> simp_all

theorem feed_some {inbound : SerialInbound} {chunk rest line : Bytes} {splitter : LineSplitter}
    (found : inbound.splitter.nextLine chunk = (some line, rest, splitter)) :
    inbound.feed chunk =
      ((if (inbound.deframer.feedLine line).1 = .packet then [(inbound.deframer.feedLine line).2.packet] else []) ++
        (feed ⟨splitter, (inbound.deframer.feedLine line).2⟩ rest).1,
        (feed ⟨splitter, (inbound.deframer.feedLine line).2⟩ rest).2) := by
  rw [feed]
  split
  · rename_i other
    cases found.symm.trans other
  rename_i other
  cases found.symm.trans other
  dsimp only
  split <;> rfl

theorem feed_congr {inbound other : SerialInbound} {chunk chunk' : Bytes}
    (same : inbound.splitter.nextLine chunk = other.splitter.nextLine chunk')
    (deframer : inbound.deframer = other.deframer) :
    inbound.feed chunk = other.feed chunk' := by
  cases found : other.splitter.nextLine chunk' with
  | mk line left =>
    obtain ⟨rest, splitter⟩ := left
    cases line with
    | none => rw [feed_none found, feed_none (same.trans found), deframer]
    | some => rw [feed_some found, feed_some (same.trans found), deframer]

theorem feed_append (inbound : SerialInbound) (first second : Bytes) : inbound.feed (first ++ second) =
      ((inbound.feed first).1 ++ ((inbound.feed first).2.feed second).1, ((inbound.feed first).2.feed second).2) := by
  induction size : first.length using Nat.strongRecOn generalizing inbound first with
  | ind _ ih =>
    have joined := inbound.splitter.nextLine_append first second
    cases found : inbound.splitter.nextLine first with
    | mk line left =>
      obtain ⟨rest, splitter⟩ := left
      rw [found] at joined
      cases line with
      | none =>
        have goesOn : inbound.feed (first ++ second) = feed { inbound with splitter := splitter } second :=
          feed_congr joined rfl
        rw [feed_none found, goesOn]
        rfl
      | some line =>
        have short := LineSplitter.nextLine_shorter found
        have later := ih rest.length (size ▸ short) ⟨splitter, (inbound.deframer.feedLine line).2⟩ rest rfl
        rw [feed_some found, feed_some joined, later]
        simp only [append_assoc]

theorem feedAll_flatten (inbound : SerialInbound) (chunks : List Bytes) :
    inbound.feedAll chunks = inbound.feed chunks.flatten := by
  induction chunks generalizing inbound with
  | nil =>
    have nothing : inbound.splitter.nextLine [] = (none, [], inbound.splitter) := rfl
    rw [flatten_nil, feed_none nothing]
    rfl
  | cons _ _ ih =>
    rw [flatten_cons, feed_append]
    simp only [feedAll, ih]

section
variable {deframer : SerialDeframer} {splitter : LineSplitter} {line : Bytes}
  (inner : ∀ value ∈ line, value ≠ newline) (clean : splitter.line = []) (whole : splitter.discarding = false)
include inner clean whole

theorem feed_line (fits : line.length ≤ splitter.maxLine) (rest : Bytes) :
    (feed ⟨splitter, deframer⟩ (line ++ newline :: rest)).1 =
      (if (deframer.feedLine (if line.getLast? = some carriageReturn then line.dropLast else line)).1 = .packet
        then [(deframer.feedLine (if line.getLast? = some carriageReturn then line.dropLast else line)).2.packet] else []) ++
        (feed ⟨splitter, (deframer.feedLine (if line.getLast? = some carriageReturn then line.dropLast else line)).2⟩
          rest).1 := by
  have found := splitter.nextLine_fits inner whole (by simpa [clean] using fits) rest
  rw [clean, nil_append] at found
  rw [@feed_some ⟨splitter, deframer⟩ _ _ _ _ found]
  have same : { splitter with line := [] } = splitter := by rw [← clean]
  rw [same]

theorem feed_overlong (long : splitter.maxLine < line.length) (rest : Bytes) :
    feed ⟨splitter, deframer⟩ (line ++ newline :: rest) =
      feed ⟨{ splitter with dropped := splitter.dropped + 1 }, deframer⟩ rest := by
  have found := splitter.nextLine_overlong inner whole (by simp [clean]) (by simpa [clean] using long) rest
  rw [← clean] at found
  exact feed_congr found rfl

end

end SerialInbound

def markerOf (first : Bool) : Bytes := if first then packetMarker else fragmentMarker

def frameOf (first : Bool) (raw : Bytes) : Bytes := markerOf first ++ encodeFrom raw

section
variable (first : Bool) (raw : Bytes)

theorem frameOf_plain : ∀ value ∈ frameOf first raw, isPlain value = true := by
  intro value member
  have markers : ∀ value ∈ markerOf first, isPlain value = true := by cases first <;> decide +kernel
  rcases mem_append.mp member with marker | encoded
  · exact markers value marker
  · exact encodeFrom_plain raw value encoded

theorem frameOf_inner : ∀ value ∈ frameOf first raw, value ≠ newline := by
  rintro value member rfl
  have plain := frameOf_plain first raw newline member
  revert plain
  decide

theorem frameOf_last : (frameOf first raw).getLast? ≠ some carriageReturn := by
  intro last
  have plain := frameOf_plain first raw carriageReturn (mem_of_getLast? last)
  revert plain
  decide

theorem frameOf_take : (frameOf first raw).take markerSize = markerOf first := by
  cases first <;> rfl

theorem frameOf_drop : (frameOf first raw).drop markerSize = encodeFrom raw := by
  cases first <;> rfl

theorem frameOf_length : (frameOf first raw).length = markerSize + base64EncodedSize raw.length := by
  rw [frameOf, length_append, encodeFrom_length]
  cases first <;> rfl

end

namespace SerialDeframer
variable {deframer : SerialDeframer}

theorem refresh_midway (midway : deframer.ready = 0) : deframer.refresh = deframer := by
  rw [refresh, if_neg (by simp [midway])]

theorem refresh_ready : deframer.refresh.ready = 0 ∧ deframer.refresh.maxPacket = deframer.maxPacket := by
  unfold refresh
  by_cases given : deframer.ready = 0
  · rw [if_neg (by simp [given])]
    exact ⟨given, rfl⟩
  · rw [if_pos given]
    exact ⟨rfl, rfl⟩

theorem feedLine_console (start : line.take markerSize ≠ packetMarker)
    (fragment : line.take markerSize ≠ fragmentMarker) : deframer.feedLine line = deframer.refresh.ignore := by
  rw [feedLine, if_neg start, if_neg fragment]
  split <;> rfl

theorem decodeIntoBuffer_encoded {raw : Bytes} (small : raw.length ≤ maxRawPerFrame)
    (fits : deframer.declared ≠ 0 → deframer.buffer.length + raw.length ≤ deframer.declared) :
    ∃ peak, deframer.decodeIntoBuffer (encodeFrom raw) =
      some { deframer with buffer := deframer.buffer ++ raw, peak := peak } := by
  have bound : maxRawPerFrame = 93 := rfl
  have decoded : base64Decode (encodeFrom raw) maxRawPerFrame = some raw := base64Decode_encodeFrom (by omega)
  have short : ¬ (encodeFrom raw).length > maxBase64PerFrame := by
    rw [encodeFrom_length, base64EncodedSize, show maxBase64PerFrame = 124 from rfl]
    omega
  rw [decodeIntoBuffer, if_neg short, decoded]
  dsimp only
  rw [if_neg (by rintro ⟨some_, over_⟩; have := fits some_; omega)]
  exact ⟨_, rfl⟩

theorem frameOf_not_short (first : Bool) (raw : Bytes) : ¬ (frameOf first raw).length < markerSize := by
  rw [frameOf_length]
  omega

theorem feedLine_fragment {raw : Bytes} (small : raw.length ≤ maxRawPerFrame) (midway : deframer.ready = 0)
    (some_ : deframer.buffer ≠ []) (fits : deframer.buffer.length + raw.length ≤ deframer.declared) :
    ∃ peak, deframer.feedLine (frameOf false raw) =
      conclude { deframer with buffer := deframer.buffer ++ raw, peak := peak } := by
  obtain ⟨peak, decoded⟩ := @decodeIntoBuffer_encoded deframer raw small fun _ => fits
  refine ⟨peak, ?_⟩
  have marker : markerOf false = fragmentMarker := rfl
  have other : fragmentMarker ≠ packetMarker := by decide
  rw [feedLine, refresh_midway midway, if_neg (frameOf_not_short false raw), frameOf_take, frameOf_drop, marker,
    if_neg other, if_pos rfl, if_neg (by simp [some_]), takeFrame, decoded]
  rfl

theorem bigEndian_declares {size : Nat} (narrow : size < 2 ^ 16) :
    ∃ high low, bigEndian (UInt16.ofNat size) = [high, low] ∧ high.toNat <<< 8 ||| low.toNat = size := by
  refine ⟨_, _, rfl, ?_⟩
  have same : (UInt16.ofNat size).toNat = size := by
    rw [UInt16.toNat_ofNat']
    omega
  have high : (((UInt16.ofNat size) >>> 8) &&& 0xFF).toUInt8.toNat = size / 256 := by
    rw [UInt16.toNat_toUInt8, UInt16.toNat_and, UInt16.toNat_shiftRight, same]
    show (size >>> 8 &&& 0xFF) % 256 = size / 256
    rw [eightBits]
    omega
  have low : ((UInt16.ofNat size) &&& 0xFF).toUInt8.toNat = size % 256 := by
    rw [UInt16.toNat_toUInt8, UInt16.toNat_and, same]
    show (size >>> 0 &&& 0xFF) % 256 = size % 256
    rw [eightBits]
    omega
  rw [high, low, ← Nat.shiftLeft_add_eq_or_of_lt (by omega), Nat.shiftLeft_eq]
  omega

theorem feedLine_opening {got : Bytes} {size : Nat} (deframer : SerialDeframer) (some_ : 0 < size)
    (small : (bigEndian (UInt16.ofNat (size + 2)) ++ got).length ≤ maxRawPerFrame) (narrow : size ≤ maxSerialPacket)
    (room : size + 2 ≤ deframer.maxPacket) (fits : got.length ≤ size + 2) :
    ∃ peak, deframer.feedLine (frameOf true (bigEndian (UInt16.ofNat (size + 2)) ++ got)) =
      conclude { deframer.refresh with buffer := got, declared := size + 2, peak := peak } := by
  have bound : maxSerialPacket = 65533 := rfl
  obtain ⟨high, low, opening, declares⟩ := @bigEndian_declares (size + 2) (by omega)
  obtain ⟨peak, decoded⟩ := @decodeIntoBuffer_encoded { deframer.refresh with buffer := [], declared := 0 } _ small
    fun some_ => absurd rfl some_
  refine ⟨peak, ?_⟩
  have marker : markerOf true = packetMarker := rfl
  have kept := (@refresh_ready deframer).2
  rw [opening] at decoded ⊢
  rw [feedLine, if_neg (frameOf_not_short true _), frameOf_take, frameOf_drop, marker, if_pos rfl, takeFrame, decoded]
  simp only [↓reduceIte, nil_append, cons_append, takeDeclaredLength, declares]
  rw [if_neg (by omega), if_pos fits]

theorem conclude_needMore (short : deframer.buffer.length < deframer.declared) :
    deframer.conclude = (.needMore, deframer) := by
  rw [conclude, if_pos short]

theorem conclude_packet {packet : Bytes} (whole : deframer.buffer = packet ++ bigEndian (crc16Xmodem 0 packet))
    (declared : deframer.declared = packet.length + 2) :
    deframer.conclude.1 = .packet ∧ deframer.conclude.2.packet = packet ∧
      deframer.conclude.2.maxPacket = deframer.maxPacket := by
  have length : deframer.buffer.length = packet.length + 2 := by
    rw [whole, length_append]
    rfl
  have residue : crc16Xmodem 0 deframer.buffer = 0 := by rw [whole, crc16Xmodem_residue]
  have taken : deframer.buffer.take (deframer.buffer.length - 2) = packet := by
    rw [length, Nat.add_sub_cancel, whole, take_left]
  rw [conclude, if_neg (by omega), if_neg (by omega), if_neg (by simp [residue])]
  exact ⟨rfl, taken, rfl⟩

end SerialDeframer

def bodyOf (packet : Bytes) : Bytes :=
  bigEndian (UInt16.ofNat (packet.length + 2)) ++ (packet ++ bigEndian (crc16Xmodem 0 packet))

def written (first : Bool) (raw : Bytes) : Bytes := frameOf first raw ++ [newline]

structure Pieces (raws : List Bytes) (body : Bytes) : Prop where
  joined : raws.flatten = body
  small : ∀ raw ∈ raws, raw ≠ [] ∧ raw.length ≤ maxRawPerFrame

/-- The frames of a packet: one with a packet marker, which holds the length and some of the packet, then fragments. -/
inductive Carries (packet : Bytes) : List Bytes → Prop
  | frames (opening : Bytes) (raws : List Bytes) (holds : 3 ≤ opening.length)
      (pieces : Pieces (opening :: raws) (bodyOf packet)) :
      Carries packet (written true opening :: raws.map (written false))

structure Passes (maxPacket : Nat) (packet : Bytes) : Prop where
  some_ : 1 ≤ packet.length
  narrow : packet.length ≤ maxSerialPacket
  room : packet.length + 2 ≤ maxPacket

inductive Sent (maxPacket : Nat) : List Bytes → List Bytes → Prop
  | nil : Sent maxPacket [] []
  | cons {packet : Bytes} {frames later packets : List Bytes} (passes : Passes maxPacket packet)
      (carries : Carries packet frames) (others : Sent maxPacket later packets) :
      Sent maxPacket (frames ++ later) (packet :: packets)

inductive Expects (deframer : SerialDeframer) : List Bytes → List Bytes → Prop
  | fresh {frames packets : List Bytes} (sent : Sent deframer.maxPacket frames packets) : Expects deframer frames packets
  | midway {raws later packets : List Bytes} {packet : Bytes} (waiting : deframer.ready = 0)
      (some_ : deframer.buffer ≠ []) (declared : deframer.declared = packet.length + 2) (more : raws ≠ [])
      (small : ∀ raw ∈ raws, raw ≠ [] ∧ raw.length ≤ maxRawPerFrame)
      (body : deframer.buffer ++ raws.flatten = packet ++ bigEndian (crc16Xmodem 0 packet))
      (others : Sent deframer.maxPacket later packets) :
      Expects deframer (raws.map (written false) ++ later) (packet :: packets)

/-- A line of the console that is not a frame: it has no newline and does not begin with a marker. -/
def isConsole (line : Bytes) : Bool :=
  line.all (· != newline) && line.take markerSize != packetMarker && line.take markerSize != fragmentMarker

inductive Laced : List Bytes → Bytes → Prop
  | nil : Laced [] []
  | frame (frame : Bytes) {frames : List Bytes} {stream : Bytes} (rest : Laced frames stream) :
      Laced (frame :: frames) (frame ++ stream)
  | console (line : Bytes) {frames : List Bytes} {stream : Bytes} (other : isConsole line = true)
      (rest : Laced frames stream) : Laced frames (line ++ newline :: stream)

section
variable {deframer : SerialDeframer} {frames packets : List Bytes}

theorem Expects.concluded {raws later : List Bytes} {packet : Bytes} (waiting : deframer.ready = 0)
    (some_ : deframer.buffer ≠ []) (declared : deframer.declared = packet.length + 2)
    (small : ∀ raw ∈ raws, raw ≠ [] ∧ raw.length ≤ maxRawPerFrame)
    (body : deframer.buffer ++ raws.flatten = packet ++ bigEndian (crc16Xmodem 0 packet))
    (others : Sent deframer.maxPacket later packets) :
    ∃ rest, Expects deframer.conclude.2 (raws.map (written false) ++ later) rest ∧
      packet :: packets =
        (if deframer.conclude.1 = .packet then [deframer.conclude.2.packet] else []) ++ rest := by
  cases raws with
  | nil =>
    rw [flatten_nil, append_nil] at body
    obtain ⟨is, gives, kept⟩ := conclude_packet body declared
    refine ⟨packets, .fresh (kept.symm ▸ others), ?_⟩
    rw [if_pos is, gives]
    rfl
  | cons raw =>
    have length := congrArg List.length body
    have positive := length_pos_iff.mpr (small raw (.head _)).1
    have short : deframer.buffer.length < deframer.declared := by
      have two : (bigEndian (crc16Xmodem 0 packet)).length = 2 := rfl
      simp only [length_append, flatten_cons, two] at length
      omega
    refine ⟨packet :: packets, ?_, ?_⟩
    · rw [conclude_needMore short]
      exact .midway waiting some_ declared (by simp) small body others
    · rw [conclude_needMore short]
      rfl

theorem Pieces.opens {packet opening : Bytes} {raws : List Bytes} (pieces : Pieces (opening :: raws) (bodyOf packet))
    (holds : 3 ≤ opening.length) : ∃ got, got ≠ [] ∧ opening = bigEndian (UInt16.ofNat (packet.length + 2)) ++ got ∧
      got ++ raws.flatten = packet ++ bigEndian (crc16Xmodem 0 packet) := by
  have joined := pieces.joined
  rw [flatten_cons, bodyOf] at joined
  have two : (bigEndian (UInt16.ofNat (packet.length + 2))).length = 2 := rfl
  rcases append_eq_append_iff.mp joined with ⟨extra, long, _⟩ | ⟨got, same, rest⟩
  · have length := congrArg List.length long
    rw [length_append] at length
    omega
  refine ⟨got, ?_, same, rest.symm⟩
  rintro rfl
  rw [same, append_nil] at holds
  omega

theorem Expects.frame {all : List Bytes} {frame : Bytes} (expects : Expects deframer all packets)
    (first : all = frame :: frames) :
    ∃ opens raw, frame = written opens raw ∧ raw.length ≤ maxRawPerFrame ∧
      ∃ rest, Expects (deframer.feedLine (frameOf opens raw)).2 frames rest ∧
        packets = (if (deframer.feedLine (frameOf opens raw)).1 = .packet
          then [(deframer.feedLine (frameOf opens raw)).2.packet] else []) ++ rest := by
  cases expects with
  | fresh sent =>
    cases sent with
    | nil => cases first
    | cons passes carries others =>
      rename_i packet own later packets
      obtain ⟨opening, raws, holds, pieces⟩ := carries
      obtain ⟨rfl, rfl⟩ := List.cons.inj first
      obtain ⟨got, some_, rfl, body⟩ := pieces.opens holds
      have small := (pieces.small _ (.head _)).2
      have fits : got.length ≤ packet.length + 2 := by
        have length := congrArg List.length body
        have two : (bigEndian (crc16Xmodem 0 packet)).length = 2 := rfl
        simp only [length_append, two] at length
        omega
      obtain ⟨peak, fed⟩ := feedLine_opening deframer passes.some_ small passes.narrow passes.room fits
      obtain ⟨ready, kept⟩ := @SerialDeframer.refresh_ready deframer
      refine ⟨true, _, rfl, small, ?_⟩
      rw [fed]
      exact Expects.concluded ready some_ rfl (fun raw member => pieces.small raw (.tail _ member)) body (kept.symm ▸ others)
  | midway waiting some_ declared more small body others =>
    rename_i raws later packets packet
    cases raws with
    | nil => exact absurd rfl more
    | cons raw =>
      obtain ⟨rfl, rfl⟩ := List.cons.inj first
      have fits : deframer.buffer.length + raw.length ≤ deframer.declared := by
        have length := congrArg List.length body
        have two : (bigEndian (crc16Xmodem 0 packet)).length = 2 := rfl
        simp only [length_append, flatten_cons, two] at length
        omega
      obtain ⟨peak, fed⟩ := feedLine_fragment (small raw (.head _)).2 waiting some_ fits
      refine ⟨false, raw, rfl, (small raw (.head _)).2, ?_⟩
      rw [fed]
      refine Expects.concluded waiting (by simp [some_]) declared (fun raw member => small raw (.tail _ member)) ?_ others
      rw [append_assoc]
      exact body

theorem Expects.console (expects : Expects deframer frames packets)
    (start : line.take markerSize ≠ packetMarker) (fragment : line.take markerSize ≠ fragmentMarker) :
    (deframer.feedLine line).1 ≠ .packet ∧ Expects (deframer.feedLine line).2 frames packets := by
  rw [feedLine_console start fragment]
  refine ⟨nofun, ?_⟩
  cases expects with
  | fresh sent => exact .fresh ((@SerialDeframer.refresh_ready deframer).2.symm ▸ sent)
  | midway waiting some_ declared more small body others =>
    rw [refresh_midway waiting]
    exact .midway waiting some_ declared more small body others

theorem Expects.over_ {all : List Bytes} (expects : Expects deframer all packets) (none_ : all = []) :
    packets = [] := by
  cases expects with
  | fresh sent =>
    cases sent with
    | nil => rfl
    | cons _ carries =>
      obtain ⟨opening, raws, _, _⟩ := carries
      cases none_
  | midway _ _ _ more =>
    have empty := (append_eq_nil_iff.mp none_).1
    exact absurd (map_eq_nil_iff.mp empty) more

theorem isConsole_stripped (other : isConsole line = true) :
    (if line.getLast? = some carriageReturn then line.dropLast else line).take markerSize ≠ packetMarker ∧
      (if line.getLast? = some carriageReturn then line.dropLast else line).take markerSize ≠ fragmentMarker := by
  simp only [isConsole, Bool.and_eq_true, bne_iff_ne] at other
  obtain ⟨⟨_, start⟩, fragment⟩ := other
  split
  · have same (marker : Bytes) (two : marker.length = markerSize) (here : line.dropLast.take markerSize = marker) :
        line.take markerSize = marker := by
      rw [dropLast_eq_take, take_take] at here
      have length := congrArg List.length here
      rw [length_take, two] at length
      rwa [show min markerSize (line.length - 1) = markerSize by omega] at here
    exact ⟨fun here => start (same _ rfl here), fun here => fragment (same _ rfl here)⟩
  · exact ⟨start, fragment⟩

theorem Laced.delivered {stream : Bytes} (laced : Laced frames stream) {splitter : LineSplitter}
    (clean : splitter.line = []) (whole : splitter.discarding = false) (bound : splitter.maxLine = maxFrame)
    (expects : Expects deframer frames packets) : (SerialInbound.feed ⟨splitter, deframer⟩ stream).1 = packets := by
  induction laced generalizing deframer packets splitter with
  | nil =>
    have nothing : splitter.nextLine [] = (none, [], splitter) := rfl
    rw [@SerialInbound.feed_none ⟨splitter, deframer⟩ _ _ _ nothing]
    exact (expects.over_ rfl).symm
  | frame frame _ ih =>
    obtain ⟨opens, raw, rfl, small, left, next, gives⟩ := expects.frame rfl
    have fits : (frameOf opens raw).length ≤ splitter.maxLine := by
      rw [frameOf_length, bound]
      simp only [markerSize, base64EncodedSize, maxFrame]
      simp only [maxRawPerFrame, maxBase64PerFrame, maxFrame, markerSize, terminatorSize] at small
      omega
    have fed := @SerialInbound.feed_line deframer splitter _ (frameOf_inner opens raw) clean whole fits
    rw [if_neg (frameOf_last opens raw)] at fed
    rw [written, append_assoc, singleton_append, fed, ih clean whole bound next, gives]
  | console line other _ ih =>
    have inner : ∀ value ∈ line, value ≠ newline := by
      simp only [isConsole, Bool.and_eq_true, all_eq_true, bne_iff_ne] at other
      exact other.1.1
    by_cases fits : line.length ≤ splitter.maxLine
    · obtain ⟨start, fragment⟩ := isConsole_stripped other
      obtain ⟨silent, next⟩ := expects.console start fragment
      rw [SerialInbound.feed_line inner clean whole fits, if_neg silent, ih clean whole bound next]
      rfl
    · rw [SerialInbound.feed_overlong inner clean whole (by omega)]
      exact ih clean whole bound expects

end

end Smply.Transport
