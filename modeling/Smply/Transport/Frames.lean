import Smply.Transport.Framing

namespace Smply.Transport

theorem encodeFrom_unpadded (raw : Bytes) (whole : raw.length % 3 = 0) : padding ∉ encodeFrom raw := by
  induction raw using encodeFrom.induct with
  | case1 => exact List.not_mem_nil
  | case2 => simp at whole
  | case3 => simp at whole
  | case4 b0 b1 b2 rest ih =>
    have later : rest.length % 3 = 0 := by
      simp only [List.length_cons] at whole
      omega
    have three : rest.length + 3 > 1 ∧ rest.length + 3 > 2 := by omega
    have plain (number : Nat) : padding ≠ symbol (number &&& 0x3F) := by
      rw [sixBits]
      exact (symbol_ne_padding (Nat.mod_lt _ (by decide))).symm
    rw [encodeFrom, encodeTriple, if_pos three.1, if_pos three.2]
    simp [plain, ih later]

/-- A line that carries `raw`: a marker, whole quartets of base64 and a newline. -/
structure Line (first last : Bool) (raw line : Bytes) : Prop where
  short : line.length ≤ maxFrame
  body : ∃ body, line = markerOf first ++ body ++ [newline] ∧ body.length % 4 = 0 ∧ (last = false → padding ∉ body) ∧
    base64Decode body maxRawPerFrame = some raw

/-- Lines that carry a body together, with `check` whole at the end of the last. -/
inductive Lines (check : Bytes) : Bool → List Bytes → Bytes → Prop
  | last {first : Bool} {front line : Bytes} (ends : Line first true (front ++ check) line) :
      Lines check first [line] (front ++ check)
  | cons {first : Bool} {raw line body : Bytes} {lines : List Bytes} (goes : Line first false raw line)
      (rest : Lines check false lines body) : Lines check first (line :: lines) (raw ++ body)

theorem written_line {first last : Bool} {raw : Bytes} (small : raw.length ≤ maxRawPerFrame)
    (whole : last = false → raw.length % 3 = 0) : Line first last raw (written first raw) := by
  refine ⟨SerialFramer.written_length small, encodeFrom raw, rfl, ?_, fun goes => encodeFrom_unpadded raw (whole goes), ?_⟩
  · rw [encodeFrom_length, base64EncodedSize]
    omega
  · have raw93 : maxRawPerFrame = 93 := rfl
    exact base64Decode_encodeFrom (by omega)

namespace SerialFramer

def frames : List Nat → SerialFramer → List Bytes × SerialFramer
  | [], framer => ([], framer)
  | room :: rooms, framer =>
    let (frame, framer) := framer.nextFrame room
    let (later, framer) := frames rooms framer
    (frame :: later, framer)

theorem frames_length (rooms : List Nat) (framer : SerialFramer) : (framer.frames rooms).1.length = rooms.length := by
  induction rooms generalizing framer with
  | nil => rfl
  | cons room rooms ih => exact congrArg (· + 1) (ih _)

theorem frames_lines (rooms : List Nat) (framer : SerialFramer) (more : framer.offset < framer.packet.length)
    (begins : framer.first = true → framer.offset = 0)
    (calls : rooms.length = countFrom framer.packet.length framer.offset framer.first)
    (fits : ∀ room ∈ rooms, maxFrame ≤ room) :
    (framer.frames rooms).2.done = true ∧ Lines (bigEndian framer.crc) framer.first (framer.frames rooms).1
      (framer.headOf ++ framer.packet.drop framer.offset ++ bigEndian framer.crc) := by
  induction rooms generalizing framer with
  | nil =>
    rw [countFrom_more _ more] at calls
    cases calls
  | cons room rooms ih =>
    obtain ⟨raw, wrote, next⟩ := nextFrame_next framer more begins (fits room (.head _))
    rw [countFrom_more _ more, List.length_cons, Nat.add_right_cancel_iff] at calls
    simp only [frames, wrote]
    rcases next.goes with ⟨carries, ended, whole⟩ | ⟨goesOn, further, inside, whole⟩
    · have none_ : rooms = [] := by
        rw [carries] at calls
        rw [← List.length_eq_zero_iff, calls, countFrom]
        simp
      subst none_
      refine ⟨by simp [frames, done, next.packet, ended], ?_⟩
      rw [← List.append_assoc] at whole
      refine .last ?_
      rw [← whole]
      exact written_line next.small (by simp)
    · have triplets : raw.length % 3 = 0 := by
        have length := congrArg List.length whole
        simp only [List.length_append, List.length_drop] at length
        have head : framer.headOf.length = if framer.first then 2 else 0 := by
          unfold headOf
          split <;> rfl
        split at further <;> simp_all <;> omega
      have later := ih (framer.nextFrame room).2 (next.packet ▸ inside) (by simp [next.first])
        (by rw [calls, next.packet, next.first, goesOn, ← further]; rfl) fun room member => fits room (.tail _ member)
      rw [next.packet, next.crc, next.first, headOf, next.first] at later
      refine ⟨later.1, ?_⟩
      rw [← whole, List.append_assoc]
      exact .cons (written_line next.small fun _ => triplets) later.2

end SerialFramer

/-- The frames of a packet, into any buffers that are large enough. -/
theorem framer_writes_lines (packet : Bytes) (some_ : 1 ≤ packet.length) (narrow : packet.length ≤ maxSerialPacket)
    (rooms : List Nat) (fits : ∀ room ∈ rooms, maxFrame ≤ room)
    (calls : rooms.length = (SerialFramer.new packet).count) :
    ((SerialFramer.new packet).frames rooms).2.done = true ∧
      ((SerialFramer.new packet).frames rooms).1.length = (SerialFramer.new packet).count ∧
      Lines (bigEndian (crc16Xmodem 0 packet)) true ((SerialFramer.new packet).frames rooms).1
        (bigEndian (UInt16.ofNat (packet.length + 2)) ++ packet ++ bigEndian (crc16Xmodem 0 packet)) := by
  let framer : SerialFramer := { packet := packet, crc := crc16Xmodem 0 packet }
  have same : SerialFramer.new packet = framer := by rw [SerialFramer.new, if_neg (by omega)]
  rw [same] at calls ⊢
  obtain ⟨done_, lines⟩ := framer.frames_lines rooms some_ (fun _ => rfl) calls fits
  exact ⟨done_, (SerialFramer.frames_length rooms _).trans calls, lines⟩

/-- The packet fits into the first line, its checksum does not: two bytes of the packet go with it into a second one. -/
theorem framer_writes_lines_deferred : let packet : Bytes := (List.range 90).map UInt8.ofNat
    ((SerialFramer.new packet).frames [maxFrame, 200]).2.done = true ∧
      Lines (bigEndian (crc16Xmodem 0 packet)) true ((SerialFramer.new packet).frames [maxFrame, 200]).1
        (bigEndian 92 ++ packet ++ bigEndian (crc16Xmodem 0 packet)) := by
  intro packet
  have lines := framer_writes_lines packet (by decide +kernel) (by decide +kernel) [maxFrame, 200] (by decide)
    (by decide +kernel)
  exact ⟨lines.1, lines.2.2⟩

end Smply.Transport
