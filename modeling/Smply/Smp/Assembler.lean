import Smply.Systems.Stream
import Smply.Smp.Header

namespace Smply.Smp

open Systems List

structure AssemblerLimits where
  maxPayload : UInt16 := 8192
  maxBuffer : Nat := 16 * 1024
  deriving DecidableEq, Repr

structure MessageAssembler where
  limits : AssemblerLimits := {}
  buffer : Bytes := []
  peakBuffered : Nat := 0
  feeding : Bool := false
  deriving DecidableEq, Repr

namespace MessageAssembler

variable {assembler : MessageAssembler} {header : Header} {message : Header × Bytes} {rest : Bytes}

section
variable (assembler) (input : Bytes)

def reset : MessageAssembler := { assembler with buffer := [] }

def messageSize (limits : AssemblerLimits) (header : Header) : Result Nat :=
  if header.length > limits.maxPayload then
    .error (.at .messageTooLarge "assembler: payload exceeds limit")
  else if header.totalSize > limits.maxBuffer then
    .error (.at .messageTooLarge "assembler: message exceeds buffer limit")
  else
    .ok header.totalSize

def stash (bytes : Bytes) : MessageAssembler :=
  { assembler with
    buffer := assembler.buffer ++ bytes
    peakBuffered := max assembler.peakBuffered (assembler.buffer ++ bytes).length }

/-- One pass of the loop in `feed`: it returns, or hands the sink a message and goes round again. -/
inductive Turn where
  | returned (result : Result Unit) (assembler : MessageAssembler)
  | delivered (header : Header) (payload : Bytes) (assembler : MessageAssembler) (input : Bytes)

def fastPath : Turn :=
  if input.length < headerSize then
    .returned (.ok ()) (assembler.stash input)
  else
    match decodeHeader input with
    | .error error => .returned (.error error) assembler.reset
    | .ok header =>
      match messageSize assembler.limits header with
      | .error error => .returned (.error error) assembler.reset
      | .ok total =>
        if input.length < total then
          .returned (.ok ()) (assembler.stash input)
        else
          .delivered header ((input.drop headerSize).take header.length.toNat) assembler (input.drop total)

def topUp (size : Nat) : MessageAssembler × Bytes :=
  if assembler.buffer.length < size then
    let wanted := size - assembler.buffer.length
    let take := min wanted input.length
    (assembler.stash (input.take take), input.drop take)
  else
    (assembler, input)

def slowPath : Turn :=
  let (assembler, input) := assembler.topUp input headerSize
  if assembler.buffer.length < headerSize then
    .returned (.ok ()) assembler
  else
    match decodeHeader assembler.buffer with
    | .error error => .returned (.error error) assembler.reset
    | .ok header =>
      match messageSize assembler.limits header with
      | .error error => .returned (.error error) assembler.reset
      | .ok total =>
        let (assembler, input) := assembler.topUp input total
        if assembler.buffer.length < total then
          .returned (.ok ()) assembler
        else
          -- The sink runs before this clear. All it could do to the buffer is reset it, which leaves the same.
          .delivered header ((assembler.buffer.drop headerSize).take header.length.toNat)
            { assembler with buffer := [] } input

def turn : Turn :=
  if assembler.buffer.isEmpty then assembler.fastPath input else assembler.slowPath input

theorem messageSize_ok {limits : AssemblerLimits} {total : Nat}
    (size : messageSize limits header = .ok total) : total = headerSize + header.length.toNat := by
  unfold messageSize at size
  split at size
  · cases size
  split at size
  · cases size
  · exact (Except.ok.inj size).symm

variable (size : Nat)

theorem topUp_append :
    (assembler.topUp input size).1.buffer ++ (assembler.topUp input size).2 = assembler.buffer ++ input := by
  unfold topUp
  split
  · simp only [stash, append_assoc, take_append_drop]
  · rfl

theorem topUp_bound :
    (assembler.topUp input size).1.buffer.length ≤ max assembler.buffer.length size := by
  unfold topUp
  split
  · simp only [stash, length_append, length_take]
    omega
  · exact Nat.le_max_left _ _

@[simp] theorem topUp_limits :
    (assembler.topUp input size).1.limits = assembler.limits := by
  unfold topUp
  split <;> rfl

@[simp] theorem topUp_feeding :
    (assembler.topUp input size).1.feeding = assembler.feeding := by
  unfold topUp
  split <;> rfl

variable {assembler input size}

theorem topUp_short (short : (assembler.topUp input size).1.buffer.length < size) :
    (assembler.topUp input size).2 = [] := by
  unfold topUp at short ⊢
  split at short
  · rename_i partly
    rw [if_pos partly]
    simp only [stash, length_append, length_take] at short
    apply drop_eq_nil_of_le
    omega
  · contradiction

theorem topUp_enough (enough : size ≤ assembler.buffer.length) : assembler.topUp input size = (assembler, input) := by
  unfold topUp
  rw [if_neg (by omega)]

end

def front (limits : AssemblerLimits) (stream : Bytes) : Front UInt8 (Header × Bytes) Error :=
  if stream.length < headerSize then
    .unfinished
  else
    match decodeHeader stream with
    | .error error => .broken error
    | .ok header =>
      match messageSize limits header with
      | .error error => .broken error
      | .ok total =>
        if stream.length < total then
          .unfinished
        else
          .message (header, (stream.drop headerSize).take header.length.toNat) (stream.drop total)

theorem payload_append {spent : Bytes} (enough : headerSize + header.length.toNat ≤ spent.length) (rest : Bytes) :
    ((spent ++ rest).drop headerSize).take header.length.toNat =
      (spent.drop headerSize).take header.length.toNat := by
  rw [drop_append_of_le_length (by omega), take_append_of_le_length (by rw [length_drop]; omega)]

section
variable {limits : AssemblerLimits} {stream : Bytes} {header : Header} {error : Error} {total : Nat}

theorem front_short (short : stream.length < headerSize) : front limits stream = .unfinished := by
  rw [front, if_pos short]

section
variable (long : headerSize ≤ stream.length)
include long

theorem front_undecoded (decoded : decodeHeader stream = .error error) : front limits stream = .broken error := by
  rw [front, if_neg (by omega), decoded]

theorem front_oversize (decoded : decodeHeader stream = .ok header)
    (size : messageSize limits header = .error error) : front limits stream = .broken error := by
  rw [front, if_neg (by omega), decoded]
  simp only [size]

theorem front_waiting (decoded : decodeHeader stream = .ok header)
    (size : messageSize limits header = .ok total) (short : stream.length < total) :
    front limits stream = .unfinished := by
  rw [front, if_neg (by omega), decoded]
  simp only [size, if_pos short]

end

theorem front_whole (decoded : decodeHeader stream = .ok header) (size : messageSize limits header = .ok total)
    (enough : total ≤ stream.length) : front limits stream =
      .message (header, (stream.drop headerSize).take header.length.toNat) (stream.drop total) := by
  have positive := messageSize_ok size
  rw [front, if_neg (by omega), decoded]
  simp only [size, if_neg (show ¬ stream.length < total by omega)]

section
variable (found : front limits stream = .message message rest)
include found

theorem front_message : ∃ total, decodeHeader stream = .ok message.1 ∧ messageSize limits message.1 = .ok total ∧
      total ≤ stream.length ∧ message.2 = (stream.drop headerSize).take message.1.length.toNat ∧
      rest = stream.drop total := by
  unfold front at found
  split at found
  · cases found
  split at found
  · cases found
  rename_i header decoded
  split at found
  · cases found
  rename_i total size
  split at found
  · cases found
  rename_i enough
  cases found
  exact ⟨total, decoded, size, by omega, rfl, rfl⟩

omit found in
theorem front_broken_append (found : front limits stream = .broken error) (later : Bytes) :
    front limits (stream ++ later) = .broken error := by
  unfold front at found
  split at found
  · cases found
  rename_i long
  have long : headerSize ≤ stream.length := by omega
  have longer : headerSize ≤ (stream ++ later).length := by
    rw [length_append]
    omega
  split at found
  · rename_i refusal decoded
    cases found
    exact front_undecoded longer ((decodeHeader_append long later).trans decoded)
  rename_i header decoded
  split at found
  · rename_i refusal size
    cases found
    exact front_oversize longer ((decodeHeader_append long later).trans decoded) size
  · split at found <;> cases found

theorem front_message_append (later : Bytes) : front limits (stream ++ later) = .message message (rest ++ later) := by
  obtain ⟨header, payload⟩ := message
  obtain ⟨total, decoded, size, enough, payload_eq, rest_eq⟩ := front_message found
  simp only at decoded size payload_eq
  have positive := messageSize_ok size
  have decoded' := (decodeHeader_append (by omega) later).trans decoded
  have again := front_whole decoded' size (by rw [length_append]; omega)
  rw [payload_append (by omega), ← payload_eq, drop_append_of_le_length enough, ← rest_eq] at again
  exact again

theorem front_message_shorter : rest.length < stream.length := by
  obtain ⟨total, decoded, size, enough, payload_eq, rest_eq⟩ := front_message found
  have positive := messageSize_ok size
  rw [rest_eq, length_drop]
  simp only [headerSize] at positive
  omega

end

end

/-- One pass over what is held and the input. A whole message is spent exactly, if none was held already. -/
inductive Turned (assembler : MessageAssembler) (input : Bytes) : Turn → Prop
  | unfinished (after : MessageAssembler) (limits : after.limits = assembler.limits)
      (feeding : after.feeding = assembler.feeding)
      (found : front assembler.limits (assembler.buffer ++ input) = .unfinished)
      (held : after.buffer = assembler.buffer ++ input) : Turned assembler input (.returned (.ok ()) after)
  | broken (error : Error) (after : MessageAssembler) (limits : after.limits = assembler.limits)
      (feeding : after.feeding = assembler.feeding)
      (found : front assembler.limits (assembler.buffer ++ input) = .broken error) (held : after.buffer = []) :
      Turned assembler input (.returned (.error error) after)
  | message (header : Header) (payload rest next : Bytes) (after : MessageAssembler)
      (limits : after.limits = assembler.limits) (feeding : after.feeding = assembler.feeding)
      (found : front assembler.limits (assembler.buffer ++ input) = .message (header, payload) next)
      (less : rest.length < assembler.buffer.length + input.length)
      (whole : front assembler.limits assembler.buffer = .unfinished → rest = next)
      (held : after.buffer = []) : Turned assembler input (.delivered header payload after rest)

theorem fastPath_turned (assembler : MessageAssembler) (input : Bytes) (empty : assembler.buffer = []) :
    Turned assembler input (assembler.fastPath input) := by
  have whole : assembler.buffer ++ input = input := by rw [empty, nil_append]
  unfold fastPath
  split
  · rename_i short
    exact .unfinished _ rfl rfl (by rw [whole]; exact front_short short) rfl
  rename_i long
  have long : headerSize ≤ input.length := by omega
  split
  · rename_i error decoded
    exact .broken error _ rfl rfl (by rw [whole]; exact front_undecoded long decoded) rfl
  rename_i header decoded
  split
  · rename_i error size
    exact .broken error _ rfl rfl (by rw [whole]; exact front_oversize long decoded size) rfl
  rename_i total size
  split
  · rename_i short
    exact .unfinished _ rfl rfl (by rw [whole]; exact front_waiting long decoded size short) rfl
  rename_i enough
  have positive := messageSize_ok size
  refine .message header _ _ (input.drop total) _ rfl rfl ?_ ?_ (fun _ => rfl) empty
  · rw [whole]
    exact front_whole decoded size (by omega)
  · simp only [length_drop, headerSize] at positive ⊢
    omega

theorem payload_turned {topped : MessageAssembler} {input left : Bytes} {total : Nat}
    (limits : topped.limits = assembler.limits) (feeding : topped.feeding = assembler.feeding)
    (parts : topped.buffer ++ left = assembler.buffer ++ input) (full : headerSize ≤ topped.buffer.length)
    (decoded : decodeHeader topped.buffer = .ok header) (size : messageSize assembler.limits header = .ok total)
    (within : front assembler.limits assembler.buffer = .unfinished → topped.buffer.length ≤ total) :
    Turned assembler input
      (if (topped.topUp left total).1.buffer.length < total then
        .returned (.ok ()) (topped.topUp left total).1
      else
        .delivered header (((topped.topUp left total).1.buffer.drop headerSize).take header.length.toNat)
          { (topped.topUp left total).1 with buffer := [] } (topped.topUp left total).2) := by
  have sum := (topUp_append topped left total).trans parts
  have short := @topUp_short topped left total
  have bound := topUp_bound topped left total
  have limits' := (topUp_limits topped left total).trans limits
  have feeding' := (topUp_feeding topped left total).trans feeding
  have positive := messageSize_ok size
  have lengths := congrArg List.length sum
  have header_eq : decodeHeader (assembler.buffer ++ input) = .ok header := by
    rw [← parts, decodeHeader_append full, decoded]
  have long : headerSize ≤ (assembler.buffer ++ input).length := by
    rw [← parts, length_append]
    omega
  generalize topped.topUp left total = last at *
  obtain ⟨last, rest⟩ := last
  simp only [length_append] at sum short bound limits' feeding' lengths ⊢
  split
  · rename_i partly
    have all : last.buffer = assembler.buffer ++ input := by rw [← sum, short partly, append_nil]
    exact .unfinished last limits' feeding' (front_waiting long header_eq size (by rw [← all]; exact partly)) all
  rename_i enough
  have found := front_whole header_eq size (by rw [← sum, length_append]; omega)
  rw [← sum, payload_append (by omega), sum] at found
  refine .message header _ rest _ _ limits' feeding' found ?_ ?_ rfl
  · simp only [headerSize] at positive
    omega
  intro unfinished
  have exactly : last.buffer.length = total := by
    have := within unfinished
    omega
  rw [← sum, ← exactly, drop_left]

theorem slowPath_turned (assembler : MessageAssembler) (input : Bytes) :
    Turned assembler input (assembler.slowPath input) := by
  have parts := topUp_append assembler input headerSize
  have short := @topUp_short assembler input headerSize
  have bound := topUp_bound assembler input headerSize
  have limits := topUp_limits assembler input headerSize
  have feeding := topUp_feeding assembler input headerSize
  have same : headerSize ≤ assembler.buffer.length → assembler.topUp input headerSize = (assembler, input) :=
    topUp_enough
  unfold slowPath
  generalize assembler.topUp input headerSize = topped at *
  obtain ⟨topped, left⟩ := topped
  simp only at parts short bound limits feeding ⊢
  split
  · rename_i partly
    have all : topped.buffer = assembler.buffer ++ input := by rw [← parts, short partly, append_nil]
    exact .unfinished topped limits feeding (front_short (by rw [← all]; exact partly)) all
  rename_i full
  have full : headerSize ≤ topped.buffer.length := by omega
  have long : headerSize ≤ (assembler.buffer ++ input).length := by
    rw [← parts, length_append]
    omega
  have header_eq : decodeHeader (assembler.buffer ++ input) = decodeHeader topped.buffer := by
    rw [← parts, decodeHeader_append full]
  split
  · rename_i error decoded
    exact .broken error _ limits feeding (front_undecoded long (header_eq.trans decoded)) rfl
  rename_i header decoded
  rw [limits]
  split
  · rename_i error size
    exact .broken error _ limits feeding (front_oversize long (header_eq.trans decoded) size) rfl
  rename_i total size
  refine payload_turned limits feeding parts full decoded size fun unfinished => ?_
  by_cases header_held : headerSize ≤ assembler.buffer.length
  · obtain ⟨rfl, rfl⟩ := Prod.mk.inj (same header_held)
    by_contra beyond
    rw [front_whole decoded size (by omega)] at unfinished
    cases unfinished
  · have positive := messageSize_ok size
    omega

theorem turn_turned (assembler : MessageAssembler) (input : Bytes) :
    Turned assembler input (assembler.turn input) := by
  unfold turn
  split
  · rename_i empty
    exact fastPath_turned assembler input (List.isEmpty_iff.mp empty)
  · exact slowPath_turned assembler input

theorem turn_shorter {after : MessageAssembler} {input rest payload : Bytes}
    (delivered : assembler.turn input = .delivered header payload after rest) :
    after.buffer.length + rest.length < assembler.buffer.length + input.length := by
  have turned := turn_turned assembler input
  rw [delivered] at turned
  cases turned with
  | message _ _ _ _ _ _ _ _ less _ held =>
    rw [held, length_nil, Nat.zero_add]
    exact less

def feedLoop (assembler : MessageAssembler) (input : Bytes) : Fed (Header × Bytes) Error MessageAssembler :=
  match _turned : assembler.turn input with
  | .returned result after => ⟨[], result, after⟩
  | .delivered header payload after rest =>
    let later := feedLoop after rest
    ⟨(header, payload) :: later.messages, later.result, later.after⟩
termination_by assembler.buffer.length + input.length
decreasing_by exact turn_shorter _turned

def feed (assembler : MessageAssembler) (input : Bytes) : Fed (Header × Bytes) Error MessageAssembler :=
  if assembler.feeding then
    ⟨[], .error (.at .invalidState "assembler: reentrant feed"), assembler⟩
  else
    let fed := feedLoop { assembler with feeding := true } input
    ⟨fed.messages, fed.result, { fed.after with feeding := false }⟩

def framing (limits : AssemblerLimits) : Framing UInt8 (Header × Bytes) Error where
  front := front limits
  front_nil := rfl
  shorter := front_message_shorter
  message_append := fun later found => front_message_append found later
  broken_append := fun later found => front_broken_append found later

structure Holds (limits : AssemblerLimits) (feeding : Bool) (assembler : MessageAssembler) : Prop where
  unfinished : front limits assembler.buffer = .unfinished
  limits : assembler.limits = limits
  feeding : assembler.feeding = feeding

theorem feedLoop_agrees {limits : AssemblerLimits} {feeding : Bool} (assembler : MessageAssembler) (input : Bytes)
    (holds : Holds limits feeding assembler) :
    Agrees (Holds limits feeding) buffer ((framing limits).parse (assembler.buffer ++ input))
      (assembler.feedLoop input) := by
  obtain ⟨unfinished, same_limits, same_feeding⟩ := holds
  have turned := turn_turned assembler input
  rw [feedLoop]
  split
  · rename_i result after now
    rw [now] at turned
    cases turned with
    | unfinished _ limits_eq feeding_eq found held =>
      rw [same_limits] at found
      rw [(framing limits).parse_unfinished found]
      refine ⟨rfl, rfl, ?_⟩
      rintro rest same
      cases same
      exact ⟨⟨held ▸ found, limits_eq.trans same_limits, feeding_eq.trans same_feeding⟩, held⟩
    | broken _ _ _ _ found =>
      rw [same_limits] at found
      rw [(framing limits).parse_broken found]
      exact ⟨rfl, rfl, fun rest same => nomatch same⟩
  · rename_i header payload after rest now
    have shorter := turn_shorter now
    rw [now] at turned
    cases turned with
    | message _ _ _ _ _ limits_eq feeding_eq found _ whole held =>
      rw [same_limits] at found
      have next_eq := whole (same_limits ▸ unfinished)
      subst next_eq
      have again := feedLoop_agrees after rest
        ⟨by rw [held]; rfl, limits_eq.trans same_limits, feeding_eq.trans same_feeding⟩
      rw [held, nil_append] at again
      rw [(framing limits).parse_message found]
      exact ⟨congrArg ((header, payload) :: ·) again.messages, again.result, again.after⟩
termination_by assembler.buffer.length + input.length

theorem feed_feeds (limits : AssemblerLimits) : Feeds (framing limits) feed (Holds limits false) buffer where
  unfinished := fun assembler holds => holds.unfinished
  feeds := by
    intro assembler input holds
    have looped := feedLoop_agrees { assembler with feeding := true } input ⟨holds.unfinished, holds.limits, rfl⟩
    rw [feed, holds.feeding]
    refine ⟨looped.messages, looped.result, ?_⟩
    intro rest same
    obtain ⟨⟨unfinished, limits_eq, _⟩, held⟩ := looped.after rest same
    exact ⟨⟨unfinished, limits_eq, rfl⟩, held⟩

/-- Any two cuttings of a stream, the fast path's and the slow path's, give the same messages and the same first error.
-/
theorem feed_cut_invariant (limits : AssemblerLimits) (pieces others : List Bytes)
    (same : pieces.flatten = others.flatten) :
    (feedAll feed { limits := limits } pieces).messages = (feedAll feed { limits := limits } others).messages ∧
      (feedAll feed { limits := limits } pieces).result = (feedAll feed { limits := limits } others).result :=
  (feed_feeds limits).cut _ ⟨rfl, rfl, rfl⟩ same

def garbledTail : Bytes :=
  encode { op := .readResponse, length := 2, seq := 7 } ++ [0xA1, 0xA2] ++ [0xE0, 0, 0, 0, 0, 0, 0, 0]

theorem feed_cut_invariant_garbled :
    (feedAll feed {} [garbledTail]).messages = [({ op := .readResponse, length := 2, seq := 7 }, [0xA1, 0xA2])] ∧
      (feedAll feed {} [garbledTail]).messages =
        (feedAll feed {} (garbledTail.map fun byte => [byte])).messages ∧
      (feedAll feed {} [garbledTail]).result = (feedAll feed {} (garbledTail.map fun byte => [byte])).result :=
  ⟨by decide +kernel, feed_cut_invariant {} [garbledTail] (garbledTail.map fun byte => [byte]) (by decide)⟩

end MessageAssembler

end Smply.Smp
