import Smply.Smp.Retired

namespace Smply.Smp

open Systems List SmpClient World MessageAssembler

variable {header : Header} {before : World}

/-- What a step is for the bytes on their way: some come in, the link drops or is switched, or the assembler takes a
turn. -/
inductive Intake where
  | none
  | opened (bytes : Bytes)
  | dropped
  | switched
  | turned

def Frame.input : Frame → Option Bytes
  | .feed input => some input
  | _ => none

namespace World

def intake (before : World) : Event → Intake
  | .call (.onBytes bytes) =>
    if before.callable (.onBytes bytes) && !before.client.assembler.feeding then .opened bytes else .none
  | .call (.onDisconnected error) => if before.callable (.onDisconnected error) then .dropped else .none
  | .call _ => .none
  | .proceed =>
    match before.stack with
    | .rebind _ :: _ => .switched
    | .feed _ :: _ => .turned
    | _ => .none

def feeds (world : World) : List Bytes := world.stack.filterMap Frame.input

def unread (world : World) : Bytes := world.feeds.flatten

inductive Took (before after : World) : Intake → Prop
  | none (assembler : after.client.assembler = before.client.assembler) (feeds : after.feeds = before.feeds) :
      Took before after .none
  | opened (bytes : Bytes) (idle : before.client.assembler.feeding = false)
      (assembler : after.client.assembler = { before.client.assembler with feeding := true })
      (feeds : after.feeds = bytes :: before.feeds) : Took before after (.opened bytes)
  | dropped (assembler : after.client.assembler = before.client.assembler.reset) (feeds : after.feeds = before.feeds) :
      Took before after .dropped
  | switched (assembler : after.client.assembler = before.client.assembler.reset) (feeds : after.feeds = before.feeds) :
      Took before after .switched
  | returned (input : Bytes) (rest : List Bytes) (result : Result Unit) (assembler : MessageAssembler)
      (reading : before.feeds = input :: rest) (silent : before.hears = none)
      (turned : before.client.assembler.turn input = .returned result assembler)
      (held : after.client.assembler = { assembler with feeding := false }) (feeds : after.feeds = rest) :
      Took before after .turned
  | delivered (input : Bytes) (rest : List Bytes) (header : Header) (payload : Bytes) (assembler : MessageAssembler)
      (left : Bytes) (reading : before.feeds = input :: rest) (heard : before.hears = some header)
      (turned : before.client.assembler.turn input = .delivered header payload assembler left)
      (held : after.client.assembler = assembler) (feeds : after.feeds = left :: rest) : Took before after .turned

end World

namespace SmpClient

section
variable (client : SmpClient)
include client

theorem retire_assembler (seq : UInt8) : (client.retire seq).assembler = client.assembler := by
  obtain ⟨flags, ring, head, same⟩ := client.retire_fields seq
  rw [same]

theorem defer_assembler (callback : Option Callback) (error : Error) :
    (client.defer callback error).assembler = client.assembler := by
  cases callback <;> rfl

theorem complete_assembler (slot : Nat) (entry : Pending) (result : Result RawResponse) :
    (client.complete slot entry result).2.assembler = client.assembler :=
  retire_assembler _ _

theorem cancel_assembler (handle : RequestHandle) : (client.cancel handle).assembler = client.assembler := by
  unfold cancel
  split
  · rfl
  · simp only [defer_assembler, detach, retire_assembler]

theorem request_assembler (spec : RequestSpec) (onResponse : Option Callback)
    (sent : Result Unit) (now : TimePoint) :
    (client.request spec onResponse sent now).2.2.assembler = client.assembler := by
  unfold request
  split
  · exact defer_assembler ..
  split
  · exact defer_assembler ..
  split
  · exact defer_assembler ..
  split
  · exact defer_assembler ..
  rename_i seq drawn drew
  have same : drawn.assembler = client.assembler := by rw [(allocateSeq_drawn drew).same]
  simp only
  split
  · rw [defer_assembler, retire_assembler, same]
  · exact same

end

theorem onMessage_assembler (extractMgmtError : Bytes → Result MgmtOutcome) (client : SmpClient) (header : Header)
    (payload : Bytes) : (client.onMessage extractMgmtError header payload).2.assembler = client.assembler := by
  unfold onMessage
  simp only
  split
  · split <;> rfl
  split
  · rfl
  · exact complete_assembler ..

end SmpClient

namespace World

theorem goOn_feeds (before : World) (frames : List Frame) (completed : Option SmpClient.Completion × SmpClient) :
    (before.goOn frames completed).2.feeds = frames.filterMap Frame.input ∧
      (before.goOn frames completed).2.client = completed.2 := by
  obtain ⟨completion, client⟩ := completed
  cases completion <;> exact ⟨rfl, rfl⟩

theorem enter_took (before : World) {call : Call} (callable : before.callable call = true) :
    Took before (before.enter call).2 (before.intake (.call call)) := by
  cases call with
  | request spec callback sent now => exact .none (request_assembler ..) rfl
  | cancel handle => exact .none (cancel_assembler ..) rfl
  | defer work => cases work <;> exact .none rfl rfl
  | onBytes bytes =>
    cases feeding : before.client.assembler.feeding with
    | false =>
      simp only [enter, intake, feeding, callable, Bool.not_false, Bool.and_true, ↓reduceIte, Bool.false_eq_true]
      exact .opened bytes feeding rfl rfl
    | true =>
      simp only [enter, intake, feeding, Bool.not_true, Bool.and_false, ↓reduceIte, Bool.false_eq_true]
      exact .none rfl rfl
  | onDisconnected error =>
    simp only [enter, intake, callable, ↓reduceIte]
    exact .dropped rfl rfl
  | _ => exact .none rfl rfl

variable {extractMgmtError : Bytes → Result MgmtOutcome}

theorem feed_took {input : Bytes} {stack : List Frame} (stood : before.stack = .feed input :: stack) :
    Took before (before.proceed extractMgmtError).2 .turned := by
  have reading : before.feeds = input :: stack.filterMap Frame.input := by
    rw [feeds, stood]
    rfl
  simp only [proceed, stood]
  split
  · rename_i assembler turned
    exact .returned input _ _ assembler reading (by simp only [hears, stood, turned]) turned rfl rfl
  · rename_i error assembler turned
    exact .returned input _ _ assembler reading (by simp only [hears, stood, turned]) turned rfl rfl
  · rename_i header payload assembler left turned
    have heard : before.hears = some header := by simp only [hears, stood, turned]
    obtain ⟨feeds, client⟩ := before.goOn_feeds (.feed left :: stack)
      ({ before.client with assembler := assembler }.onMessage extractMgmtError header payload)
    refine .delivered input _ header payload assembler left reading heard turned ?_ feeds
    rw [client, onMessage_assembler]

theorem proceed_took (before : World) : Took before (before.proceed extractMgmtError).2 (before.intake .proceed) := by
  cases stood : before.stack with
  | nil =>
    simp only [proceed, intake, stood]
    exact .none rfl rfl
  | cons top stack =>
    have inputs : before.feeds = (top :: stack).filterMap Frame.input := by rw [feeds, stood]
    cases top with
    | feed =>
      simp only [intake, stood]
      exact feed_took stood
    | rebind transport =>
      simp only [proceed, intake, stood]
      exact .switched rfl inputs.symm
    | callback | snapshot now =>
      simp only [proceed, intake, stood]
      exact .none rfl inputs.symm
    | deliver batch =>
      cases batch with
      | nil =>
        simp only [proceed, intake, stood]
        split <;> exact .none rfl inputs.symm
      | cons item batch => cases item <;> simp only [proceed, intake, stood] <;> exact .none rfl inputs.symm
    | sweep expired =>
      cases expired with
      | nil =>
        simp only [proceed, intake, stood]
        exact .none rfl inputs.symm
      | cons handle expired =>
        simp only [proceed, intake, stood]
        split
        · exact .none rfl inputs.symm
        obtain ⟨feeds, client⟩ := before.goOn_feeds (.sweep expired :: stack) _
        refine .none ?_ (feeds.trans inputs.symm)
        rw [client, complete_assembler]
    | failAll slot error =>
      simp only [proceed, intake, stood]
      split
      · exact .none rfl inputs.symm
      split
      · exact .none rfl inputs.symm
      obtain ⟨feeds, client⟩ := before.goOn_feeds (.failAll (slot + 1) error :: stack) _
      refine .none ?_ (feeds.trans inputs.symm)
      rw [client, complete_assembler]

theorem step_took (before : World) (event : Event) :
    Took before (before.step extractMgmtError event).2 (before.intake event) := by
  cases event with
  | proceed => exact proceed_took before
  | call call =>
    simp only [step]
    split
    · rename_i callable
      exact enter_took before callable
    rename_i refused
    cases call with
    | onBytes =>
      simp only [intake, refused, Bool.false_and, Bool.false_eq_true, ↓reduceIte]
      exact .none rfl rfl
    | onDisconnected =>
      simp only [intake, refused, Bool.false_eq_true, ↓reduceIte]
      exact .none rfl rfl
    | _ => exact .none rfl rfl

end World

/-- Where the bytes held or still to be read come from: each with the number of switches before it. -/
structure Origins where
  epoch : Nat := 0
  held : List (UInt8 × Nat) := []
  fed : List (UInt8 × Nat) := []

namespace Origins

def kept (origins : Origins) (after : World) : List (UInt8 × Nat) :=
  (origins.held ++ origins.fed).rtake (after.client.assembler.buffer.length + after.unread.length)

def spent (origins : Origins) (after : World) : List (UInt8 × Nat) :=
  (origins.held ++ origins.fed).rdrop (after.client.assembler.buffer.length + after.unread.length)

def step (origins : Origins) (after : World) : Intake → Origins
  | .none => origins
  | .opened bytes => { origins with fed := bytes.map fun byte => (byte, origins.epoch) }
  | .dropped => { origins with held := [] }
  | .switched => { origins with epoch := origins.epoch + 1, held := [] }
  | .turned =>
    { origins with
      held := (origins.kept after).take after.client.assembler.buffer.length
      fed := (origins.kept after).drop after.client.assembler.buffer.length }

theorem kept_suffix (origins : Origins) (after : World) :
    ∀ byte ∈ origins.kept after, byte ∈ origins.held ++ origins.fed :=
  fun _ member => mem_of_mem_drop member

theorem spent_subset (origins : Origins) (after : World) :
    ∀ byte ∈ origins.spent after, byte ∈ origins.held ++ origins.fed :=
  fun _ member => mem_of_mem_take member

end Origins

def provenance (history : List (Transition World Event Output)) : Origins :=
  history.foldl (fun origins t => origins.step t.after (t.before.intake t.event)) {}

theorem front_nil (limits : AssemblerLimits) : MessageAssembler.front limits [] = .unfinished :=
  front_short (by decide)

structure Tracks (origins : Origins) (world : World) : Prop where
  held : origins.held.map Prod.fst = world.client.assembler.buffer
  fed : origins.fed.map Prod.fst = world.unread
  single : world.feeds.length = if world.client.assembler.feeding then 1 else 0
  unfinished : MessageAssembler.front world.client.assembler.limits world.client.assembler.buffer = .unfinished

namespace Tracks

variable {origins : Origins} {before after : World}

theorem only_feed (tracks : Tracks origins before) {input : Bytes} {rest : List Bytes}
    (reading : before.feeds = input :: rest) :
    rest = [] ∧ before.unread = input ∧ before.client.assembler.feeding = true := by
  have single := tracks.single
  rw [reading, length_cons] at single
  split at single
  · rename_i feeding
    obtain rfl : rest = [] := length_eq_zero_iff.mp (by omega)
    exact ⟨rfl, by rw [unread, reading]; exact flatten_singleton, feeding⟩
  · omega

theorem stream (tracks : Tracks origins before) :
    (origins.held ++ origins.fed).map Prod.fst = before.client.assembler.buffer ++ before.unread := by
  rw [map_append, tracks.held, tracks.fed]

section
variable (tracks : Tracks origins before) {used : Bytes}
  (parts : before.client.assembler.buffer ++ before.unread = used ++ (after.client.assembler.buffer ++ after.unread))
include tracks parts

theorem kept_spent : (origins.kept after).map Prod.fst = after.client.assembler.buffer ++ after.unread ∧
      (origins.spent after).map Prod.fst = used := by
  have whole := tracks.stream.trans parts
  have length : (origins.held ++ origins.fed).length -
      (after.client.assembler.buffer.length + after.unread.length) = used.length := by
    have lengths := congrArg List.length whole
    simp only [length_map, length_append] at lengths ⊢
    omega
  constructor
  · rw [Origins.kept, rtake, length, map_drop, whole, drop_left]
  · rw [Origins.spent, rdrop, length, map_take, whole, take_left]

theorem turned :
    ((origins.kept after).take after.client.assembler.buffer.length).map Prod.fst = after.client.assembler.buffer ∧
      ((origins.kept after).drop after.client.assembler.buffer.length).map Prod.fst = after.unread := by
  obtain ⟨kept, _⟩ := tracks.kept_spent parts
  rw [map_take, map_drop, kept, take_left, drop_left]
  exact ⟨rfl, rfl⟩

end

theorem message {stream payload next : Bytes} {limits : AssemblerLimits}
    (found : MessageAssembler.front limits stream = .message (header, payload) next) :
    ∃ used, stream = used ++ next ∧ MessageAssembler.front limits used = .message (header, payload) [] := by
  obtain ⟨total, decoded, size, enough, payload_eq, rest_eq⟩ := front_message found
  simp only at decoded size payload_eq
  have positive := messageSize_ok size
  have used_length : (stream.take total).length = total := by
    rw [length_take]
    omega
  have parts : stream = stream.take total ++ next := by rw [rest_eq, take_append_drop]
  refine ⟨stream.take total, parts, ?_⟩
  have used_decoded : decodeHeader (stream.take total) = .ok header := by
    rw [← decodeHeader_append (by omega) next, ← parts]
    exact decoded
  have whole := front_whole used_decoded size (by omega)
  have nothing : (stream.take total).drop total = [] := drop_eq_nil_of_le (by omega)
  rw [nothing] at whole
  have payload_same : payload = ((stream.take total).drop headerSize).take header.length.toNat := by
    rw [← payload_append (by omega) next, ← parts]
    exact payload_eq
  rw [payload_same]
  exact whole

section
variable (tracks : Tracks origins before)
include tracks

theorem delivered {input payload left : Bytes} {rest : List Bytes} {assembler : MessageAssembler}
    (reading : before.feeds = input :: rest)
    (turned : before.client.assembler.turn input = .delivered header payload assembler left)
    (held : after.client.assembler = assembler) (feeds : after.feeds = left :: rest) : ∃ used,
      before.client.assembler.buffer ++ before.unread = used ++ (after.client.assembler.buffer ++ after.unread) ∧
      MessageAssembler.front before.client.assembler.limits used = .message (header, payload) [] ∧
      after.client.assembler.buffer = [] ∧ after.client.assembler.feeding = true := by
  obtain ⟨rfl, unread, feeding⟩ := tracks.only_feed reading
  have turn := turn_turned before.client.assembler input
  rw [turned] at turn
  cases turn with
  | message _ _ _ _ _ _ feeding_kept found _ whole cleared =>
    obtain rfl := whole tracks.unfinished
    obtain ⟨used, parts, whole_message⟩ := message found
    have buffer : after.client.assembler.buffer = [] := by rw [held]; exact cleared
    have others : after.unread = left := by rw [World.unread, feeds, flatten_singleton]
    refine ⟨used, ?_, whole_message, buffer, ?_⟩
    · rw [buffer, others, unread, nil_append]
      exact parts
    · rw [held, feeding_kept, feeding]

theorem took {intake : Intake} (took : World.Took before after intake) :
    Tracks (origins.step after intake) after := by
  cases took with
  | none assembler feeds =>
    refine ⟨?_, ?_, ?_, ?_⟩
    · rw [assembler]
      exact tracks.held
    · rw [unread, feeds]
      exact tracks.fed
    · rw [feeds, assembler]
      exact tracks.single
    · rw [assembler]
      exact tracks.unfinished
  | opened bytes idle assembler feeds =>
    have none_yet : before.feeds = [] := by
      have single := tracks.single
      rw [idle] at single
      exact length_eq_zero_iff.mp single
    rw [none_yet] at feeds
    refine ⟨?_, ?_, ?_, ?_⟩
    · rw [assembler]
      exact tracks.held
    · simp only [Origins.step, unread, feeds, map_map, flatten_singleton]
      exact map_id' bytes
    · rw [feeds, assembler]
      rfl
    · rw [assembler]
      exact tracks.unfinished
  | dropped assembler feeds | switched assembler feeds =>
    refine ⟨?_, ?_, ?_, ?_⟩
    · rw [assembler]
      rfl
    · rw [unread, feeds]
      exact tracks.fed
    · rw [feeds, assembler]
      exact tracks.single
    · rw [assembler]
      exact front_nil _
  | returned input _ _ assembler reading _ turned held feeds =>
    obtain ⟨rfl, unread, feeding⟩ := tracks.only_feed reading
    have empty : after.unread = [] := by rw [World.unread, feeds, flatten_nil]
    have turn := turn_turned before.client.assembler input
    rw [turned] at turn
    have settled {used : Bytes} (parts : before.client.assembler.buffer ++ before.unread =
        used ++ (after.client.assembler.buffer ++ after.unread))
        (unfinished : front after.client.assembler.limits after.client.assembler.buffer = .unfinished) :
        Tracks (origins.step after .turned) after := by
      obtain ⟨kept, left⟩ := tracks.turned parts
      refine ⟨kept, left, ?_, unfinished⟩
      rw [feeds, held]
      rfl
    cases turn with
    | unfinished _ limits _ found all =>
      have buffer : after.client.assembler.buffer = before.client.assembler.buffer ++ input := by rw [held]; exact all
      apply @settled []
      · rw [buffer, empty, unread, append_nil, nil_append]
      · rw [buffer, held, limits]
        exact found
    | broken _ _ _ _ _ cleared =>
      have buffer : after.client.assembler.buffer = [] := by rw [held]; exact cleared
      apply settled
      · rw [buffer, empty, append_nil, append_nil]
      · rw [buffer]
        exact front_nil _
  | delivered _ _ _ _ _ _ reading _ turned held feeds =>
    obtain ⟨used, splits, _, buffer, feeding⟩ := tracks.delivered reading turned held feeds
    obtain ⟨rfl, _, _⟩ := tracks.only_feed reading
    obtain ⟨kept, others⟩ := tracks.turned splits
    refine ⟨kept, others, ?_, ?_⟩
    · rw [feeds, feeding]
      rfl
    · rw [buffer]
      exact front_nil _

theorem heard (hears : before.hears = some header) (took : World.Took before after .turned) : ∃ payload,
      MessageAssembler.front before.client.assembler.limits ((origins.spent after).map Prod.fst) =
        .message (header, payload) [] := by
  cases took with
  | returned _ _ _ _ _ silent =>
    rw [silent] at hears
    cases hears
  | delivered _ _ _ payload _ _ reading heard turned held feeds =>
    rw [heard] at hears
    cases hears
    obtain ⟨used, splits, whole, _⟩ := tracks.delivered reading turned held feeds
    obtain ⟨_, spent⟩ := tracks.kept_spent splits
    exact ⟨payload, by rw [spent]; exact whole⟩

end

end Tracks

/-- Every byte that is held or has still to be read came through the transport that is bound now. -/
def Current (origins : Origins) : Prop := ∀ byte ∈ origins.held ++ origins.fed, byte.2 = origins.epoch

namespace World

/-- The transport is not switched under a call of `feed` with input left to read. -/
def readOut (before : World) : Event → Bool
  | .proceed =>
    match before.stack with
    | .rebind _ :: _ => before.unread.isEmpty
    | _ => true
  | _ => true

theorem intake_switched {event : Event} (switched : before.intake event = .switched)
    (out : before.readOut event = true) : before.unread = [] := by
  cases event with
  | call call =>
    cases call with
    | onBytes | onDisconnected =>
      simp only [intake] at switched
      split at switched <;> cases switched
    | _ => cases switched
  | proceed =>
    simp only [intake, readOut] at switched out
    split at switched
    · rename_i stood
      simp only [stood] at out
      exact isEmpty_iff.mp out
    · cases switched
    · cases switched

theorem hears_turned (hears : before.hears = some header) : before.intake .proceed = .turned := by
  unfold World.hears at hears
  split at hears
  · rename_i stood
    simp only [intake, stood]
  · cases hears

end World

theorem Tracks.current {origins : Origins} {before after : World} {intake : Intake} (tracks : Tracks origins before)
    (current : Current origins) (took : World.Took before after intake)
    (out : intake = .switched → before.unread = []) : Current (origins.step after intake) := by
  cases took with
  | none => exact current
  | opened =>
    intro byte member
    rcases mem_append.mp member with member | member
    · exact current byte (mem_append_left _ member)
    · obtain ⟨value, _, rfl⟩ := mem_map.mp member
      rfl
  | dropped =>
    intro byte member
    exact current byte (mem_append_right _ member)
  | switched =>
    intro byte member
    have fed := tracks.fed
    rw [out rfl, map_eq_nil_iff] at fed
    simp only [Origins.step, fed, append_nil] at member
    exact (not_mem_nil member).elim
  | returned | delivered =>
    intro byte member
    simp only [Origins.step, take_append_drop] at member
    exact current byte (origins.kept_suffix after byte member)

variable (extractMgmtError : Bytes → Result MgmtOutcome) (transport : Nat) (config : SmpClientConfig)

theorem reached_tracks (events : List Event) :
    Tracks (provenance (World.history extractMgmtError transport config events))
      (World.reached extractMgmtError transport config events) := by
  refine history_invariant _ _ (fun past state => Tracks (provenance past) state) ?_ ?_ events
  · exact ⟨rfl, rfl, rfl, front_nil _⟩
  intro past state event tracks
  rw [provenance, foldl_concat]
  exact tracks.took (step_took state event)

theorem reached_current (events : List Event)
    (out : ∀ t ∈ World.history extractMgmtError transport config events, t.before.readOut t.event = true) :
    Current (provenance (World.history extractMgmtError transport config events)) := by
  refine history_invariant_with _ _ (fun past state => Tracks (provenance past) state)
    (fun past _ => (∀ t ∈ past, readOut t.before t.event = true) → Current (provenance past))
    (reached_tracks extractMgmtError transport config) ?_ ?_ events out
  · intro _ byte member
    exact (not_mem_nil member).elim
  intro past state event tracks current out
  have now := out _ (mem_append_right _ (mem_singleton.mpr rfl))
  rw [provenance, foldl_concat]
  exact tracks.current (current fun t member => out t (mem_append_left _ member))
    (step_took state event) fun switched => intake_switched switched now

/-- No byte handed in before a switch is used after it, if the transport is never switched under a `feed` with input
left. -/
theorem switch_cuts_off_old_bytes (events : List Event)
    (out : ∀ t ∈ World.history extractMgmtError transport config events, t.before.readOut t.event = true) :
    ((provenance (World.history extractMgmtError transport config events)).held.map Prod.fst =
        (World.reached extractMgmtError transport config events).client.assembler.buffer ∧
      ∀ byte ∈ (provenance (World.history extractMgmtError transport config events)).held,
        byte.2 = (provenance (World.history extractMgmtError transport config events)).epoch) ∧
    ∀ past t later header, World.history extractMgmtError transport config events = past ++ t :: later →
      t.event = .proceed → t.before.hears = some header →
      (∃ payload, MessageAssembler.front t.before.client.assembler.limits
        (((provenance past).spent t.after).map Prod.fst) = .message (header, payload) []) ∧
      ∀ byte ∈ (provenance past).spent t.after, byte.2 = (provenance past).epoch := by
  have tracks := reached_tracks extractMgmtError transport config events
  have current := reached_current extractMgmtError transport config events out
  refine ⟨⟨tracks.held, fun byte member => current byte (mem_append_left _ member)⟩, ?_⟩
  intro past t later header splits proceeds hears
  obtain ⟨earlier, event, rest, _, ran, now, _⟩ := log_split _ _ _ splits
  have tracks := reached_tracks extractMgmtError transport config earlier
  have current := reached_current extractMgmtError transport config earlier (by
    intro u member
    rw [history, ran] at member
    exact out u (by rw [splits]; exact mem_append_left _ member))
  rw [history, ran] at tracks current
  subst now
  obtain rfl : event = .proceed := proceeds
  have took := @World.step_took extractMgmtError (reached extractMgmtError transport config earlier) .proceed
  have turned : (reached extractMgmtError transport config earlier).intake .proceed = .turned := hears_turned hears
  rw [turned] at took
  exact ⟨tracks.heard hears took, fun byte member => current byte (Origins.spent_subset _ _ byte member)⟩

/-- An answer and the first bytes of another message come in one chunk; the callback the answer completes binds a
new transport. -/
def rebindsInside : List Event :=
  [.call (.request {} true (.ok ()) 0),
    .call (.onBytes (encode { op := .readResponse, length := 1 } ++ [0xA0] ++ [0x01, 0x00, 0x00])), .proceed,
    .call (.rebindTransport 1), .proceed, .proceed, .proceed, .proceed, .proceed]

theorem old_bytes_survive_switch : (World.reached (fun _ => .ok {}) 0 {} rebindsInside).stack = [] ∧
    (World.reached (fun _ => .ok {}) 0 {} rebindsInside).client.transport = 1 ∧
    (World.reached (fun _ => .ok {}) 0 {} rebindsInside).client.assembler.buffer = [0x01, 0x00, 0x00] ∧
    (provenance (World.history (fun _ => .ok {}) 0 {} rebindsInside)).epoch = 1 ∧
    (provenance (World.history (fun _ => .ok {}) 0 {} rebindsInside)).held = [(0x01, 0), (0x00, 0), (0x00, 0)] := by
  exact ⟨length_eq_zero_iff.mp (by decide +kernel), by decide +kernel, by decide +kernel, by decide +kernel,
    by decide +kernel⟩

def rebindsBetween : List Event :=
  [.call (.request {} true (.ok ()) 0), .call (.onBytes (encode { op := .readResponse, length := 1 } ++ [0xA0])),
    .proceed, .call (.rebindTransport 1), .proceed, .proceed, .proceed, .proceed, .proceed, .call (.onBytes [0x01]),
    .proceed]

theorem switch_cuts_off_old_bytes_between :
    (World.reached (fun _ => .ok {}) 0 {} rebindsBetween).client.assembler.buffer = [0x01] ∧
    (provenance (World.history (fun _ => .ok {}) 0 {} rebindsBetween)).epoch = 1 ∧
    ∀ byte ∈ (provenance (World.history (fun _ => .ok {}) 0 {} rebindsBetween)).held,
      byte.2 = (provenance (World.history (fun _ => .ok {}) 0 {} rebindsBetween)).epoch :=
  ⟨by decide +kernel, by decide +kernel,
    (switch_cuts_off_old_bytes (fun _ => .ok {}) 0 {} rebindsBetween (by decide +kernel)).1.2⟩

end Smply.Smp
