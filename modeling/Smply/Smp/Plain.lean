import Smply.Smp.Sweep

namespace Smply.Smp

open SmpClient

def Deferred.Plain : Deferred → Prop
  | .fail _ error => error.Plain
  | .work _ => True

def Frame.Plain : Frame → Prop
  | .deliver batch => ∀ item ∈ batch, item.Plain
  | .failAll _ error => error.Plain
  | _ => True

def Call.Plain : Call → Prop
  | .request _ _ sent _ => PlainResult sent
  | .onDisconnected error => error.Plain
  | _ => True

def Output.Plain : Output → Prop
  | .completed _ result => PlainResult result
  | _ => True

section

theorem decodeHeader_plain (bytes : Bytes) : PlainResult (decodeHeader bytes) := by
  unfold decodeHeader
  split
  · dsimp only
    split
    · exact plain_error nofun
    split
    · exact plain_error nofun
    split
    · exact plain_error nofun
    · exact plain_ok _
  · exact plain_error nofun

theorem messageSize_plain (limits : AssemblerLimits) (header : Header) :
    PlainResult (MessageAssembler.messageSize limits header) := by
  unfold MessageAssembler.messageSize
  split
  · exact plain_error nofun
  split
  · exact plain_error nofun
  · exact plain_ok _

theorem turn_plain (assembler : MessageAssembler) (input : Bytes) {result : Result Unit}
    {after : MessageAssembler} (returned : assembler.turn input = .returned result after) : PlainResult result := by
  have turned := MessageAssembler.turn_turned assembler input
  rw [returned] at turned
  cases turned with
  | unfinished => exact plain_ok ()
  | broken error after limits feeding found held =>
    unfold MessageAssembler.front at found
    split at found
    · cases found
    have header := decodeHeader_plain (assembler.buffer ++ input)
    split at found
    · rename_i failed
      cases found
      exact plain_error (header _ failed)
    rename_i decoded _
    have size := messageSize_plain assembler.limits decoded
    split at found
    · rename_i failed
      cases found
      exact plain_error (size _ failed)
    · split at found <;> cases found

variable {extractMgmtError : Bytes → Result MgmtOutcome}

theorem interpret_plain (fair : ∀ payload, PlainResult (extractMgmtError payload)) (header : Header) (payload : Bytes) :
    PlainResult (SmpClient.interpret extractMgmtError header payload) := by
  unfold interpret
  split
  · exact plain_ok _
  have extracted := fair payload
  split
  · rename_i error same
    exact plain_error (extracted error same)
  split
  · exact plain_ok _
  refine plain_error ?_
  dsimp only
  split <;> exact nofun

end

namespace World

structure Plain (world : World) : Prop where
  deferred : ∀ item ∈ world.client.deferred, item.Plain
  stack : ∀ frame ∈ world.stack, frame.Plain

theorem Plain.pushed {world : World} {frames : List Frame} (plain : world.Plain) (fair : ∀ frame ∈ frames, frame.Plain)
    {after : World} (deferred : after.client.deferred = world.client.deferred)
    (stack : after.stack = frames ++ world.stack) :
    after.Plain := by
  refine ⟨by rw [deferred]; exact plain.deferred, fun frame member => ?_⟩
  rw [stack] at member
  rcases List.mem_append.mp member with new | old
  · exact fair frame new
  · exact plain.stack frame old

section
variable {client : SmpClient} (plain : ∀ item ∈ client.deferred, item.Plain)
include plain

theorem defer_plain (callback : Option Callback)
    {error : Error} (fair : error.Plain) : ∀ item ∈ (client.defer callback error).deferred, item.Plain := by
  intro item member
  rw [defer_deferred] at member
  rcases List.mem_append.mp member with old | new
  · exact plain item old
  cases callback with
  | none => cases new
  | some callback =>
    rw [List.mem_singleton.mp new]
    exact fair

theorem request_plain (spec : RequestSpec)
    (onResponse : Option Callback) {sent : Result Unit} (fair : PlainResult sent) (now : TimePoint) :
    ∀ item ∈ (client.request spec onResponse sent now).2.2.deferred, item.Plain := by
  unfold request
  split
  · exact defer_plain plain onResponse nofun
  split
  · exact defer_plain plain onResponse nofun
  split
  · exact defer_plain plain onResponse nofun
  split
  · exact defer_plain plain onResponse nofun
  rename_i seq drawn drew
  have same := (allocateSeq_kept drew).2
  cases sent with
  | error error =>
    refine defer_plain ?_ onResponse (fair error rfl)
    rw [retire_deferred, same]
    exact plain
  | ok => exact same ▸ plain

end

theorem enter_plain {before : World} (plain : before.Plain) {call : Call} (fair : call.Plain) :
    (before.enter call).2.Plain := by
  cases call with
  | request spec callback sent now => exact ⟨request_plain plain.deferred spec _ fair now, plain.stack⟩
  | cancel =>
    refine ⟨?_, plain.stack⟩
    simp only [enter, cancel]
    split
    · exact plain.deferred
    refine defer_plain ?_ _ (by rintro ⟨⟩)
    simp only [detach, retire_deferred]
    exact plain.deferred
  | defer work =>
    cases work with
    | none => exact plain
    | some =>
      refine ⟨fun item member => ?_, plain.stack⟩
      rcases List.mem_append.mp member with old | new
      · exact plain.deferred item old
      · rw [List.mem_singleton.mp new]
        trivial
  | poll now => exact @plain.pushed _ [.deliver [], .snapshot now, .deliver []] (by simp [Frame.Plain]) _ rfl rfl
  | rebindTransport transport =>
    refine @plain.pushed _ [.failAll 0 (.at .disconnected "smp client: transport rebound"), .rebind transport] ?_ _ rfl rfl
    simp [Frame.Plain, Error.Plain, Error.at]
  | onBytes bytes =>
    simp only [enter]
    split
    · refine @plain.pushed _ [.failAll 0 (.at .invalidState "assembler: reentrant feed")] ?_ _ rfl rfl
      simp [Frame.Plain, Error.Plain, Error.at]
    · exact @plain.pushed _ [.feed bytes] (by simp [Frame.Plain]) _ rfl rfl
  | onTransportError => exact ⟨plain.deferred, plain.stack⟩
  | onDisconnected error =>
    refine @plain.pushed _ [.failAll 0 error] (fun frame member => ?_) _ rfl rfl
    rw [List.mem_singleton.mp member]
    exact fair
  | destroy =>
    refine @plain.pushed _ [.deliver [], .failAll 0 (.at .cancelled "smp client: destroyed"), .deliver []] ?_ _ rfl rfl
    simp [Frame.Plain, Error.Plain, Error.at]

variable {extractMgmtError : Bytes → Result MgmtOutcome}

theorem goOn_plain {before : World} {stack : List Frame} {completed : Option SmpClient.Completion × SmpClient}
    (deferred : ∀ item ∈ completed.2.deferred, item.Plain) (frames : ∀ frame ∈ stack, frame.Plain)
    (result : ∀ callback result, completed.1 = some (callback, result) → PlainResult result) :
    (before.goOn stack completed).2.Plain ∧ (before.goOn stack completed).1.Plain := by
  obtain ⟨completion, client⟩ := completed
  cases completion with
  | none => exact ⟨⟨deferred, frames⟩, trivial⟩
  | some =>
    refine ⟨⟨deferred, fun frame member => ?_⟩, result _ _ rfl⟩
    rcases List.mem_cons.mp member with rfl | old
    · trivial
    · exact frames frame old

section
variable {client : SmpClient} (plain : ∀ item ∈ client.deferred, item.Plain)
include plain

theorem complete_plain (slot : Nat) (entry : Pending)
    {result : Result RawResponse} (fair : PlainResult result) :
    (∀ item ∈ (client.complete slot entry result).2.deferred, item.Plain) ∧
      ∀ callback given, (client.complete slot entry result).1 = some (callback, given) → PlainResult given := by
  rw [complete_deferred]
  refine ⟨plain, fun callback given same => ?_⟩
  simp only [complete, detach, Option.map_eq_some_iff, Prod.mk.injEq] at same
  obtain ⟨_, _, _, rfl⟩ := same
  exact fair

theorem onMessage_plain (fair : ∀ payload, PlainResult (extractMgmtError payload)) (header : Header)
    (payload : Bytes) : (∀ item ∈ (client.onMessage extractMgmtError header payload).2.deferred, item.Plain) ∧
      ∀ callback given, (client.onMessage extractMgmtError header payload).1 = some (callback, given) →
        PlainResult given := by
  unfold onMessage
  simp only
  split
  · split <;> exact ⟨plain, fun _ _ => nofun⟩
  split
  · exact ⟨plain, fun _ _ => nofun⟩
  · refine complete_plain ?_ _ _ (interpret_plain fair header payload)
    exact plain

end

theorem proceed_plain {before : World} (plain : before.Plain)
    (fair : ∀ payload, PlainResult (extractMgmtError payload)) :
    (before.proceed extractMgmtError).2.Plain ∧ (before.proceed extractMgmtError).1.Plain := by
  have below {frame : Frame} {stack : List Frame} (top : before.stack = frame :: stack) :
      frame.Plain ∧ ∀ frame ∈ stack, frame.Plain := by
    have frames := plain.stack
    rw [top] at frames
    exact ⟨frames frame List.mem_cons_self, fun other member => frames other (List.mem_cons_of_mem _ member)⟩
  have pushed {frame : Frame} {stack : List Frame} (is : frame.Plain) (rest : ∀ frame ∈ stack, frame.Plain) :
      ∀ other ∈ frame :: stack, other.Plain := by
    intro other member
    rcases List.mem_cons.mp member with rfl | old
    · exact is
    · exact rest other old
  unfold proceed
  simp only
  split
  · exact ⟨plain, trivial⟩
  · rename_i stack top
    exact ⟨⟨plain.deferred, (below top).2⟩, trivial⟩
  · rename_i stack top
    split
    · exact ⟨⟨plain.deferred, (below top).2⟩, trivial⟩
    · exact ⟨⟨nofun, pushed plain.deferred (below top).2⟩, trivial⟩
  · rename_i callback error batch stack top
    obtain ⟨items, rest⟩ := below top
    have first := items (.fail callback error) List.mem_cons_self
    have others : ∀ item ∈ batch, item.Plain := fun item member => items item (List.mem_cons_of_mem _ member)
    exact ⟨⟨plain.deferred, pushed trivial (pushed others rest)⟩, plain_error first⟩
  · rename_i work batch stack top
    obtain ⟨items, rest⟩ := below top
    have others : ∀ item ∈ batch, item.Plain := fun item member => items item (List.mem_cons_of_mem _ member)
    exact ⟨⟨plain.deferred, pushed trivial (pushed others rest)⟩, trivial⟩
  · rename_i now stack top
    exact ⟨⟨plain.deferred, pushed trivial (below top).2⟩, trivial⟩
  · rename_i stack top
    exact ⟨⟨plain.deferred, (below top).2⟩, trivial⟩
  · rename_i handle expired stack top
    have rest := pushed (show (Frame.sweep expired).Plain from trivial) (below top).2
    split
    · exact ⟨⟨plain.deferred, rest⟩, trivial⟩
    rename_i slot entry found
    have timedOut := @complete_plain { before.client with
      stats := { before.client.stats with timeouts := before.client.stats.timeouts + 1 } } plain.deferred slot entry
      (.error (.at .timeout "smp client: no response")) (plain_error nofun)
    exact goOn_plain timedOut.1 rest timedOut.2
  · rename_i slot error stack top
    obtain ⟨is, rest⟩ := below top
    have next := pushed (show (Frame.failAll (slot + 1) error).Plain from is) rest
    split
    · exact ⟨⟨plain.deferred, rest⟩, trivial⟩
    rename_i entry found
    split
    · exact ⟨⟨plain.deferred, next⟩, trivial⟩
    · have failed := complete_plain plain.deferred slot entry (plain_error is)
      exact goOn_plain failed.1 next failed.2
  · rename_i transport stack top
    exact ⟨⟨plain.deferred, (below top).2⟩, trivial⟩
  · rename_i input stack top
    have rest := (below top).2
    split
    · exact ⟨⟨plain.deferred, rest⟩, trivial⟩
    · rename_i error assembler returned
      exact ⟨⟨plain.deferred, pushed (turn_plain _ _ returned error rfl) rest⟩, trivial⟩
    · rename_i header payload assembler left delivered
      have met := @onMessage_plain extractMgmtError { before.client with assembler := assembler } plain.deferred fair header
        payload
      exact goOn_plain met.1 (pushed (show (Frame.feed left).Plain from trivial) rest) met.2

theorem start_plain (transport : Nat) (config : SmpClientConfig) : (start transport config).Plain := ⟨nofun, nofun⟩

end World

end Smply.Smp
