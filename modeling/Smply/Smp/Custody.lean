import Smply.Systems.Custody
import Smply.Smp.Reentry

namespace Smply.Smp

open Systems List SmpClient Output

namespace SmpClient

variable {output : Output} {client : SmpClient} {slot : Nat} {entry : Pending}

section
variable (client : SmpClient)

theorem retire_kept (seq : UInt8) :
    (client.retire seq).pending = client.pending ∧ (client.retire seq).deferred = client.deferred := by
  unfold retire
  split
  · exact ⟨rfl, rfl⟩
  split
  · exact ⟨rfl, rfl⟩
  · split <;> exact ⟨rfl, rfl⟩

@[simp] theorem retire_pending (seq : UInt8) : (client.retire seq).pending = client.pending :=
  (retire_kept client seq).1

@[simp] theorem retire_deferred (seq : UInt8) :
    (client.retire seq).deferred = client.deferred :=
  (retire_kept client seq).2

@[simp] theorem defer_pending (callback : Option Callback) (error : Error) :
    (client.defer callback error).pending = client.pending := by
  cases callback <;> rfl

theorem defer_deferred (callback : Option Callback) (error : Error) :
    (client.defer callback error).deferred =
      client.deferred ++ (callback.map fun callback => Deferred.fail callback error).toList := by
  cases callback with
  | none => exact (append_nil _).symm
  | some => rfl

end

theorem allocateSeq_kept {client drawn : SmpClient} {seq : UInt8} (drew : client.allocateSeq = some (seq, drawn)) :
    drawn.pending = client.pending ∧ drawn.deferred = client.deferred := by
  unfold allocateSeq at drew
  simp only at drew
  split at drew
  · cases drew
  · cases drew
    exact ⟨rfl, rfl⟩

theorem freeSlot_found (free : client.freeSlot = some slot) :
    ∃ old, client.pending[slot]? = some old ∧ old.active = false := by
  obtain ⟨bound, idle, _⟩ := findIdx?_eq_some_iff_getElem.mp free
  exact ⟨client.pending[slot], getElem?_eq_getElem bound, by simpa using idle⟩

theorem entryAt_found {at_ : Nat} (found : client.entryAt at_ = some (slot, entry)) :
    at_ = slot ∧ client.pending[slot]? = some entry := by
  unfold entryAt at found
  obtain ⟨other, stands, same⟩ := Option.map_eq_some_iff.mp found
  cases same
  exact ⟨rfl, stands⟩

theorem findBySeq_found {seq : UInt8} (found : client.findBySeq seq = some (slot, entry)) :
    client.pending[slot]? = some entry ∧ entry.active = true ∧ entry.seq = seq := by
  obtain ⟨at_, index, stands⟩ := Option.bind_eq_some_iff.mp found
  obtain ⟨rfl, stands⟩ := entryAt_found stands
  obtain ⟨bound, matching, _⟩ := findIdx?_eq_some_iff_getElem.mp index
  have same := getElem_eq_iff bound |>.mpr stands
  rw [same, Bool.and_eq_true, beq_iff_eq] at matching
  exact ⟨stands, matching⟩

theorem resolve_found {handle : RequestHandle} (found : client.resolve handle = some (slot, entry)) :
    client.pending[slot]? = some entry ∧ entry.active = true := by
  unfold resolve at found
  split at found
  · cases found
  split at found
  · cases found
  rename_i other held stands
  split at found
  · cases found
  rename_i live
  cases found
  simp only [Bool.or_eq_true, Bool.not_eq_eq_eq_not, Bool.not_true, bne_iff_ne, ne_eq, not_or,
    Bool.not_eq_false] at live
  exact ⟨(entryAt_found stands).2, live.1⟩

/-- A request is refused and its callback queued, or it goes out and its callback waits in a slot that was
free. -/
inductive Requested (client : SmpClient) (spec : RequestSpec) (onResponse : Option Callback) :
    RequestHandle × Option Header × SmpClient → Prop
  | refused (header : Option Header) (error : Error) (after : SmpClient) (pending : after.pending = client.pending)
      (deferred : after.deferred =
        client.deferred ++ (onResponse.map fun callback => Deferred.fail callback error).toList) :
      Requested client spec onResponse ({}, header, after)
  | sent (slot : Nat) (old entry : Pending) (header : Header) (handle : RequestHandle) (after : SmpClient)
      (stood : client.pending[slot]? = some old) (free : old.active = false)
      (pending : after.pending = client.pending.set slot entry) (deferred : after.deferred = client.deferred)
      (active : entry.active = true) (callback : entry.callback = onResponse) (seq : header.seq = entry.seq)
      (group : entry.group = spec.group) (command : entry.command = spec.command)
      (op : entry.expectedOp = responseTo spec.op) : Requested client spec onResponse (handle, some header, after)

theorem request_requested (client : SmpClient) (spec : RequestSpec) (onResponse : Option Callback)
    (sent : Result Unit) (now : TimePoint) :
    Requested client spec onResponse (client.request spec onResponse sent now) := by
  unfold request
  split
  · exact .refused none _ _ (defer_pending ..) (defer_deferred ..)
  split
  · exact .refused none _ _ (defer_pending ..) (defer_deferred ..)
  split
  · exact .refused none _ _ (defer_pending ..) (defer_deferred ..)
  rename_i slot free
  split
  · exact .refused none _ _ (defer_pending ..) (defer_deferred ..)
  rename_i seq drawn drew
  obtain ⟨pending, deferred⟩ := allocateSeq_kept drew
  simp only
  split
  · rename_i error
    refine .refused _ error _ ?_ ?_
    · rw [defer_pending, retire_pending, pending]
    · rw [defer_deferred, retire_deferred, deferred]
  · obtain ⟨old, stood, idle⟩ := freeSlot_found free
    exact .sent slot old _ _ _ _ stood idle (by rw [pending]) deferred rfl rfl rfl rfl rfl rfl

end SmpClient

def Pending.holds (callback : Callback) (entry : Pending) : Bool := decide (entry.callback = some callback)

def Pending.cleared (entry : Pending) : Pending := { entry with active := false, callback := none }

def Deferred.holds (callback : Callback) : Deferred → Bool
  | .fail other _ => decide (other = callback)
  | .work _ => false

def Frame.items : Frame → List Deferred
  | .deliver batch => batch
  | _ => []

theorem countP_fail (callback : Option Callback) (error : Error) (other : Callback) :
    (callback.map fun callback => Deferred.fail callback error).toList.countP (Deferred.holds other) =
      if callback = some other then 1 else 0 := by
  cases callback with
  | none => rfl
  | some callback => simp [Deferred.holds]

namespace World

def entries (world : World) (callback : Callback) : Nat := world.client.pending.countP (Pending.holds callback)

def items (world : World) (callback : Callback) : Nat :=
  world.client.deferred.countP (Deferred.holds callback) +
    (world.stack.flatMap Frame.items).countP (Deferred.holds callback)

structure Answers (before : World) (entry : Pending) (response : RawResponse) : Prop where
  received : ∃ input frames assembler rest, before.stack = .feed input :: frames ∧
    before.client.assembler.turn input = .delivered response.header response.payload assembler rest
  seq : response.header.seq = entry.seq
  group : response.header.group = entry.group
  command : response.header.command = entry.command
  op : response.header.op = entry.expectedOp

inductive Row (before : World) : Event → Output → World → Prop
  | kept (event : Event) (output : Output) (after : World) (requests : after.requests = before.requests)
      (pending : after.client.pending = before.client.pending)
      (items : ∀ callback, after.items callback = before.items callback)
      (silent : ∀ callback result, output ≠ .completed callback result) : Row before event output after
  | refused (spec : RequestSpec) (callback : Bool) (sent : Result Unit) (now : TimePoint)
      (header : Option Header) (after : World) (requests : after.requests = before.requests ++ [⟨spec, callback, header⟩])
      (pending : after.client.pending = before.client.pending)
      (items : ∀ other, after.items other =
        before.items other + if callback ∧ other = before.requests.length then 1 else 0) :
      Row before (.call (.request spec callback sent now)) (.requested {}) after
  | issued (spec : RequestSpec) (callback : Bool) (sent : Result Unit) (now : TimePoint) (slot : Nat)
      (old entry : Pending) (header : Header) (handle : RequestHandle) (after : World)
      (requests : after.requests = before.requests ++ [⟨spec, callback, some header⟩])
      (stood : before.client.pending[slot]? = some old) (free : old.active = false)
      (pending : after.client.pending = before.client.pending.set slot entry)
      (items : ∀ other, after.items other = before.items other) (active : entry.active = true)
      (holds : entry.callback = if callback then some before.requests.length else none)
      (seq : header.seq = entry.seq) (group : entry.group = spec.group) (command : entry.command = spec.command)
      (op : entry.expectedOp = responseTo spec.op) :
      Row before (.call (.request spec callback sent now)) (.requested handle) after
  | cancelled (handle : RequestHandle) (slot : Nat) (entry : Pending) (after : World)
      (requests : after.requests = before.requests) (stood : before.client.pending[slot]? = some entry)
      (active : entry.active = true)
      (pending : after.client.pending = before.client.pending.set slot entry.cleared)
      (items : ∀ other, after.items other = before.items other + if entry.callback = some other then 1 else 0) :
      Row before (.call (.cancel handle)) .quiet after
  | completed (slot : Nat) (entry : Pending) (result : Result RawResponse) (output : Output) (after : World)
      (requests : after.requests = before.requests) (stood : before.client.pending[slot]? = some entry)
      (active : entry.active = true)
      (pending : after.client.pending = before.client.pending.set slot entry.cleared)
      (items : ∀ other, after.items other = before.items other)
      (ran : output = match entry.callback with | none => .quiet | some callback => .completed callback result)
      (answers : ∀ response, result = .ok response → before.Answers entry response) :
      Row before .proceed output after
  | delivered (callback : Callback) (error : Error) (after : World) (requests : after.requests = before.requests)
      (pending : after.client.pending = before.client.pending)
      (items : ∀ other, before.items other = after.items other + if other = callback then 1 else 0) :
      Row before .proceed (.completed callback (.error error)) after

theorem items_same {before after : World} (deferred : after.client.deferred = before.client.deferred)
    (stack : after.stack.flatMap Frame.items = before.stack.flatMap Frame.items) (callback : Callback) :
    after.items callback = before.items callback := by
  rw [items, items, deferred, stack]

theorem goOn_row {before : World} {client : SmpClient} {frames : List Frame} {result : Result RawResponse}
    (pending : client.pending = before.client.pending) (deferred : client.deferred = before.client.deferred)
    (stack : frames.flatMap Frame.items = before.stack.flatMap Frame.items)
    (stood : before.client.pending[slot]? = some entry) (active : entry.active = true)
    (answers : ∀ response, result = .ok response → before.Answers entry response) :
    Row before .proceed (before.goOn frames (client.complete slot entry result)).1
      (before.goOn frames (client.complete slot entry result)).2 := by
  have table : (client.complete slot entry result).2.pending = before.client.pending.set slot entry.cleared := by
    simp only [complete, detach, retire_pending, pending]
    rfl
  have queue : (client.complete slot entry result).2.deferred = before.client.deferred := by
    simp only [complete, detach, retire_deferred, deferred]
  have called : (client.complete slot entry result).1 = entry.callback.map fun callback => (callback, result) := rfl
  generalize client.complete slot entry result = completed at table queue called
  obtain ⟨completion, after⟩ := completed
  cases held : entry.callback with
  | none =>
    obtain rfl : completion = none := by simpa [held] using called
    refine .completed slot entry result _ _ rfl stood active table ?_ (by rw [held]; rfl) answers
    exact items_same queue stack
  | some callback =>
    obtain rfl : completion = some (callback, result) := by simpa [held] using called
    refine .completed slot entry result _ _ rfl stood active table ?_ (by rw [held]; rfl) answers
    exact items_same queue stack

theorem kept_row {before after : World} {event : Event} (requests : after.requests = before.requests)
    (pending : after.client.pending = before.client.pending)
    (deferred : after.client.deferred = before.client.deferred)
    (stack : after.stack.flatMap Frame.items = before.stack.flatMap Frame.items)
    (silent : ∀ callback result, output ≠ .completed callback result) : Row before event output after :=
  .kept event output after requests pending (items_same deferred stack) silent

variable {extractMgmtError : Bytes → Result MgmtOutcome}

theorem interpret_ok {header : Header} {payload : Bytes} {response : RawResponse}
    (success : SmpClient.interpret extractMgmtError header payload = .ok response) : response = ⟨header, payload⟩ := by
  unfold interpret at success
  split at success
  · exact (Except.ok.inj success).symm
  split at success
  · cases success
  split at success
  · exact (Except.ok.inj success).symm
  · cases success

theorem message_row {before : World} {input rest payload : Bytes} {stack : List Frame} {header : Header}
    {assembler : MessageAssembler} (top : before.stack = .feed input :: stack)
    (turned : before.client.assembler.turn input = .delivered header payload assembler rest) : Row before .proceed
      (before.goOn (.feed rest :: stack)
        ({ before.client with assembler := assembler }.onMessage extractMgmtError header payload)).1
      (before.goOn (.feed rest :: stack)
        ({ before.client with assembler := assembler }.onMessage extractMgmtError header payload)).2 := by
  have same : (Frame.feed rest :: stack).flatMap Frame.items = before.stack.flatMap Frame.items := by rw [top]; rfl
  unfold onMessage
  simp only
  split
  · split
    · exact kept_row rfl rfl rfl same (fun _ _ => nofun)
    · exact kept_row rfl rfl rfl same (fun _ _ => nofun)
  rename_i slot entry found
  split
  · exact kept_row rfl rfl rfl same (fun _ _ => nofun)
  rename_i agree
  simp only [ne_eq, decide_not, Bool.or_eq_true, Bool.not_eq_eq_eq_not, Bool.not_true, decide_eq_false_iff_not,
    not_or, Decidable.not_not] at agree
  obtain ⟨stood, active, seq⟩ := findBySeq_found found
  refine goOn_row rfl rfl same stood active ?_
  intro response success
  cases interpret_ok success
  exact ⟨⟨input, stack, assembler, rest, top, turned⟩, seq.symm, agree.1.1, agree.1.2, agree.2⟩

section
variable (before : World)
include before

theorem proceed_row :
    Row before .proceed (before.proceed extractMgmtError).1 (before.proceed extractMgmtError).2 := by
  unfold proceed
  simp only
  split
  · exact kept_row rfl rfl rfl rfl (fun _ _ => nofun)
  · rename_i stack top
    exact kept_row rfl rfl rfl (by rw [top]; rfl) (fun _ _ => nofun)
  · rename_i stack top
    split
    · exact kept_row rfl rfl rfl (by rw [top]; rfl) (fun _ _ => nofun)
    refine .kept _ _ _ rfl rfl ?_ (fun _ _ => nofun)
    intro callback
    simp only [items, top, flatMap_cons, Frame.items, nil_append, countP_append, countP_nil, Nat.zero_add]
  · rename_i callback error batch stack top
    refine .delivered callback error _ rfl rfl ?_
    intro other
    simp only [items, top, flatMap_cons, Frame.items, cons_append, nil_append, countP_cons,
      Deferred.holds, decide_eq_true_eq, @eq_comm _ other callback]
    omega
  · rename_i work batch stack top
    refine .kept _ _ _ rfl rfl ?_ (fun _ _ => nofun)
    intro callback
    simp only [items, top, flatMap_cons, Frame.items, cons_append, nil_append, countP_cons,
      Deferred.holds, Bool.false_eq_true, ↓reduceIte, Nat.add_zero]
  · rename_i now stack top
    exact kept_row rfl rfl rfl (by rw [top]; rfl) (fun _ _ => nofun)
  · rename_i stack top
    exact kept_row rfl rfl rfl (by rw [top]; rfl) (fun _ _ => nofun)
  · rename_i handle expired stack top
    split
    · exact kept_row rfl rfl rfl (by rw [top]; rfl) (fun _ _ => nofun)
    rename_i slot entry found
    obtain ⟨stood, active⟩ := resolve_found found
    exact goOn_row rfl rfl (by rw [top]; rfl) stood active (fun _ => nofun)
  · rename_i slot error stack top
    split
    · exact kept_row rfl rfl rfl (by rw [top]; rfl) (fun _ _ => nofun)
    rename_i entry stood
    split
    · exact kept_row rfl rfl rfl (by rw [top]; rfl) (fun _ _ => nofun)
    · rename_i active
      exact goOn_row rfl rfl (by rw [top]; rfl) stood (by simpa using active) (fun _ => nofun)
  · rename_i transport stack top
    exact kept_row rfl rfl rfl (by rw [top]; rfl) (fun _ _ => nofun)
  · rename_i input stack top
    split
    · exact kept_row rfl rfl rfl (by rw [top]; rfl) (fun _ _ => nofun)
    · exact kept_row rfl rfl rfl (by rw [top]; rfl) (fun _ _ => nofun)
    · rename_i header payload assembler rest turned
      exact message_row top turned

theorem request_row (spec : RequestSpec) (callback : Bool) (sent : Result Unit) (now : TimePoint) :
    Row before (.call (.request spec callback sent now)) (before.enter (.request spec callback sent now)).1
      (before.enter (.request spec callback sent now)).2 := by
  have requested := before.client.request_requested spec (if callback then some before.requests.length else none)
    sent now
  simp only [enter]
  generalize before.client.request spec (if callback then some before.requests.length else none) sent now = result
    at requested
  cases requested with
  | refused header _ _ pending deferred =>
    refine .refused spec callback sent now header _ rfl pending ?_
    intro other
    have place : (if callback then some before.requests.length else none) = some other ↔
        callback ∧ other = before.requests.length := by
      cases callback <;> simp [@eq_comm _ other]
    simp only [items, deferred, countP_append, countP_fail, place]
    omega
  | sent slot old entry header handle _ stood free pending deferred active holds seq group command op =>
    exact .issued spec callback sent now slot old entry header handle _ rfl stood free pending
      (items_same deferred rfl) active holds seq group command op

theorem cancel_row (handle : RequestHandle) :
    Row before (.call (.cancel handle)) (before.enter (.cancel handle)).1 (before.enter (.cancel handle)).2 := by
  simp only [enter, cancel]
  split
  · exact kept_row rfl rfl rfl rfl (fun _ _ => nofun)
  rename_i slot entry found
  obtain ⟨stood, active⟩ := resolve_found found
  refine .cancelled handle slot entry _ rfl stood active ?_ ?_
  · simp only [defer_pending, detach, retire_pending]
    rfl
  intro other
  simp only [items, defer_deferred, detach, retire_deferred, countP_append, countP_fail]
  omega

theorem enter_row (call : Call) : Row before (.call call) (before.enter call).1 (before.enter call).2 := by
  cases call with
  | request spec callback sent now => exact request_row before spec callback sent now
  | cancel handle => exact cancel_row before handle
  | defer work =>
    cases work with
    | none => exact kept_row rfl rfl rfl rfl (fun _ _ => nofun)
    | some work =>
      refine .kept _ _ _ rfl rfl ?_ (fun _ _ => nofun)
      intro callback
      simp only [items, enter, deferWork, countP_append, countP_singleton, Deferred.holds,
        Bool.false_eq_true, ↓reduceIte, Nat.add_zero]
  | onBytes =>
    simp only [enter]
    split
    · exact kept_row rfl rfl rfl rfl (fun _ _ => nofun)
    · exact kept_row rfl rfl rfl rfl (fun _ _ => nofun)
  | _ => exact kept_row rfl rfl rfl rfl (fun _ _ => nofun)

theorem step_row (event : Event) :
    Row before event (before.step extractMgmtError event).1 (before.step extractMgmtError event).2 := by
  cases event with
  | call call =>
    simp only [step]
    split
    · exact enter_row before call
    · exact kept_row rfl rfl rfl rfl (fun _ _ => nofun)
  | proceed => exact proceed_row before

end

def Backed (requests : List Issued) (callback : Callback) (entry : Pending) : Prop :=
  ∃ issued header, requests[callback]? = some issued ∧ issued.header = some header ∧ header.seq = entry.seq ∧
    entry.group = issued.spec.group ∧ entry.command = issued.spec.command ∧
    entry.expectedOp = responseTo issued.spec.op

theorem Backed.append {requests : List Issued} {callback : Callback} (backed : Backed requests callback entry)
    (more : List Issued) : Backed (requests ++ more) callback entry := by
  obtain ⟨issued, header, found, rest⟩ := backed
  have bound := (List.getElem?_eq_some_iff.mp found).1
  exact ⟨issued, header, by rw [List.getElem?_append_left bound]; exact found, rest⟩

/-- Only active entries hold a callback, and the one of the request they stand for. -/
structure Sound (world : World) : Prop where
  cleared : ∀ entry ∈ world.client.pending, entry.active = false → entry.callback = none
  backed : ∀ entry ∈ world.client.pending, ∀ callback, entry.callback = some callback →
    Backed world.requests callback entry

theorem Sound.cleared_slot {before after : World} (sound : before.Sound) {slot : Nat} {entry : Pending}
    (requests : after.requests = before.requests)
    (pending : after.client.pending = before.client.pending.set slot entry.cleared) : after.Sound := by
  constructor
  · intro other member idle
    rw [pending] at member
    rcases mem_or_eq_of_mem_set member with member | rfl
    · exact sound.cleared other member idle
    · rfl
  · intro other member callback held
    rw [pending] at member
    rcases mem_or_eq_of_mem_set member with member | rfl
    · rw [requests]
      exact sound.backed other member callback held
    · cases held

theorem Row.sound {before after : World} {event : Event} {output : Output} (row : Row before event output after)
    (sound : before.Sound) : after.Sound := by
  cases row with
  | kept _ _ _ requests pending => exact ⟨pending ▸ sound.cleared, requests ▸ pending ▸ sound.backed⟩
  | refused _ _ _ _ _ _ requests pending =>
    refine ⟨pending ▸ sound.cleared, ?_⟩
    intro entry member other held
    rw [requests]
    exact (sound.backed entry (pending ▸ member) other held).append _
  | issued spec callback sent now slot old entry header handle _ requests stood free pending items active holds seq
      group command op =>
    constructor
    · intro other member idle
      rw [pending] at member
      rcases mem_or_eq_of_mem_set member with member | rfl
      · exact sound.cleared other member idle
      · rw [active] at idle
        cases idle
    · intro other member number held
      rw [pending] at member
      rw [requests]
      rcases mem_or_eq_of_mem_set member with member | rfl
      · exact (sound.backed other member number held).append _
      rw [holds] at held
      split at held
      · cases held
        exact ⟨_, header, getElem?_concat_length, rfl, seq, group, command, op⟩
      · cases held
  | cancelled _ _ _ _ requests _ _ pending => exact sound.cleared_slot requests pending
  | completed _ _ _ _ _ requests _ _ pending => exact sound.cleared_slot requests pending
  | delivered _ _ _ requests pending => exact ⟨pending ▸ sound.cleared, requests ▸ pending ▸ sound.backed⟩

def passed (world : World) (callback : Callback) : Nat :=
  if world.requests[callback]?.any (fun issued => issued.callback) then 1 else 0

theorem passed_append {before after : World} {issued : Issued} (requests : after.requests = before.requests ++ [issued])
    (callback : Callback) :
    after.passed callback =
      before.passed callback + if issued.callback ∧ callback = before.requests.length then 1 else 0 := by
  rw [passed, passed, requests]
  rcases Nat.lt_trichotomy callback before.requests.length with earlier | rfl | later
  · have other : ¬ (issued.callback = true ∧ callback = before.requests.length) := fun both =>
      Nat.ne_of_lt earlier both.2
    rw [getElem?_append_left earlier, if_neg other, Nat.add_zero]
  · simp
  · have none_now : (before.requests ++ [issued])[callback]? = none := by
      rw [getElem?_eq_none_iff, length_append, length_singleton]
      omega
    have none_before : before.requests[callback]? = none := by
      rw [getElem?_eq_none_iff]
      omega
    have other : ¬ (issued.callback = true ∧ callback = before.requests.length) := fun both =>
      Nat.ne_of_gt later both.2
    rw [none_now, none_before, if_neg other, Nat.add_zero]

end World

def Output.completes (callback : Callback) : Output → Bool
  | .completed other _ => decide (other = callback)
  | _ => false

namespace World

theorem Sound.free_slot {world : World} (sound : world.Sound) {slot : Nat} {old : Pending}
    (stood : world.client.pending[slot]? = some old) (free : old.active = false) (callback : Callback) :
    old.holds callback = false := by
  rw [Pending.holds, sound.cleared old (mem_of_getElem? stood) free]
  rfl

theorem entries_cleared {before after : World} (stood : before.client.pending[slot]? = some entry)
    (pending : after.client.pending = before.client.pending.set slot entry.cleared) (callback : Callback) :
    after.entries callback + (if entry.callback = some callback then 1 else 0) = before.entries callback := by
  have table := countP_set_add (Pending.holds callback) stood entry.cleared
  have empty : entry.cleared.holds callback = false := rfl
  rw [empty, Pending.holds] at table
  simpa only [entries, pending, decide_eq_true_eq, Bool.false_eq_true, ↓reduceIte, Nat.add_zero] using table

theorem Row.balance {before after : World} {event : Event} {output : Output} (row : Row before event output after)
    (sound : before.Sound) (callback : Callback) :
    before.entries callback + before.items callback + after.passed callback =
      after.entries callback + after.items callback + (if output.completes callback then 1 else 0) +
        before.passed callback := by
  cases row with
  | kept _ _ _ requests pending items silent =>
    have quiet : output.completes callback = false := by
      cases output with
      | completed other result => exact absurd rfl (silent other result)
      | _ => rfl
    simp only [entries, pending, items callback, passed, requests, quiet, Bool.false_eq_true, ↓reduceIte]
    omega
  | refused _ _ _ _ _ _ requests pending items =>
    have took := passed_append requests callback
    have queued := items callback
    simp only [entries, pending, completes, Bool.false_eq_true, ↓reduceIte] at took ⊢
    omega
  | issued spec given sent now slot old entry header handle _ requests stood free pending items active holds seq
      group command op =>
    have took := passed_append requests callback
    have table := countP_set_add (Pending.holds callback) stood entry
    have place : entry.holds callback = true ↔ given ∧ callback = before.requests.length := by
      rw [Pending.holds, holds, decide_eq_true_eq]
      cases given <;> simp [@eq_comm _ callback]
    simp only [sound.free_slot stood free, place, Bool.false_eq_true, ↓reduceIte] at table
    simp only [entries, pending, items callback, completes, Bool.false_eq_true, ↓reduceIte] at took ⊢
    omega
  | cancelled _ _ _ _ requests stood _ pending items =>
    have table := entries_cleared stood pending callback
    have queued := items callback
    simp only [passed, requests, completes, Bool.false_eq_true, ↓reduceIte]
    omega
  | completed slot entry result _ _ requests stood active pending items ran answers =>
    have table := entries_cleared stood pending callback
    have queued := items callback
    have once : (if output.completes callback then 1 else 0) = if entry.callback = some callback then 1 else 0 := by
      rw [ran]
      cases entry.callback with
      | none => rfl
      | some held => simp [completes]
    rw [once]
    simp only [passed, requests]
    omega
  | delivered other _ _ requests pending items =>
    have queued := items callback
    simp only [entries, pending, passed, requests, completes, decide_eq_true_eq, @eq_comm _ other]
    omega

variable (extractMgmtError : Bytes → Result MgmtOutcome) (transport : Nat) (config : SmpClientConfig)

def reached (events : List Event) : World := run (World.step extractMgmtError) (start transport config) events

def history (events : List Event) : List (Transition World Event Output) :=
  log (World.step extractMgmtError) (start transport config) events

def runs (history : List (Transition World Event Output)) (callback : Callback) : Nat :=
  history.countP fun t => t.output.completes callback

theorem start_sound : (start transport config).Sound := by
  constructor
  · intro entry member _
    rw [eq_of_mem_replicate member]
  intro entry member callback held
  rw [eq_of_mem_replicate member] at held
  cases held

theorem reached_sound (events : List Event) : (reached extractMgmtError transport config events).Sound :=
  state_invariant _ _ Sound (start_sound transport config) (fun state event sound => (step_row state event).sound sound)
    events

theorem start_entries (callback : Callback) : (start transport config).entries callback = 0 := by
  apply countP_eq_zero.mpr
  intro entry member
  rw [eq_of_mem_replicate member]
  simp [Pending.holds]

theorem reached_balance (events : List Event) (callback : Callback) :
    (reached extractMgmtError transport config events).entries callback +
        (reached extractMgmtError transport config events).items callback +
        runs (history extractMgmtError transport config events) callback =
      (reached extractMgmtError transport config events).passed callback :=
  run_balance _ _ Sound (fun world => world.entries callback + world.items callback) (passed · callback)
    (completes callback) (reached_sound extractMgmtError transport config)
    (by rw [start_entries]; rfl) (fun state event sound => (step_row state event).balance sound callback) events

def Delivers (before : World) (callback : Callback) (response : RawResponse) : Prop :=
  ∃ (slot : Nat) (entry : Pending) (issued : Issued) (header : Header),
    before.client.pending[slot]? = some entry ∧ entry.active = true ∧ entry.callback = some callback ∧
    before.Answers entry response ∧ before.requests[callback]? = some issued ∧
    issued.header = some header ∧ response.header.seq = header.seq ∧
    response.header.group = issued.spec.group ∧ response.header.command = issued.spec.command ∧
    response.header.op = responseTo issued.spec.op

section
variable {before after : World} {event : Event} {callback : Callback}

theorem Row.delivers {response : RawResponse}
    (row : Row before event (.completed callback (.ok response)) after) (sound : before.Sound) :
    before.Delivers callback response := by
  generalize success : Output.completed callback (.ok response) = output at row
  cases row with
  | kept _ _ _ _ _ _ silent => exact absurd success.symm (silent _ _)
  | refused | issued | cancelled | delivered => cases success
  | completed slot entry _ _ _ _ stood active _ _ ran answers =>
    rw [ran] at success
    cases held : entry.callback with
    | none =>
      rw [held] at success
      cases success
    | some =>
      rw [held] at success
      cases success
      have answered := answers response rfl
      obtain ⟨issued, header, found, sent, seq, group, command, op⟩ :=
        sound.backed entry (mem_of_getElem? stood) callback held
      exact ⟨slot, entry, issued, header, stood, active, held, answered, found, sent, answered.seq.trans seq.symm,
        answered.group.trans group, answered.command.trans command, answered.op.trans op⟩

theorem Row.proceeds {result : Result RawResponse}
    (row : Row before event (.completed callback result) after) : event = .proceed := by
  generalize ran : Output.completed callback result = output at row
  cases row with
  | kept _ _ _ _ _ _ silent => exact absurd ran.symm (silent _ _)
  | refused | issued | cancelled => cases ran
  | completed | delivered => rfl

end

/-- Every callback runs once at most, never inside `request` or `cancel`, and is held in one place until then; a success
answers its request. -/
theorem callbacks_in_custody (events : List Event) :
    (∀ callback issued, (reached extractMgmtError transport config events).requests[callback]? = some issued →
      issued.callback = true →
      runs (history extractMgmtError transport config events) callback ≤ 1 ∧
      (runs (history extractMgmtError transport config events) callback = 0 →
        (reached extractMgmtError transport config events).entries callback +
            (reached extractMgmtError transport config events).items callback = 1 ∧
          ∀ entry ∈ (reached extractMgmtError transport config events).client.pending,
            entry.callback = some callback → entry.active = true)) ∧
    ∀ t ∈ history extractMgmtError transport config events, ∀ callback result,
      t.output = .completed callback result →
      (∀ spec given sent now, t.event ≠ .call (.request spec given sent now)) ∧
      (∀ handle, t.event ≠ .call (.cancel handle)) ∧
      ∀ response, result = .ok response → t.before.Delivers callback response := by
  constructor
  · intro callback issued found given
    have balance := reached_balance extractMgmtError transport config events callback
    have one : (reached extractMgmtError transport config events).passed callback = 1 := by
      rw [passed, found]
      simp [given]
    refine ⟨by omega, fun never => ⟨by omega, ?_⟩⟩
    intro entry member held
    have sound := reached_sound extractMgmtError transport config events
    by_contra idle
    rw [sound.cleared entry member (by simpa using idle)] at held
    cases held
  · refine every_transition _ _ Sound _ (start_sound transport config)
      (fun state event sound => (step_row state event).sound sound) ?_ events
    intro state event sound callback result ran
    have row := @step_row extractMgmtError state event
    rw [show (state.step extractMgmtError event).1 = .completed callback result from ran] at row
    have proceeds := row.proceeds
    subst proceeds
    refine ⟨fun _ _ _ _ => nofun, fun _ => nofun, ?_⟩
    intro response success
    subst success
    exact row.delivers sound

def asksAgain : List Event :=
  [.call (.request {} true (.ok ()) 0), .call (.onBytes (encode { op := .readResponse, length := 1 } ++ [0xA0])),
    .proceed, .call (.request {} true (.ok ()) 0), .proceed, .proceed, .call (.poll 5000), .proceed, .proceed, .proceed]

example : runs (history (fun _ => .ok {}) 0 {} asksAgain) 0 = 1 ∧
    runs (history (fun _ => .ok {}) 0 {} asksAgain) 1 = 1 := by
  decide +kernel

end World

end Smply.Smp
