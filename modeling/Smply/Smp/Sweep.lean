import Smply.Smp.Table

namespace Smply.Smp

open Systems List SmpClient

variable {before after : World} {error : Error} {output : Output} {slot next : Nat} {top : Frame}
  {frames : List Frame}

def Frame.reaches (slot : Nat) : Frame → Bool
  | .failAll next _ => next ≤ slot
  | _ => false

def Covers (frames : List Frame) (slot : Nat) : Prop := ∃ frame ∈ frames, frame.reaches slot = true

instance (frames : List Frame) (slot : Nat) : Decidable (Covers frames slot) :=
  inferInstanceAs (Decidable (∃ frame ∈ frames, frame.reaches slot = true))

theorem covers_append {first second : List Frame} :
    Covers (first ++ second) slot ↔ Covers first slot ∨ Covers second slot := by
  constructor
  · rintro ⟨frame, member, reaches⟩
    rcases mem_append.mp member with member | member
    · exact .inl ⟨frame, member, reaches⟩
    · exact .inr ⟨frame, member, reaches⟩
  · rintro (⟨frame, member, reaches⟩ | ⟨frame, member, reaches⟩)
    · exact ⟨frame, mem_append_left _ member, reaches⟩
    · exact ⟨frame, mem_append_right _ member, reaches⟩

theorem covers_failAll : Covers [.failAll next error] slot ↔ next ≤ slot := by
  constructor
  · rintro ⟨frame, member, reaches⟩
    cases mem_singleton.mp member
    simpa [Frame.reaches] using reaches
  · intro bound
    exact ⟨_, mem_singleton.mpr rfl, by simpa [Frame.reaches] using bound⟩

namespace World

def Swept (world : World) (frames : List Frame) : Prop :=
  ∀ slot entry, world.client.pending[slot]? = some entry → entry.active = true → Covers frames slot

def Left (before after : World) (slot : Nat) : Prop :=
  ∀ entry, after.client.pending[slot]? = some entry → entry.active = true → before.client.pending[slot]? = some entry

theorem Booked.left {event : Event} (booked : Booked before event output after)
    (slot : Nat) : Left before after slot ∨ ∃ spec callback now, event = .call (.request spec callback (.ok ()) now) ∧
      before.client.admits spec = some slot := by
  rcases booked.table with same | ⟨spec, callback, now, place, entry, called, admitted, pending, _⟩ |
    ⟨place, old, _, _, pending⟩
  · left
    intro entry stands _
    rw [← same]
    exact stands
  · by_cases here : place = slot
    · subst here
      exact .inr ⟨spec, callback, now, called, admitted⟩
    left
    intro other stands _
    rw [pending, getElem?_set_ne here] at stands
    exact stands
  · left
    intro entry stands active
    rw [pending] at stands
    by_cases here : place = slot
    · subst here
      rw [pending_set_here stands] at active
      cases active
    · rw [getElem?_set_ne here] at stands
      exact stands

variable {extractMgmtError : Bytes → Result MgmtOutcome}

theorem goOn_frames (before : World) (frames rest : List Frame) (completed : Option SmpClient.Completion × SmpClient) :
    ∃ called, (before.goOn (frames ++ rest) completed).2.stack = called ++ frames ++ rest ∧
      ∀ frame ∈ called, frame = .callback := by
  obtain ⟨completion, client⟩ := completed
  cases completion with
  | none => exact ⟨[], rfl, fun _ member => (not_mem_nil member).elim⟩
  | some => exact ⟨[.callback], rfl, fun _ member => mem_singleton.mp member⟩

theorem goOn_client (before : World) (frames : List Frame) (completed : Option SmpClient.Completion × SmpClient) :
    (before.goOn frames completed).2.client = completed.2 := by
  obtain ⟨completion, client⟩ := completed
  cases completion <;> rfl

theorem complete_pending (client : SmpClient) (slot : Nat) (entry : Pending) (result : Result RawResponse) :
    (client.complete slot entry result).2.pending = client.pending.set slot entry.cleared := by
  simp only [complete, detach, retire_pending]
  rfl

structure Leaves (top : Frame) (frames : List Frame) (after : World) : Prop where
  settled : ∀ transport, Frame.rebind transport ∉ frames
  covers : ∀ slot, Covers [top] slot →
    (∀ entry, after.client.pending[slot]? = some entry → entry.active = false) ∨ Covers frames slot

theorem leaves_other (settled : ∀ transport, Frame.rebind transport ∉ frames)
    (other : ∀ next error, top ≠ .failAll next error) : Leaves top frames after := by
  refine ⟨settled, fun slot covers => ?_⟩
  obtain ⟨frame, member, reaches⟩ := covers
  cases mem_singleton.mp member
  cases top with
  | failAll next error => exact absurd rfl (other next error)
  | _ => cases reaches

theorem goOn_leaves {frame : Frame} {rest : List Frame}
    {completed : Option SmpClient.Completion × SmpClient} (other : ∀ next error, top ≠ .failAll next error)
    (plain : ∀ transport, frame ≠ .rebind transport) : ∃ frames,
      (before.goOn (frame :: rest) completed).2.stack = frames ++ rest ∧
      Leaves top frames (before.goOn (frame :: rest) completed).2 := by
  obtain ⟨called, stack, callbacks⟩ := goOn_frames before [frame] rest completed
  refine ⟨called ++ [frame], stack, leaves_other ?_ other⟩
  intro transport member
  rcases mem_append.mp member with member | member
  · cases callbacks _ member
  · exact plain transport (mem_singleton.mp member).symm

theorem covers_next (covers : Covers [.failAll next error] slot) :
    slot = next ∨ Covers [.failAll (next + 1) error] slot := by
  rw [covers_failAll] at covers
  by_cases same : slot = next
  · exact .inl same
  · exact .inr (covers_failAll.mpr (by omega))

theorem failAll_leaves {rest : List Frame} (stood : before.stack = .failAll next error :: rest) : ∃ frames,
      (before.proceed extractMgmtError).2.stack = frames ++ rest ∧
      Leaves (.failAll next error) frames (before.proceed extractMgmtError).2 := by
  simp only [proceed, stood]
  split
  · rename_i ended
    refine ⟨[], rfl, fun _ => not_mem_nil, fun slot covers => .inl fun entry stands => ?_⟩
    have reaches := covers_failAll.mp covers
    have bound : slot < before.client.pending.length := (List.getElem?_eq_some_iff.mp stands).1
    have length := getElem?_eq_none_iff.mp ended
    omega
  · rename_i entry found
    split
    · rename_i idle
      refine ⟨[_], rfl, by simp, fun slot covers => ?_⟩
      rcases covers_next covers with rfl | covers
      · left
        intro other stands
        obtain rfl : entry = other := Option.some.inj (found.symm.trans stands)
        simpa using idle
      · exact .inr covers
    · obtain ⟨called, stack, callbacks⟩ := goOn_frames before [.failAll (next + 1) error] rest
        (before.client.complete next entry (.error error))
      refine ⟨called ++ [Frame.failAll (next + 1) error], stack, ?_, fun slot covers => ?_⟩
      · intro transport member
        rcases mem_append.mp member with member | member
        · cases callbacks _ member
        · cases mem_singleton.mp member
      · rcases covers_next covers with rfl | covers
        · left
          intro other stands
          rw [goOn_client, complete_pending] at stands
          rw [pending_set_here stands]
          rfl
        · exact .inr (covers_append.mpr (.inr covers))

theorem proceed_leaves {before : World} {top : Frame} {rest : List Frame} (stood : before.stack = top :: rest) :
    ∃ frames, (before.proceed extractMgmtError).2.stack = frames ++ rest ∧
      Leaves top frames (before.proceed extractMgmtError).2 := by
  have none_left {frames : List Frame} (empty : frames = []) (transport : Nat) : Frame.rebind transport ∉ frames := by
    rw [empty]
    exact not_mem_nil
  cases top with
  | failAll => exact failAll_leaves stood
  | callback | rebind =>
    simp only [proceed, stood]
    exact ⟨[], rfl, leaves_other (none_left rfl) (fun _ _ => nofun)⟩
  | deliver batch =>
    cases batch with
    | nil =>
      simp only [proceed, stood]
      split
      · exact ⟨[], rfl, leaves_other (none_left rfl) (fun _ _ => nofun)⟩
      · exact ⟨[_], rfl, leaves_other (by simp) (fun _ _ => nofun)⟩
    | cons item =>
      cases item <;> simp only [proceed, stood] <;> exact ⟨[_, _], rfl, leaves_other (by simp) (fun _ _ => nofun)⟩
  | snapshot =>
    simp only [proceed, stood]
    exact ⟨[_], rfl, leaves_other (by simp) (fun _ _ => nofun)⟩
  | sweep expired =>
    cases expired with
    | nil =>
      simp only [proceed, stood]
      exact ⟨[], rfl, leaves_other (none_left rfl) (fun _ _ => nofun)⟩
    | cons =>
      simp only [proceed, stood]
      split
      · exact ⟨[_], rfl, leaves_other (by simp) (fun _ _ => nofun)⟩
      · exact goOn_leaves (fun _ _ => nofun) (fun _ => nofun)
  | feed =>
    simp only [proceed, stood]
    split
    · exact ⟨[], rfl, leaves_other (none_left rfl) (fun _ _ => nofun)⟩
    · exact ⟨[_], rfl, leaves_other (by simp) (fun _ _ => nofun)⟩
    · exact goOn_leaves (fun _ _ => nofun) (fun _ => nofun)

theorem enter_frames (before : World) (call : Call) : ∃ frames, (before.enter call).2.stack = frames ++ before.stack ∧
    ((∀ transport, Frame.rebind transport ∉ frames) ∨
      ∃ error transport, frames = [.failAll 0 error, .rebind transport]) := by
  cases call with
  | defer work => cases work <;> exact ⟨[], rfl, .inl fun _ => not_mem_nil⟩
  | onBytes =>
    simp only [enter]
    split <;> exact ⟨[_], rfl, .inl (by simp)⟩
  | poll | destroy => exact ⟨[_, _, _], rfl, .inl (by simp)⟩
  | rebindTransport => exact ⟨[_, _], rfl, .inr ⟨_, _, rfl⟩⟩
  | onDisconnected => exact ⟨[_], rfl, .inl (by simp)⟩
  | _ => exact ⟨[], rfl, .inl fun _ => not_mem_nil⟩

theorem Swept.turn {above : List Frame}
    (swept : before.Swept (top :: above)) (left : ∀ slot, Left before after slot) (leaves : Leaves top frames after) :
    after.Swept (frames ++ above) := by
  intro slot entry stands active
  rcases covers_append.mp (show Covers ([top] ++ above) slot from swept slot entry (left slot entry stands active) active)
    with mine | others
  · rcases leaves.covers slot mine with idle | covers
    · rw [idle entry stands] at active
      cases active
    · exact covers_append.mpr (.inl covers)
  · exact covers_append.mpr (.inr others)

theorem Swept.enter {event : Event} {above : List Frame}
    (swept : before.Swept above) (booked : Booked before event output after)
    (guard : ∀ spec callback now slot, event = .call (.request spec callback (.ok ()) now) →
      before.client.admits spec = some slot → Covers above slot) (frames : List Frame) :
    after.Swept (frames ++ above) := by
  intro slot entry stands active
  refine covers_append.mpr (.inr ?_)
  rcases booked.left slot with left | ⟨spec, callback, now, called, admitted⟩
  · exact swept slot entry (left entry stands active) active
  · exact guard spec callback now slot called admitted

theorem goOn_gone (before : World) (frames : List Frame) (completed : Option SmpClient.Completion × SmpClient) :
    (before.goOn frames completed).2.gone = before.gone := by
  obtain ⟨completion, client⟩ := completed
  cases completion <;> rfl

theorem proceed_gone (before : World) : (before.proceed extractMgmtError).2.gone = before.gone := by
  unfold proceed
  simp only
  split
  · rfl
  · rfl
  · split <;> rfl
  · rfl
  · rfl
  · rfl
  · rfl
  · split
    · rfl
    · exact goOn_gone ..
  · split
    · rfl
    split
    · rfl
    · exact goOn_gone ..
  · rfl
  · split
    · rfl
    · rfl
    · exact goOn_gone ..

theorem enter_gone {before : World} {call : Call} (other : call ≠ .destroy) :
    (before.enter call).2.gone = before.gone := by
  cases call with
  | defer work => cases work <;> rfl
  | onBytes =>
    simp only [enter]
    split <;> rfl
  | destroy => exact absurd rfl other
  | _ => rfl

/-- During destruction a request goes where a sweep has still to come. -/
def inReach (before : World) : Event → Bool
  | .call (.request spec callback (.ok ()) now) =>
    !before.callable (.request spec callback (.ok ()) now) || !before.gone ||
      (before.client.admits spec).all fun slot => decide (Covers before.stack slot)
  | _ => true

def Draining (world : World) : Prop :=
  (∃ frames batch, world.stack = frames ++ [.deliver batch]) ∨ world.stack = [] ∧ world.client.deferred = []

structure Closing (world : World) : Prop where
  swept : world.gone = true → world.Swept world.stack
  draining : world.gone = true → world.Draining

section
variable {before : World}

theorem proceed_draining (draining : before.Draining) : (before.proceed extractMgmtError).2.Draining := by
  rcases draining with ⟨frames, batch, stack⟩ | ⟨stack, deferred⟩
  · cases frames with
    | cons top frames =>
      obtain ⟨left, after, _⟩ := @proceed_leaves extractMgmtError before top (frames ++ [Frame.deliver batch]) stack
      exact .inl ⟨left ++ frames, batch, by rw [after, append_assoc]⟩
    | nil =>
      cases batch with
      | nil =>
        simp only [proceed, show before.stack = [.deliver []] from stack]
        split
        · rename_i empty
          exact .inr ⟨rfl, isEmpty_iff.mp empty⟩
        · exact .inl ⟨[], _, rfl⟩
      | cons item batch =>
        cases item with
        | fail callback error =>
          simp only [proceed, show before.stack = [.deliver (.fail callback error :: batch)] from stack]
          exact .inl ⟨[.callback], batch, rfl⟩
        | work work =>
          simp only [proceed, show before.stack = [.deliver (.work work :: batch)] from stack]
          exact .inl ⟨[.callback], batch, rfl⟩
  · right
    simp only [proceed, stack]
    exact ⟨trivial, deferred⟩

theorem enter_draining {call : Call} (draining : before.Draining) (busy : before.stack ≠ []) :
    (before.enter call).2.Draining := by
  rcases draining with ⟨frames, batch, stack⟩ | ⟨stack, _⟩
  · obtain ⟨pushed, after, _⟩ := before.enter_frames call
    exact .inl ⟨pushed ++ frames, batch, by rw [after, stack, append_assoc]⟩
  · exact absurd stack busy

theorem destroy_closing (callable : before.callable .destroy = true) : (before.enter .destroy).2.Closing := by
  have idle : before.stack = [] := by
    simp only [World.callable, Bool.and_eq_true, List.isEmpty_iff] at callable
    exact callable.1
  constructor
  · intro _ slot entry _ _
    refine ⟨.failAll 0 (.at .cancelled "smp client: destroyed"), ?_, by simp [Frame.reaches]⟩
    simp [enter]
  intro _
  refine .inl ⟨[.deliver [], .failAll 0 (.at .cancelled "smp client: destroyed")], [], ?_⟩
  simp [enter, idle]

theorem callable_gone {call : Call} (callable : before.callable call = true) (gone : before.gone = true) :
    before.stack ≠ [] := by
  intro idle
  cases call <;> simp [World.callable, idle, gone] at callable

theorem step_closing (closing : before.Closing) (event : Event)
    (reach : before.inReach event = true) : (before.step extractMgmtError event).2.Closing := by
  cases event with
  | proceed =>
    have gone := @proceed_gone extractMgmtError before
    simp only [step]
    constructor
    · intro dying
      rw [gone] at dying
      have swept := closing.swept dying
      cases stood : before.stack with
      | nil =>
        simp only [proceed, stood] at swept ⊢
        exact swept
      | cons top rest =>
        obtain ⟨frames, stack, leaves⟩ := @proceed_leaves extractMgmtError before top rest stood
        rw [stood] at swept
        rw [stack]
        refine swept.turn (fun slot => ?_) leaves
        rcases (@proceed_booked extractMgmtError before).left slot with left | ⟨_, _, _, called, _⟩
        · exact left
        · cases called
    · intro dying
      exact proceed_draining (closing.draining (gone ▸ dying))
  | call call =>
    simp only [step]
    split
    · rename_i callable
      by_cases destroys : call = .destroy
      · subst destroys
        exact destroy_closing callable
      have gone := @enter_gone before call destroys
      constructor
      · intro dying
        rw [gone] at dying
        obtain ⟨frames, stack, _⟩ := before.enter_frames call
        rw [stack]
        refine (closing.swept dying).enter (enter_booked before call) ?_ frames
        intro spec callback now slot called admitted
        cases called
        simpa [inReach, callable, dying, admitted] using reach
      · intro dying
        rw [gone] at dying
        exact enter_draining (closing.draining dying) (callable_gone callable dying)
    · exact closing

end

end World

def Deferred.isWork (work : Nat) : Deferred → Bool
  | .fail _ _ => false
  | .work other => decide (other = work)

def Call.queues (work : Nat) : Call → Bool
  | .defer (some other) => decide (other = work)
  | _ => false

def Output.works (work : Nat) : Output → Bool
  | .worked other => decide (other = work)
  | _ => false

namespace World

def works (world : World) (work : Nat) : Nat :=
  world.client.deferred.countP (Deferred.isWork work) +
    (world.stack.flatMap Frame.items).countP (Deferred.isWork work)

def queues (work : Nat) (t : Transition World Event Output) : Bool :=
  match t.event with
  | .call call => t.before.callable call && call.queues work
  | .proceed => false

def waiting (world : World) : List Deferred := world.client.deferred ++ world.stack.flatMap Frame.items

theorem works_eq (world : World) (work : Nat) : world.works work = world.waiting.countP (Deferred.isWork work) := by
  rw [works, waiting, countP_append]

inductive Handed (before : World) (output : Output) (after : World) : Prop
  | kept (same : before.waiting.Perm after.waiting) (silent : ∀ work, output ≠ .worked work)
  | failed (callback : Callback) (error : Error) (took : before.waiting.Perm (.fail callback error :: after.waiting))
      (ran : output = .completed callback (.error error))
  | worked (work : Nat) (took : before.waiting.Perm (.work work :: after.waiting)) (ran : output = .worked work)

theorem quiet_handed (deferred : after.client.deferred = before.client.deferred)
    (stack : after.stack.flatMap Frame.items = before.stack.flatMap Frame.items)
    (silent : ∀ work, output ≠ .worked work) : Handed before output after :=
  .kept (by rw [waiting, waiting, deferred, stack]) silent

theorem goOn_handed {completed : Option SmpClient.Completion × SmpClient}
    (deferred : completed.2.deferred = before.client.deferred)
    (stack : frames.flatMap Frame.items = before.stack.flatMap Frame.items) :
    Handed before (before.goOn frames completed).1 (before.goOn frames completed).2 := by
  obtain ⟨completion, client⟩ := completed
  cases completion with
  | none | some => exact quiet_handed deferred stack (fun _ => nofun)

theorem complete_deferred (client : SmpClient) (slot : Nat) (entry : Pending) (result : Result RawResponse) :
    (client.complete slot entry result).2.deferred = client.deferred := by
  simp only [complete, detach, retire_deferred]

theorem onMessage_deferred (client : SmpClient) (header : Header) (payload : Bytes) :
    (client.onMessage extractMgmtError header payload).2.deferred = client.deferred := by
  unfold onMessage
  simp only
  split
  · split <;> rfl
  split
  · rfl
  · exact complete_deferred ..

theorem proceed_handed (before : World) :
    Handed before (before.proceed extractMgmtError).1 (before.proceed extractMgmtError).2 := by
  unfold proceed
  simp only
  split
  · exact quiet_handed rfl rfl (by simp)
  · rename_i stack top
    exact quiet_handed rfl (by rw [top]; rfl) (by simp)
  · rename_i stack top
    split
    · exact quiet_handed rfl (by rw [top]; rfl) (by simp)
    · refine .kept ?_ (by simp)
      simp [waiting, top, Frame.items]
  · rename_i callback error batch stack top
    refine .failed callback error ?_ rfl
    simp only [waiting, top, flatMap_cons, Frame.items, cons_append, nil_append]
    exact perm_middle
  · rename_i other batch stack top
    refine .worked other ?_ rfl
    simp only [waiting, top, flatMap_cons, Frame.items, cons_append, nil_append]
    exact perm_middle
  · rename_i now stack top
    exact quiet_handed rfl (by rw [top]; rfl) (by simp)
  · rename_i stack top
    exact quiet_handed rfl (by rw [top]; rfl) (by simp)
  · rename_i handle expired stack top
    split
    · exact quiet_handed rfl (by rw [top]; rfl) (by simp)
    · exact goOn_handed (complete_deferred ..) (by rw [top]; rfl)
  · rename_i slot error stack top
    split
    · exact quiet_handed rfl (by rw [top]; rfl) (by simp)
    split
    · exact quiet_handed rfl (by rw [top]; rfl) (by simp)
    · exact goOn_handed (complete_deferred ..) (by rw [top]; rfl)
  · rename_i transport stack top
    exact quiet_handed rfl (by rw [top]; rfl) (by simp)
  · rename_i input stack top
    split
    · exact quiet_handed rfl (by rw [top]; rfl) (by simp)
    · exact quiet_handed rfl (by rw [top]; rfl) (by simp)
    · exact goOn_handed (onMessage_deferred ..) (by rw [top]; rfl)

theorem proceed_works (before : World) (work : Nat) :
    before.works work = (before.proceed extractMgmtError).2.works work +
      if (before.proceed extractMgmtError).1.works work then 1 else 0 := by
  have handed := @proceed_handed extractMgmtError before
  generalize before.proceed extractMgmtError = result at handed
  obtain ⟨output, after⟩ := result
  rw [works_eq, works_eq]
  cases handed with
  | kept same silent =>
    have quiet : output.works work = false := by
      cases output with
      | worked other => exact absurd rfl (silent other)
      | _ => rfl
    simp [same.countP_eq, quiet]
  | failed callback error took ran =>
    subst ran
    simp [took.countP_eq, Deferred.isWork, Output.works]
  | worked other took ran =>
    subst ran
    simp [took.countP_eq, countP_cons, Deferred.isWork, Output.works]

theorem Handed.waits (handed : Handed before output after) {callback : Callback}
    (waits : Deferred.fail callback error ∈ before.waiting) :
    .fail callback error ∈ after.waiting ∨ output = .completed callback (.error error) := by
  cases handed with
  | kept same => exact .inl (same.mem_iff.mp waits)
  | failed _ _ took ran =>
    rcases mem_cons.mp (took.mem_iff.mp waits) with same | waits
    · cases same
      exact .inr ran
    · exact .inl waits
  | worked _ took =>
    rcases mem_cons.mp (took.mem_iff.mp waits) with same | waits
    · cases same
    · exact .inl waits

section
variable (before : World)

theorem enter_deferred (call : Call) :
    before.client.deferred <+: (before.enter call).2.client.deferred := by
  cases call with
  | request spec callback sent now =>
    have requested := before.client.request_requested spec (if callback then some before.requests.length else none)
      sent now
    simp only [enter]
    generalize before.client.request spec (if callback then some before.requests.length else none) sent now = result
      at requested
    cases requested with
    | refused _ _ _ _ deferred => exact ⟨_, deferred.symm⟩
    | sent _ _ _ _ _ _ _ _ _ deferred => exact ⟨[], by simp [deferred]⟩
  | cancel =>
    simp only [enter, cancel]
    split
    · exact prefix_rfl
    · exact ⟨_, by rw [defer_deferred]; simp only [detach, retire_deferred]; rfl⟩
  | defer work =>
    cases work with
    | none => exact prefix_rfl
    | some => exact prefix_append _ _
  | onBytes =>
    simp only [enter]
    split <;> exact prefix_rfl
  | _ => exact prefix_rfl

theorem enter_waits (call : Call) {item : Deferred} (waits : item ∈ before.waiting) :
    item ∈ (before.enter call).2.waiting := by
  obtain ⟨frames, stack, _⟩ := before.enter_frames call
  obtain ⟨more, deferred⟩ := before.enter_deferred call
  rw [waiting, ← deferred, stack]
  rw [waiting] at waits
  simp only [mem_append, flatMap_append] at waits ⊢
  rcases waits with waits | waits
  · exact .inl (.inl waits)
  · exact .inr (.inr waits)

theorem defer_works (client : SmpClient) (callback : Option Callback) (error : Error) (work : Nat) :
    (client.defer callback error).deferred.countP (Deferred.isWork work) =
      client.deferred.countP (Deferred.isWork work) := by
  rw [defer_deferred, countP_append]
  cases callback <;> rfl

theorem request_works (spec : RequestSpec) (callback : Bool) (sent : Result Unit)
    (now : TimePoint) (work : Nat) :
    (before.enter (.request spec callback sent now)).2.works work = before.works work := by
  have requested := before.client.request_requested spec (if callback then some before.requests.length else none)
    sent now
  simp only [enter, works]
  generalize before.client.request spec (if callback then some before.requests.length else none) sent now = result
    at requested
  cases requested with
  | refused header error after pending deferred =>
    simp only [deferred, countP_append]
    cases callback <;> rfl
  | sent _ _ _ _ _ _ _ _ _ deferred => simp only [deferred]

theorem enter_works (call : Call) (work : Nat) :
    (before.enter call).2.works work = before.works work + if call.queues work then 1 else 0 := by
  cases call with
  | request spec callback sent now => exact request_works before spec callback sent now work
  | cancel =>
    simp only [enter, cancel]
    split
    · rfl
    · simp only [works, defer_works, detach, retire_deferred, Call.queues, Bool.false_eq_true,
        ↓reduceIte, Nat.add_zero]
  | defer queued =>
    cases queued with
    | none => rfl
    | some =>
      simp only [works, enter, deferWork, countP_append, countP_singleton, Deferred.isWork,
        Call.queues, decide_eq_true_eq]
      omega
  | onBytes =>
    simp only [enter]
    split <;> rfl
  | _ => rfl

theorem enter_silent (call : Call) (work : Nat) : (before.enter call).1.works work = false := by
  cases call with
  | defer queued => cases queued <;> rfl
  | onBytes =>
    simp only [enter]
    split <;> rfl
  | _ => rfl

theorem step_works (event : Event) (work : Nat) :
    before.works work + (if queues work (transition (World.step extractMgmtError) before event) then 1 else 0) =
      (before.step extractMgmtError event).2.works work +
        if (before.step extractMgmtError event).1.works work then 1 else 0 := by
  cases event with
  | proceed =>
    have worked := @proceed_works extractMgmtError before work
    simp only [queues, transition, Bool.false_eq_true, ↓reduceIte, Nat.add_zero]
    exact worked
  | call call =>
    simp only [queues, transition, step]
    by_cases callable : before.callable call = true
    · have queued := before.enter_works call work
      have silent := before.enter_silent call work
      simp only [callable, Bool.true_and, ↓reduceIte, silent, Bool.false_eq_true, Nat.add_zero]
      exact queued.symm
    · simp only [callable, Bool.false_and, Bool.false_eq_true, ↓reduceIte]
      rfl

end

variable (extractMgmtError) (transport : Nat) (config : SmpClientConfig)

def queuings (history : List (Transition World Event Output)) (work : Nat) : Nat := history.countP (queues work)

def workings (history : List (Transition World Event Output)) (work : Nat) : Nat :=
  history.countP fun t => t.output.works work

theorem reached_works (events : List Event) (work : Nat) :
    (reached extractMgmtError transport config events).works work +
        workings (history extractMgmtError transport config events) work =
      queuings (history extractMgmtError transport config events) work := by
  have balance := log_balance (World.step extractMgmtError) (start transport config) (works · work) (queues work)
    (fun t => t.output.works work) (fun state event => step_works state event work) events
  have empty : (start transport config).works work = 0 := rfl
  rw [empty, Nat.zero_add] at balance
  exact balance

theorem reached_closing (events : List Event)
    (reach : ∀ t ∈ history extractMgmtError transport config events, t.before.inReach t.event = true) :
    (reached extractMgmtError transport config events).Closing := by
  refine history_invariant _ _
    (fun past (state : World) => (∀ t ∈ past, inReach t.before t.event = true) → state.Closing) ?_ ?_ events reach
  · intro _
    exact ⟨nofun, nofun⟩
  intro past state event closing reach
  exact step_closing (closing fun t member => reach t (mem_append_left _ member)) event
    (reach _ (mem_append_right _ (mem_singleton.mpr rfl)))

/-- When the destructor has returned, every callback has run once and all work has run, if no request meanwhile went
into a slot already passed. -/
theorem destructor_completes_all (events : List Event)
    (reach : ∀ t ∈ history extractMgmtError transport config events, t.before.inReach t.event = true)
    (gone : (reached extractMgmtError transport config events).gone = true)
    (returned : (reached extractMgmtError transport config events).stack = []) :
    (∀ callback issued, (reached extractMgmtError transport config events).requests[callback]? = some issued →
      issued.callback = true → runs (history extractMgmtError transport config events) callback = 1) ∧
    (reached extractMgmtError transport config events).client.deferred = [] ∧
    ∀ work, workings (history extractMgmtError transport config events) work =
      queuings (history extractMgmtError transport config events) work := by
  have closing := reached_closing extractMgmtError transport config events reach
  have sound := reached_sound extractMgmtError transport config events
  have drained : (reached extractMgmtError transport config events).client.deferred = [] := by
    rcases closing.draining gone with ⟨frames, batch, stack⟩ | ⟨_, deferred⟩
    · rw [returned] at stack
      exact absurd stack.symm (by simp)
    · exact deferred
  have idle : ∀ entry ∈ (reached extractMgmtError transport config events).client.pending, entry.active = false := by
    intro entry member
    obtain ⟨slot, stands⟩ := getElem?_of_mem member
    by_contra active
    obtain ⟨frame, within, _⟩ := closing.swept gone slot entry stands (by simpa using active)
    rw [returned] at within
    exact not_mem_nil within
  refine ⟨?_, drained, ?_⟩
  · intro callback issued found given
    have balance := reached_balance extractMgmtError transport config events callback
    have one : (reached extractMgmtError transport config events).passed callback = 1 := by
      rw [passed, found]
      simp [given]
    have entries : (reached extractMgmtError transport config events).entries callback = 0 := by
      apply countP_eq_zero.mpr
      intro entry member
      rw [Pending.holds, sound.cleared entry member (idle entry member)]
      exact Bool.false_ne_true
    have items : (reached extractMgmtError transport config events).items callback = 0 := by
      rw [World.items, drained, returned]
      rfl
    omega
  · intro work
    have balance := reached_works extractMgmtError transport config events work
    have works : (reached extractMgmtError transport config events).works work = 0 := by
      rw [World.works, drained, returned]
      rfl
    omega

/-- The callback of the only request asks again while the destructor completes it. -/
def asksWhileDying : List Event :=
  [.call (.request {} true (.ok ()) 0), .call .destroy, .proceed, .proceed, .call (.request {} true (.ok ()) 0),
    .proceed, .proceed, .proceed]

theorem destructor_leaves_request : (reached (fun _ => .ok {}) 0 {} asksWhileDying).gone = true ∧
    (reached (fun _ => .ok {}) 0 {} asksWhileDying).stack = [] ∧
    ((reached (fun _ => .ok {}) 0 {} asksWhileDying).requests.map fun issued => issued.callback) = [true, true] ∧
    runs (history (fun _ => .ok {}) 0 {} asksWhileDying) 1 = 0 := by
  exact ⟨by decide +kernel, length_eq_zero_iff.mp (by decide +kernel), by decide +kernel, by decide +kernel⟩

def dies : List Event :=
  [.call (.request {} true (.ok ()) 0), .call (.request {} true (.ok ()) 0), .call (.defer (some 7)), .call .destroy,
    .proceed, .proceed, .proceed, .proceed, .proceed, .proceed, .proceed, .proceed, .proceed, .proceed]

theorem destructor_completes_all_three :
    runs (history (fun _ => .ok {}) 0 {} dies) 0 = 1 ∧ runs (history (fun _ => .ok {}) 0 {} dies) 1 = 1 ∧
    workings (history (fun _ => .ok {}) 0 {} dies) 7 = 1 := by
  obtain ⟨once, _, works⟩ := destructor_completes_all (fun _ => .ok {}) 0 {} dies (by decide +kernel)
    (by decide +kernel) (length_eq_zero_iff.mp (by decide +kernel))
  refine ⟨once 0 _ rfl (by decide +kernel), once 1 _ rfl (by decide +kernel), ?_⟩
  rw [works 7]
  decide +kernel

end World

end Smply.Smp
