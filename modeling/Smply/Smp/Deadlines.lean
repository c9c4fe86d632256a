import Smply.Smp.Handles
import Smply.Smp.Sequence
import Smply.Smp.Sweep

namespace Smply.Smp

open Systems List SmpClient

namespace SmpClient

def earliest (pending : List Pending) (start : Option TimePoint) : Option TimePoint :=
  pending.foldl (fun earliest entry =>
    if entry.active && earliest.all (fun soonest => decide (entry.deadline < soonest)) then some entry.deadline
    else earliest) start

/-- `next_deadline`; `TimePoint::min()` is the bottom, not later than any time there is. -/
def nextDeadline (client : SmpClient) : Option (WithBot TimePoint) :=
  if !client.deferred.isEmpty then some ⊥ else (earliest client.pending none).map WithBot.some

section
variable {pending : List Pending} {start : Option TimePoint}

theorem earliest_none (none_ : earliest pending start = none) :
    start = none ∧ ∀ entry ∈ pending, entry.active = false := by
  induction pending generalizing start with
  | nil => exact ⟨none_, fun _ member => (not_mem_nil member).elim⟩
  | cons entry rest ih =>
    have later : earliest rest (if entry.active && start.all (fun soonest => decide (entry.deadline < soonest))
      then some entry.deadline else start) = none := none_
    obtain ⟨before, others⟩ := ih later
    split at before
    · cases before
    rename_i idle
    subst before
    refine ⟨rfl, fun other member => ?_⟩
    rcases mem_cons.mp member with rfl | member
    · simpa using idle
    · exact others other member

theorem earliest_some {soonest : TimePoint} (found : earliest pending start = some soonest) :
    (start = some soonest ∨ ∃ entry ∈ pending, entry.active = true ∧ entry.deadline = soonest) ∧
      (∀ first, start = some first → soonest ≤ first) ∧
      ∀ entry ∈ pending, entry.active = true → soonest ≤ entry.deadline := by
  induction pending generalizing start with
  | nil =>
    refine ⟨.inl found, ?_, fun _ member => (not_mem_nil member).elim⟩
    intro first same
    exact Int.le_of_eq (Option.some.inj (found.symm.trans same))
  | cons entry rest ih =>
    by_cases sooner : (entry.active && start.all fun soonest => decide (entry.deadline < soonest)) = true
    · have step : earliest (entry :: rest) start = earliest rest (some entry.deadline) := by
        simp only [earliest, foldl_cons, sooner, if_true]
      obtain ⟨source, least, all⟩ := ih (step.symm.trans found)
      rw [Bool.and_eq_true] at sooner
      have bound := least entry.deadline rfl
      refine ⟨.inr ?_, ?_, ?_⟩
      · rcases source with own | ⟨other, member, active, same⟩
        · exact ⟨entry, mem_cons_self .., sooner.1, Option.some.inj own⟩
        · exact ⟨other, mem_cons_of_mem _ member, active, same⟩
      · rintro first rfl
        have before : entry.deadline < first := by simpa using sooner.2
        exact Int.le_of_lt (Int.lt_of_le_of_lt bound before)
      · intro other member active
        rcases mem_cons.mp member with rfl | member
        · exact bound
        · exact all other member active
    · have step : earliest (entry :: rest) start = earliest rest start := by
        simp only [earliest, foldl_cons, sooner]
        rfl
      obtain ⟨source, least, all⟩ := ih (step.symm.trans found)
      refine ⟨?_, least, ?_⟩
      · rcases source with own | ⟨other, member, active, same⟩
        · exact .inl own
        · exact .inr ⟨other, mem_cons_of_mem _ member, active, same⟩
      intro other member active
      rcases mem_cons.mp member with rfl | member
      · cases start with
        | none => simp [active] at sooner
        | some first =>
          have later : first ≤ other.deadline := by simpa [active] using sooner
          exact Int.le_trans (least first rfl) later
      · exact all other member active

end

theorem mem_expired {client : SmpClient} {now : TimePoint} {handle : RequestHandle} :
    handle ∈ client.expired now ↔ ∃ entry, client.pending[handle.slot]? = some entry ∧ entry.active = true ∧
      entry.deadline ≤ now ∧ entry.generation = handle.generation := by
  simp only [expired, mem_map, mem_filter, Bool.and_eq_true, decide_eq_true_eq]
  constructor
  · rintro ⟨⟨entry, slot⟩, ⟨member, active, due⟩, rfl⟩
    exact ⟨entry, mk_mem_zipIdx_iff_getElem?.mp member, active, due, rfl⟩
  rintro ⟨entry, stands, active, due, same⟩
  refine ⟨(entry, handle.slot), ⟨mk_mem_zipIdx_iff_getElem?.mpr stands, active, due⟩, ?_⟩
  rw [same]

variable {client : SmpClient} {now : TimePoint}

theorem nothing_due (later : ∀ deadline, client.nextDeadline = some deadline → (now : WithBot TimePoint) < deadline) :
    client.deferred = [] ∧ client.expired now = [] := by
  have empty : client.deferred = [] := by
    by_contra queued
    have ready : client.nextDeadline = some ⊥ := by
      rw [nextDeadline, if_pos]
      simpa using queued
    exact absurd (later ⊥ ready) (WithBot.not_lt_bot _)
  refine ⟨empty, eq_nil_iff_forall_not_mem.mpr fun handle member => ?_⟩
  obtain ⟨entry, stands, active, due, _⟩ := mem_expired.mp member
  cases soonest : earliest client.pending none with
  | none =>
    rw [(earliest_none soonest).2 entry (mem_of_getElem? stands)] at active
    cases active
  | some first =>
    have known : client.nextDeadline = some (first : WithBot TimePoint) := by
      rw [nextDeadline, empty, soonest]
      rfl
    have after := WithBot.coe_lt_coe.mp (later _ known)
    have bound := (earliest_some soonest).2.2 entry (mem_of_getElem? stands) active
    exact absurd (Int.le_trans bound due) (Int.not_le.mpr after)

theorem something_due {deadline : WithBot TimePoint} (known : client.nextDeadline = some deadline)
    (due : deadline ≤ (now : WithBot TimePoint)) : client.deferred ≠ [] ∨ client.expired now ≠ [] := by
  by_cases empty : client.deferred = []
  · right
    rw [nextDeadline, empty] at known
    obtain ⟨first, soonest, rfl⟩ := Option.map_eq_some_iff.mp known
    rcases (earliest_some soonest).1 with none_ | ⟨entry, member, active, same⟩
    · cases none_
    obtain ⟨slot, stands⟩ := getElem?_of_mem member
    have in_time : entry.deadline ≤ now := by
      rw [same]
      exact WithBot.coe_le_coe.mp due
    exact ne_nil_of_mem ((@mem_expired client now ⟨slot, entry.generation⟩).mpr ⟨entry, stands, active, in_time, rfl⟩)
  · exact .inl empty

end SmpClient

def Output.runs : Output → Bool
  | .completed _ _ | .worked _ => true
  | _ => false

namespace World

def Completes (t : Transition World Event Output) : Prop :=
  ∃ (slot : Nat) (entry : Pending), t.before.client.pending[slot]? = some entry ∧ entry.active = true ∧
    t.after.client.pending[slot]? = some entry.cleared

section
variable {extractMgmtError : Bytes → Result MgmtOutcome} {world : World} {now : TimePoint}

def idlePoll (now : TimePoint) : List Event := [.call (.poll now), .proceed, .proceed, .proceed, .proceed]

section
variable (idle : world.stack = []) (alive : world.gone = false)
include idle alive

theorem poll_callable : world.callable (.poll now) = true := by
  simp [callable, idle, alive]

theorem poll_runs_nothing (none_ : world.client.deferred = []) (unexpired : world.client.expired now = []) :
    run (World.step extractMgmtError) world (idlePoll now) = world ∧
      ∀ t ∈ log (World.step extractMgmtError) world (idlePoll now), t.output = .quiet ∧ t.after.client = world.client := by
  have callable := @poll_callable world now idle alive
  obtain ⟨client, stack, requests, gone⟩ := world
  simp only at idle none_ unexpired
  subst idle
  simp [idlePoll, run, log, transition, step, callable, enter, proceed, none_, unexpired]

theorem poll_runs_queued (queued : world.client.deferred ≠ []) :
    (∀ t ∈ log (World.step extractMgmtError) world [.call (.poll now), .proceed, .proceed], t.after.stack ≠ []) ∧
      ∃ t ∈ log (World.step extractMgmtError) world [.call (.poll now), .proceed, .proceed], t.output.runs = true := by
  have callable := @poll_callable world now idle alive
  obtain ⟨item, rest, batch⟩ := exists_cons_of_ne_nil queued
  constructor
  · cases item <;> simp [log, transition, step, callable, enter, proceed, batch]
  · refine ⟨_, mem_cons_of_mem _ (mem_cons_of_mem _ (mem_cons_self ..)), ?_⟩
    cases item <;> simp [transition, step, callable, enter, proceed, batch, Output.runs]

end

theorem goOn_running (frame : Frame) (frames : List Frame) (completed : Option SmpClient.Completion × SmpClient) :
    (world.goOn (frame :: frames) completed).2.stack ≠ [] := by
  obtain ⟨completion, client⟩ := completed
  cases completion <;> exact cons_ne_nil _ _

theorem poll_completes_expired (idle : world.stack = []) (alive : world.gone = false)
    (none_ : world.client.deferred = []) (expired : world.client.expired now ≠ [])
    (dealt : ∀ entry ∈ world.client.pending, entry.active = true → entry.generation ≠ 0) :
    (∀ t ∈ log (World.step extractMgmtError) world [.call (.poll now), .proceed, .proceed, .proceed], t.after.stack ≠ []) ∧
      ∃ t ∈ log (World.step extractMgmtError) world [.call (.poll now), .proceed, .proceed, .proceed], Completes t := by
  have callable := @poll_callable world now idle alive
  obtain ⟨handle, rest, sweep⟩ := exists_cons_of_ne_nil expired
  have member : handle ∈ world.client.expired now := by
    rw [sweep]
    exact mem_cons_self ..
  obtain ⟨entry, stands, active, _, same⟩ := mem_expired.mp member
  have valid : handle.valid = true := by
    rw [RequestHandle.valid, ← same]
    simpa using dealt entry (mem_of_getElem? stands) active
  have found := resolve_iff.mpr ⟨rfl, valid, stands, active, same⟩
  refine ⟨?_, _, mem_cons_of_mem _ (mem_cons_of_mem _ (mem_cons_of_mem _ (mem_cons_self ..))),
    handle.slot, entry, ?_, active, ?_⟩
  · simp [log, transition, step, callable, enter, proceed, none_, idle, sweep, found, goOn_running]
  · simp only [transition, step, callable, if_true, enter, proceed, none_, isEmpty_nil]
    exact stands
  · simp only [transition, step, callable, if_true, enter, proceed, none_, isEmpty_nil, sweep, found]
    rw [goOn_client, complete_pending, List.getElem?_set_self (List.getElem?_eq_some_iff.mp stands).1]

/-- With no callback running, `poll` changes nothing before the next deadline, and from it on runs or completes
something. -/
theorem poll_meets_deadline (world : World) (idle : world.stack = []) (alive : world.gone = false)
    (dealt : ∀ entry ∈ world.client.pending, entry.active = true → entry.generation ≠ 0) (now : TimePoint) :
    ((∀ deadline, world.client.nextDeadline = some deadline → (now : WithBot TimePoint) < deadline) →
      run (World.step extractMgmtError) world (idlePoll now) = world ∧
        ∀ t ∈ log (World.step extractMgmtError) world (idlePoll now), t.output = .quiet ∧ t.after.client = world.client) ∧
    ∀ deadline, world.client.nextDeadline = some deadline → deadline ≤ (now : WithBot TimePoint) →
      ∃ steps, (∀ t ∈ log (World.step extractMgmtError) world (.call (.poll now) :: List.replicate steps .proceed),
          t.after.stack ≠ []) ∧
        ∃ t ∈ log (World.step extractMgmtError) world (.call (.poll now) :: List.replicate steps .proceed),
          t.output.runs = true ∨ Completes t := by
  constructor
  · intro later
    obtain ⟨none_, unexpired⟩ := nothing_due later
    exact poll_runs_nothing idle alive none_ unexpired
  intro deadline known due
  by_cases none_ : world.client.deferred = []
  · rcases something_due known due with queued | expired
    · exact absurd none_ queued
    obtain ⟨running, t, member, completes⟩ :=
      @poll_completes_expired extractMgmtError world now idle alive none_ expired dealt
    exact ⟨3, running, t, member, .inr completes⟩
  · obtain ⟨running, t, member, runs⟩ := @poll_runs_queued extractMgmtError world now idle alive none_
    exact ⟨2, running, t, member, .inl runs⟩

theorem ofNat_ne_zero {count : Nat} (few : count + 1 < 2 ^ 64) : UInt64.ofNat (count + 1) ≠ 0 := by
  intro zero
  have none_ := generation_inj few (by omega : 0 < 2 ^ 64) zero
  omega

theorem reached_dealt (extractMgmtError : Bytes → Result MgmtOutcome) (transport : Nat) (config : SmpClientConfig)
    (events : List Event) (few : (reached extractMgmtError transport config events).requests.length < 2 ^ 64) :
    ∀ entry ∈ (reached extractMgmtError transport config events).client.pending, entry.active = true →
      entry.generation ≠ 0 := by
  intro entry member active
  obtain ⟨count, within, _, all⟩ := reached_numbered extractMgmtError transport config events
  obtain ⟨number, below, own⟩ := all entry member active
  rw [own]
  exact ofNat_ne_zero (by omega)

def oneWaits : World := reached (fun _ => .ok {}) 0 {} [.call (.request {} true (.ok ()) 0)]

theorem poll_meets_deadline_waiting : oneWaits.client.nextDeadline = some ((5000 : TimePoint) : WithBot TimePoint) ∧
    run (World.step fun _ => .ok {}) oneWaits (idlePoll 4999) = oneWaits ∧
    ∃ steps, ∃ t ∈ log (World.step fun _ => .ok {}) oneWaits (.call (.poll 5000) :: List.replicate steps .proceed),
      t.output.runs = true ∨ Completes t := by
  have dealt := reached_dealt (fun _ => .ok {}) 0 {} [.call (.request {} true (.ok ()) 0)] (by decide +kernel)
  have known : oneWaits.client.nextDeadline = some ((5000 : TimePoint) : WithBot TimePoint) := rfl
  have early := (@poll_meets_deadline (fun _ => .ok {}) oneWaits rfl rfl dealt 4999).1
  have due := (@poll_meets_deadline (fun _ => .ok {}) oneWaits rfl rfl dealt 5000).2
  refine ⟨known, (early ?_).1, ?_⟩
  · rintro deadline later
    rw [← Option.some.inj (known.symm.trans later)]
    exact WithBot.coe_lt_coe.mpr (by decide)
  · obtain ⟨steps, _, something⟩ := due _ known (WithBot.coe_le_coe.mpr (Int.le_refl _))
    exact ⟨steps, something⟩

end

def makesAndCancels (count : Nat) : List Event :=
  [.call (.request {} false (.ok ()) 0), .call (.cancel { slot := 0, generation := UInt64.ofNat (count + 1) })]

def wearsOut : Nat → List Event
  | 0 => []
  | count + 1 => wearsOut count ++ makesAndCancels count

/-- An idle client with one slot that has dealt out so many generations. -/
structure Worn (world : World) (count : Nat) (entry : Pending) : Prop where
  idle : world.stack = []
  alive : world.gone = false
  config : world.client.config = { maxRetiredSeqs := 0 }
  connected : world.client.connected = true
  unretired : world.client.retiredFlags = fun _ => false
  none_ : world.client.deferred = []
  table : world.client.pending = [entry]
  dealt : world.client.nextGeneration = UInt64.ofNat (count + 1)

def nextEntry (count : Nat) (seq : UInt8) (callback : Option Callback) : Pending :=
  { active := true, generation := UInt64.ofNat (count + 1), seq := seq, expectedOp := responseTo .read, deadline := 5000,
    callback := callback }

variable {world : World} {count : Nat} {entry : Pending} {extractMgmtError : Bytes → Result MgmtOutcome}

section
variable (worn : world.Worn count entry)
include worn

theorem Worn.callable (call : Call) : world.callable call = true := by
  cases call <;> simp [World.callable, worn.idle, worn.alive]

theorem Worn.draws (free : entry.active = false) :
    ∃ seq, world.client.allocateSeq = some (seq, { world.client with nextSeq := seq + 1 }) := by
  cases drew : world.client.allocateSeq with
  | none =>
    rcases allocateSeq_none.mp drew 0 with ⟨other, member, active, _⟩ | rests
    · rw [worn.table, mem_singleton] at member
      rw [member, free] at active
      cases active
    · rw [isRetired, worn.unretired] at rests
      cases rests
  | some drawn =>
    obtain ⟨seq, drawn⟩ := drawn
    exact ⟨seq, by rw [(allocateSeq_drawn drew).same]⟩

theorem Worn.request (free : entry.active = false) (asks : Bool) :
    ∃ seq, ((world.step extractMgmtError (.call (.request {} asks (.ok ()) 0))).2).Worn (count + 1)
      (nextEntry count seq (if asks then some world.requests.length else none)) := by
  obtain ⟨seq, drew⟩ := worn.draws free
  have slot : world.client.freeSlot = some 0 := by simp [SmpClient.freeSlot, worn.table, free]
  refine ⟨seq, ?_⟩
  simp only [step, worn.callable, if_true, enter, SmpClient.request, worn.connected, slot, drew, Bool.not_true,
    Bool.false_eq_true, if_false, length_nil, Nat.not_lt_zero, gt_iff_lt]
  refine ⟨worn.idle, worn.alive, worn.config, rfl, worn.unretired, worn.none_, ?_, ?_⟩
  · simp [worn.table, worn.dealt, worn.config, nextEntry]
  · rw [UInt64.ofNat_add (count + 1) 1, ← worn.dealt]
    rfl

theorem Worn.cancel (active : entry.active = true) (silent : entry.callback = none) (dealt : entry.generation ≠ 0) :
    ((world.step extractMgmtError (.call (.cancel ⟨0, entry.generation⟩))).2).Worn count entry.cleared := by
  have found : world.client.resolve ⟨0, entry.generation⟩ = some (0, entry) := by
    refine SmpClient.resolve_iff.mpr ⟨rfl, ?_, ?_, active, rfl⟩
    · simpa [RequestHandle.valid] using dealt
    · rw [worn.table]
      rfl
  have kept : world.client.config.maxRetiredSeqs = 0 := by rw [worn.config]
  simp only [step, worn.callable, if_true, enter, SmpClient.cancel, found, SmpClient.detach, SmpClient.retire, kept,
    silent, SmpClient.defer]
  refine ⟨worn.idle, worn.alive, worn.config, worn.connected, worn.unretired, worn.none_, ?_, worn.dealt⟩
  simp [worn.table, Pending.cleared]

theorem Worn.round (free : entry.active = false) (few : count + 1 < 2 ^ 64) : ∃ left, left.active = false ∧
      (run (World.step extractMgmtError) world (makesAndCancels count)).Worn (count + 1) left := by
  obtain ⟨seq, asked⟩ := @Worn.request world count entry extractMgmtError worn free false
  exact ⟨_, rfl, asked.cancel rfl rfl (ofNat_ne_zero few)⟩

end

theorem worn_out (count : Nat) (few : count < 2 ^ 64) : ∃ left, left.active = false ∧
    (reached extractMgmtError 0 { maxRetiredSeqs := 0 } (wearsOut count)).Worn count left := by
  induction count with
  | zero => exact ⟨{}, rfl, rfl, rfl, rfl, rfl, rfl, rfl, rfl, rfl⟩
  | succ _ ih =>
    obtain ⟨left, free, worn⟩ := ih (by omega)
    rw [reached, wearsOut, run_append]
    exact worn.round free few

theorem Worn.passes (worn : world.Worn count entry) (active : entry.active = true) (undealt : entry.generation = 0)
    {now : TimePoint} (due : entry.deadline ≤ now) :
    run (World.step extractMgmtError) world (.call (.poll now) :: List.replicate 5 .proceed) = world ∧
      ∀ t ∈ log (World.step extractMgmtError) world (.call (.poll now) :: List.replicate 5 .proceed),
        t.output = .quiet ∧ t.before.client = world.client ∧ t.after.client = world.client := by
  have callable := worn.callable (.poll now)
  have expired : world.client.expired now = [⟨0, 0⟩] := by simp [expired, worn.table, active, due, undealt]
  have refused : world.client.resolve ⟨0, 0⟩ = none := by simp [resolve, RequestHandle.valid]
  have none_ := worn.none_
  have idle := worn.idle
  obtain ⟨client, stack, requests, gone⟩ := world
  simp only at idle none_ expired refused
  subst idle
  simp [replicate, run, log, transition, step, callable, enter, proceed, none_, expired, refused]

theorem kept_incomplete {t : Transition World Event Output} {client : SmpClient} (before : t.before.client = client)
    (after : t.after.client = client) : ¬ Completes t := by
  rintro ⟨slot, entry, stood, active, left⟩
  rw [before] at stood
  rw [after, stood] at left
  have idle := congrArg Pending.active (Option.some.inj left)
  rw [active] at idle
  cases idle

theorem Worn.overlooked (worn : world.Worn count entry) (free : entry.active = false)
    (wraps : UInt64.ofNat (count + 1) = 0) :
    let asked := (world.step extractMgmtError (.call (.request {} false (.ok ()) 0))).2
    asked.stack = [] ∧ asked.gone = false ∧ asked.client.nextDeadline = some ((5000 : TimePoint) : WithBot TimePoint) ∧
      run (World.step extractMgmtError) asked (.call (.poll 5000) :: replicate 5 .proceed) = asked ∧
      ∀ t ∈ log (World.step extractMgmtError) asked (.call (.poll 5000) :: replicate 5 .proceed),
        t.output.runs = false ∧ ¬ Completes t := by
  intro asked
  obtain ⟨seq, stands⟩ := @Worn.request world count entry extractMgmtError worn free false
  obtain ⟨same, quiet⟩ := @Worn.passes asked _ _ extractMgmtError stands rfl wraps 5000 (Int.le_refl _)
  refine ⟨stands.idle, stands.alive, ?_, same, fun t member => ?_⟩
  · rw [nextDeadline, stands.none_, stands.table]
    rfl
  · obtain ⟨output, before, after⟩ := quiet t member
    exact ⟨by rw [output]; rfl, kept_incomplete before after⟩

/-- After 2^64 - 1 requests the next one gets the generation 0. -/
theorem poll_overlooks_request : ∃ (events : List Event) (deadline : WithBot TimePoint) (now : TimePoint),
    (reached (fun _ => .ok {}) 0 { maxRetiredSeqs := 0 } events).stack = [] ∧
    (reached (fun _ => .ok {}) 0 { maxRetiredSeqs := 0 } events).gone = false ∧
    (reached (fun _ => .ok {}) 0 { maxRetiredSeqs := 0 } events).client.nextDeadline = some deadline ∧
    deadline ≤ now ∧
    run (World.step fun _ => .ok {}) (reached (fun _ => .ok {}) 0 { maxRetiredSeqs := 0 } events)
      (.call (.poll now) :: List.replicate 5 .proceed) = reached (fun _ => .ok {}) 0 { maxRetiredSeqs := 0 } events ∧
    ∀ t ∈ log (World.step fun _ => .ok {}) (reached (fun _ => .ok {}) 0 { maxRetiredSeqs := 0 } events)
        (.call (.poll now) :: List.replicate 5 .proceed),
      t.output.runs = false ∧ ¬ Completes t := by
  obtain ⟨count, few, wraps⟩ : ∃ count < 2 ^ 64, UInt64.ofNat (count + 1) = 0 := ⟨2 ^ 64 - 1, by omega, by decide⟩
  obtain ⟨left, free, worn⟩ := @worn_out (fun _ => .ok {}) count few
  obtain ⟨idle, alive, soonest, same, quiet⟩ := @Worn.overlooked _ _ _ (fun _ => .ok {}) worn free wraps
  have ends : reached (fun _ => .ok {}) 0 { maxRetiredSeqs := 0 } (wearsOut count ++ [.call (.request {} false (.ok ()) 0)]) =
      ((reached (fun _ => .ok {}) 0 { maxRetiredSeqs := 0 } (wearsOut count)).step (fun _ => .ok {})
        (.call (.request {} false (.ok ()) 0))).2 := run_concat ..
  refine ⟨wearsOut count ++ [.call (.request {} false (.ok ()) 0)], ((5000 : TimePoint) : WithBot TimePoint), 5000, ?_⟩
  rw [ends]
  exact ⟨idle, alive, soonest, WithBot.coe_le_coe.mpr (Int.le_refl _), same, quiet⟩

end World

end Smply.Smp
