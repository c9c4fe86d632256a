import Smply.Smp.Deadlines
import Smply.Smp.Failing

namespace Smply.Smp

open Systems List

namespace SmpClient

theorem expired_slots (client : SmpClient) (now : TimePoint) :
    ((client.expired now).map RequestHandle.slot).Nodup := by
  have inside : ((client.expired now).map RequestHandle.slot).Sublist (client.pending.zipIdx.map Prod.snd) := by
    rw [expired, map_map]
    exact filter_sublist.map _
  refine inside.nodup ?_
  rw [zipIdx_map_snd]
  exact nodup_range'

end SmpClient

namespace World

def timeout : Error := .at .timeout "smp client: no response"

def dueAt (now : TimePoint) (entry : Pending) : Bool := decide (entry.deadline ≤ now)

variable {extractMgmtError : Bytes → Result MgmtOutcome} {began before : World} {rest : List Frame}
  {now : TimePoint} {since : List (Transition World Event Output)}

theorem sweep_turn {handle : RequestHandle} {left : List RequestHandle}
    (stack : before.stack = .sweep (handle :: left) :: rest) :
    (before.client.resolve handle = none ∧
      before.step extractMgmtError .proceed = (.quiet, { before with stack := .sweep left :: rest })) ∨
    ∃ entry, before.client.resolve handle = some (handle.slot, entry) ∧
      (before.step extractMgmtError .proceed).1 = entry.outcome (.error timeout) ∧
      (∃ above, (before.step extractMgmtError .proceed).2.stack = above ++ .sweep left :: rest) ∧
      (before.step extractMgmtError .proceed).2.client.pending = before.client.pending.set handle.slot entry.cleared := by
  simp only [step, proceed, stack]
  split
  · rename_i gone
    exact .inl ⟨gone, rfl⟩
  rename_i slot entry found
  obtain ⟨rfl, _⟩ := SmpClient.resolve_iff.mp found
  refine .inr ⟨entry, found, goOn_outcome .., ?_, ?_⟩
  · obtain ⟨called, frames, _⟩ := goOn_frames before [.sweep left] rest (SmpClient.complete { before.client with
        stats := { before.client.stats with timeouts := before.client.stats.timeouts + 1 } }
        handle.slot entry (.error (.at .timeout "smp client: no response")))
    rw [append_assoc] at frames
    exact ⟨called, frames⟩
  · rw [goOn_client, complete_pending]

inductive Timing (began : World) (rest : List Frame) (now : TimePoint) (since : List (Transition World Event Output))
    (state : World) : Prop
  | sweeping (above : List Frame) (left : List RequestHandle) (stack : state.stack = above ++ .sweep left :: rest)
      (progress : Progress began rest timeout (dueAt now) (· ∉ left.map RequestHandle.slot) since state)
      (distinct : (left.map RequestHandle.slot).Nodup)
      (taken : ∀ handle ∈ left, ∃ entry, began.client.pending[handle.slot]? = some entry ∧ entry.active = true ∧
        dueAt now entry = true ∧ entry.generation = handle.generation)
      (old : ∀ slot entry, began.client.pending[slot]? = some entry → entry.active = true →
        ∃ number, entry.generation = UInt64.ofNat (number + 1) ∧ Stands slot number entry since state)
  | returned (stack : state.stack = rest) (progress : Progress began rest timeout (dueAt now) (fun _ => True) since state)

theorem Stands.dealt {slot number : Nat} {entry : Pending} {state : World}
    (stands : Stands slot number entry since state)
    (few : state.requests.length < 2 ^ 64) : UInt64.ofNat (number + 1) ≠ 0 := by
  obtain ⟨count, enough, within, _⟩ := stands.dealing
  exact ofNat_ne_zero (by omega)

theorem step_timing (event : Event) (timing : Timing began rest now since before)
    (few : before.requests.length < 2 ^ 64) (running : rest.length < before.stack.length) :
    Timing began rest now (since ++ [transition (World.step extractMgmtError) before event])
      (before.step extractMgmtError event).2 := by
  cases timing with
  | returned stack =>
    rw [stack] at running
    exact absurd running (Nat.lt_irrefl _)
  | sweeping above left stack progress distinct taken old =>
    have later (slot : Nat) (entry : Pending) (stood : began.client.pending[slot]? = some entry)
        (active : entry.active = true) : ∃ number, entry.generation = UInt64.ofNat (number + 1) ∧
          Stands slot number entry (since ++ [transition (World.step extractMgmtError) before event])
            (before.step extractMgmtError event).2 := by
      obtain ⟨number, own, stands⟩ := old slot entry stood active
      exact ⟨number, own, step_stands _ stands event⟩
    rcases @step_above extractMgmtError before above rest _ stack event with ⟨foreign, higher, above⟩ | ⟨rfl, rfl⟩
    · exact .sweeping higher left above (progress.foreign foreign) distinct taken later
    have own : turns rest (transition (World.step extractMgmtError) before .proceed) = true := by
      simp [turns, transition, stack]
    cases left with
    | nil =>
      have same : before.step extractMgmtError .proceed = (.quiet, { before with stack := rest }) := by
        simp only [step, proceed, show before.stack = .sweep [] :: rest from stack]
      refine .returned (by rw [same]) (progress.passes (by rw [same]) (by rw [same]) (fun _ _ => trivial) ?_)
      intro slot _ _ _ _ _ unvisited _
      exact unvisited not_mem_nil
    | cons handle left =>
      obtain ⟨held, began_with, live, ripe, same_generation⟩ := taken handle (mem_cons_self ..)
      obtain ⟨number, numbered, stands⟩ := old handle.slot held began_with live
      obtain ⟨fresh, distinct⟩ := nodup_cons.mp distinct
      have others (other : RequestHandle) (member : other ∈ left) := taken other (mem_cons_of_mem _ member)
      rcases @sweep_turn extractMgmtError before rest handle left stack with
        ⟨gone, same⟩ | ⟨entry, found, output, ⟨above, frames⟩, pending⟩
      · refine .sweeping [] left (by rw [same]; rfl) ?_ distinct others later
        refine progress.passes (by rw [same]) (by rw [same]) ?_ ?_
        · intro slot unlisted member
          exact unlisted (mem_cons_of_mem _ member)
        intro slot entry stood active _ unlisted listed here
        have place : slot = handle.slot := by
          rcases mem_cons.mp (Decidable.not_not.mp listed) with place | member
          · exact place
          · exact absurd member unlisted
        subst place
        obtain rfl : held = entry := Option.some.inj (began_with.symm.trans stood)
        have valid : handle.valid = true := by
          simpa [RequestHandle.valid, ← same_generation, numbered] using stands.dealt few
        rw [SmpClient.resolve_iff.mpr ⟨rfl, valid, here, active, same_generation⟩] at gone
        cases gone
      · obtain ⟨_, _, here, active, generation⟩ := SmpClient.resolve_iff.mp found
        obtain ⟨rfl, kept⟩ := stands.since few entry here active
          (generation.trans (same_generation.symm.trans numbered))
        refine .sweeping above left frames ?_ distinct others later
        refine progress.completes own began_with live ripe here kept pending output fun slot => ?_
        by_cases place : slot = handle.slot
        · subst place
          exact ⟨fun _ => .inr rfl, fun _ => fresh⟩
        · simp [place]

variable (extractMgmtError) (transport : Nat) (config : SmpClientConfig)

/-- The sweep of `poll` times out, each once, exactly the requests due when it starts that nothing it runs takes out
first. -/
theorem poll_times_out_due (events : List Event) {past during : List (Transition World Event Output)}
    {t : Transition World Event Output} (now : TimePoint) (rest : List Frame)
    (splits : history extractMgmtError transport config events = past ++ t :: during) (proceeds : t.event = .proceed)
    (snapshot : t.before.stack = .snapshot now :: rest) (running : ∀ u ∈ during, rest.length < u.before.stack.length)
    (few : (reached extractMgmtError transport config events).requests.length < 2 ^ 64) :
    Sweeps t.before rest timeout (dueAt now) during ((reached extractMgmtError transport config events).stack = rest) := by
  obtain ⟨earlier, event, later, rfl, _, is, _⟩ := log_split _ _ _ splits
  have timing := invariant_since _ _ _ splits (fun u => rest.length < u.before.stack.length)
    (fun since state => state.requests.length < 2 ^ 64 → Timing t.before rest now since state) ?_ ?_ running few
  · cases timing with
    | sweeping _ _ stack progress =>
      refine progress.sweeps fun ended => ?_
      have lengths := congrArg List.length (stack.symm.trans ended)
      rw [length_append, length_cons] at lengths
      omega
    | returned _ progress => exact progress.sweeps fun _ _ => trivial
  · intro _
    subst is
    obtain rfl : event = .proceed := proceeds
    simp only [transition] at snapshot ⊢
    have after : (World.step extractMgmtError (run (World.step extractMgmtError) (start transport config) earlier)
        .proceed).2 = { run (World.step extractMgmtError) (start transport config) earlier with
          stack := .sweep ((run (World.step extractMgmtError) (start transport config) earlier).client.expired now) :: rest } := by
      simp only [step, proceed, snapshot]
    rw [after]
    refine .sweeping [] _ rfl (progress_start rfl ?_) (SmpClient.expired_slots _ _) ?_ ?_
    · intro slot entry stood active ripe unlisted
      refine unlisted (mem_map.mpr ⟨⟨slot, entry.generation⟩, ?_, rfl⟩)
      exact SmpClient.mem_expired.mpr ⟨entry, stood, active, by simpa [dueAt] using ripe, rfl⟩
    · intro handle member
      obtain ⟨entry, stood, active, ripe, same⟩ := SmpClient.mem_expired.mp member
      exact ⟨entry, stood, active, by simpa [dueAt] using ripe, same⟩
    · intro slot entry stood active
      obtain ⟨count, within, dealt, all⟩ := reached_numbered extractMgmtError transport config earlier
      obtain ⟨number, below, own⟩ := all entry (mem_of_getElem? stood) active
      refine ⟨number, own, ⟨count, below, within, dealt⟩, fun _ other stands _ _ => ?_⟩
      exact ⟨Option.some.inj (stands.symm.trans stood), fun _ member => (not_mem_nil member).elim⟩
  · intro since state event running timing few
    have grow := (@step_row extractMgmtError state event).requests_grow
    have before := Nat.lt_of_le_of_lt grow few
    exact step_timing event (timing before) before running

theorem Worn.swept_over {world : World} {count : Nat} {entry : Pending} (worn : world.Worn count entry)
    (active : entry.active = true) (undealt : entry.generation = 0) (due : entry.deadline ≤ now) : ∃ past t during,
      log (World.step extractMgmtError) world [.call (.poll now), .proceed, .proceed, .proceed, .proceed] =
        past ++ t :: during ∧
      t.event = .proceed ∧ t.before.stack = [.snapshot now, .deliver []] ∧
      (∀ u ∈ during, 1 < u.before.stack.length) ∧
      (run (World.step extractMgmtError) world [.call (.poll now), .proceed, .proceed, .proceed, .proceed]).stack =
        [.deliver []] ∧
      t.before.client.pending[0]? = some entry ∧
      ∀ u ∈ during, u.output = .quiet ∧ u.after.client.pending[0]? = some entry := by
  have callable := worn.callable (.poll now)
  have expired : world.client.expired now = [⟨0, 0⟩] := by simp [SmpClient.expired, worn.table, active, due, undealt]
  have refused : world.client.resolve ⟨0, 0⟩ = none := by simp [SmpClient.resolve, RequestHandle.valid]
  refine ⟨[_, _], _, [_, _], rfl, rfl, ?_, ?_, ?_, ?_, ?_⟩
  all_goals simp [run, transition, step, callable, enter, proceed, worn.none_, worn.idle, worn.table, expired, refused]

/-- After 2^64 - 1 requests, a request that is due and that nothing takes out is not timed out. -/
theorem poll_passes_due_request : ∃ (events : List Event) (past during : List (Transition World Event Output))
    (t : Transition World Event Output) (entry : Pending),
    history (fun _ => .ok {}) 0 { maxRetiredSeqs := 0 } events = past ++ t :: during ∧ t.event = .proceed ∧
    t.before.stack = [.snapshot 5000, .deliver []] ∧ (∀ u ∈ during, 1 < u.before.stack.length) ∧
    (reached (fun _ => .ok {}) 0 { maxRetiredSeqs := 0 } events).stack = [.deliver []] ∧
    t.before.client.pending[0]? = some entry ∧ entry.active = true ∧ entry.deadline ≤ 5000 ∧
    entry.callback.isSome = true ∧ ∀ u ∈ during, u.output = .quiet ∧ u.after.client.pending[0]? = some entry := by
  obtain ⟨count, few, wraps⟩ : ∃ count < 2 ^ 64, UInt64.ofNat (count + 1) = 0 := ⟨2 ^ 64 - 1, by omega, by decide⟩
  obtain ⟨left, free, worn⟩ := @worn_out (fun _ => .ok {}) count few
  obtain ⟨seq, asked⟩ := @Worn.request _ _ _ (fun _ => .ok {}) worn free true
  have ends : reached (fun _ => .ok {}) 0 { maxRetiredSeqs := 0 } (wearsOut count ++ [.call (.request {} true (.ok ()) 0)]) =
      ((reached (fun _ => .ok {}) 0 { maxRetiredSeqs := 0 } (wearsOut count)).step (fun _ => .ok {})
        (.call (.request {} true (.ok ()) 0))).2 := run_concat ..
  rw [← ends] at asked
  obtain ⟨past, t, during, splits, proceeds, stack, running, returned, stood, quiet⟩ :=
    Worn.swept_over (fun _ => .ok {}) asked rfl wraps (Int.le_refl _)
  refine ⟨wearsOut count ++ [.call (.request {} true (.ok ()) 0)] ++
      [.call (.poll 5000), .proceed, .proceed, .proceed, .proceed],
    history (fun _ => .ok {}) 0 { maxRetiredSeqs := 0 } (wearsOut count ++ [.call (.request {} true (.ok ()) 0)]) ++ past,
    during, t, _, ?_, proceeds, stack, running, ?_, stood, rfl, Int.le_refl _, rfl, quiet⟩
  · rw [history, log_append, append_assoc]
    exact congrArg _ splits
  · rw [reached, run_append]
    exact returned

def timesOutOne : List Event :=
  [.call (.request {} true (.ok ()) 0), .call (.request {} true (.ok ()) 10), .call (.poll 5000), .proceed, .proceed,
    .proceed, .call (.request {} true (.ok ()) 0), .proceed, .proceed]

theorem poll_times_out_due_one :
    ∃ past t during, history (fun _ => .ok {}) 0 { maxInFlight := 2 } timesOutOne = past ++ t :: during ∧
      t.before.stack = [.snapshot 5000, .deliver []] ∧
      during.countP (fun u => turns [.deliver []] u && takes 0 u) = 1 := by
  obtain ⟨past, t, during, splits, proceeds, stack, running, own, stood⟩ : ∃ past t during,
      history (fun _ => .ok {}) 0 { maxInFlight := 2 } timesOutOne = past ++ t :: during ∧ t.event = .proceed ∧
      t.before.stack = [.snapshot 5000, .deliver []] ∧ (∀ u ∈ during, 1 < u.before.stack.length) ∧
      (∀ u ∈ during, takes 0 u = true → turns [.deliver []] u = true) ∧
      ∃ entry, t.before.client.pending[0]? = some entry ∧ entry.active = true ∧ dueAt 5000 entry = true :=
    ⟨[_, _, _, _], _, [_, _, _, _], rfl, rfl, rfl, by decide +kernel, by decide +kernel, _, rfl, rfl, by decide +kernel⟩
  obtain ⟨entry, stood, active, due⟩ := stood
  have sweeps := poll_times_out_due (fun _ => .ok {}) 0 { maxInFlight := 2 } timesOutOne 5000 [.deliver []] splits proceeds
    stack running (by decide +kernel)
  refine ⟨past, t, during, splits, stack, (sweeps.every rfl 0 entry stood active due).mpr ?_⟩
  rintro ⟨first, u, others, rfl, _, took, foreign⟩
  simp [own u (by simp) took] at foreign

end World

end Smply.Smp
