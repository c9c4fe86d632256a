import Smply.Smp.Turns

namespace Smply.Smp

open Systems List

namespace World

/-- The link goes down, is replaced, or carries no frames: all requests are failed from here on. -/
inductive Fails (t : Transition World Event Output) : Error → List Frame → Prop
  | disconnected (error : Error) (called : t.event = .call (.onDisconnected error))
      (callable : t.before.callable (.onDisconnected error) = true) : Fails t error t.before.stack
  | rebound (transport : Nat) (called : t.event = .call (.rebindTransport transport))
      (callable : t.before.callable (.rebindTransport transport) = true) :
      Fails t (.at .disconnected "smp client: transport rebound") (.rebind transport :: t.before.stack)
  | reentrant (bytes : Bytes) (called : t.event = .call (.onBytes bytes))
      (callable : t.before.callable (.onBytes bytes) = true) (feeding : t.before.client.assembler.feeding = true) :
      Fails t (.at .invalidState "assembler: reentrant feed") t.before.stack
  | malformed (input : Bytes) (rest : List Frame) (error : Error) (assembler : MessageAssembler)
      (proceeds : t.event = .proceed) (stack : t.before.stack = .feed input :: rest)
      (turned : t.before.client.assembler.turn input = .returned (.error error) assembler) : Fails t error rest

def sweepsFrom (rest stack : List Frame) : Option Nat :=
  match stack[stack.length - rest.length - 1]? with
  | some (.failAll next _) => some next
  | _ => none

def behind (rest : List Frame) (before : World) : Event → Bool
  | .call (.request spec callback (.ok ()) now) =>
    !before.callable (.request spec callback (.ok ()) now) ||
      (before.client.admits spec).all fun slot => (sweepsFrom rest before.stack).all fun next => decide (slot < next)
  | _ => true

variable {extractMgmtError : Bytes → Result MgmtOutcome} {began before : World} {rest : List Frame}
  {error : Error} {since : List (Transition World Event Output)}

theorem Fails.begins {event : Event}
    (fails : Fails (transition (World.step extractMgmtError) before event) error rest) :
    (before.step extractMgmtError event).2.stack = .failAll 0 error :: rest ∧
      (before.step extractMgmtError event).2.client.pending = before.client.pending := by
  cases fails with
  | disconnected error called callable | rebound transport called callable =>
    obtain rfl : event = _ := called
    simp only [transition] at callable
    simp [step, callable, enter, transition]
  | reentrant _ called callable feeding =>
    obtain rfl : event = _ := called
    simp only [transition] at callable feeding
    simp [step, callable, enter, transition, feeding]
  | malformed _ _ _ _ proceeds stack turned =>
    obtain rfl : event = _ := proceeds
    simp only [transition] at stack turned
    simp [step, proceed, stack, turned]

theorem goOn_outcome (before : World) (frames : List Frame) (client : SmpClient) (slot : Nat) (entry : Pending)
    (result : Result RawResponse) :
    (before.goOn frames (client.complete slot entry result)).1 = entry.outcome result := by
  have called : (client.complete slot entry result).1 = entry.callback.map fun callback => (callback, result) := rfl
  generalize client.complete slot entry result = completed at called
  obtain ⟨completion, after⟩ := completed
  subst called
  rw [Pending.outcome]
  cases entry.callback <;> rfl

theorem failAll_turn {next : Nat} (stack : before.stack = .failAll next error :: rest) :
    (before.client.pending[next]? = none ∧ before.step extractMgmtError .proceed = (.quiet, { before with stack := rest })) ∨
    (∃ entry, before.client.pending[next]? = some entry ∧ entry.active = false ∧
      before.step extractMgmtError .proceed = (.quiet, { before with stack := .failAll (next + 1) error :: rest })) ∨
    ∃ entry, before.client.pending[next]? = some entry ∧ entry.active = true ∧
      (before.step extractMgmtError .proceed).1 = entry.outcome (.error error) ∧
      (∃ above, (before.step extractMgmtError .proceed).2.stack = above ++ .failAll (next + 1) error :: rest) ∧
      (before.step extractMgmtError .proceed).2.client.pending = before.client.pending.set next entry.cleared := by
  simp only [step, proceed, stack]
  split
  · rename_i ended
    exact .inl ⟨ended, rfl⟩
  rename_i entry stood
  split
  · rename_i idle
    exact .inr (.inl ⟨entry, stood, by simpa using idle, rfl⟩)
  rename_i live
  obtain ⟨called, frames, _⟩ := goOn_frames before [.failAll (next + 1) error] rest
    (before.client.complete next entry (.error error))
  rw [append_assoc] at frames
  refine .inr (.inr ⟨entry, stood, by simpa using live, goOn_outcome .., ⟨called, frames⟩, ?_⟩)
  rw [goOn_client, complete_pending]

inductive Failing (began : World) (rest : List Frame) (error : Error) (since : List (Transition World Event Output))
    (state : World) : Prop
  | sweeping (above : List Frame) (next : Nat) (stack : state.stack = above ++ .failAll next error :: rest)
      (progress : Progress began rest error (fun _ => true) (· < next) since state)
      (old : ∀ slot entry, next ≤ slot → state.client.pending[slot]? = some entry → entry.active = true →
        began.client.pending[slot]? = some entry ∧ Kept slot entry since)
  | returned (stack : state.stack = rest) (progress : Progress began rest error (fun _ => true) (fun _ => True) since state)

theorem sweepsFrom_above (above : List Frame) (next : Nat) :
    sweepsFrom rest (above ++ .failAll next error :: rest) = some next := by
  have place : (above ++ Frame.failAll next error :: rest).length - rest.length - 1 = above.length := by
    rw [length_append, length_cons]
    omega
  rw [sweepsFrom, place, getElem?_append_right (Nat.le_refl _), Nat.sub_self]
  rfl

theorem behind_left {event : Event} {above : List Frame} {next slot : Nat}
    (stack : before.stack = above ++ .failAll next error :: rest) (passed : before.behind rest event = true)
    (ahead : next ≤ slot) : Left before (before.step extractMgmtError event).2 slot := by
  rcases (@step_booked extractMgmtError before event).left slot with left | ⟨spec, callback, now, rfl, admitted⟩
  · exact left
  by_cases callable : before.callable (.request spec callback (.ok ()) now) = true
  · have under : slot < next := by simpa [behind, callable, admitted, stack, sweepsFrom_above] using passed
    omega
  · intro entry stands _
    simpa [step, callable] using stands

theorem step_failing (event : Event) (failing : Failing began rest error since before)
    (running : rest.length < before.stack.length) (passed : before.behind rest event = true) :
    Failing began rest error (since ++ [transition (World.step extractMgmtError) before event])
      (before.step extractMgmtError event).2 := by
  cases failing with
  | returned stack =>
    rw [stack] at running
    exact absurd running (Nat.lt_irrefl _)
  | sweeping above next stack progress old =>
    rcases @step_above extractMgmtError before above rest _ stack event with ⟨foreign, higher, above⟩ | ⟨rfl, rfl⟩
    · refine .sweeping higher next above (progress.foreign foreign) fun slot entry ahead stands active => ?_
      obtain ⟨stood, kept⟩ := old slot entry ahead (behind_left stack passed ahead entry stands active) active
      exact ⟨stood, kept.concat stands⟩
    have own : turns rest (transition (World.step extractMgmtError) before .proceed) = true := by
      simp [turns, transition, stack]
    rcases @failAll_turn extractMgmtError before rest error next stack with
      ⟨ended, same⟩ | ⟨entry, stood, idle, same⟩ | ⟨entry, stood, live, output, ⟨above, frames⟩, pending⟩
    · refine .returned (by rw [same]) (progress.passes (by rw [same]) (by rw [same]) (fun _ _ => trivial) ?_)
      intro slot entry _ _ _ _ ahead stands
      have bound := (List.getElem?_eq_some_iff.mp stands).1
      have length := getElem?_eq_none_iff.mp ended
      omega
    · refine .sweeping [] (next + 1) (by rw [same]; rfl) ?_ ?_
      · refine progress.passes (by rw [same]) (by rw [same]) (fun slot before => Nat.lt_succ_of_lt before) ?_
        intro slot other _ active _ here ahead stands
        obtain rfl : slot = next := by omega
        rw [Option.some.inj (stands.symm.trans stood), idle] at active
        cases active
      · intro slot other ahead stands active
        have stays : before.client.pending[slot]? = some other := by
          rw [same] at stands
          exact stands
        obtain ⟨stood, kept⟩ := old slot other (by omega) stays active
        exact ⟨stood, kept.concat stands⟩
    · obtain ⟨began_with, kept⟩ := old next entry (Nat.le_refl _) stood live
      refine .sweeping above (next + 1) frames ?_ ?_
      · exact progress.completes own began_with live rfl stood kept pending output fun slot => Nat.lt_succ_iff_lt_or_eq
      intro slot other ahead stands active
      have stays := stands
      rw [pending, getElem?_set_ne (by omega)] at stays
      obtain ⟨stood, kept⟩ := old slot other (by omega) stays active
      exact ⟨stood, kept.concat stands⟩

variable (extractMgmtError) (transport : Nat) (config : SmpClientConfig)

/-- When all requests are failed, exactly those in the table are completed, each once, unless a callback took them out,
if callbacks ask for slots already passed. -/
theorem failAll_completes_pending (events : List Event) {past during : List (Transition World Event Output)}
    {t : Transition World Event Output} (error : Error) (rest : List Frame)
    (splits : history extractMgmtError transport config events = past ++ t :: during) (fails : Fails t error rest)
    (running : ∀ u ∈ during, rest.length < u.before.stack.length)
    (passed : ∀ u ∈ during, u.before.behind rest u.event = true) : Sweeps t.before rest error (fun _ => true) during
      ((reached extractMgmtError transport config events).stack = rest) := by
  obtain ⟨earlier, event, later, rfl, _, is, _⟩ := log_split _ _ _ splits
  have failing := invariant_since _ _ _ splits
    (fun u => rest.length < u.before.stack.length ∧ u.before.behind rest u.event = true)
    (Failing t.before rest error) ?_
    (fun since state event guard failing => step_failing event failing guard.1 guard.2)
    (fun u member => ⟨running u member, passed u member⟩)
  · cases failing with
    | sweeping _ _ stack progress =>
      refine progress.sweeps fun ended => ?_
      have lengths := congrArg List.length (stack.symm.trans ended)
      rw [length_append, length_cons] at lengths
      omega
    | returned _ progress => exact progress.sweeps fun _ _ => trivial
  · subst is
    obtain ⟨stack, pending⟩ := fails.begins
    refine .sweeping [] 0 stack (progress_start pending fun _ _ _ _ _ => Nat.not_lt_zero _) ?_
    intro slot entry _ stands _
    simp only [transition] at stands
    rw [pending] at stands
    exact ⟨stands, fun _ member => (not_mem_nil member).elim⟩

/-- With two slots, the callback of the one request asks twice while `rebind_transport` fails it. -/
def asksTwice : List Event :=
  [.call (.request {} true (.ok ()) 0), .call (.rebindTransport 1), .proceed, .call (.request {} true (.ok ()) 0),
    .call (.request {} true (.ok ()) 0), .proceed, .proceed]

theorem failAll_completes_new_request : ∃ past t first u between v,
      history (fun _ => .ok {}) 0 { maxInFlight := 2 } asksTwice = past ++ t :: (first ++ u :: (between ++ [v])) ∧
      Fails t (.at .disconnected "smp client: transport rebound") [.rebind 1] ∧
      u.before.requests.length = 2 ∧ u.output = .requested { slot := 1, generation := 3 } ∧
      turns [.rebind 1] v = true ∧
      v.output = .completed 2 (.error (.at .disconnected "smp client: transport rebound")) := by
  exact ⟨[_], _, [_, _], _, [_], _, rfl, .rebound 1 rfl rfl, rfl, rfl, rfl, rfl⟩

/-- Of two requests the first one's callback asks again, into the slot it has left. -/
def asksBehind : List Event :=
  [.call (.request {} true (.ok ()) 0), .call (.request {} true (.ok ()) 0), .call (.rebindTransport 1), .proceed,
    .call (.request {} true (.ok ()) 0), .proceed, .proceed, .proceed, .proceed]

theorem failAll_completes_pending_behind : ∃ past t during,
    history (fun _ => .ok {}) 0 { maxInFlight := 2 } asksBehind = past ++ t :: during ∧
      Fails t (.at .disconnected "smp client: transport rebound") [.rebind 1] ∧
      ∀ slot < 2, during.countP (fun u => turns [.rebind 1] u && takes slot u) = 1 := by
  obtain ⟨past, t, during, splits, fails, running, passed, own, stood⟩ : ∃ past t during,
      history (fun _ => .ok {}) 0 { maxInFlight := 2 } asksBehind = past ++ t :: during ∧
      Fails t (.at .disconnected "smp client: transport rebound") [.rebind 1] ∧
      (∀ u ∈ during, 1 < u.before.stack.length) ∧ (∀ u ∈ during, u.before.behind [.rebind 1] u.event = true) ∧
      (∀ slot < 2, ∀ u ∈ during, takes slot u = true → turns [.rebind 1] u = true) ∧
      ∀ slot < 2, (t.before.client.pending[slot]?.any Pending.active) = true :=
    ⟨[_, _], _, [_, _, _, _, _, _], rfl, .rebound 1 rfl rfl, by decide +kernel, by decide +kernel, by decide +kernel,
      by decide +kernel⟩
  have sweeps := failAll_completes_pending (fun _ => .ok {}) 0 { maxInFlight := 2 } asksBehind _ _ splits fails running
    passed
  refine ⟨past, t, during, splits, fails, fun slot small => ?_⟩
  obtain ⟨entry, stood, active⟩ := (Option.any_eq_true ..).mp (stood slot small)
  refine (sweeps.every rfl slot entry stood active rfl).mpr ?_
  rintro ⟨first, u, others, rfl, _, took, foreign⟩
  simp [own slot small u (by simp) took] at foreign

end World

end Smply.Smp
