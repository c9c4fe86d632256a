import Smply.Smp.Sweep

namespace Smply.Smp

open Systems

variable {before : World}

def aboveRebind : List Frame → Option (List Frame)
  | [] => none
  | .rebind _ :: _ => some []
  | frame :: rest => (aboveRebind rest).map (frame :: ·)

theorem aboveRebind_append {frames : List Frame} (settled : ∀ transport, Frame.rebind transport ∉ frames)
    (rest : List Frame) : aboveRebind (frames ++ rest) = (aboveRebind rest).map (frames ++ ·) := by
  induction frames with
  | nil => exact Option.map_id'.symm
  | cons frame _ ih =>
    have later := ih fun transport member => settled transport (List.mem_cons_of_mem _ member)
    cases frame with
    | rebind transport => exact absurd (List.mem_cons_self ..) (settled transport)
    | _ =>
      rw [List.cons_append, aboveRebind, later, Option.map_map]
      · rfl
      · exact fun _ => nofun

namespace World

/-- While a `rebind_transport` runs, a request goes where its sweep has still to come. -/
def inSweep (before : World) : Event → Bool
  | .call (.request spec callback (.ok ()) now) =>
    !before.callable (.request spec callback (.ok ()) now) ||
      (aboveRebind before.stack).all fun above =>
        (before.client.admits spec).all fun slot => decide (Covers above slot)
  | _ => true

def Rebinding (world : World) : Prop := ∀ above, aboveRebind world.stack = some above → world.Swept above

variable {extractMgmtError : Bytes → Result MgmtOutcome}

theorem proceed_left (before : World) (slot : Nat) : Left before (before.proceed extractMgmtError).2 slot := by
  rcases (@proceed_booked extractMgmtError before).left slot with left | ⟨_, _, _, called, _⟩
  · exact left
  · cases called

theorem proceed_rebinding (rebinding : before.Rebinding) : (before.proceed extractMgmtError).2.Rebinding := by
  cases stood : before.stack with
  | nil =>
    simp only [proceed, stood]
    exact rebinding
  | cons top rest =>
    obtain ⟨frames, stack, leaves⟩ := @proceed_leaves extractMgmtError before top rest stood
    intro above found
    rw [stack, aboveRebind_append leaves.settled] at found
    obtain ⟨others, inner, rfl⟩ := Option.map_eq_some_iff.mp found
    by_cases switches : ∃ transport, top = .rebind transport
    · obtain ⟨transport, rfl⟩ := switches
      have swept := rebinding [] (by rw [stood]; rfl)
      intro slot entry stands active
      obtain ⟨frame, member, _⟩ := swept slot entry (proceed_left before slot entry stands active) active
      exact (List.not_mem_nil member).elim
    · have whole : aboveRebind before.stack = some (top :: others) := by
        rw [stood]
        have plain : ∀ transport, Frame.rebind transport ∉ [top] := fun transport member =>
          switches ⟨transport, (List.mem_singleton.mp member).symm⟩
        rw [← List.singleton_append, aboveRebind_append plain, inner]
        rfl
      exact (rebinding _ whole).turn (proceed_left before) leaves

theorem enter_rebinding {call : Call} (rebinding : before.Rebinding)
    (callable : before.callable call = true) (sweeps : before.inSweep (.call call) = true) :
    (before.enter call).2.Rebinding := by
  obtain ⟨frames, stack, settled | ⟨error, transport, rfl⟩⟩ := before.enter_frames call
  · intro above found
    rw [stack, aboveRebind_append settled] at found
    obtain ⟨others, inner, rfl⟩ := Option.map_eq_some_iff.mp found
    refine (rebinding others inner).enter (enter_booked before call) ?_ frames
    intro spec callback now slot called admitted
    cases called
    simpa [inSweep, callable, inner, admitted] using sweeps
  · intro above found slot entry stands active
    rw [stack] at found
    cases found
    exact ⟨.failAll 0 error, List.mem_singleton.mpr rfl, by simp [Frame.reaches]⟩

theorem step_rebinding (event : Event) (sweeps : before.inSweep event = true)
    (rebinding : before.Rebinding) : (before.step extractMgmtError event).2.Rebinding := by
  cases event with
  | proceed => exact proceed_rebinding rebinding
  | call call =>
    simp only [step]
    split
    · rename_i callable
      exact enter_rebinding rebinding callable sweeps
    · exact rebinding

variable (extractMgmtError) (transport : Nat) (config : SmpClientConfig)

/-- When `rebind_transport` returns, nothing sent before is pending, if no request meanwhile went into a slot already
passed. -/
theorem rebind_leaves_nothing (events : List Event)
    (sweeps : ∀ t ∈ history extractMgmtError transport config events, t.before.inSweep t.event = true) :
    ∀ t ∈ history extractMgmtError transport config events, ∀ other rest, t.event = .proceed →
      t.before.stack = .rebind other :: rest →
      t.after.client.transport = other ∧ ∀ entry ∈ t.after.client.pending, entry.active = false := by
  refine guarded_transitions _ _ Rebinding (fun t => t.before.inSweep t.event = true) _ ?_
    (fun state event sweeps => step_rebinding event sweeps) ?_ events sweeps
  · exact fun _ => nofun
  intro state event _ rebinding other rest proceeds stood
  obtain rfl : event = .proceed := proceeds
  have stood : state.stack = .rebind other :: rest := stood
  simp only [transition, step]
  constructor
  · simp only [proceed, stood]
  intro entry member
  obtain ⟨slot, stands⟩ := List.getElem?_of_mem member
  by_contra active
  have swept : state.Swept [] := rebinding [] (by rw [stood]; rfl)
  have live : entry.active = true := by simpa using active
  obtain ⟨frame, within, _⟩ := swept slot entry (proceed_left state slot entry stands live) live
  exact List.not_mem_nil within

/-- The callback of the only request asks again while `rebind_transport` fails it. -/
def asksWhileRebinding : List Event :=
  [.call (.request {} true (.ok ()) 0), .call (.rebindTransport 1), .proceed, .call (.request {} true (.ok ()) 0),
    .proceed, .proceed, .proceed]

theorem rebind_leaves_request :
    ∃ past u mid t handle rest, history (fun _ => .ok {}) 0 {} asksWhileRebinding = past ++ u :: (mid ++ [t]) ∧
      u.output = .requested handle ∧ u.before.client.transport = 0 ∧ t.event = .proceed ∧
      t.before.stack = .rebind 1 :: rest ∧ t.after.client.transport = 1 ∧
      (t.after.client.resolve handle).isSome = true := by
  exact ⟨[_, _, _], _, [_, _], _, _, _, rfl, rfl, by decide +kernel, rfl, rfl, by decide +kernel, by decide +kernel⟩

def threeInFlight : SmpClientConfig := { maxInFlight := 3, maxSmpPayload := 4 }

/-- Of three requests the first one's callback asks with a payload that is too long, and cancels the second. -/
def callsWhileRebinding : List Event :=
  List.replicate 3 (.call (.request {} true (.ok ()) 0)) ++ [.call (.rebindTransport 1), .proceed,
    .call (.request { payload := [1, 2, 3, 4, 5] } true (.ok ()) 0), .call (.cancel ⟨1, 2⟩)] ++ List.replicate 6 .proceed

theorem rebind_leaves_nothing_called : ∃ t ∈ history (fun _ => .ok {}) 0 threeInFlight callsWhileRebinding, ∃ rest,
    t.before.stack = .rebind 1 :: rest ∧ t.before.client.deferred.length = 2 ∧
      t.after.client.transport = 1 ∧ ∀ entry ∈ t.after.client.pending, entry.active = false := by
  have leaves := rebind_leaves_nothing (fun _ => .ok {}) 0 threeInFlight callsWhileRebinding (by decide +kernel)
  obtain ⟨past, t, rest, ends, proceeds, stood, queued⟩ : ∃ past t rest,
      history (fun _ => .ok {}) 0 threeInFlight callsWhileRebinding = past ++ [t] ∧ t.event = .proceed ∧
      t.before.stack = .rebind 1 :: rest ∧ t.before.client.deferred.length = 2 :=
    ⟨[_, _, _, _, _, _, _, _, _, _, _, _], _, _, rfl, rfl, rfl, rfl⟩
  have member : t ∈ history (fun _ => .ok {}) 0 threeInFlight callsWhileRebinding := by
    rw [ends]
    exact List.mem_append_right _ (List.mem_singleton.mpr rfl)
  exact ⟨t, member, rest, stood, queued, leaves t member 1 rest proceeds stood⟩

end World

end Smply.Smp
