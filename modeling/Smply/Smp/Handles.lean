import Smply.Smp.Table

namespace Smply.Smp

open Systems List SmpClient

namespace SmpClient

variable {handle : RequestHandle} {slot : Nat} {entry : Pending}

theorem resolve_iff {client : SmpClient} : client.resolve handle = some (slot, entry) ↔
      slot = handle.slot ∧ handle.valid = true ∧ client.pending[handle.slot]? = some entry ∧ entry.active = true ∧
        entry.generation = handle.generation := by
  constructor
  · intro found
    obtain ⟨stood, active⟩ := resolve_found found
    unfold resolve at found
    split at found
    · cases found
    rename_i usable
    simp only [ge_iff_le, Bool.or_eq_true, Bool.not_eq_eq_eq_not, Bool.not_true, decide_eq_true_eq, not_or,
      Bool.not_eq_false] at usable
    split at found
    · cases found
    rename_i other held stands
    split at found
    · cases found
    rename_i live
    cases found
    simp only [Bool.or_eq_true, Bool.not_eq_eq_eq_not, Bool.not_true, bne_iff_ne, ne_eq, not_or,
      Bool.not_eq_false, Decidable.not_not] at live
    obtain ⟨rfl, _⟩ := entryAt_found stands
    exact ⟨rfl, usable.1, stood, active, live.2⟩
  · rintro ⟨rfl, valid, stood, active, generation⟩
    have bound := (List.getElem?_eq_some_iff.mp stood).1
    simp [resolve, entryAt, valid, stood, active, generation, Nat.not_le_of_lt bound]

theorem cancel_inert {client : SmpClient} (inert : client.resolve handle = none) : client.cancel handle = client := by
  rw [cancel, inert]

def Dealt (client : SmpClient) (count : Nat) : Prop := client.nextGeneration = UInt64.ofNat (count + 1)

theorem generation_inj {first second : Nat} (small : first < 2 ^ 64) (bound : second < 2 ^ 64)
    (same : UInt64.ofNat first = UInt64.ofNat second) : first = second := by
  have values := congrArg UInt64.toNat same
  rw [UInt64.toNat_ofNat', UInt64.toNat_ofNat', Nat.mod_eq_of_lt small, Nat.mod_eq_of_lt bound] at values
  exact values

end SmpClient

namespace World

section
variable {before after : World} {event : Event} {output : Output}

theorem Row.requests_grow (row : Row before event output after) : before.requests.length ≤ after.requests.length := by
  cases row with
  | kept _ _ _ requests | cancelled _ _ _ _ requests | completed _ _ _ _ _ requests | delivered _ _ _ requests =>
    exact Nat.le_of_eq (congrArg List.length requests).symm
  | refused _ _ _ _ _ _ requests | issued _ _ _ _ _ _ _ _ _ _ requests =>
    rw [requests, length_append]
    exact Nat.le_add_right _ _

section
variable (booked : Booked before event output after)
include booked

theorem Booked.deals : after.client.nextGeneration = before.client.nextGeneration ∨
      after.client.nextGeneration = before.client.nextGeneration + 1 ∧
        before.requests.length < after.requests.length := by
  cases booked with
  | kept _ _ _ books =>
    have next := congrArg nextGeneration books
    exact .inl next
  | unsent _ _ _ _ _ _ _ _ draws books =>
    have next := congrArg nextGeneration books
    rw [retire_nextGeneration, draws.same] at next
    exact .inl next
  | sent _ _ _ _ _ _ _ _ _ _ books _ _ _ _ _ wired => exact .inr ⟨congrArg nextGeneration books, wire_grows wired⟩
  | detached _ _ _ _ _ _ _ books =>
    have next := congrArg nextGeneration books
    rw [SmpClient.detached, SmpClient.retire_nextGeneration] at next
    exact .inl next

theorem Booked.slot (slot : Nat) : after.client.pending[slot]? = before.client.pending[slot]? ∨
      ∀ entry, after.client.pending[slot]? = some entry → entry.active = true →
        entry.generation = before.client.nextGeneration ∧ before.requests.length < after.requests.length := by
  rcases booked.table with same | ⟨_, _, _, place, entry, _, _, pending, generation, more⟩ | ⟨place, entry, _, _, pending⟩
  · exact .inl (congrArg (·[slot]?) same)
  · rw [pending]
    by_cases here : place = slot
    · subst here
      refine .inr fun other found _ => ?_
      rw [pending_set_here found]
      exact ⟨generation, more⟩
    · exact .inl (getElem?_set_ne here)
  · rw [pending]
    by_cases here : place = slot
    · subst here
      refine .inr fun other found live => ?_
      rw [pending_set_here found] at live
      cases live
    · exact .inl (getElem?_set_ne here)

theorem Booked.appears {slot : Nat} {entry : Pending} (stands : after.client.pending[slot]? = some entry)
    (active : entry.active = true) : before.client.pending[slot]? = some entry ∨
      entry.generation = before.client.nextGeneration ∧
        after.client.nextGeneration = before.client.nextGeneration + 1 := by
  cases booked with
  | kept _ _ _ books =>
    have pending := congrArg pending books
    exact .inl (pending.symm ▸ stands)
  | unsent _ _ _ _ _ _ _ _ draws books =>
    have pending := congrArg pending books
    rw [retire_pending, draws.same] at pending
    exact .inl (pending.symm ▸ stands)
  | sent _ _ _ place _ new _ _ _ _ books draws _ _ _ generation =>
    have pending := congrArg pending books
    rw [draws.same] at pending
    rw [show after.client.pending = before.client.pending.set place new from pending] at stands
    by_cases here : place = slot
    · subst here
      rw [pending_set_here stands]
      exact .inr ⟨generation, congrArg nextGeneration books⟩
    · rw [getElem?_set_ne here] at stands
      exact .inl stands
  | detached _ _ place held _ _ _ books =>
    have pending := congrArg pending books
    rw [SmpClient.detached, SmpClient.retire_pending] at pending
    rw [show after.client.pending = before.client.pending.set place held.cleared from pending] at stands
    by_cases here : place = slot
    · subst here
      rw [pending_set_here stands] at active
      cases active
    · rw [getElem?_set_ne here] at stands
      exact .inl stands

end

end

theorem Booked.granted {after : World} {event : Event} (booked : Booked before event (.requested handle) after)
    (valid : handle.valid = true) : handle.generation = before.client.nextGeneration ∧
      after.client.nextGeneration = before.client.nextGeneration + 1 ∧
      before.requests.length < after.requests.length ∧
      ∃ entry, after.client.pending[handle.slot]? = some entry ∧ entry.generation = handle.generation := by
  generalize returned : Output.requested handle = output at booked
  cases booked with
  | kept _ _ _ _ _ invalid =>
    rw [invalid handle returned.symm] at valid
    cases valid
  | unsent =>
    cases returned
    cases valid
  | sent _ _ _ slot _ entry _ _ _ _ books draws stood _ _ generation wired =>
    cases returned
    have pending := congrArg pending books
    rw [draws.same] at pending
    have bound := (List.getElem?_eq_some_iff.mp stood).1
    refine ⟨rfl, congrArg nextGeneration books, wire_grows wired, entry, ?_, generation⟩
    rw [show after.client.pending = before.client.pending.set slot entry from pending, getElem?_set_self bound]
  | detached _ _ _ _ _ _ _ _ _ invalid => exact absurd returned.symm (invalid handle)

def Dealing (world : World) (least : Nat) : Prop :=
  ∃ count, least ≤ count ∧ count ≤ world.requests.length ∧ world.client.Dealt count

variable {extractMgmtError : Bytes → Result MgmtOutcome}

theorem step_dealing {before : World} {least : Nat} (dealing : before.Dealing least) (event : Event) :
    (before.step extractMgmtError event).2.Dealing least := by
  obtain ⟨count, enough, within, dealt⟩ := dealing
  have grow := (@step_row extractMgmtError before event).requests_grow
  rcases (@step_booked extractMgmtError before event).deals with same | ⟨next, more⟩
  · exact ⟨count, enough, Nat.le_trans within grow, same.trans dealt⟩
  refine ⟨count + 1, Nat.le_succ_of_le enough, Nat.lt_of_le_of_lt within more, ?_⟩
  rw [Dealt, next, show before.client.nextGeneration = _ from dealt, UInt64.ofNat_add (count + 1) 1]
  rfl

variable (extractMgmtError) (transport : Nat) (config : SmpClientConfig)

theorem reached_dealing (events : List Event) : (reached extractMgmtError transport config events).Dealing 0 :=
  state_invariant _ (start transport config) (Dealing · 0) ⟨0, Nat.le_refl 0, Nat.le_refl 0, rfl⟩
    (fun _ event dealing => step_dealing dealing event) events

def Numbered (world : World) : Prop :=
  ∃ count, count ≤ world.requests.length ∧ world.client.Dealt count ∧
    ∀ entry ∈ world.client.pending, entry.active = true → ∃ number < count, entry.generation = UInt64.ofNat (number + 1)

theorem step_numbered {before : World} (numbered : before.Numbered) (event : Event) :
    (before.step extractMgmtError event).2.Numbered := by
  obtain ⟨count, within, dealt, all⟩ := numbered
  have grow := (@step_row extractMgmtError before event).requests_grow
  have booked := @step_booked extractMgmtError before event
  rcases booked.deals with same | ⟨deals, more⟩
  · refine ⟨count, Nat.le_trans within grow, same.trans dealt, fun entry member active => ?_⟩
    obtain ⟨slot, stands⟩ := getElem?_of_mem member
    rcases booked.appears stands active with stood | ⟨_, advanced⟩
    · exact all entry (mem_of_getElem? stood) active
    · rw [same] at advanced
      exact absurd advanced.symm (by simp)
  · refine ⟨count + 1, Nat.lt_of_le_of_lt within more, ?_, fun entry member active => ?_⟩
    · rw [Dealt, deals, show before.client.nextGeneration = _ from dealt, UInt64.ofNat_add (count + 1) 1]
      rfl
    obtain ⟨slot, stands⟩ := getElem?_of_mem member
    rcases booked.appears stands active with stood | ⟨fresh, _⟩
    · obtain ⟨number, below, own⟩ := all entry (mem_of_getElem? stood) active
      exact ⟨number, Nat.lt_succ_of_lt below, own⟩
    · exact ⟨count, Nat.lt_succ_self count, fresh.trans dealt⟩

theorem reached_numbered (events : List Event) : (reached extractMgmtError transport config events).Numbered := by
  refine state_invariant _ (start transport config) Numbered ⟨0, Nat.le_refl 0, rfl, ?_⟩
    (fun _ event numbered => step_numbered extractMgmtError numbered event) events
  intro entry member active
  rw [eq_of_mem_replicate member] at active
  cases active

structure Stands (slot number : Nat) (entry : Pending) (later : List (Transition World Event Output)) (state : World) :
    Prop where
  dealing : state.Dealing (number + 1)
  since : state.requests.length < 2 ^ 64 → ∀ other, state.client.pending[slot]? = some other → other.active = true →
    other.generation = UInt64.ofNat (number + 1) →
      other = entry ∧ ∀ v ∈ later, v.after.client.pending[slot]? = some entry

theorem step_stands {number : Nat} {later : List (Transition World Event Output)} {state : World}
    (stands : Stands slot number entry later state) (event : Event) :
    Stands slot number entry (later ++ [transition (World.step extractMgmtError) state event])
      (state.step extractMgmtError event).2 := by
  refine ⟨step_dealing stands.dealing event, ?_⟩
  intro few other stood active generation
  have grow := (@step_row extractMgmtError state event).requests_grow
  rcases (@step_booked extractMgmtError state event).slot slot with same | new
  · rw [same] at stood
    obtain ⟨rfl, since⟩ := stands.since (Nat.lt_of_le_of_lt grow few) other stood active generation
    refine ⟨rfl, fun v member => ?_⟩
    rcases mem_append.mp member with member | member
    · exact since v member
    · rw [mem_singleton.mp member]
      exact same.trans stood
  · obtain ⟨count, enough, within, dealt⟩ := stands.dealing
    obtain ⟨fresh, more⟩ := new other stood active
    rw [generation, show state.client.nextGeneration = _ from dealt] at fresh
    have equal := generation_inj (by omega) (by omega) fresh
    omega

theorem granted_stands {state : World} (dealing : state.Dealing 0) (event : Event)
    (returned : (state.step extractMgmtError event).1 = .requested handle) (valid : handle.valid = true)
    (rest : List Event) : ∃ number entry, handle.generation = UInt64.ofNat (number + 1) ∧
      (state.step extractMgmtError event).2.client.pending[handle.slot]? = some entry ∧
      entry.generation = handle.generation ∧
      Stands handle.slot number entry (log (World.step extractMgmtError) (state.step extractMgmtError event).2 rest)
        (run (World.step extractMgmtError) (state.step extractMgmtError event).2 rest) := by
  obtain ⟨count, _, within, dealt⟩ := dealing
  have booked := @step_booked extractMgmtError state event
  rw [returned] at booked
  obtain ⟨generation, next, more, entry, stood, own⟩ := booked.granted valid
  have number := generation.trans dealt
  refine ⟨count, entry, number, stood, own, ?_⟩
  apply history_invariant _ _ (Stands handle.slot count entry) ?_ (fun past state event stands => step_stands _ stands event)
  constructor
  · refine ⟨count + 1, Nat.le_refl _, Nat.lt_of_le_of_lt within more, ?_⟩
    rw [Dealt, next, show state.client.nextGeneration = _ from dealt, UInt64.ofNat_add (count + 1) 1]
    rfl
  intro _ other stands _ _
  rw [stood] at stands
  exact ⟨(Option.some.inj stands).symm, fun _ member => (not_mem_nil member).elim⟩

/-- A handle resolves exactly as long as its own request's entry stands, and after that `cancel` changes nothing. -/
theorem handle_resolves_own_request (events : List Event)
    (few : (reached extractMgmtError transport config events).requests.length < 2 ^ 64) :
    ∀ past t later handle, history extractMgmtError transport config events = past ++ t :: later →
      t.output = .requested handle →
      (∀ slot entry, (reached extractMgmtError transport config events).client.resolve handle = some (slot, entry) ↔
        slot = handle.slot ∧ handle.valid = true ∧ entry.active = true ∧
          t.after.client.pending[slot]? = some entry ∧ ∀ v ∈ later, v.after.client.pending[slot]? = some entry) ∧
      (∀ v ∈ later, v.after.client.resolve handle = none →
        (reached extractMgmtError transport config events).client.resolve handle = none) ∧
      ((reached extractMgmtError transport config events).client.resolve handle = none →
        (reached extractMgmtError transport config events).step extractMgmtError (.call (.cancel handle)) =
          (.quiet, reached extractMgmtError transport config events)) := by
  intro past t later handle splits returned
  obtain ⟨earlier, event, rest, rfl, _, now, follows⟩ := log_split _ _ _ splits
  have ended : reached extractMgmtError transport config (earlier ++ event :: rest) =
      run (World.step extractMgmtError) t.after rest := by
    rw [reached, run_append, now]
    rfl
  have exactly : ∀ slot entry,
      (reached extractMgmtError transport config (earlier ++ event :: rest)).client.resolve handle = some (slot, entry) ↔
        slot = handle.slot ∧ handle.valid = true ∧ entry.active = true ∧
          t.after.client.pending[slot]? = some entry ∧ ∀ v ∈ later, v.after.client.pending[slot]? = some entry := by
    intro slot entry
    rw [resolve_iff, ended]
    by_cases valid : handle.valid = true
    · rw [now] at returned
      obtain ⟨number, own, generation, stood, numbered, stands⟩ :=
        granted_stands extractMgmtError (reached_dealing extractMgmtError transport config earlier) event returned valid rest
      rw [ended] at few
      subst follows now
      constructor
      · rintro ⟨rfl, _, stays, active, same⟩
        obtain ⟨rfl, since⟩ := stands.since few entry stays active (same.trans generation)
        exact ⟨rfl, valid, active, stood, since⟩
      rintro ⟨rfl, _, active, here, since⟩
      refine ⟨rfl, valid, ?_, active, ?_⟩
      · exact run_holds _ _ (fun world : World => world.client.pending[handle.slot]? = some entry) here rest since
      · obtain rfl : own = entry := Option.some.inj (stood.symm.trans here)
        exact numbered
    · exact ⟨fun resolves => absurd resolves.2.1 valid, fun resolves => absurd resolves.2.1 valid⟩
  refine ⟨exactly, ?_, ?_⟩
  · intro v member gone
    cases found : (reached extractMgmtError transport config (earlier ++ event :: rest)).client.resolve handle with
    | none => rfl
    | some place =>
      obtain ⟨slot, entry⟩ := place
      obtain ⟨rfl, valid, active, _, since⟩ := (exactly slot entry).mp found
      have generation := (resolve_iff.mp found).2.2.2.2
      have resolves := resolve_iff.mpr ⟨rfl, valid, since v member, active, generation⟩
      rw [gone] at resolves
      cases resolves
  · intro inert
    simp only [step, enter, cancel_inert inert, ite_self]

def slotReused : List Event :=
  [.call (.request {} true (.ok ()) 0), .call (.cancel { slot := 0, generation := 1 }),
    .call (.request {} true (.ok ()) 0)]

theorem handle_resolves_own_request_reused :
    ((reached (fun _ => .ok {}) 0 {} slotReused).client.pending.map fun entry => (entry.active, entry.generation)) =
      [(true, 2)] ∧
    (reached (fun _ => .ok {}) 0 {} slotReused).client.resolve { slot := 0, generation := 1 } = none ∧
    (reached (fun _ => .ok {}) 0 {} slotReused).step (fun _ => .ok {}) (.call (.cancel { slot := 0, generation := 1 })) =
      (.quiet, reached (fun _ => .ok {}) 0 {} slotReused) := by
  obtain ⟨_, stays, inert⟩ := handle_resolves_own_request (fun _ => .ok {}) 0 {} slotReused (by decide +kernel) [] _
    [_, _] { slot := 0, generation := 1 } rfl rfl
  have gone := stays _ (mem_cons_self ..) (by decide +kernel)
  exact ⟨by decide +kernel, gone, inert gone⟩

end World

end Smply.Smp
