import Smply.Smp.Custody

namespace Smply.Smp

open Systems SmpClient

namespace SmpClient

variable {before : World} {seq : UInt8}

def books (client : SmpClient) : SmpClient :=
  { client with
    transport := 0, assembler := {}, deferred := [], connected := true, lastTransportError := none, stats := {} }

section
variable (client : SmpClient)
include client

theorem retire_books (seq : UInt8) : (client.retire seq).books = client.books.retire seq := by
  unfold retire
  by_cases none_kept : client.config.maxRetiredSeqs = 0
  · rw [if_pos none_kept, if_pos (c := client.books.config.maxRetiredSeqs = 0) none_kept]
  rw [if_neg none_kept, if_neg (c := client.books.config.maxRetiredSeqs = 0) none_kept]
  by_cases known : client.retiredFlags seq = true
  · rw [if_pos known, if_pos (c := client.books.retiredFlags seq = true) known]
  rw [if_neg known, if_neg (c := client.books.retiredFlags seq = true) known]
  by_cases full : client.retiredRing.length = client.config.maxRetiredSeqs.toNat
  · rw [if_pos full, if_pos (c := client.books.retiredRing.length = client.books.config.maxRetiredSeqs.toNat) full]
    rfl
  · rw [if_neg full, if_neg (c := client.books.retiredRing.length = client.books.config.maxRetiredSeqs.toNat) full]
    rfl

theorem retire_fields (seq : UInt8) : ∃ flags ring head,
    client.retire seq = { client with retiredFlags := flags, retiredRing := ring, retiredHead := head } := by
  unfold retire
  split
  · exact ⟨_, _, _, rfl⟩
  split
  · exact ⟨_, _, _, rfl⟩
  · split <;> exact ⟨_, _, _, rfl⟩

theorem retire_config (seq : UInt8) : (client.retire seq).config = client.config := by
  obtain ⟨flags, ring, head, same⟩ := client.retire_fields seq
  rw [same]

theorem retire_nextGeneration (seq : UInt8) : (client.retire seq).nextGeneration = client.nextGeneration := by
  obtain ⟨flags, ring, head, same⟩ := client.retire_fields seq
  rw [same]

@[simp] theorem defer_books (callback : Option Callback) (error : Error) :
    (client.defer callback error).books = client.books := by
  cases callback <;> rfl

end

def detached (client : SmpClient) (slot : Nat) (entry : Pending) : SmpClient :=
  { client with pending := client.pending.set slot entry.cleared }.retire entry.seq

theorem detach_books (client : SmpClient) (slot : Nat) (entry : Pending) :
    (client.detach slot entry).2.books = client.books.detached slot entry :=
  retire_books _ _

structure Drawn (client : SmpClient) (seq : UInt8) (drawn : SmpClient) : Prop where
  same : drawn = { client with nextSeq := seq + 1 }
  fresh : ∀ entry ∈ client.pending, entry.active = true → entry.seq ≠ seq
  unretired : client.retiredFlags seq = false

theorem findBySeq_none {client : SmpClient} (missing : client.findBySeq seq = none) :
    ∀ entry ∈ client.pending, entry.active = true → entry.seq ≠ seq := by
  intro entry member active same
  cases found : client.pending.findIdx? fun entry => entry.active && entry.seq == seq with
  | none =>
    have no := List.findIdx?_eq_none_iff.mp found entry member
    simp [active, same] at no
  | some =>
    obtain ⟨bound, _⟩ := List.findIdx?_eq_some_iff_getElem.mp found
    simp [findBySeq, found, entryAt, bound] at missing

theorem allocateSeq_drawn {client drawn : SmpClient} (drew : client.allocateSeq = some (seq, drawn)) :
    client.Drawn seq drawn := by
  unfold allocateSeq at drew
  simp only at drew
  split at drew
  · cases drew
  rename_i candidate found
  cases drew
  have free := List.find?_some found
  simp only [Bool.and_eq_true, Option.isNone_iff_eq_none, Bool.not_eq_eq_eq_not, Bool.not_true] at free
  exact ⟨rfl, findBySeq_none free.1, free.2⟩

def admits (client : SmpClient) (spec : RequestSpec) : Option Nat :=
  if client.connected ∧ spec.payload.length ≤ client.config.maxSmpPayload.toNat ∧ client.allocateSeq.isSome then
    client.freeSlot
  else
    none

end SmpClient

namespace World

def wire (before after : World) : Option UInt8 :=
  ((after.requests.drop before.requests.length).head?.bind Issued.header).map Header.seq

inductive Booked (before : World) : Event → Output → World → Prop
  | kept (event : Event) (output : Output) (after : World) (books : after.client.books = before.client.books)
      (quiet : wire before after = none) (invalid : ∀ handle, output = .requested handle → handle = {}) :
      Booked before event output after
  | unsent (spec : RequestSpec) (callback : Bool) (sent : Result Unit) (now : TimePoint) (seq : UInt8)
      (drawn : SmpClient) (after : World) (stack : after.stack = before.stack)
      (draws : before.client.Drawn seq drawn) (books : after.client.books = drawn.books.retire seq)
      (wired : wire before after = some seq) :
      Booked before (.call (.request spec callback sent now)) (.requested {}) after
  | sent (spec : RequestSpec) (callback : Bool) (now : TimePoint) (slot : Nat) (old entry : Pending)
      (drawn : SmpClient) (after : World) (stack : after.stack = before.stack)
      (admitted : before.client.admits spec = some slot)
      (books : after.client.books =
        { drawn.books with
          pending := drawn.pending.set slot entry, nextGeneration := before.client.nextGeneration + 1 })
      (draws : before.client.Drawn entry.seq drawn) (stood : before.client.pending[slot]? = some old)
      (free : old.active = false) (active : entry.active = true)
      (generation : entry.generation = before.client.nextGeneration) (wired : wire before after = some entry.seq) :
      Booked before (.call (.request spec callback (.ok ()) now))
        (.requested { slot := slot, generation := before.client.nextGeneration }) after
  | detached (event : Event) (output : Output) (slot : Nat) (entry : Pending) (after : World)
      (stood : before.client.pending[slot]? = some entry) (active : entry.active = true)
      (books : after.client.books = before.client.books.detached slot entry) (quiet : wire before after = none)
      (invalid : ∀ handle, output ≠ .requested handle) : Booked before event output after

theorem wire_same {after : World} (requests : after.requests = before.requests) : wire before after = none := by
  rw [wire, requests, List.drop_length]
  rfl

theorem wire_issued {after : World} {issued : Issued} {seq : Option UInt8}
    (requests : after.requests = before.requests ++ [issued]) (named : issued.header.map Header.seq = seq) :
    wire before after = seq := by
  rw [wire, requests, List.drop_left, ← named]
  rfl

theorem kept_booked {after : World} {event : Event} {output : Output}
    (requests : after.requests = before.requests) (books : after.client.books = before.client.books)
    (silent : ∀ handle, output ≠ .requested handle) : Booked before event output after :=
  .kept event output after books (wire_same requests) fun handle same => absurd same (silent handle)

theorem goOn_booked {client : SmpClient} {frames : List Frame} {slot : Nat} {entry : Pending}
    {result : Result RawResponse} (books : client.books = before.client.books)
    (stood : before.client.pending[slot]? = some entry) (active : entry.active = true) :
    Booked before .proceed (before.goOn frames (client.complete slot entry result)).1
      (before.goOn frames (client.complete slot entry result)).2 := by
  have table : (client.complete slot entry result).2.books = before.client.books.detached slot entry := by
    rw [← books]
    exact detach_books client slot entry
  generalize client.complete slot entry result = completed at table
  obtain ⟨completion, after⟩ := completed
  cases completion with
  | none | some => exact .detached _ _ slot entry _ stood active table (wire_same rfl) (fun _ => nofun)

variable {extractMgmtError : Bytes → Result MgmtOutcome}

theorem message_booked {rest payload : Bytes} {stack : List Frame} {header : Header} {assembler : MessageAssembler} :
    Booked before .proceed
      (before.goOn (.feed rest :: stack)
        ({ before.client with assembler := assembler }.onMessage extractMgmtError header payload)).1
      (before.goOn (.feed rest :: stack)
        ({ before.client with assembler := assembler }.onMessage extractMgmtError header payload)).2 := by
  unfold onMessage
  simp only
  split
  · split
    · exact kept_booked rfl rfl (fun _ => nofun)
    · exact kept_booked rfl rfl (fun _ => nofun)
  rename_i slot entry found
  split
  · exact kept_booked rfl rfl (fun _ => nofun)
  · obtain ⟨stood, active, _⟩ := findBySeq_found found
    exact goOn_booked rfl stood active

theorem proceed_booked (before : World) :
    Booked before .proceed (before.proceed extractMgmtError).1 (before.proceed extractMgmtError).2 := by
  unfold proceed
  simp only
  split
  · exact kept_booked rfl rfl (fun _ => nofun)
  · exact kept_booked rfl rfl (fun _ => nofun)
  · split <;> exact kept_booked rfl rfl (fun _ => nofun)
  · exact kept_booked rfl rfl (fun _ => nofun)
  · exact kept_booked rfl rfl (fun _ => nofun)
  · exact kept_booked rfl rfl (fun _ => nofun)
  · exact kept_booked rfl rfl (fun _ => nofun)
  · split
    · exact kept_booked rfl rfl (fun _ => nofun)
    rename_i slot entry found
    obtain ⟨stood, active⟩ := resolve_found found
    exact goOn_booked rfl stood active
  · split
    · exact kept_booked rfl rfl (fun _ => nofun)
    rename_i entry stood
    split
    · exact kept_booked rfl rfl (fun _ => nofun)
    · rename_i active
      exact goOn_booked rfl stood (by simpa using active)
  · exact kept_booked rfl rfl (fun _ => nofun)
  · split
    · exact kept_booked rfl rfl (fun _ => nofun)
    · exact kept_booked rfl rfl (fun _ => nofun)
    · exact message_booked

theorem request_booked (before : World) (spec : RequestSpec) (callback : Bool) (sent : Result Unit)
    (now : TimePoint) :
    Booked before (.call (.request spec callback sent now)) (before.enter (.request spec callback sent now)).1
      (before.enter (.request spec callback sent now)).2 := by
  simp only [enter]
  generalize (if callback then some before.requests.length else none) = onResponse
  unfold request
  have refused (error : Error) : Booked before (.call (.request spec callback sent now)) (.requested {}) { before with
        client := before.client.defer onResponse error, requests := before.requests ++ [⟨spec, callback, none⟩] } :=
    .kept _ _ _ (defer_books ..) (wire_issued rfl rfl) fun handle same => (Output.requested.inj same).symm
  split
  · exact refused _
  rename_i linked
  split
  · exact refused _
  rename_i fits
  split
  · exact refused _
  rename_i slot free
  split
  · exact refused _
  rename_i seq drawn drew
  have draws := allocateSeq_drawn drew
  simp only
  split
  · rename_i error
    refine .unsent spec callback _ now seq drawn _ rfl draws ?_ (wire_issued rfl rfl)
    rw [defer_books, retire_books]
  obtain ⟨old, stood, idle⟩ := freeSlot_found free
  have generation : drawn.nextGeneration = before.client.nextGeneration := by rw [draws.same]
  have admitted : before.client.admits spec = some slot := by
    rw [admits, if_pos ⟨by simpa using linked, Nat.le_of_not_gt fits, by rw [drew]; rfl⟩, free]
  rw [generation]
  exact .sent spec callback now slot old _ drawn _ rfl admitted rfl draws stood idle rfl rfl (wire_issued rfl rfl)

theorem enter_booked (before : World) (call : Call) :
    Booked before (.call call) (before.enter call).1 (before.enter call).2 := by
  cases call with
  | request spec callback sent now => exact request_booked before spec callback sent now
  | cancel handle =>
    simp only [enter, cancel]
    split
    · exact kept_booked rfl rfl (by simp)
    rename_i slot entry found
    obtain ⟨stood, active⟩ := resolve_found found
    refine .detached _ _ slot entry _ stood active ?_ (wire_same rfl) (by simp)
    rw [defer_books]
    exact detach_books _ slot entry
  | defer work => cases work <;> exact kept_booked rfl rfl (by rintro _ ⟨⟩)
  | onBytes =>
    simp only [enter]
    split <;> exact kept_booked rfl rfl (by simp)
  | _ => exact kept_booked rfl rfl (by rintro _ ⟨⟩)

theorem step_booked (before : World) (event : Event) :
    Booked before event (before.step extractMgmtError event).1 (before.step extractMgmtError event).2 := by
  cases event with
  | call call =>
    simp only [step]
    split
    · exact enter_booked before call
    · exact kept_booked rfl rfl (by simp)
  | proceed => exact proceed_booked before

theorem wire_grows {after : World} (wired : wire before after = some seq) :
    before.requests.length < after.requests.length := by
  by_contra short
  rw [wire, List.drop_eq_nil_of_le (Nat.le_of_not_lt short)] at wired
  cases wired

theorem Booked.table {after : World} {event : Event} {output : Output} (booked : Booked before event output after) :
    after.client.pending = before.client.pending ∨
      (∃ spec callback now slot entry, event = .call (.request spec callback (.ok ()) now) ∧
        before.client.admits spec = some slot ∧ after.client.pending = before.client.pending.set slot entry ∧
        entry.generation = before.client.nextGeneration ∧ before.requests.length < after.requests.length) ∨
      ∃ slot entry, before.client.pending[slot]? = some entry ∧ entry.active = true ∧
        after.client.pending = before.client.pending.set slot entry.cleared := by
  cases booked with
  | kept _ _ _ books =>
    have pending := congrArg pending books
    exact .inl pending
  | unsent _ _ _ _ _ _ _ _ draws books =>
    have pending := congrArg pending books
    rw [retire_pending, draws.same] at pending
    exact .inl pending
  | sent spec callback now slot _ entry _ _ _ admitted books draws _ _ _ generation wired =>
    have pending := congrArg pending books
    rw [draws.same] at pending
    exact .inr (.inl ⟨spec, callback, now, slot, entry, rfl, admitted, pending, generation, wire_grows wired⟩)
  | detached _ _ slot entry _ stood active books =>
    have pending := congrArg pending books
    rw [SmpClient.detached, SmpClient.retire_pending] at pending
    exact .inr (.inr ⟨slot, entry, stood, active, pending⟩)

theorem pending_set_here {pending : List Pending} {slot : Nat} {entry other : Pending}
    (stands : (pending.set slot entry)[slot]? = some other) : other = entry := by
  rw [List.getElem?_set, if_pos rfl] at stands
  split at stands
  · exact (Option.some.inj stands).symm
  · cases stands

end World

end Smply.Smp
