import Smply.Systems.Hoare
import Smply.Cbor.Decode
import Smply.Cbor.Document

namespace Smply.Cbor

open Systems Reader

section
variable {Context α β : Type} {qcbor : Qcbor Context}

def Clean (reader : Reader Context) : Prop := ∀ met ∈ reader.met, met ≠ .failed

def Told (reader : Reader Context) : Prop := reader.error = none → Clean reader

def Owns (result : Result α) (reader : Reader Context) : Prop := ∀ value, result = .ok value → Clean reader

def Honest (m : Read Context (Result α)) : Prop := Ensures Told m Owns

theorem Clean.told {reader : Reader Context} (clean : Clean reader) : Told reader := fun _ => clean

theorem Clean.noted {reader : Reader Context} {met : Met} (clean : Clean reader) (good : met ≠ .failed) :
    Clean { reader with met := reader.met ++ [met] } := by
  intro other member
  rcases List.mem_append.mp member with earlier | last
  · exact clean other earlier
  · rw [List.mem_singleton.mp last]
    exact good

theorem note_clean {met : Met} (good : met ≠ .failed) : Ensures (@Clean Context) (note met) fun _ => Clean :=
  fun _ clean => clean.noted good

section
variable {before : Reader Context → Prop}

theorem record_owns (error : Error) : Ensures before (record error : Read Context (Result α)) Owns := by
  intro reader _ value same
  cases same

theorem refused_owns (met : Met) (error : Error) :
    Ensures before (do note met; record error : Read Context (Result α)) Owns := by
  intro reader _ value same
  cases same

theorem poison_told (error : Error) : Ensures before (poison error) fun _ => Told := by
  intro reader _ none_
  cases none_

end

theorem call_clean (function : Context → α × Context) : Ensures Clean (call function) fun _ => Clean :=
  fun _ clean => clean

theorem call_told (function : Context → α × Context) : Ensures Told (call function) fun _ => Told :=
  fun _ told => told

section
variable (function : Context → Bool × Context)
include function

theorem attempt_keeps {holds : Reader Context → Prop} (kept : ∀ reader, holds reader → holds { reader with
      context := (function reader.context).2, met := reader.met ++ [.found] }) :
    Ensures holds (attempt function) fun succeeded reader => succeeded = true → holds reader := by
  intro reader before succeeded
  have found : (function reader.context).1 = true := succeeded
  have same : ((attempt function).run reader).2 =
      { reader with context := (function reader.context).2, met := reader.met ++ [.found] } := by
    show ({ reader with context := _, met := reader.met ++ [if (function reader.context).1 then _ else _] } : Reader _) = _
    rw [found]
    rfl
  rw [same]
  exact kept reader before

theorem attempt_clean : Ensures Clean (attempt function) fun succeeded reader => succeeded = true → Clean reader :=
  attempt_keeps function fun reader clean =>
    @Clean.noted Context { reader with context := (function reader.context).2 } .found clean nofun

theorem attempt_told : Ensures Told (attempt function) fun succeeded reader => succeeded = true → Told reader :=
  attempt_keeps function fun reader told unpoisoned =>
    @Clean.noted Context { reader with context := (function reader.context).2 } .found (told unpoisoned) nofun

end

theorem consumeLookup_told (answer : Answer α) : Ensures (@Clean Context) (consumeLookup answer) fun _ => Told := by
  intro reader clean
  cases answer with
  | value => exact (clean.noted (by decide : Met.found ≠ .failed)).told
  | labelNotFound => exact (clean.noted (by decide : Met.absent ≠ .failed)).told
  | error => exact nofun

theorem getter_told (lookup : String → Context → Answer α × Context) (key : String) :
    Ensures Told (getter lookup key) fun _ => Told := by
  refine .get_bind fun reader told => ?_
  split
  · exact .pure_ fun _ same => same ▸ told
  rename_i unpoisoned
  have clean := told (by simpa using unpoisoned)
  split
  · exact (poison_told _).bind fun _ => .pure_ fun _ => id
  · exact (Ensures.bind (call_clean _) fun answer => consumeLookup_told answer).strengthen fun _ same => same ▸ clean

theorem failed_owns {before : Reader Context → Prop} (error : Error) :
    Ensures before (pure (.error error) : Read Context (Result α)) Owns := by
  intro reader _ value same
  cases same

theorem guarded_honest {enter : Read Context (Result α)} (key : String) (owns : Ensures Clean enter Owns) :
    Honest (guarded key enter) := by
  refine .get_bind fun reader told => ?_
  split
  · exact failed_owns _
  rename_i unpoisoned
  split
  · exact record_owns _
  split
  · exact record_owns _
  · exact owns.strengthen fun _ same => same ▸ told unpoisoned

theorem enterMap_honest : Honest (enterMap qcbor) := by
  refine guarded_honest "" ((attempt_clean _).bind fun succeeded => ?_)
  cases succeeded with
  | true =>
    intro reader clean _ _
    exact clean rfl
  | false => exact record_owns _

theorem record_told {before : Reader Context → Prop} (error : Error) :
    Ensures before (record error : Read Context (Result α)) fun _ => Told :=
  (poison_told error).bind fun _ => .pure_ fun _ => id

theorem leaveMap_told : Ensures Told (leaveMap qcbor) fun _ => Told := by
  refine .get_bind fun reader told => ?_
  split
  · exact record_told _
  have ascended : Ensures (· = reader) ascend fun _ => Told := fun _ same => same ▸ told
  refine ascended.bind fun _ => (attempt_told _).bind fun succeeded => ?_
  cases succeeded with
  | true => exact .pure_ fun _ told => told rfl
  | false => exact record_told _

theorem enterArray_honest {walk : Read Context (Result α)} (key : String) (absent : α)
    (owns : Ensures Clean walk Owns) : Honest (enterArray qcbor key absent walk) := by
  refine guarded_honest key ((call_clean _).bind fun answer => ?_)
  cases answer with
  | labelNotFound => exact Ensures.bind (@note_clean Context .absent nofun) fun _ => .pure_ fun _ clean _ _ => clean
  | error => exact refused_owns .failed _
  | value =>
    have descended : Ensures (@Clean Context) descend fun _ => Clean := fun _ clean => clean
    refine Ensures.bind (@note_clean Context .found nofun) fun _ => descended.bind fun _ => owns.bind fun outcome => ?_
    intro reader owns value same
    exact owns value same

theorem inChild_owns {work : Read Context (Result α)} (first last : Nat) (honest : Honest work) :
    Ensures Clean (inChild qcbor first last work) fun result reader => Owns result.1 reader := by
  intro reader clean value same met member
  have fresh : Told (new qcbor ((reader.input.drop first).take (last - first)) (reader.maxNesting - reader.depth)) :=
    fun _ _ => nofun
  rcases List.mem_append.mp member with own | child
  · exact clean met own
  · exact honest _ fresh value same met child

theorem Honest.andThen {m : Read Context (Result α)} {next : α → Read Context (Result β)}
    (honest : Honest m)
    (rest : ∀ value, Ensures Clean (next value) Owns) : Honest (onSuccess m next) := by
  refine Ensures.bind honest fun result => ?_
  cases result with
  | error error => exact failed_owns error
  | ok value => exact (rest value).strengthen fun _ owns => owns value rfl

theorem checked_honest (decoded : Result α) : Honest (checked decoded : Read Context (Result α)) := by
  have status_ : Honest (status : Read Context (Result Unit)) := by
    refine .get_bind fun reader told => ?_
    split
    · exact failed_owns _
    · rename_i unpoisoned
      exact .pure_ fun _ same _ _ => same ▸ told unpoisoned
  exact status_.andThen fun _ => .pure_ fun _ clean _ _ => clean

theorem Honest.clean {m : Read Context (Result α)} (honest : Honest m) : Ensures Clean m Owns :=
  Ensures.strengthen honest fun _ clean => clean.told

theorem walkMaps_owns {visit : α → Read Context (Result α)} (honest : ∀ seen, Honest (visit seen)) (room : Nat)
    (seen : α) : Ensures Clean (walkMaps qcbor visit room seen) Owns := by
  induction room using Nat.strongRecOn generalizing seen with
  | ind room ih =>
    unfold walkMaps
    refine .get_bind fun reader clean => ?_
    split
    · exact .pure_ fun _ same _ _ => same ▸ clean
    · exact refused_owns .failed _
    · split
      · exact refused_owns .failed _
      split
      · exact record_owns _
      rename_i room
      refine .get_bind fun reader' same => ?_
      have consumed := (attempt_clean qcbor.getNextConsume).strengthen
        fun (other : Reader Context) (is : other = reader') => is ▸ same ▸ clean
      refine consumed.bind fun succeeded => ?_
      cases succeeded with
      | false => exact record_owns _
      | true =>
        refine .get_bind fun last clean => .get_bind fun last' same' => ?_
        split
        · exact record_owns _
        have visited := @inChild_owns Context α qcbor _ (qcbor.tell reader'.context) (qcbor.tell last.context)
          ((@enterMap_honest Context qcbor).andThen fun _ => (honest seen).clean)
        refine (visited.strengthen fun (other : Reader Context) (is : other = last') =>
          is ▸ same' ▸ clean rfl).bind fun outcome => ?_
        obtain ⟨outcome, poison⟩ := outcome
        cases outcome with
        | error error => exact failed_owns error
        | ok seen =>
          cases poison with
          | some => exact record_owns _
          | none => exact (ih room (Nat.lt_succ_self _) seen).strengthen fun _ owns => owns seen rfl

theorem forEachMapInArray_honest {visit : α → Read Context (Result α)} (key : String) (maxElements : Nat)
    (honest : ∀ seen, Honest (visit seen)) (start : α) :
    Honest (forEachMapInArray qcbor key maxElements visit start) :=
  enterArray_honest key start (walkMaps_owns honest maxElements start)

theorem walkTexts_owns (visit : α → Bytes → Result α) (room : Nat) (seen : α) :
    Ensures Clean (walkTexts qcbor visit room seen) Owns := by
  induction room using Nat.strongRecOn generalizing seen with
  | ind room ih =>
    unfold walkTexts
    refine .get_bind fun reader clean => ?_
    split
    · exact .pure_ fun _ same _ _ => same ▸ clean
    · exact refused_owns .failed _
    · split
      · exact record_owns _
      rename_i room
      refine ((attempt_clean _).strengthen fun _ same => same ▸ clean).bind fun succeeded => ?_
      cases succeeded with
      | false => exact record_owns _
      | true =>
        rw [if_pos rfl]
        split
        · exact failed_owns _
        · exact (ih room (Nat.lt_succ_self _) _).strengthen fun _ clean => clean rfl
    · exact refused_owns .failed _

theorem forEachTextInArray_honest (key : String) (maxElements : Nat) (visit : α → Bytes → Result α) (start : α) :
    Honest (forEachTextInArray qcbor key maxElements visit start) := by
  refine enterArray_honest key none ((walkTexts_owns visit maxElements start).bind fun outcome => ?_)
  cases outcome with
  | error error => exact failed_owns error
  | ok seen => exact .pure_ fun _ owns _ _ => owns seen rfl

theorem note_told {met : Met} (good : met ≠ .failed) : Ensures (@Told Context) (note met) fun _ => Told :=
  fun _ told unpoisoned => (told unpoisoned).noted good

theorem enterLabelledMap_honest : Honest (enterLabelledMap qcbor) := by
  refine (call_told _).bind fun item => ?_
  split
  · exact Ensures.bind (@note_told Context .found nofun) fun _ => enterMap_honest
  · exact refused_owns .failed _

theorem visitUintEntries_owns (visit : α → Bytes → UInt64 → Result α) (room : Nat) (seen : α) :
    Ensures Clean (visitUintEntries qcbor visit room seen) Owns := by
  induction room using Nat.strongRecOn generalizing seen with
  | ind room ih =>
    unfold visitUintEntries
    refine .get_bind fun reader clean => ?_
    split
    · exact .pure_ fun _ same _ _ => same ▸ clean
    · exact refused_owns .failed _
    · split
      · exact refused_owns .failed _
      · exact refused_owns .failed _
      · split
        · exact record_owns _
        rename_i room
        refine ((attempt_clean _).strengthen fun _ same => same ▸ clean).bind fun succeeded => ?_
        cases succeeded with
        | false => exact record_owns _
        | true =>
          rw [if_pos rfl]
          split
          · exact failed_owns _
          · exact (ih room (Nat.lt_succ_self _) _).strengthen fun _ clean => clean rfl

theorem findEntry_clean (key : Bytes) (context : Context) :
    (∀ met ∈ (findEntry qcbor key context).2.1, met ≠ .failed) ∨
      (findEntry qcbor key context).1 = .unreadable ∨ (findEntry qcbor key context).1 = .notMap ∨
      (findEntry qcbor key context).1 = .malformed := by
  induction size : qcbor.left context using Nat.strongRecOn generalizing context with
  | ind n ih =>
    rw [findEntry]
    split
    · exact .inl (by simp)
    · exact .inr (.inl rfl)
    · split
      · exact .inr (.inr (.inl rfl))
      split
      · rename_i consumed
        split
        · exact .inl (by simp)
        rcases ih _ (size ▸ qcbor.consume_left context consumed) _ rfl with clean | ended
        · refine .inl fun met member => ?_
          rcases List.mem_cons.mp member with rfl | later
          · simp
          · exact clean met later
        · exact .inr ended
      · exact .inr (.inr (.inr rfl))

theorem forEachUintInMap_honest (key : String) (maxEntries : Nat) (visit : α → Bytes → UInt64 → Result α)
    (start : α) :
    Honest (forEachUintInMap qcbor key maxEntries visit start) := by
  refine guarded_honest key ((call_clean _).bind fun _ => .get_bind fun reader clean => ?_)
  have walked := @findEntry_clean Context qcbor key.toUTF8.toList reader.context
  generalize findEntry qcbor key.toUTF8.toList reader.context = found at walked
  obtain ⟨entry, met, context⟩ := found
  have noted (entry_ : entry ≠ .unreadable ∧ entry ≠ .notMap ∧ entry ≠ .malformed) :
      Clean { reader with context := context, met := reader.met ++ met } := by
    have fine : ∀ met' ∈ met, met' ≠ .failed := by
      rcases walked with clean | unreadable | notMap | malformed
      · exact clean
      · exact absurd unreadable entry_.1
      · exact absurd notMap entry_.2.1
      · exact absurd malformed entry_.2.2
    intro other member
    rcases List.mem_append.mp member with earlier | later
    · exact clean other earlier
    · exact fine other later
  have put (entry_ : entry ≠ .unreadable ∧ entry ≠ .notMap ∧ entry ≠ .malformed) :
      Ensures (· = reader) (set { reader with context := context, met := reader.met ++ met } : Read Context PUnit)
        fun _ => Clean := fun _ _ => noted entry_
  have rewound : Ensures (@Clean Context) (call fun context => ((), qcbor.rewind context)) fun _ => Clean := call_clean _
  cases entry with
  | unreadable | malformed => exact Ensures.ends.bind fun _ => record_owns _
  | notMap => exact Ensures.ends.bind fun _ => Ensures.ends.bind fun _ => record_owns _
  | absent => exact (put (by simp)).bind fun _ => rewound.bind fun _ => .pure_ fun _ clean _ _ => clean
  | range first last =>
    refine (put (by simp)).bind fun _ => rewound.bind fun _ => ?_
    by_cases outside : first > last ∨ last > reader.input.length
    · rw [if_pos outside]
      exact record_owns _
    rw [if_neg outside]
    have visited := @inChild_owns Context α qcbor _ first last
      ((@enterLabelledMap_honest Context qcbor).andThen fun _ =>
        @visitUintEntries_owns Context α qcbor visit maxEntries start)
    refine visited.bind fun result => ?_
    obtain ⟨outcome, poison⟩ := result
    cases poison with
    | some => exact record_owns _
    | none =>
      cases outcome with
      | error error => exact failed_owns error
      | ok seen => exact .pure_ fun _ owns _ _ => owns seen rfl

end

section
variable {Context α : Type} {qcbor : Qcbor Context}

theorem decodeSlot_honest : Honest (decodeSlot qcbor) :=
  (getter_told _ _).bind fun _ => (getter_told _ _).bind fun _ => (getter_told _ _).bind fun _ =>
  (getter_told _ _).bind fun _ => (getter_told _ _).bind fun _ => (getter_told _ _).bind fun _ =>
  (getter_told _ _).bind fun _ => (getter_told _ _).bind fun _ => (getter_told _ _).bind fun _ => checked_honest _

theorem decodeSlotDescriptor_honest : Honest (decodeSlotDescriptor qcbor) :=
  (getter_told _ _).bind fun _ => (getter_told _ _).bind fun _ => (getter_told _ _).bind fun _ =>
  (getter_told _ _).bind fun _ => checked_honest _

theorem Honest.added {β : Type} {decode : Read Context (Result α)} (honest : Honest decode) (add : α → β) :
    Honest (onSuccess decode fun value => return .ok (add value)) :=
  honest.andThen fun _ => .pure_ fun _ clean _ _ => clean

theorem decodeSlotsImage_honest : Honest (decodeSlotsImage qcbor) :=
  (getter_told _ _).bind fun _ => (getter_told _ _).bind fun _ => (checked_honest _).andThen fun entry =>
    (forEachMapInArray_honest _ _ (fun _ => decodeSlotDescriptor_honest.added _) entry).clean

theorem left_honest (decoded : Result α) :
    Honest (do let _ ← leaveMap qcbor; checked decoded : Read Context (Result α)) :=
  leaveMap_told.bind fun _ => checked_honest decoded

theorem decodeState_honest : Honest (decodeState qcbor) := by
  refine (forEachMapInArray_honest _ _ (fun _ => decodeSlot_honest.added _) _).andThen fun _ => ?_
  exact Honest.clean ((getter_told _ _).bind fun _ => left_honest _)

theorem decodeSlotInfo_honest : Honest (decodeSlotInfo qcbor) :=
  (forEachMapInArray_honest _ _ (fun _ => decodeSlotsImage_honest.added _) _).andThen fun _ => (left_honest _).clean

theorem decodeParameters_honest : Honest (decodeParameters qcbor) :=
  (getter_told _ _).bind fun _ => (getter_told _ _).bind fun _ => left_honest _

theorem decodeText_honest (key : String) (limit : Nat) (missing tooLong : String) :
    Honest (decodeText qcbor key limit missing tooLong) :=
  (getter_told _ _).bind fun _ => left_honest _

theorem decodeBootloaderMode_honest : Honest (decodeBootloaderMode qcbor) :=
  (getter_told _ _).bind fun _ => (getter_told _ _).bind fun _ => left_honest _

theorem refused_left {before : Reader Context → Prop} (error : Error) :
    Ensures before (do let _ ← leaveMap qcbor; checked (.error error) : Read Context (Result α)) Owns := by
  refine Ensures.ends.bind fun _ => ?_
  intro reader _ value same
  cases poisoned : reader.error <;> simp [checked, onSuccess, status, poisoned] at same

theorem decodeList_honest : Honest (decodeList qcbor) := by
  refine Ensures.bind (forEachTextInArray_honest _ _ _ _) fun present => ?_
  cases present with
  | error error => exact refused_left error
  | ok => exact (left_honest _).clean.strengthen fun _ owns => owns _ rfl

theorem decodeGroup_honest : Honest (decodeGroup qcbor) := by
  refine (getter_told _ _).bind fun name => Ensures.bind (forEachUintInMap_honest _ _ _ _) fun present => ?_
  cases present with
  | error error => exact refused_left error
  | ok => exact (left_honest _).clean.strengthen fun _ owns => owns _ rfl

theorem decodeValue_honest (limit : Nat) : Honest (decodeValue qcbor limit) :=
  (getter_told _ _).bind fun _ => (getter_told _ _).bind fun _ => left_honest _

theorem decodeUpload_honest : Honest (decodeUpload qcbor) :=
  (getter_told _ _).bind fun _ => (getter_told _ _).bind fun _ => left_honest _

inductive GroupDecoder (qcbor : Qcbor Context) : {α : Type} → Read Context (Result α) → Prop
  | imageState : GroupDecoder qcbor (decodeState qcbor)
  | slotInfo : GroupDecoder qcbor (decodeSlotInfo qcbor)
  | parameters : GroupDecoder qcbor (decodeParameters qcbor)
  | bootloaderName : GroupDecoder qcbor (decodeBootloaderName qcbor)
  | bootloaderMode : GroupDecoder qcbor (decodeBootloaderMode qcbor)
  | echo : GroupDecoder qcbor (decodeEcho qcbor)
  | statisticsList : GroupDecoder qcbor (decodeList qcbor)
  | statisticsGroup : GroupDecoder qcbor (decodeGroup qcbor)
  | settingValue (limit : Nat) : GroupDecoder qcbor (decodeValue qcbor limit)
  | uploadOffset : GroupDecoder qcbor (decodeUpload qcbor)

theorem GroupDecoder.honest {decode : Read Context (Result α)} (decoder : GroupDecoder qcbor decode) :
    Honest decode := by
  cases decoder with
  | imageState => exact decodeState_honest
  | slotInfo => exact decodeSlotInfo_honest
  | parameters => exact decodeParameters_honest
  | bootloaderName | echo => exact decodeText_honest _ _ _ _
  | bootloaderMode => exact decodeBootloaderMode_honest
  | statisticsList => exact decodeList_honest
  | statisticsGroup => exact decodeGroup_honest
  | settingValue limit => exact decodeValue_honest limit
  | uploadOffset => exact decodeUpload_honest

theorem getter_absent {lookup : String → Context → Answer α × Context} {key : String} {reader : Reader Context}
    (nothing : ((getter lookup key).run reader).1 = none)
    (unpoisoned : ((getter lookup key).run reader).2.error = none) :
    (lookup key reader.context).1 = .labelNotFound := by
  have step : (getter lookup key).run reader = (if reader.error.isSome then pure none else
      if key.utf8ByteSize > maxKeyLength then do
        let _ ← poison (badDecode "cbor reader: key too long")
        return none
      else do consumeLookup (← call (lookup key)) : Read Context (Option α)).run reader := rfl
  rw [step] at nothing unpoisoned
  split at unpoisoned
  · rename_i poisoned
    rw [show reader.error = none from unpoisoned] at poisoned
    cases poisoned
  split at unpoisoned
  · cases unpoisoned
  rename_i clear short
  rw [if_neg clear, if_neg short] at nothing
  have answered : ((do consumeLookup (← call (lookup key)) : Read Context (Option α)).run reader) =
      (consumeLookup (lookup key reader.context).1).run
        { reader with context := (lookup key reader.context).2 } := rfl
  rw [answered] at nothing unpoisoned
  cases met : (lookup key reader.context).1 with
  | labelNotFound => rfl
  | value =>
    rw [met] at nothing
    cases nothing
  | error =>
    rw [met] at unpoisoned
    cases unpoisoned

/-- A decoder that succeeds has met no error at any depth, and takes for absent only what QCBOR has not found. -/
theorem success_without_failed_lookups (payload : Bytes) (decode : Read Context (Result α))
    (decoder : GroupDecoder qcbor decode) (value : α) (success : (decodeResponse qcbor payload decode).1 = .ok value) :
    (∀ met ∈ (decodeResponse qcbor payload decode).2.met, met ≠ .failed) ∧
      ∀ (β : Type) (lookup : String → Context → Answer β × Context) (key : String) (reader : Reader Context),
        ((getter lookup key).run reader).1 = none → ((getter lookup key).run reader).2.error = none →
          (lookup key reader.context).1 = .labelNotFound := by
  have honest : Honest (onSuccess (enterMap qcbor) fun _ => decode) :=
    enterMap_honest.andThen fun _ => decoder.honest.clean
  refine ⟨?_, fun _ _ _ _ => getter_absent⟩
  exact honest (Reader.new qcbor payload Limits.maxCborNesting) (fun _ _ => nofun) value success

/-- An image state of two images; the second one has no hash. -/
def twoSlots : Bytes :=
  0xA2 :: field "images" (0x82 ::
    (0xA5 :: field "slot" [0] ++ field "version" [0x61, 0x31] ++ field "hash" [0x42, 7, 8] ++ field "bootable" [0xF5] ++
      field "active" [0xF5]) ++
    (0xA4 :: field "image" [1] ++ field "slot" [0x18, 0x20] ++ field "version" [0x60] ++ field "pending" [0xF4])) ++
  field "splitStatus" [0x20]

theorem success_without_failed_lookups_state :
    (decodeResponse document twoSlots (decodeState document)).2.met.length = 26 ∧
      ∀ met ∈ (decodeResponse document twoSlots (decodeState document)).2.met, met ≠ .failed := by
  refine ⟨by decide +kernel, ?_⟩
  let slots : List ImageSlot := [
    { slot := 0, version := [0x31], hash := some ⟨[7, 8], by decide⟩, bootable := true, active := true },
    { image := 1, slot := 32 }]
  exact (success_without_failed_lookups twoSlots _ .imageState ⟨slots, some (-1)⟩ (by decide +kernel)).1

end

end Smply.Cbor
