import Smply.Systems.Hoare
import Smply.Cbor.Decode
import Smply.Cbor.Document
import Smply.Host.Plain

namespace Smply

namespace Limits

def maxReasonLength : Nat := 128

end Limits

namespace Cbor

open Systems Reader

section
variable {Context : Type} (qcbor : Qcbor Context)

def readGroupScoped : Read Context (Option MgmtError) := do
  match ← enterMapKey qcbor "err" with
  | .error _ => return none
  | .ok _ =>
    let group ← uint qcbor "group"
    let rc ← uint qcbor "rc"
    let _ ← leaveMap qcbor
    match rc with
    | none => return none
    | some rc =>
      if rc = 0 then return none
      else return some { group := (group.getD 0).toUInt16, rc := rc.toUInt16, groupScoped := true }

def decodeOutcome : Read Context (Result Smp.MgmtOutcome) := do
  match ← readGroupScoped qcbor with
  | some error => withReason (some error)
  | none =>
    match ← integer qcbor "rc" with
    | none => withReason none
    | some rc => withReason (if rc = 0 then none else some { rc := UInt16.ofInt rc })
where
  withReason (error : Option MgmtError) : Read Context (Result Smp.MgmtOutcome) := do
    let reason ← text qcbor "rsn"
    checked (.ok { error := error, reason := (reason.getD []).take Limits.maxReasonLength })

def extractMgmtError (payload : Bytes) : Result Smp.MgmtOutcome :=
  (decodeResponse qcbor payload (decodeOutcome qcbor)).1

end

/-- The group layer's decoders over QCBOR, with any encoders. -/
def codec {Context : Type} (qcbor : Qcbor Context)
    (chunk : Upload.UploadConfig Bytes → Upload.UploadRequest → Bytes → Bytes) (query : Host.Query → Bytes) :
    Host.Codec where
  extractMgmtError := extractMgmtError qcbor
  chunk := chunk
  query := query
  offset payload := (decodeResponse qcbor payload (decodeUpload qcbor)).1.map fun (off, match_) =>
    (off.map UInt64.toNat, match_)
  parameters payload := (decodeResponse qcbor payload (decodeParameters qcbor)).1.map McumgrParameters.bufSize
  bootloader payload := (decodeResponse qcbor payload (decodeBootloaderMode qcbor)).1
  slots payload := (decodeResponse qcbor payload (decodeState qcbor)).1

/-- The decoders over whole documents, for a device that does not look at what the requests carry. -/
def documentCodec : Host.Codec := codec document (fun _ _ _ => []) fun _ => []

section
variable {Context α β : Type} {qcbor : Qcbor Context}

def Sober (reader : Reader Context) : Prop := ∀ error, reader.error = some error → error.Plain

def Civil (result : Result α) (reader : Reader Context) : Prop := PlainResult result ∧ Sober reader

theorem badDecode_plain (site : String) : (badDecode site).Plain := by
  intro same
  cases same

theorem poison_sober {error : Error} (plain : error.Plain) :
    Ensures (@Sober Context) (poison error) fun first reader => first.Plain ∧ Sober reader := by
  intro reader sober
  have first : (reader.error.getD error).Plain := by
    cases recorded : reader.error with
    | none => exact plain
    | some earlier => exact sober earlier recorded
  refine ⟨first, ?_⟩
  intro other same
  cases same
  exact first

theorem record_civil {error : Error} (plain : error.Plain) :
    Ensures Sober (record error : Read Context (Result α)) Civil :=
  (poison_sober plain).bind fun _ => .pure_ fun _ both => ⟨plain_error both.1, both.2⟩

theorem refused_civil (site : String) :
    Ensures Sober (record (badDecode site) : Read Context (Result α)) Civil :=
  record_civil (badDecode_plain site)

theorem civil_ok {value : α} : Ensures Sober (pure (.ok value) : Read Context (Result α)) Civil :=
  .pure_ fun _ sober => ⟨plain_ok value, sober⟩

theorem note_sober (met : Met) : Ensures (@Sober Context) (note met) fun _ => Sober := fun _ sober => sober
theorem descend_sober : Ensures (@Sober Context) descend fun _ => Sober := fun _ sober => sober
theorem ascend_sober : Ensures (@Sober Context) ascend fun _ => Sober := fun _ sober => sober
theorem call_sober (function : Context → α × Context) :
    Ensures Sober (call function) fun _ => Sober := fun _ sober => sober

theorem attempt_sober (function : Context → Bool × Context) : Ensures Sober (attempt function) fun _ => Sober :=
  fun _ sober => sober

theorem getter_sober (lookup : String → Context → Answer α × Context) (key : String) :
    Ensures Sober (getter lookup key) fun _ => Sober := by
  have poisoned (site : String) : Ensures (@Sober Context)
      (do let _ ← poison (badDecode site); return (none : Option α)) fun _ => Sober :=
    (poison_sober (badDecode_plain site)).bind fun _ => .pure_ fun _ both => both.2
  refine .get_bind fun reader sober => ?_
  refine Ensures.strengthen ?_ fun _ same => same ▸ sober
  split
  · exact .pure_ fun _ => id
  split
  · exact poisoned _
  refine (call_sober _).bind fun answer => ?_
  cases answer with
  | value | labelNotFound => exact (note_sober _).bind fun _ => .pure_ fun _ => id
  | error => exact (note_sober _).bind fun _ => poisoned _

theorem Civil.andThen {m : Read Context (Result α)} {next : α → Read Context (Result β)}
    (civil : Ensures Sober m Civil) (rest : ∀ value, Ensures Sober (next value) Civil) :
    Ensures Sober (onSuccess m next) Civil := by
  refine civil.bind fun result => ?_
  cases result with
  | error error => exact .pure_ fun _ both => ⟨plain_error (both.1 error rfl), both.2⟩
  | ok value => exact (rest value).strengthen fun _ both => both.2

theorem checked_civil {decoded : Result α} (plain : PlainResult decoded) :
    Ensures Sober (checked decoded : Read Context (Result α)) Civil := by
  have status_ : Ensures Sober (status : Read Context (Result Unit)) Civil := by
    refine .get_bind fun reader sober => ?_
    split
    · rename_i error recorded
      exact .pure_ fun _ same => ⟨plain_error (sober error recorded), same ▸ sober⟩
    · exact civil_ok.strengthen fun _ same => same ▸ sober
  exact Civil.andThen status_ fun _ => .pure_ fun _ sober => ⟨plain, sober⟩

theorem guarded_civil {enter : Read Context (Result α)} (key : String) (civil : Ensures Sober enter Civil) :
    Ensures Sober (guarded key enter) Civil := by
  refine .get_bind fun reader sober => ?_
  split
  · rename_i error recorded
    exact .pure_ fun _ same => ⟨plain_error (sober error recorded), same ▸ sober⟩
  refine Ensures.strengthen ?_ fun _ same => same ▸ sober
  split
  · exact refused_civil _
  split
  · exact refused_civil _
  · exact civil

theorem enterMap_civil : Ensures Sober (enterMap qcbor) Civil := by
  refine guarded_civil "" ((attempt_sober _).bind fun succeeded => ?_)
  cases succeeded with
  | true => exact descend_sober.bind fun _ => civil_ok
  | false => exact refused_civil _

theorem enterMapKey_civil (key : String) : Ensures Sober (enterMapKey qcbor key) Civil := by
  refine guarded_civil key ((call_sober _).bind fun succeeded => ?_)
  cases succeeded with
  | true => exact descend_sober.bind fun _ => civil_ok
  | false => exact .pure_ fun _ sober => ⟨plain_error (badDecode_plain _), sober⟩

theorem leaveMap_civil : Ensures Sober (leaveMap qcbor) Civil := by
  refine .get_bind fun reader sober => Ensures.strengthen ?_ fun _ same => same ▸ sober
  split
  · exact refused_civil _
  refine ascend_sober.bind fun _ => (attempt_sober _).bind fun succeeded => ?_
  cases succeeded with
  | true => exact civil_ok
  | false => exact refused_civil _

theorem left_civil {decoded : Result α} (plain : PlainResult decoded) :
    Ensures Sober (do let _ ← leaveMap qcbor; checked decoded : Read Context (Result α)) Civil :=
  leaveMap_civil.bind fun _ => (checked_civil plain).strengthen fun _ both => both.2

theorem enterArray_civil {walk : Read Context (Result α)} (key : String) (absent : α)
    (civil : Ensures Sober walk Civil) : Ensures Sober (enterArray qcbor key absent walk) Civil := by
  refine guarded_civil key ((call_sober _).bind fun answer => ?_)
  cases answer with
  | labelNotFound => exact (note_sober _).bind fun _ => civil_ok
  | error => exact (note_sober _).bind fun _ => refused_civil _
  | value =>
    refine (note_sober _).bind fun _ => descend_sober.bind fun _ => civil.bind fun outcome => ?_
    intro reader both
    exact both

theorem inChild_civil {work : Read Context (Result α)} (first last : Nat) (civil : Ensures Sober work Civil) :
    Ensures Sober (inChild qcbor first last work) fun result reader =>
      PlainResult result.1 ∧ (∀ error, result.2 = some error → error.Plain) ∧ Sober reader := by
  intro reader sober
  have child := civil (new qcbor ((reader.input.drop first).take (last - first)) (reader.maxNesting - reader.depth))
    fun _ => nofun
  exact ⟨child.1, child.2, sober⟩

theorem walkMaps_civil {visit : α → Read Context (Result α)} (civil : ∀ seen, Ensures Sober (visit seen) Civil)
    (room : Nat) (seen : α) : Ensures Sober (walkMaps qcbor visit room seen) Civil := by
  induction room using Nat.strongRecOn generalizing seen with
  | ind room ih =>
    unfold walkMaps
    refine .get_bind fun reader sober => Ensures.strengthen ?_ fun _ same => same ▸ sober
    split
    · exact civil_ok
    · exact (note_sober _).bind fun _ => refused_civil _
    · split
      · exact (note_sober _).bind fun _ => refused_civil _
      split
      · exact refused_civil _
      rename_i room
      refine .get_bind fun reader' sober' => Ensures.strengthen ?_ fun _ same => same ▸ sober'
      refine (attempt_sober qcbor.getNextConsume).bind fun succeeded => ?_
      cases succeeded with
      | false => exact refused_civil _
      | true =>
        refine .get_bind fun last sober => .get_bind fun last' same' => Ensures.strengthen ?_
          fun _ same => same ▸ same' ▸ sober
        split
        · exact refused_civil _
        refine (inChild_civil _ _ (Civil.andThen enterMap_civil fun _ => civil seen)).bind fun outcome => ?_
        obtain ⟨outcome, poison⟩ := outcome
        cases outcome with
        | error error => exact .pure_ fun _ all => ⟨plain_error (all.1 error rfl), all.2.2⟩
        | ok seen =>
          cases poison with
          | none => exact (ih room (Nat.lt_succ_self _) seen).strengthen fun _ all => all.2.2
          | some error =>
            intro reader all
            have plain := all.2.1 error rfl
            exact @record_civil Context α { code := error.code, where_ := error.where_ } plain reader all.2.2

theorem narrow_plain (checked : α → Option β) (value : α) (site : String) :
    PlainResult (narrow checked value site) := by
  rw [narrow]
  split
  · exact plain_ok _
  · exact plain_error (badDecode_plain site)

theorem narrowAny_plain (checked : α → Option β) (value : Option α) (site : String) :
    PlainResult (narrowAny checked value site) := by
  cases value with
  | none => exact plain_ok _
  | some value => exact (narrow_plain checked value site).map some

theorem imageHash_plain (bytes : Bytes) : PlainResult (ImageHash.from bytes) := by
  rw [ImageHash.from]
  split
  · exact plain_error (badDecode_plain _)
  split
  · exact plain_ok _
  · exact plain_error (badDecode_plain _)

theorem decodeSlot_civil : Ensures Sober (decodeSlot qcbor) Civil := by
  refine (getter_sober _ _).bind fun image => (getter_sober _ _).bind fun slot => (getter_sober _ _).bind fun version =>
    (getter_sober _ _).bind fun hash => (getter_sober _ _).bind fun bootable => (getter_sober _ _).bind fun pending =>
    (getter_sober _ _).bind fun confirmed => (getter_sober _ _).bind fun active => (getter_sober _ _).bind fun permanent =>
    checked_civil ?_
  cases slot with
  | none => exact plain_error (badDecode_plain _)
  | some =>
    cases version with
    | none => exact plain_error (badDecode_plain _)
    | some version =>
      show PlainResult (if version.length > Limits.maxVersionStringLength then _ else _)
      split
      · exact plain_error (badDecode_plain _)
      refine PlainResult.bind (narrow_plain _ _ _) fun _ => PlainResult.bind (narrow_plain _ _ _) fun _ => ?_
      cases hash with
      | none => exact plain_ok _
      | some hash => exact PlainResult.bind ((imageHash_plain hash).map some) fun _ => plain_ok _

theorem decodeState_civil : Ensures Sober (decodeState qcbor) Civil := by
  refine Civil.andThen (enterArray_civil _ _ (walkMaps_civil (fun _ => Civil.andThen decodeSlot_civil fun _ => civil_ok) _ _))
    fun state => ?_
  exact (getter_sober _ _).bind fun split => left_civil (PlainResult.bind (narrowAny_plain _ _ _) fun _ => plain_ok _)

theorem decodeParameters_civil : Ensures Sober (decodeParameters qcbor) Civil := by
  refine (getter_sober _ _).bind fun size => (getter_sober _ _).bind fun count => left_civil ?_
  cases size with
  | none => exact plain_error (badDecode_plain _)
  | some size =>
    cases count with
    | none => exact plain_error (badDecode_plain _)
    | some count =>
      cases narrowed : narrowUint size with
      | none =>
        simp only [narrowed]
        exact plain_error (badDecode_plain _)
      | some =>
        simp only [narrowed]
        cases narrowUint count with
        | none => exact plain_error (badDecode_plain _)
        | some => exact plain_ok _

theorem decodeBootloaderMode_civil : Ensures Sober (decodeBootloaderMode qcbor) Civil := by
  refine (getter_sober _ _).bind fun mode => (getter_sober _ _).bind fun _ => left_civil ?_
  cases mode with
  | none => exact plain_error (badDecode_plain _)
  | some => exact plain_ok _

theorem decodeUpload_civil : Ensures Sober (decodeUpload qcbor) Civil :=
  (getter_sober _ _).bind fun _ => (getter_sober _ _).bind fun _ => left_civil (plain_ok _)

theorem readGroupScoped_sober : Ensures Sober (readGroupScoped qcbor) fun _ => Sober := by
  refine (enterMapKey_civil "err").bind fun entered => ?_
  cases entered with
  | error => exact .pure_ fun _ both => both.2
  | ok =>
    refine Ensures.strengthen ?_ fun _ both => both.2
    refine (getter_sober _ _).bind fun group => (getter_sober _ _).bind fun rc => leaveMap_civil.bind fun _ => ?_
    cases rc with
    | none => exact .pure_ fun _ both => both.2
    | some rc =>
      show Ensures _ (if rc = 0 then _ else _) _
      split
      · exact .pure_ fun _ both => both.2
      · exact .pure_ fun _ both => both.2

theorem decodeOutcome_civil : Ensures Sober (decodeOutcome qcbor) Civil := by
  have withReason (error : Option MgmtError) : Ensures Sober (decodeOutcome.withReason qcbor error) Civil :=
    (getter_sober _ _).bind fun _ => checked_civil (plain_ok _)
  refine readGroupScoped_sober.bind fun scoped_ => ?_
  cases scoped_ with
  | some => exact withReason _
  | none =>
    refine (getter_sober _ _).bind fun rc => ?_
    cases rc with
    | none | some => exact withReason _

theorem decodeResponse_plain {decode : Read Context (Result α)} (payload : Bytes)
    (civil : Ensures Sober decode Civil) :
    PlainResult (decodeResponse qcbor payload decode).1 :=
  ((Civil.andThen enterMap_civil fun _ => civil) (Reader.new qcbor payload Limits.maxCborNesting) fun _ => nofun).1

theorem codec_plain (chunk : Upload.UploadConfig Bytes → Upload.UploadRequest → Bytes → Bytes)
    (query : Host.Query → Bytes) : (codec qcbor chunk query).Plain where
  extractMgmtError payload := decodeResponse_plain payload decodeOutcome_civil
  offset payload := (decodeResponse_plain payload decodeUpload_civil).map _
  parameters payload := (decodeResponse_plain payload decodeParameters_civil).map _
  bootloader payload := decodeResponse_plain payload decodeBootloaderMode_civil
  slots payload := decodeResponse_plain payload decodeState_civil

end

end Cbor

end Smply
