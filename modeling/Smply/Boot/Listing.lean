import Smply.Boot.Status

namespace Smply.Boot

open BootModel

theorem mem_entries {image : Nat} {pair : ImagePair} {entry : SlotEntry} : entry ∈ entries image pair ↔
    (∃ content, describe pair.primary = some content ∧ primaryEntry image pair content = entry) ∨
    ∃ content, describe pair.secondary = some content ∧ secondaryEntry image pair content = entry := by
  simp only [entries, List.mem_append, Option.mem_toList, Option.map_eq_some_iff]

structure SlotEntry.Fair (entry : SlotEntry) : Prop where
  active : entry.active = true → entry.pending = false ∧ entry.permanent = false
  permanent : entry.permanent = true → entry.pending = true

theorem xipFlags_fair (m : BootModel) (entry : SlotEntry) : (m.xipFlags entry).image = entry.image ∧
    ((m.xipFlags entry).active = true → (m.xipFlags entry).slot = m.xipActive.val) ∧ (m.xipFlags entry).Fair := by
  unfold xipFlags
  dsimp only
  split
  · exact ⟨rfl, eq_of_beq, fun active => by simp_all, fun permanent => permanent⟩
  split
  · exact ⟨rfl, eq_of_beq, fun _ => ⟨rfl, rfl⟩, nofun⟩
  split
  · exact ⟨rfl, eq_of_beq, fun _ => ⟨rfl, rfl⟩, nofun⟩
  · exact ⟨rfl, eq_of_beq, fun active => absurd active ‹_›, fun permanent => by simp_all⟩

section
variable {m : BootModel} {entry : SlotEntry} (listed : entry ∈ m.listing)
include listed

theorem mem_listing : ∃ pair, m.images[entry.image]? = some pair ∧ ∃ plain ∈ entries entry.image pair,
    entry = if m.directXip ∧ entry.image = 0 then m.xipFlags plain else plain := by
  obtain ⟨⟨pair, image⟩, inside, listed⟩ := List.mem_flatMap.mp listed
  obtain ⟨plain, member, is⟩ := List.mem_map.mp listed
  have same : entry.image = image := by
    have number : plain.image = image := by rcases mem_entries.mp member with ⟨_, _, rfl⟩ | ⟨_, _, rfl⟩ <;> rfl
    rw [← is, ← number]
    split
    · exact (xipFlags_fair m plain).1
    · rfl
  rw [same]
  exact ⟨pair, List.mk_mem_zipIdx_iff_getElem?.mp inside, plain, member, is.symm⟩

theorem listed_fair : entry.Fair ∧
    (entry.active = true → entry.slot = if m.directXip ∧ entry.image = 0 then m.xipActive.val else 0) := by
  obtain ⟨pair, here, plain, member, is⟩ := mem_listing listed
  split at is
  · rw [if_pos ‹_›, is]
    exact ⟨(xipFlags_fair m plain).2.2, (xipFlags_fair m plain).2.1⟩
  · rw [if_neg ‹_›, is]
    rcases mem_entries.mp member with ⟨_, _, rfl⟩ | ⟨_, _, rfl⟩
    · exact ⟨⟨fun _ => ⟨rfl, rfl⟩, nofun⟩, fun _ => rfl⟩
    · exact ⟨⟨nofun, fun permanent => by simp only [secondaryEntry] at permanent ⊢; rw [permanent, Bool.or_true]⟩, nofun⟩

end

/-- The states a device gets into by uploads, erases, set-state, reads, reboots and device-commit settings. -/
inductive Reachable : BootModel → Prop
  | new (config : BootConfig) : Reachable (.new config)
  | load {m next slot content} : Reachable m → m.loadSlot slot content = some next → Reachable next
  | upload {m next slot size} : Reachable m → m.beginUpload slot size = some next → Reachable next
  | write {m next slot offset data took} : Reachable m → m.write slot offset data = some (took, next) → Reachable next
  | erase {m} (slot : Nat) : Reachable m → Reachable (m.erase slot).2
  | setState {m} (hash : Option Bytes) (confirm : Bool) : Reachable m → Reachable (m.setState hash confirm).2
  | read {m} : Reachable m → Reachable m.readState.2
  | reboot {m} : Reachable m → Reachable m.reboot
  | deviceCommit {m next image how} : Reachable m → m.setDeviceCommit image how = some next → Reachable next
  | bootFrom {m} (slot : Fin 2) : Reachable m → Reachable (m.bootFromSlot slot)

structure ImagePair.Sound (pair : ImagePair) : Prop where
  applying : pair.applying ≠ none → pair.device ≠ none ∧ pair.swap = .test
  committing : pair.committing ≠ none → pair.device ≠ none ∧ pair.swap = .revert ∧ pair.applying = none

namespace ImagePair.Sound

variable {pair : ImagePair} (sound : pair.Sound)
include sound

theorem setSlot (within : Nat) (content : Bytes) : (pair.setSlot within content).Sound := by
  unfold ImagePair.setSlot
  split <;> exact ⟨sound.applying, sound.committing⟩

theorem startCommit : pair.startCommit.Sound := by
  unfold ImagePair.startCommit
  split
  · exact sound
  split
  · exact ⟨sound.applying, fun _ => by simp_all⟩
  · exact sound

theorem advance : pair.advance.Sound := by
  obtain ⟨applying, committing⟩ := sound
  unfold ImagePair.advance
  split
  · constructor <;> simp_all
  · constructor <;> simp_all
  · constructor <;> simp_all
  · constructor <;> simp_all
  · dsimp only
    split <;> constructor <;> simp_all [exchanged]

theorem boot (config : BootConfig) : (pair.settle config).boot.Sound := by
  obtain ⟨applying, committing⟩ := sound
  have settled : (pair.settle config).Sound := by
    unfold settle
    split
    · exact ⟨applying, committing⟩
    split
    · constructor <;> simp_all [endSwapWithoutTrial]
    split
    · constructor <;> simp_all [endSwapWithoutTrial]
    · exact ⟨applying, committing⟩
  obtain ⟨applying, committing⟩ := settled
  unfold ImagePair.boot
  split
  · exact ⟨applying, committing⟩
  · split <;> constructor <;> simp_all [exchanged]
  · constructor <;> simp_all [exchanged]
  · constructor <;> simp_all [exchanged]

end ImagePair.Sound

/-- A property of image pairs that nothing a device does to one of them ends. -/
structure Kept (P : BootConfig → ImagePair → Prop) : Prop where
  fresh (config : BootConfig) (device : Option DeviceCommit) : P config { device := device }
  setSlot {config pair} (within : Nat) (content : Bytes) : P config pair → P config (pair.setSlot within content)
  device {config pair} (how : DeviceCommit) : P config pair → P config { pair with device := some how }
  startCommit {config pair} : P config pair → P config pair.startCommit
  advance {config pair} : P config pair → P config pair.advance
  confirm {config pair} : P config pair → P config { pair with swap := .none, applying := none, committing := none }
  mark {config pair} (swap : SwapType) (swaps : config.behaviour ≠ .directXip ∧ config.behaviour ≠ .directXipWithRevert)
    (idle : pair.swap = .none) : P config pair → P config { pair with swap := swap }
  boot {config pair} : P config pair → P config (pair.settle config).boot

def BootModel.Holds (P : BootConfig → ImagePair → Prop) (m : BootModel) : Prop := ∀ pair ∈ m.images, P m.config pair

namespace BootModel.Holds

variable {P : BootConfig → ImagePair → Prop} {m next : BootModel} (holds : m.Holds P)
include holds

theorem set {pair : ImagePair} (image : Nat) (fine : P m.config pair) : (m.setImage image pair).Holds P := by
  intro other member
  rcases List.mem_or_eq_of_mem_set member with member | rfl
  · exact holds other member
  · exact fine

theorem map {f : ImagePair → ImagePair} (keeps : ∀ {pair : ImagePair}, P m.config pair → P m.config (f pair)) :
    (m.mapImages f).Holds P := by
  intro other member
  obtain ⟨pair, inside, rfl⟩ := List.mem_map.mp member
  exact keeps (holds pair inside)

theorem xipSetNext (slot : Nat) (confirm : Bool) : (m.xipSetNext slot confirm).2.Holds P := by
  unfold BootModel.xipSetNext
  dsimp only
  repeat' split
  all_goals exact holds

variable (kept : Kept P)
include kept

theorem load {slot : Nat} {content : Bytes} (loaded : m.loadSlot slot content = some next) : next.Holds P := by
  obtain ⟨pair, here, rfl⟩ := Option.map_eq_some_iff.mp loaded
  exact holds.set _ (kept.setSlot _ _ (holds pair (List.mem_of_getElem? here)))

theorem upload {slot size : Nat} (started : m.beginUpload slot size = some next) : next.Holds P := by
  obtain ⟨loaded, found, rfl⟩ := Option.map_eq_some_iff.mp started
  have held := holds.load kept found
  repeat' split
  all_goals exact held

theorem setNext (swaps : ¬m.directXip = true) (slot : Nat) (confirm : Bool) :
    (m.setNextBootSlot slot confirm).2.Holds P := by
  have swaps : m.config.behaviour ≠ .directXip ∧ m.config.behaviour ≠ .directXipWithRevert := by
    simpa [directXip] using swaps
  unfold setNextBootSlot
  dsimp only
  split
  · exact holds
  rename_i pair here
  have fine := holds pair (List.mem_of_getElem? here)
  repeat' split
  all_goals try exact holds
  unfold bootSetNext
  split
  · split
    · dsimp only
      split
      · exact map (holds.set _ (kept.confirm fine)) kept.startCommit
      · exact holds.set _ (kept.confirm fine)
    · exact holds
  split
  · exact holds.set _ (kept.mark _ swaps ‹_› fine)
  · exact holds

end BootModel.Holds

theorem Reachable.holds {m : BootModel} (reachable : Reachable m) {P : BootConfig → ImagePair → Prop} (kept : Kept P) :
    m.Holds P := by
  induction reachable with
  | new config =>
    intro pair member
    obtain ⟨_, _, rfl⟩ := List.mem_map.mp member
    exact kept.fresh _ _
  | load _ loaded ih => exact ih.load kept loaded
  | upload _ started ih => exact ih.upload kept started
  | write _ written ih =>
    obtain ⟨target, _, written⟩ := Option.bind_eq_some_iff.mp written
    split at written
    · cases written
      exact ih
    · obtain ⟨_, loaded, is⟩ := Option.map_eq_some_iff.mp written
      cases is
      exact ih.load kept loaded
  | @erase m slot _ ih =>
    unfold BootModel.erase
    split
    · exact ih
    · dsimp only
      split
      · exact ih
      · exact ih.set _ (kept.setSlot _ _ (ih _ (List.mem_of_getElem? ‹_›)))
  | @setState m hash confirm _ ih =>
    unfold BootModel.setState
    repeat' split
    all_goals first | exact ih | exact ih.xipSetNext _ _ | exact ih.setNext kept ‹_› _ _
  | @read m _ ih =>
    have advanced := ih.map kept.advance
    show m.advanceApplies.Holds P
    unfold advanceApplies
    dsimp only
    split
    · exact advanced.map kept.startCommit
    · exact advanced
  | @reboot m _ ih =>
    unfold BootModel.reboot
    split
    · unfold xipReboot
      dsimp only
      split
      · cases loaded : m.loadSlot m.xipActive [] with
        | none => exact ih
        | some dropped => exact (ih.load kept loaded : dropped.Holds P)
      · split <;> exact ih
    · exact ih.map kept.boot
  | deviceCommit _ set_ ih =>
    obtain ⟨pair, here, rfl⟩ := Option.map_eq_some_iff.mp set_
    exact ih.set _ (kept.device _ (ih pair (List.mem_of_getElem? here)))
  | bootFrom slot _ ih => exact ih

def BootModel.Sound (m : BootModel) : Prop := ∀ pair ∈ m.images, pair.Sound

theorem sound_kept : Kept fun _ pair => pair.Sound where
  fresh _ _ := ⟨nofun, nofun⟩
  setSlot _ _ sound := sound.setSlot _ _
  device _ sound := ⟨fun busy => ⟨nofun, (sound.applying busy).2⟩, fun busy => ⟨nofun, (sound.committing busy).2⟩⟩
  startCommit sound := sound.startCommit
  advance sound := sound.advance
  confirm _ := ⟨nofun, nofun⟩
  mark _ _ idle sound := ⟨fun busy => absurd (sound.applying busy).2 (by simp [idle]),
    fun busy => absurd (sound.committing busy).2.1 (by simp [idle])⟩
  boot sound := sound.boot _

/-- Under direct-XIP no swap is ever scheduled. -/
theorem idle_kept : Kept fun config pair =>
    config.behaviour = .directXip ∨ config.behaviour = .directXipWithRevert → pair.Idle where
  fresh _ _ _ := ⟨rfl, rfl, rfl⟩
  setSlot within _ idle xip := by
    unfold ImagePair.setSlot
    split <;> exact ⟨(idle xip).swap, (idle xip).applying, (idle xip).committing⟩
  device _ idle xip := ⟨(idle xip).swap, (idle xip).applying, (idle xip).committing⟩
  startCommit idle xip := by
    obtain ⟨_, _, device, rfl⟩ := (idle xip).eq
    cases device <;> exact idle xip
  advance idle xip := by
    obtain ⟨_, _, _, rfl⟩ := (idle xip).eq
    exact idle xip
  confirm _ _ := ⟨rfl, rfl, rfl⟩
  mark _ swaps _ _ xip := absurd xip (not_or.mpr swaps)
  boot idle xip := by
    obtain ⟨_, _, _, rfl⟩ := (idle xip).eq
    exact idle xip

/-- In every reachable state applies and commits are at their place, and every listing is fair. -/
theorem reachable_fair {m : BootModel} (reachable : Reachable m) :
    m.Sound ∧ (∀ entry ∈ m.listing, entry.Fair) ∧ ∀ entry ∈ m.listing, ∀ other ∈ m.listing,
      entry.image = other.image → entry.active = true → other.active = true → entry.slot = other.slot := by
  refine ⟨reachable.holds sound_kept, fun entry listed => (listed_fair listed).1, ?_⟩
  intro entry listed other listed' same on on'
  rw [(listed_fair listed).2 on, (listed_fair listed').2 on', same]

/-- An image with a hash of one byte and nothing in it. -/
def bareImage (hash : UInt8) : Bytes :=
  [0x3D, 0xB8, 0xF3, 0x96, 0, 0, 0, 0, 32, 0, 0, 0, 0, 0, 0, 0, 0, 0, 0, 0, 1, 0, 0, 0, 0, 0, 0, 0, 0, 0, 0, 0,
    0x07, 0x69, 9, 0, 0x10, 0, 1, 0, hash]

theorem Reachable.receive {m next : BootModel} (reachable : Reachable m) {image : Nat} {file : Bytes}
    (received : m.receive image file = some next) : Reachable next := by
  obtain ⟨slot, _, received⟩ := Option.bind_eq_some_iff.mp received
  obtain ⟨erased, begun, received⟩ := Option.bind_eq_some_iff.mp received
  obtain ⟨written, wrote, is⟩ := Option.bind_eq_some_iff.mp received
  cases is
  exact .write (.upload reachable begun) wrote

/-- A device that runs an image and has been given another one to test. -/
def marked : Option BootModel := do
  let running ← (new {}).loadSlot 0 (bareImage 6)
  let loaded ← running.receive 0 (bareImage 5)
  some (loaded.setState (some [5]) false).2

theorem marked_reachable {m : BootModel} (is : marked = some m) : Reachable m := by
  unfold marked at is
  obtain ⟨running, loaded, is⟩ := Option.bind_eq_some_iff.mp is
  obtain ⟨loaded, received, is⟩ := Option.bind_eq_some_iff.mp is
  cases is
  exact .setState _ _ (.receive (.load (.new {}) ‹_›) received)

theorem reachable_fair_rebooted : ∃ m, marked = some m ∧
    m.reboot.listing.map (fun entry => (entry.content.hash, entry.active, entry.confirmed)) =
      [([5], true, false), ([6], false, true)] ∧
    m.reboot.Sound ∧ ∀ entry ∈ m.reboot.listing, entry.Fair := by
  obtain ⟨m, is⟩ := Option.isSome_iff_exists.mp (show marked.isSome = true by decide +kernel)
  have listed : marked.all (fun m =>
      m.reboot.listing.map (fun entry => (entry.content.hash, entry.active, entry.confirmed)) =
        [([5], true, false), ([6], false, true)]) = true := by decide +kernel
  have fair := reachable_fair (.reboot (marked_reachable is))
  refine ⟨m, is, ?_, fair.1, fair.2.1⟩
  rw [is] at listed
  exact of_decide_eq_true listed

theorem erase_xip {m : BootModel} (reachable : Reachable m) (xip : m.directXip = true) (slot : Nat) :
    (m.erase slot).1 ≠ ImageError.noFreeSlot := by
  unfold erase
  split
  · nofun
  · rename_i pair here
    have idle := reachable.holds idle_kept pair (List.mem_of_getElem? here) (by simpa [directXip] using xip)
    dsimp only
    rw [if_neg (by simp +contextual [ImagePair.nextBootSlot, idle.swap])]
    nofun

/-- A slot listed as pending is refused to be erased, exactly if it is not one of image 0's under direct-XIP. -/
theorem erase_pending {m : BootModel} (reachable : Reachable m) {entry : SlotEntry} (listed : entry ∈ m.listing)
    (pending : entry.pending = true) :
    m.erase (entry.image * 2 + entry.slot) = (ImageError.noFreeSlot, m) ↔ ¬(m.directXip = true ∧ entry.image = 0) := by
  refine ⟨fun refused xip => erase_xip reachable xip.1 _ (congrArg Prod.fst refused), fun swaps => ?_⟩
  obtain ⟨pair, here, plain, member, is⟩ := mem_listing listed
  rw [if_neg swaps] at is
  subst is
  rcases mem_entries.mp member with ⟨_, _, is⟩ | ⟨_, _, is⟩
  · rw [← is] at pending
    cases pending
  · have scheduled : pair.nextBootSlot = 1 := by
      rw [← is] at pending
      cases swap : pair.swap <;> simp_all [secondaryEntry, ImagePair.nextBootSlot]
    have odd : entry.slot = 1 := by rw [← is]; rfl
    rw [erase, odd, show (entry.image * 2 + 1) / 2 = entry.image by omega, here]
    simp [scheduled]

theorem erase_pending_marked : ∃ m, marked = some m ∧ ∃ entry ∈ m.listing, entry.pending = true ∧
    m.erase (entry.image * 2 + entry.slot) = (ImageError.noFreeSlot, m) := by
  obtain ⟨m, is⟩ := Option.isSome_iff_exists.mp (show marked.isSome = true by decide +kernel)
  have some_ : marked.all (fun m => !m.directXip && m.listing.any (·.pending)) = true := by decide +kernel
  rw [is, Option.all_some, Bool.and_eq_true, List.any_eq_true] at some_
  obtain ⟨swaps, entry, listed, pending⟩ := some_
  refine ⟨m, is, entry, listed, pending, (erase_pending (marked_reachable is) listed pending).mpr ?_⟩
  rintro ⟨xip, _⟩
  simp [xip] at swaps

/-- Under direct-XIP an uploaded image marked for the next boot is erased all the same. -/
theorem erase_pending_xip : ((new { behaviour := .directXipWithRevert }).receive 0 (bareImage 5)).any (fun m =>
    let (answer, marked) := m.setState (some [5]) false
    answer = ImageError.ok ∧ marked.listing.any (fun entry => entry.image = 0 ∧ entry.slot = 1 ∧ entry.pending) ∧
      (marked.erase 1).1 = ImageError.ok ∧ (marked.erase 1).2.slotContent 1 = some []) = true := by
  decide +kernel

end Smply.Boot
