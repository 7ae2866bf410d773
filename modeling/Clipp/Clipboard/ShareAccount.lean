import Clipp.Clipboard.ShareHandover

open Foundation

namespace ClippProof.Clipboard

open ClippModel.Persistence ClippModel.Persistence.SealedSnapshot ClippModel.Clipboard
  ClippModel.Clipboard.ClipboardPayload ClippModel.Clipboard.ClipboardActivityStore
  ClippModel.Clipboard.ClipboardPersistence

/-- The phone, with the guids of the shares that were reported as stashed and those that have left the history, be it
    by the user or by a limit. The rest is the course of the hand-over: whose file has left the inbox, what the process
    has added to its store, what of it the writer had collected last, and what a write has saved. -/
structure Handover where
  phone : Phone
  reported : List Guid
  gone : List Guid
  removed : List Guid
  added : List Guid
  collected : List Guid
  written : List Guid

/-- A file that is there, but does not open, read or decode, is moved aside. -/
def discards (faults : LoadFaults) (legible : Bool) : Bool :=
  !faults.existing && (faults.opening || faults.reading || !legible) && !faults.moving

def itemLegible (inbox : Inbox) (guid : Guid) : Bool :=
  (inbox.find { suffix := .bin, guid := guid }).all (fun file => (readBack [file.payload]).isSome)

def snapshotLegible (snapshot : SnapshotFile) : Bool := snapshot.all (fun payloads => (readSnapshot payloads).isSome)

def stored (payloads : List ClipboardPayload) : List Guid :=
  (payloads.filter (fun q => q.meta_.formatId ≠ clippFormatNone)).map (fun q => q.meta_.eventGuid)

namespace Handover

def boot : Handover where
  phone := {}
  reported := []
  gone := []
  removed := []
  added := []
  collected := []
  written := []

def guids (s : Handover) : List Guid :=
  s.reported ++ s.gone ++ s.phone.inbox.map (fun file => file.payload.meta_.eventGuid) ++
    (snapshotPayloads s.phone).map (fun p => p.meta_.eventGuid) ++
    (match s.phone.process with
      | none => []
      | some p => handling p.bridge ++ (payloadsOf p.store).map (fun p => p.meta_.eventGuid))

def after (C : Codec) (s : Handover) (label : PhoneStep) (next : Phone) : Handover where
  phone := next
  reported :=
    match label with
    | .stash share stamp faults =>
      if (s.phone.stash C share stamp faults).1 then stamp.eventGuid :: s.reported else s.reported
    | _ => s.reported
  gone :=
    match label, s.phone.process, next.process with
    | .app step, some p, some q => s.gone ++ departed p q step
    | _, _, _ => s.gone
  removed :=
    match label, s.phone.process.map AppProcess.bridge with
    | .load faults, some (.ingesting (name :: _)) =>
      if discards faults (itemLegible s.phone.inbox name.guid) then name.guid :: s.removed else s.removed
    | .removeFile false, some (.removing guid _) => guid :: s.removed
    | _, _ => s.removed
  added :=
    match label, s.phone.process with
    | .launch _, _ => []
    | .app step, some p => stored (brought p step) ++ s.added
    | _, _ => s.added
  collected :=
    match label with
    | .app (.saveSnapshot _ _) => s.added
    | _ => s.collected
  written :=
    match label with
    | .saveWrite true => s.collected
    | .read faults => if discards faults (snapshotLegible s.phone.snapshot) then [] else s.written
    | _ => s.written

def stampsAnew (s : Handover) : PhoneStep → Bool
  | .stash _ stamp _ => !s.guids.contains stamp.eventGuid
  | _ => true

def step (C : Codec) (s : Handover) (label : PhoneStep) : Option Handover :=
  if s.stampsAnew label then (s.phone.step C label).map (s.after C label) else none

end Handover

open Handover

def Live (s : Handover) (guid : Guid) : Prop := guid ∈ s.reported ∧ guid ∉ s.gone

instance liveDecidable (s : Handover) (guid : Guid) : Decidable (Live s guid) := inferInstanceAs (Decidable (_ ∧ _))

def Kept (s : Handover) (guid : Guid) : Prop :=
  InInbox s.phone guid ∨ Carries (snapshotPayloads s.phone) guid ∨ ∃ p, s.phone.process = some p ∧ WillWrite p guid

/-- In every state of a run each share that was reported and is not gone is still somewhere. -/
def NeverLost (C : Codec) (ok : Handover → PhoneStep → Prop) : Prop :=
  ∀ labels s, Path (Handover.step C) ok .boot labels s → ∀ guid, Live s guid → Kept s guid

def underRemoval : BridgePc → Option Guid
  | .removing guid _ => some guid
  | _ => none

/-- The share's file has not been removed, and is not the one that is removed next. -/
def Waiting (s : Handover) (p : AppProcess) (guid : Guid) : Prop :=
  guid ∉ s.removed ∧ underRemoval p.bridge ≠ some guid

/-- The writer has collected the share, or is about to collect what has been added. -/
def Taking (s : Handover) (p : AppProcess) (guid : Guid) : Prop :=
  match p.writer with
  | .saving _ => True
  | .writing _ _ => guid ∈ s.collected
  | _ => False

instance takingDecidable (s : Handover) (p : AppProcess) (guid : Guid) : Decidable (Taking s p guid) :=
  match at_ : p.writer with
  | .saving _ => .isTrue (by rw [Taking, at_]; trivial)
  | .writing _ _ => decidable_of_iff (guid ∈ s.collected) (by rw [Taking, at_])
  | .absent | .waiting | .debouncing | .returning => .isFalse (by rw [Taking, at_]; exact id)

/-- The share has been added, and the write of it is done, marked or under way. -/
def HandedOver (s : Handover) (p : AppProcess) (guid : Guid) : Prop :=
  guid ∈ s.added ∧ (guid ∈ s.written ∨ Outstanding p ∨ Taking s p guid)

def decoded (payload : ClipboardPayload) : Option ClipboardPayload :=
  match readBack [payload] with
  | some [record] => tryDecodeRecord record
  | _ => none

/-- The share's file opens, reads and decodes. -/
def Loads (m : Phone) (guid : Guid) (faults : LoadFaults) : Prop :=
  faults.existing = false ∧ ¬ (faults.opening = true ∨ faults.reading = true) ∧
    ∃ file ∈ m.inbox.find { suffix := .bin, guid := guid }, Carries (decoded file.payload).toList guid

/-- The process does not end, the snapshot is not moved aside or replaced without the share, and a write does not fail,
    between the removal of the share's file and the first write that saves the share. What cannot be loaded from the
    inbox, or is in the store already and so is not marked, has been handed over before. -/
def Spares (s : Handover) (guid : Guid) (label : PhoneStep) : Prop :=
  match label, s.phone.process with
  | .terminate, some _ => guid ∈ s.removed → guid ∈ s.written
  | .read faults, some p => discards faults (snapshotLegible s.phone.snapshot) = true →
      guid ∈ s.written → guid ∉ s.removed ∨ guid ∈ s.added ∧ Outstanding p
  | .load faults, some p =>
    match p.bridge with
    | .ingesting (name :: _) => name.guid = guid → Loads s.phone guid faults ∨ HandedOver s p guid
    | _ => True
  | .app (.add _), some p =>
    match p.bridge with
    | .adding name payload _ => name = guid → ¬ Recorded p.store payload ∨ HandedOver s p guid
    | _ => True
  | .saveWrite true, some p => guid ∈ s.written → guid ∈ s.added ∨ Waiting s p guid
  | .saveWrite false, some p => guid ∈ s.added → Outstanding p ∨ guid ∈ s.written ∨ Waiting s p guid
  | _, _ => True

instance handedOverDecidable (s : Handover) (p : AppProcess) (guid : Guid) : Decidable (HandedOver s p guid) :=
  inferInstanceAs (Decidable (_ ∧ _))

instance loadsDecidable (m : Phone) (guid : Guid) (faults : LoadFaults) : Decidable (Loads m guid faults) :=
  inferInstanceAs (Decidable (_ ∧ _ ∧ _))

instance sparesDecidable (s : Handover) (guid : Guid) (label : PhoneStep) : Decidable (Spares s guid label) := by
  unfold Spares Waiting
  repeat' split
  all_goals infer_instance

def Fits (s : Handover) (label : PhoneStep) : Prop :=
  ∀ guid ∈ s.reported, guid ∉ s.gone → Spares s guid label

instance fitsDecidable (s : Handover) (label : PhoneStep) : Decidable (Fits s label) :=
  inferInstanceAs (Decidable (∀ guid ∈ s.reported, guid ∉ s.gone → Spares s guid label))

section Files

variable {inbox : Inbox} {file : InboxFile} {guid : Guid} {snapshot : SnapshotFile} {faults : LoadFaults}
  {payloads : List ClipboardPayload}

theorem mem_stored : guid ∈ stored payloads ↔ Carries payloads guid := by
  simp only [stored, List.mem_map, List.mem_filter, decide_eq_true_eq, Carries, and_assoc]

theorem loadSnapshotFile_file : (loadSnapshotFile snapshot faults).2 =
    if discards faults (snapshotLegible snapshot) then none else snapshot := by
  unfold loadSnapshotFile discards snapshotLegible
  cases faults.existing with
  | true => rfl
  | false =>
    cases snapshot with
    | none => simp
    | some payloads =>
      cases read : readSnapshot payloads <;> cases faults.moving <;> cases faults.opening <;> cases faults.reading <;>
        simp [read]

theorem loadInboxItemFile_stays (stays : discards faults (itemLegible inbox guid) = false) :
    (loadInboxItemFile inbox guid faults).2.find { suffix := .bin, guid := guid } =
      inbox.find { suffix := .bin, guid := guid } := by
  have quarantined : ∀ file : InboxFile, faults.moving = true →
      (quarantineItem inbox file faults).find { suffix := .bin, guid := guid } =
        inbox.find { suffix := .bin, guid := guid } := by
    intro file moving
    unfold quarantineItem
    rw [if_pos moving]
    split_ifs
    · rfl
    · exact find_remove (by rintro ⟨⟩)
  unfold loadInboxItemFile
  split
  · rfl
  · rename_i file present
    split_ifs at present with existing
    rw [discards, itemLegible, present] at stays
    by_cases fault : faults.opening = true ∨ faults.reading = true
    · rw [if_pos fault]
      apply quarantined
      rcases fault with fault | fault <;> simpa [existing, fault] using stays
    · rw [if_neg fault]
      split
      · rename_i illegible
        apply quarantined
        simpa [existing, illegible] using stays
      · rfl
      · rfl

theorem loadInboxItemFile_decoded {m : Phone} (loads : Loads m guid faults) :
    Carries (loadInboxItemFile m.inbox guid faults).1.toList guid := by
  obtain ⟨existing, sound, file, found, carried⟩ := loads
  unfold decoded at carried
  unfold loadInboxItemFile
  rw [existing, if_neg Bool.false_ne_true, Option.mem_def.mp found]
  simp only [if_neg sound]
  split at carried
  · rename_i record read
    simpa only [read] using carried
  · exact absurd carried not_carries_nil

end Files

/-- What the course of the hand-over says of a share is so. -/
structure Account (s : Handover) (guid : Guid) : Prop where
  inbox : guid ∈ s.reported → guid ∉ s.removed → InInbox s.phone guid
  added : ∀ p, s.phone.process = some p → (guid ∈ s.added ↔ Carries (payloadsOf p.store) guid)
  collected : ∀ p payloads last, s.phone.process = some p → p.writer = .writing payloads last →
    (guid ∈ s.collected ↔ Carries payloads guid)
  written : guid ∈ s.written ↔ Carries (snapshotPayloads s.phone) guid

section Course

variable {C : Codec} {s t : Handover} {m n : Phone} {p : AppProcess} {guid : Guid} {label : PhoneStep}

theorem Account.waits (account : Account s guid) (reported : guid ∈ s.reported) (waiting : Waiting s p guid) :
    Waits s.phone p guid := by
  refine ⟨account.inbox reported waiting.1, fun entries at_ => ?_⟩
  apply waiting.2
  rw [at_, underRemoval]

theorem Account.safe (account : Account s guid) (running : s.phone.process = some p) (handed : HandedOver s p guid) :
    Safe s.phone p guid := by
  obtain ⟨added, elsewhere⟩ := handed
  refine ⟨(account.added p running).mp added, ?_⟩
  rcases elsewhere with written | outstanding | taken
  · exact .inl (account.written.mp written)
  · exact .inr (.inl outstanding)
  · refine .inr (.inr ?_)
    unfold Taking at taken
    unfold Taken
    cases at_ : p.writer with
    | saving _ => trivial
    | writing payloads last =>
      rw [at_] at taken
      exact (account.collected p payloads last running at_).mp taken
    | _ =>
      rw [at_] at taken
      exact taken.elim

/-- A step that spares the share discards nothing of it that is not backed. -/
theorem Account.backed (account : Account s guid) (reported : guid ∈ s.reported) (spares : Spares s guid label) :
    Backed s.phone guid label := by
  cases running : s.phone.process with
  | none =>
    unfold Backed
    rw [running]
    split <;> trivial
  | some p =>
    have added := account.added p running
    cases label with
    | terminate =>
      simp only [Spares, Backed, running] at spares ⊢
      by_cases removed : guid ∈ s.removed
      · exact .inr (account.written.mp (spares removed))
      · exact .inl (account.inbox reported removed)
    | read faults =>
      simp only [Spares, Backed, running] at spares ⊢
      intro saved
      rw [loadSnapshotFile_file]
      split_ifs with discarded
      · refine .inr ?_
        rcases spares discarded (account.written.mpr saved) with unremoved | ⟨here, outstanding⟩
        · exact .inl (account.inbox reported unremoved)
        · exact .inr ⟨added.mp here, outstanding⟩
      · exact .inl saved
    | load faults =>
      simp only [Spares, Backed, running] at spares ⊢
      split
      · rename_i name _ at_
        simp only [at_] at spares
        intro same
        rcases spares same with loads | handed
        · exact .inl (loadInboxItemFile_decoded loads)
        · exact .inr (account.safe running handed)
      · trivial
    | app step =>
      cases step with
      | add clock =>
        simp only [Spares, Backed, running] at spares ⊢
        split
        · rename_i name payload _ at_
          simp only [at_] at spares
          exact fun same => (spares same).imp_right (account.safe running)
        · trivial
      | _ => trivial
    | saveWrite succeeded =>
      cases succeeded with
      | true =>
        simp only [Spares, Backed, running] at spares ⊢
        intro saved
        exact (spares (account.written.mpr saved)).imp added.mp (account.waits reported)
      | false =>
        simp only [Spares, Backed, running] at spares ⊢
        intro held
        exact (spares (added.mpr held)).imp_right (Or.imp account.written.mp (account.waits reported))
    | _ => trivial

theorem account_boot : Account .boot guid where
  inbox := nofun
  added _ none := nomatch none
  collected _ _ _ none := nomatch none
  written := iff_of_false List.not_mem_nil not_carries_nil

/-- The course of the hand-over where the store, the writer and the snapshot are as they were. -/
theorem Account.elsewhere (account : Account s guid) (reported : t.reported = s.reported)
    (inbox : guid ∉ t.removed → guid ∉ s.removed ∧ (InInbox s.phone guid → InInbox t.phone guid))
    (process : ∀ q, t.phone.process = some q → ∃ p, s.phone.process = some p ∧ q.store = p.store ∧
      (q.writer = p.writer ∨ ∀ payloads last, q.writer ≠ .writing payloads last))
    (added : t.added = s.added) (collected : t.collected = s.collected)
    (written : guid ∈ t.written ↔ Carries (snapshotPayloads t.phone) guid) : Account t guid where
  inbox := by
    intro known unremoved
    obtain ⟨before, stays⟩ := inbox unremoved
    exact stays (account.inbox (reported ▸ known) before)
  added := by
    intro q running
    obtain ⟨p, before, store, -⟩ := process q running
    rw [added, store]
    exact account.added p before
  collected := by
    intro q payloads last running writing
    obtain ⟨p, before, -, same | other⟩ := process q running
    · rw [collected]
      exact account.collected p payloads last before (same ▸ writing)
    · exact absurd writing (other payloads last)
  written := written

theorem Account.stash {share : SharePayload} {stamp : OriginStamp} {faults : SaveFaults} (account : Account s guid)
    (anew : s.stampsAnew (.stash share stamp faults) = true) (next : Phone)
    (went : next = { s.phone with inbox := (s.phone.stash C share stamp faults).2 }) :
    Account (s.after C (.stash share stamp faults) next) guid := by
  subst went
  refine ⟨fun reported unremoved => ?_, account.added, account.collected, account.written⟩
  simp only [Handover.after] at reported unremoved ⊢
  by_cases own : stamp.eventGuid = guid
  · subst own
    split_ifs at reported with saved
    · exact stash_saved saved
    · refine absurd anew (by simp [stampsAnew, guids, reported])
  · have before : guid ∈ s.reported := by
      split_ifs at reported with saved
      · exact (List.mem_cons.mp reported).resolve_left (Ne.symm own)
      · exact reported
    rw [InInbox, stash_guid faults own]
    exact account.inbox before unremoved

theorem Account.app {step : AppStep} {next : AppProcess} (account : Account s guid) (running : s.phone.process = some p)
    (takes : AppTakes p step next) (present : guid ∉ departed p next step) :
    Account (s.after C (.app step) { s.phone with process := some next }) guid := by
  have added := account.added p running
  refine ⟨account.inbox, ?_, ?_, account.written⟩
  · rintro q ⟨⟩
    simp only [Handover.after, running]
    rw [List.mem_append, mem_stored, added, or_comm, ← carries_append]
    exact ⟨held_step takes present, sourced_step takes⟩
  · rintro q payloads last ⟨⟩ writing
    rcases writing_step takes present writing with ⟨before, other⟩ | ⟨⟨now, order, rfl⟩, same⟩
    · have unchanged : (s.after C (.app step) { s.phone with process := some next }).collected = s.collected := by
        simp only [Handover.after]
        split
        · rename_i now order label
          cases label
          exact absurd rfl (other now order)
        · rfl
      rw [unchanged]
      exact account.collected p payloads last running before
    · exact added.trans same

theorem Account.read {faults : LoadFaults} (account : Account s guid) (running : s.phone.process = some p) :
    Account (s.after C (.read faults) { s.phone with
      snapshot := (loadSnapshotFile s.phone.snapshot faults).2
      process := some { p with bridge := .applying (loadSnapshotFile s.phone.snapshot faults).1 false } }) guid := by
  apply account.elsewhere
  · rfl
  · exact fun unremoved => ⟨unremoved, id⟩
  · rintro q ⟨⟩
    exact ⟨p, running, rfl, .inl rfl⟩
  · rfl
  · rfl
  · simp only [Handover.after, snapshotPayloads]
    rw [loadSnapshotFile_file]
    split_ifs
    · exact iff_of_false List.not_mem_nil not_carries_nil
    · exact account.written

theorem Account.load {name : InboxName} {rest : List InboxName} {faults : LoadFaults} (account : Account s guid)
    (running : s.phone.process = some p) (at_ : p.bridge = .ingesting (name :: rest)) :
    Account (s.after C (.load faults) { s.phone with
      inbox := (loadInboxItemFile s.phone.inbox name.guid faults).2
      process := some { p with
        bridge := loadedBridge name.guid rest (loadInboxItemFile s.phone.inbox name.guid faults).1 } }) guid := by
  apply account.elsewhere
  · rfl
  · intro unremoved
    simp only [Handover.after, running, Option.map_some, at_] at unremoved
    have unremoved' : guid ∉ s.removed := by
      split_ifs at unremoved
      · exact fun before => unremoved (List.mem_cons_of_mem _ before)
      · exact unremoved
    refine ⟨unremoved', fun inside => ?_⟩
    by_cases same : name.guid = guid
    · subst same
      split_ifs at unremoved with discarded
      · exact absurd List.mem_cons_self unremoved
      · show (loadInboxItemFile s.phone.inbox name.guid faults).2.find _ ≠ none
        rw [loadInboxItemFile_stays (Bool.eq_false_iff.mpr discarded)]
        exact inside
    · show (loadInboxItemFile s.phone.inbox name.guid faults).2.find _ ≠ none
      rw [loadInboxItemFile_find faults same]
      exact inside
  · rintro q ⟨⟩
    exact ⟨p, running, rfl, .inl rfl⟩
  · rfl
  · rfl
  · exact account.written

theorem Account.removeFile {name : Guid} {rest : List InboxName} (failed : Bool) (account : Account s guid)
    (running : s.phone.process = some p) (at_ : p.bridge = .removing name rest) :
    Account (s.after C (.removeFile failed) { s.phone with
      inbox := if failed then s.phone.inbox else s.phone.inbox.remove { suffix := .bin, guid := name }
      process := some { p with bridge := .ingesting rest } }) guid := by
  apply account.elsewhere
  · rfl
  · intro unremoved
    cases failed with
    | true => exact ⟨unremoved, id⟩
    | false =>
      simp only [Handover.after, running, Option.map_some, at_, List.mem_cons, not_or] at unremoved
      refine ⟨unremoved.2, fun inside => ?_⟩
      show (s.phone.inbox.remove { suffix := .bin, guid := name }).find _ ≠ none
      rw [find_remove]
      · exact inside
      · rintro ⟨⟩
        exact unremoved.1 rfl
  · rintro q ⟨⟩
    exact ⟨p, running, rfl, .inl rfl⟩
  · cases failed <;> rfl
  · cases failed <;> rfl
  · exact account.written

theorem Account.saveWrite {payloads : List ClipboardPayload} {last : Bool} (succeeded : Bool) (account : Account s guid)
    (running : s.phone.process = some p) (at_ : p.writer = .writing payloads last) :
    Account (s.after C (.saveWrite succeeded) { s.phone with
      snapshot := if succeeded then some payloads else s.phone.snapshot
      process := some { p with writer := if last then .absent else .returning } }) guid := by
  apply account.elsewhere
  · rfl
  · exact fun unremoved => ⟨unremoved, id⟩
  · rintro q ⟨⟩
    refine ⟨p, running, rfl, .inr ?_⟩
    cases last <;> nofun
  · rfl
  · cases succeeded <;> rfl
  · cases succeeded with
    | true => exact account.collected p payloads last running at_
    | false => exact account.written

theorem Account.step (account : Account s guid) (anew : s.stampsAnew label = true) (takes : PhoneTakes C s.phone label n)
    (present : presentIn s.phone guid label n) : Account (s.after C label n) guid := by
  cases takes with
  | stash share stamp faults => exact account.stash anew _ rfl
  | launch limits none =>
    refine ⟨account.inbox, ?_, ?_, account.written⟩
    · rintro q ⟨⟩
      exact iff_of_false List.not_mem_nil not_carries_nil
    · rintro q payloads last ⟨⟩ writing
      cases writing
  | terminate p running =>
    exact ⟨account.inbox, fun _ none => by (cases none), fun _ _ _ none => by (cases none), account.written⟩
  | app p next step running takes => exact account.app running takes (present step p next rfl running rfl)
  | read p faults running at_ => exact account.read running
  | ingest p entries running at_ armed =>
    refine account.elsewhere rfl (fun unremoved => ⟨unremoved, id⟩) ?_ rfl rfl account.written
    rintro q ⟨⟩
    exact ⟨p, running, rfl, .inl rfl⟩
  | sweep p name rest failed running at_ swept =>
    refine account.elsewhere rfl (fun unremoved => ⟨unremoved, fun inside => ?_⟩) ?_ rfl rfl account.written
    · show (if failed then s.phone.inbox else s.phone.inbox.remove name).find _ ≠ none
      split_ifs
      · exact inside
      · rw [find_remove]
        · exact inside
        · rintro rfl
          exact swept rfl
    · rintro q ⟨⟩
      exact ⟨p, running, rfl, .inl rfl⟩
  | load p name rest faults running at_ _ => exact account.load running at_
  | removeFile p name rest failed running at_ => exact account.removeFile failed running at_
  | saveWrite p payloads last succeeded running at_ => exact account.saveWrite succeeded running at_

structure Watched (s : Handover) : Prop where
  sound : Sound s.phone
  account : ∀ guid ∉ s.gone, Account s guid
  guarded : ∀ guid, Live s guid → Guarded s.phone guid

theorem watched_boot : Watched .boot where
  sound _ none := nomatch none
  account _ _ := account_boot
  guarded _ live := nomatch live.1

theorem present_of_ungone (ungone : guid ∉ (s.after C label n).gone) :
    guid ∉ s.gone ∧ presentIn s.phone guid label n := by
  constructor
  · intro gone
    apply ungone
    show guid ∈ match label, s.phone.process, n.process with
      | .app step, some p, some q => s.gone ++ departed p q step
      | _, _, _ => s.gone
    split
    · exact List.mem_append_left _ gone
    · exact gone
  · rintro step p next rfl running after gone
    apply ungone
    simp only [Handover.after, running, after]
    exact List.mem_append_right _ gone

theorem stashed_of_reported (takes : PhoneTakes C s.phone label n) (before : guid ∉ s.reported)
    (reported : guid ∈ (s.after C label n).reported) : ∃ share stamp faults, label = .stash share stamp faults ∧
      stamp.eventGuid = guid ∧ (s.phone.stash C share stamp faults).1 = true ∧
        n = { s.phone with inbox := (s.phone.stash C share stamp faults).2 } := by
  cases takes with
  | stash share stamp faults =>
    simp only [Handover.after] at reported
    split_ifs at reported with saved
    · have own := (List.mem_cons.mp reported).resolve_right before
      exact ⟨share, stamp, faults, rfl, own.symm, saved, rfl⟩
    · exact absurd reported before
  | _ => exact absurd reported before

theorem Watched.step (watched : Watched s) (fits : Fits s label) (taken : s.step C label = some t) : Watched t := by
  unfold Handover.step at taken
  split_ifs at taken with anew
  obtain ⟨n, went, rfl⟩ := Option.map_eq_some_iff.mp taken
  have takes := takes_of_phoneStep went
  have new : ∀ share stamp faults, label = .stash share stamp faults → stamp.eventGuid ∉ s.guids := by
    rintro share stamp faults rfl
    simpa [stampsAnew] using anew
  refine ⟨watched.sound.step takes, fun guid ungone => ?_, fun guid live => ?_⟩
  · obtain ⟨before, present⟩ := present_of_ungone ungone
    exact (watched.account guid before).step anew takes present
  · obtain ⟨ungone, present⟩ := present_of_ungone live.2
    by_cases before : guid ∈ s.reported
    · have backed := (watched.account guid ungone).backed before (fits guid before ungone)
      apply (watched.guarded guid ⟨before, ungone⟩).step watched.sound takes present backed
      rintro share stamp faults call rfl
      apply new share stamp faults call
      simp only [guids, List.mem_append, before, true_or]
    · obtain ⟨share, stamp, faults, call, rfl, saved, rfl⟩ := stashed_of_reported takes before live.1
      apply guarded_stashed saved
      intro p running
      have unknown := new share stamp faults call
      simp only [guids, running, List.mem_append, not_or] at unknown
      exact ⟨unknown.2.1, unknown.2.2⟩

theorem Watched.kept (watched : Watched s) (live : Live s guid) : Kept s guid := by
  rcases (watched.guarded guid live).kept with secure | ⟨inside, -⟩
  · unfold SecureIn at secure
    split at secure
    · exact .inr (.inl secure)
    · rename_i p running
      exact secure.elim (fun saved => .inr (.inl saved)) (fun will => .inr (.inr ⟨p, running, will⟩))
  · exact .inl inside

/-- In every run whose steps spare the shares that are not saved yet no share is lost. -/
theorem deferred_share_never_lost (C : Codec) : NeverLost C Fits := by
  intro labels s path guid live
  have watched : Watched s :=
    path.invariant Watched (fun _ _ _ watched fits taken => watched.step fits taken) watched_boot
  exact watched.kept live

end Course

namespace Deferral

open Redelivery ClippModel.Registers

def note : SharePayload := .text [0x61]

def stamp : OriginStamp where
  originHostId := HostId.zero
  originHostName := zeroBytes 128
  eventGuid := repeatedByte 16 0x61
  originSequenceNumber := 1
  timestamp := 1

def clock : ActivityClock where
  added := 0
  limited := 0

def ingestion : List PhoneStep :=
  [.stash note stamp {}, .launch {}, .app .start, .read {}, .app .loaded, .app .arm,
    .ingest [{ suffix := .bin, guid := stamp.eventGuid }], .load {}, .app (.add clock), .app .notifyAdded,
    .removeFile false, .app .ingested]

def saving : List PhoneStep :=
  [.app .wake, .app .debounced, .app (.saveSnapshot 0 [{ id := 1, timestamp := 0 }]), .saveWrite true, .app .relock]

end Deferral

open Deferral Redelivery in
theorem saved_share_outlives_process :
    Kept (lastOf (Handover.step codec) .boot (ingestion ++ saving ++ [.terminate])) stamp.eventGuid :=
  deferred_share_never_lost codec _ _ (fitting_to_lastOf (by decide +kernel)) _ (by decide +kernel)

open Deferral Redelivery in
/-- The file of the share is gone before the snapshot with the share is written. -/
theorem ingested_share_lost_with_process : ¬ NeverLost codec (fun _ _ => True) := by
  intro never
  have kept := never (ingestion ++ [.terminate]) _ (path_to_lastOf (fun _ _ _ => trivial) (by decide +kernel))
    stamp.eventGuid (by decide +kernel)
  have ended : (lastOf (Handover.step codec) .boot (ingestion ++ [.terminate])).phone.process = none := by
    decide +kernel
  rcases kept with inside | saved | ⟨p, running, -⟩
  · exact absurd inside (by decide +kernel)
  · exact absurd saved (by decide +kernel)
  · rw [ended] at running
    cases running

end ClippProof.Clipboard
