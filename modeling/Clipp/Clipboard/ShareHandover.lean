import Clipp.Clipboard.ShareProcess

open Foundation

namespace ClippProof.Clipboard

open ClippModel.Persistence ClippModel.Persistence.SealedSnapshot ClippModel.Clipboard
  ClippModel.Clipboard.ClipboardPayload ClippModel.Clipboard.ClipboardActivityStore
  ClippModel.Clipboard.ClipboardPersistence

section Files

variable {inbox : Inbox} {name other : InboxName} {file : InboxFile} {guid : Guid} {payload q : ClipboardPayload}
  {snapshot : SnapshotFile}

theorem find_remove (ne : other ≠ name) : (inbox.remove name).find other = inbox.find other := by
  unfold Inbox.remove Inbox.find
  rw [List.find?_filter]
  congr 1
  funext file
  by_cases same : file.name = other
  · simp [same, ne]
  · simp [same]

theorem find_put (ne : other ≠ file.name) : (inbox.put file).find other = inbox.find other := by
  have skipped : (inbox.put file).find other = (inbox.remove file.name).find other :=
    List.find?_cons_of_neg (by simpa using ne.symm)
  rw [skipped, find_remove ne]

theorem find_put_self : (inbox.put file).find file.name = some file :=
  List.find?_cons_of_pos (decide_eq_true rfl)

theorem name_of_find (found : inbox.find name = some file) : file.name = name := by
  simpa using List.find?_some found

theorem saveInboxItemFile_find (faults : SaveFaults) (ne : payload.meta_.eventGuid ≠ guid) :
    (saveInboxItemFile inbox payload faults).2.find { suffix := .bin, guid := guid } =
      inbox.find { suffix := .bin, guid := guid } := by
  have others : ∀ suffix, ({ suffix := .bin, guid := guid } : InboxName) ≠
      InboxFile.name { suffix := suffix, payload := payload } := by
    intro suffix same
    exact ne (congrArg InboxName.guid same).symm
  unfold saveInboxItemFile
  split_ifs
  · rfl
  · rfl
  · exact find_put (others .tmp)
  · rw [find_remove (others .tmp), find_put (others .tmp)]
  · rw [find_put (others .bin), find_remove (others .tmp), find_put (others .tmp)]

theorem saveInboxItemFile_saved {faults : SaveFaults} (saved : (saveInboxItemFile inbox payload faults).1 = true) :
    (saveInboxItemFile inbox payload faults).2.find { suffix := .bin, guid := payload.meta_.eventGuid } ≠ none := by
  unfold saveInboxItemFile at saved ⊢
  split_ifs at saved ⊢
  rw [show ({ suffix := .bin, guid := payload.meta_.eventGuid } : InboxName) =
    InboxFile.name { suffix := .bin, payload := payload } from rfl, find_put_self]
  nofun

theorem quarantineItem_find (faults : LoadFaults) (ne : file.payload.meta_.eventGuid ≠ guid) :
    (quarantineItem inbox file faults).find { suffix := .bin, guid := guid } =
      inbox.find { suffix := .bin, guid := guid } := by
  have others : ∀ suffix, ({ suffix := .bin, guid := guid } : InboxName) ≠
      InboxFile.name { suffix := suffix, payload := file.payload } := by
    intro suffix same
    exact ne (congrArg InboxName.guid same).symm
  unfold quarantineItem
  split_ifs
  · rfl
  · exact find_remove (others .corrupt)
  · rw [find_put (others .corrupt)]
    exact find_remove (others file.suffix)

theorem loadInboxItemFile_find (faults : LoadFaults) {loading : Guid} (ne : loading ≠ guid) :
    (loadInboxItemFile inbox loading faults).2.find { suffix := .bin, guid := guid } =
      inbox.find { suffix := .bin, guid := guid } := by
  unfold loadInboxItemFile
  split
  · rfl
  · rename_i file present
    have found : inbox.find { suffix := .bin, guid := loading } = some file := by
      split_ifs at present
      exact present
    have other : file.payload.meta_.eventGuid ≠ guid := by
      rw [show file.payload.meta_.eventGuid = loading from congrArg InboxName.guid (name_of_find found)]
      exact ne
    split_ifs
    · exact quarantineItem_find faults other
    · split
      · exact quarantineItem_find faults other
      · rfl
      · rfl

theorem loadInboxItemFile_loaded {faults : LoadFaults} (loaded : (loadInboxItemFile inbox guid faults).1 = some q) :
    (loadInboxItemFile inbox guid faults).2 = inbox := by
  unfold loadInboxItemFile at loaded ⊢
  split at loaded
  · rfl
  · split_ifs at loaded ⊢
    split at loaded
    · cases loaded
    · simp only [*]
    · cases loaded

theorem stash_guid {C : Codec} {share : SharePayload} {stamp : OriginStamp} {m : Phone} (faults : SaveFaults)
    (ne : stamp.eventGuid ≠ guid) : (m.stash C share stamp faults).2.find { suffix := .bin, guid := guid } =
      m.inbox.find { suffix := .bin, guid := guid } := by
  unfold Phone.stash
  split
  · rfl
  · exact saveInboxItemFile_find faults ne

theorem stash_saved {C : Codec} {share : SharePayload} {stamp : OriginStamp} {m : Phone} {faults : SaveFaults}
    (saved : (m.stash C share stamp faults).1 = true) :
    (m.stash C share stamp faults).2.find { suffix := .bin, guid := stamp.eventGuid } ≠ none := by
  unfold Phone.stash at saved ⊢
  split at saved
  · cases saved
  · exact saveInboxItemFile_saved saved

end Files

section Run

variable {C : Codec} {m n : Phone} {label : PhoneStep} {guid : Guid} {p : AppProcess}

def UnderRemoval (m : Phone) (guid : Guid) : Prop :=
  ∃ p entries, m.process = some p ∧ p.bridge = .removing guid entries

def SecureIn (m : Phone) (guid : Guid) : Prop :=
  match m.process with
  | none => Carries (snapshotPayloads m) guid
  | some p => Secure (snapshotPayloads m) p guid

/-- A share is in the inbox and not about to be removed from it, or it has been taken over. -/
structure Guarded (m : Phone) (guid : Guid) : Prop where
  kept : SecureIn m guid ∨ InInbox m guid ∧ ¬ UnderRemoval m guid
  covers : ∀ p, m.process = some p → Covers p guid
  delivered : ∀ p, m.process = some p → Delivered p guid

def Sound (m : Phone) : Prop := ∀ p, m.process = some p → Regular p

theorem Guarded.next {next : AppProcess} (guarded : Guarded m guid) (before : m.process = some p)
    (after : n.process = some next)
    (secure : Secure (snapshotPayloads m) p guid → Secure (snapshotPayloads n) next guid ∨
      InInbox n guid ∧ ∀ entries, next.bridge ≠ .removing guid entries)
    (inbox : InInbox m guid → (∀ entries, p.bridge ≠ .removing guid entries) →
      Secure (snapshotPayloads n) next guid ∨ InInbox n guid ∧ ∀ entries, next.bridge ≠ .removing guid entries)
    (covers : Covers p guid → Covers next guid) (delivered : Delivered p guid → Delivered next guid) :
    Guarded n guid := by
  have close : Secure (snapshotPayloads n) next guid ∨ InInbox n guid ∧ (∀ entries, next.bridge ≠ .removing guid entries) →
      SecureIn n guid ∨ InInbox n guid ∧ ¬ UnderRemoval n guid := by
    apply Or.imp
    · intro here
      rw [SecureIn, after]
      exact here
    · apply And.imp_right
      rintro other ⟨q, entries, running, at_⟩
      rw [after] at running
      cases running
      exact other entries at_
  refine ⟨?_, fun q running => ?_, fun q running => ?_⟩
  · rcases guarded.kept with here | ⟨inside, free⟩
    · rw [SecureIn, before] at here
      exact close (secure here)
    · exact close (inbox inside (fun entries at_ => free ⟨p, entries, before, at_⟩))
  · rw [after] at running
    cases running
    exact covers (guarded.covers p before)
  · rw [after] at running
    cases running
    exact delivered (guarded.delivered p before)

theorem Guarded.app {step : AppStep} {next : AppProcess} (sound : Sound m) (guarded : Guarded m guid)
    (before : m.process = some p) (takes : AppTakes p step next) (present : guid ∉ departed p next step)
    (backed : Backed m guid (.app step)) : Guarded { m with process := some next } guid := by
  have regular := sound p before
  apply guarded.next before rfl
  · exact fun secure => .inl (secure.step regular takes present)
  · intro inside free
    by_cases removal : ∃ entries, next.bridge = .removing guid entries
    · obtain ⟨entries, at_⟩ := removal
      have moved : p.bridge = .removing guid entries ∨ Secure (snapshotPayloads m) next guid :=
        removal_secure rfl before regular takes present (guarded.delivered p before) backed at_
      exact .inl (moved.resolve_left (free entries))
    · exact .inr ⟨inside, fun entries at_ => removal ⟨entries, at_⟩⟩
  · exact fun covers => covers.step regular takes present
  · exact fun delivered => delivered.step takes present

theorem Guarded.read {faults : LoadFaults} (sound : Sound m) (guarded : Guarded m guid) (before : m.process = some p)
    (at_ : p.bridge = .loading) (backed : Backed m guid (.read faults)) :
    Guarded { m with
      snapshot := (loadSnapshotFile m.snapshot faults).2
      process := some { p with bridge := .applying (loadSnapshotFile m.snapshot faults).1 false } } guid := by
  have absent := (sound p before).absent ((sound p before).starting (by rw [at_]; trivial))
  have marked : Outstanding p → Outstanding { p with
      bridge := .applying (loadSnapshotFile m.snapshot faults).1 false } :=
    outstanding_of_unawaited (by rw [at_]; rfl) id id
  apply guarded.next before rfl
  · rintro (saved | ⟨held, will⟩)
    · simp only [Backed, before] at backed
      rcases backed saved with stays | inside | ⟨held, outstanding⟩
      · exact .inl (.inl stays)
      · exact .inr ⟨inside, fun _ removal => by cases removal⟩
      · exact .inl (.inr ⟨held, .inl (marked outstanding)⟩)
    · exact .inl (.inr ⟨held, will.imp_left marked⟩)
  · exact fun inside _ => .inr ⟨inside, fun _ removal => by cases removal⟩
  · exact fun _ => covers_of_absent absent
  · exact fun _ => trivial

theorem Secure.move {snap : List ClipboardPayload} {bridge : BridgePc} (secure : Secure snap p guid)
    (silent : awaits p.bridge = false) : Secure snap { p with bridge := bridge } guid :=
  secure.imp_right (And.imp_right (Or.imp_left (outstanding_of_unawaited silent id id)))

theorem Covers.move {bridge : BridgePc} (covers : Covers p guid) (silent : awaits p.bridge = false) :
    Covers { p with bridge := bridge } guid := by
  apply covers.mono
  · rfl
  · exact .inl
  · exact outstanding_of_unawaited silent id id

theorem Guarded.ingest {entries : List InboxName} (guarded : Guarded m guid) (before : m.process = some p)
    (at_ : p.bridge = .idle) :
    Guarded { m with process := some { p with bridge := .ingesting entries } } guid := by
  apply guarded.next before rfl
  · exact fun secure => .inl (secure.move (by rw [at_]; rfl))
  · exact fun inside _ => .inr ⟨inside, nofun⟩
  · exact fun covers => covers.move (by rw [at_]; rfl)
  · exact fun _ => trivial

theorem Guarded.sweep {name : InboxName} {rest : List InboxName} (failed : Bool)
    (guarded : Guarded m guid) (before : m.process = some p) (at_ : p.bridge = .ingesting (name :: rest))
    (swept : name.suffix ≠ .bin) :
    Guarded { m with
      inbox := if failed then m.inbox else m.inbox.remove name
      process := some { p with bridge := .ingesting rest } } guid := by
  apply guarded.next before rfl
  · exact fun secure => .inl (secure.move (by rw [at_]; rfl))
  · refine fun inside _ => .inr ⟨?_, nofun⟩
    show (if failed then m.inbox else m.inbox.remove name).find { suffix := .bin, guid := guid } ≠ none
    split_ifs
    · exact inside
    · rw [find_remove]
      · exact inside
      · rintro rfl
        exact swept rfl
  · exact fun covers => covers.move (by rw [at_]; rfl)
  · exact fun _ => trivial

theorem Guarded.removeFile {name : Guid} {rest : List InboxName} (failed : Bool)
    (guarded : Guarded m guid) (before : m.process = some p) (at_ : p.bridge = .removing name rest) :
    Guarded { m with
      inbox := if failed then m.inbox else m.inbox.remove { suffix := .bin, guid := name }
      process := some { p with bridge := .ingesting rest } } guid := by
  apply guarded.next before rfl
  · exact fun secure => .inl (secure.move (by rw [at_]; rfl))
  · intro inside free
    have other : ({ suffix := .bin, guid := guid } : InboxName) ≠ { suffix := .bin, guid := name } := by
      intro same
      cases same
      exact free rest at_
    refine .inr ⟨?_, nofun⟩
    show (if failed then m.inbox else _).find { suffix := .bin, guid := guid } ≠ none
    split_ifs
    · exact inside
    · rw [find_remove other]
      exact inside
  · exact fun covers => covers.move (by rw [at_]; rfl)
  · exact fun _ => trivial

theorem Secure.of_safe (safe : Safe m p guid) : Secure (snapshotPayloads m) p guid := by
  obtain ⟨held, saved | will⟩ := safe
  · exact .inl saved
  · exact .inr ⟨held, will⟩

def loadedBridge (name : Guid) (rest : List InboxName) : Option ClipboardPayload → BridgePc
  | some payload => .adding name (clearTransportFlags payload) rest
  | none => .removing name rest

theorem Guarded.load {name : InboxName} {rest : List InboxName} {faults : LoadFaults}
    (guarded : Guarded m guid) (before : m.process = some p) (at_ : p.bridge = .ingesting (name :: rest))
    (backed : Backed m guid (.load faults)) :
    Guarded { m with
      inbox := (loadInboxItemFile m.inbox name.guid faults).2
      process := some { p with
        bridge := loadedBridge name.guid rest (loadInboxItemFile m.inbox name.guid faults).1 } } guid := by
  simp only [Backed, before, at_] at backed
  apply guarded.next before rfl
  · exact fun secure => .inl (secure.move (by rw [at_]; rfl))
  · intro inside _
    by_cases same : name.guid = guid
    · cases loaded : (loadInboxItemFile m.inbox name.guid faults).1 with
      | some payload =>
        right
        have unchanged := loadInboxItemFile_loaded loaded
        refine ⟨?_, fun _ removal => by cases removal⟩
        rw [InInbox]
        dsimp only
        rw [unchanged]
        exact inside
      | none =>
        have nothing : ¬ Carries (loadInboxItemFile m.inbox guid faults).1.toList guid := by
          rw [← same, loaded]
          exact not_carries_nil
        have secure := Secure.of_safe ((backed same).resolve_left nothing)
        exact .inl (secure.move (by rw [at_]; rfl))
    · refine .inr ⟨?_, fun entries => ?_⟩
      · rw [InInbox]
        dsimp only
        rw [loadInboxItemFile_find faults same]
        exact inside
      · cases (loadInboxItemFile m.inbox name.guid faults).1 with
        | some payload =>
          intro removal
          cases removal
        | none =>
          intro removal
          cases removal
          exact same rfl
  · exact fun covers => covers.move (by rw [at_]; rfl)
  · intro _
    cases loaded : (loadInboxItemFile m.inbox name.guid faults).1 with
    | none => trivial
    | some payload =>
      intro same
      rcases backed same with carried | safe
      · left
        rw [← same, loaded] at carried
        obtain ⟨q, member, stored, here⟩ := carried
        cases List.mem_singleton.mp member
        exact ⟨clearTransportFlags payload, List.mem_singleton_self _, stored, here.trans same⟩
      · exact .inr safe.1

theorem Guarded.saveWrite {payloads : List ClipboardPayload} {last : Bool} (succeeded : Bool)
    (guarded : Guarded m guid) (before : m.process = some p) (at_ : p.writer = .writing payloads last)
    (backed : Backed m guid (.saveWrite succeeded)) :
    Guarded { m with
      snapshot := if succeeded then some payloads else m.snapshot
      process := some { p with writer := if last then .absent else .returning } } guid := by
  have elsewhere : ∀ items last', (if last then ActivityWriterPc.absent else .returning) ≠ .writing items last' := by
    cases last <;> nofun
  apply guarded.next before rfl
  · intro secure
    cases succeeded with
    | true =>
      have written : Carries (payloadsOf p.store) guid → Secure payloads { p with
          writer := if last then .absent else .returning } guid := by
        intro held
        exact (guarded.covers p before payloads last at_ held).imp_right (fun outstanding => ⟨held, .inl outstanding⟩)
      simp only [Backed, before] at backed
      rcases secure with saved | ⟨held, -⟩
      · exact (backed saved).imp_left written
      · exact .inl (written held)
    | false =>
      simp only [Backed, before] at backed
      rcases secure with saved | ⟨held, -⟩
      · exact .inl (.inl saved)
      · rcases backed held with outstanding | saved | waits
        · exact .inl (.inr ⟨held, .inl outstanding⟩)
        · exact .inl (.inl saved)
        · exact .inr waits
  · exact fun inside free => .inr ⟨inside, free⟩
  · exact fun _ => covers_of_ne elsewhere
  · exact fun delivered => delivered

/-- The steps of the phone, each with what it depends on. -/
inductive PhoneTakes (C : Codec) (m : Phone) : PhoneStep → Phone → Prop where
  | stash (share : SharePayload) (stamp : OriginStamp) (faults : SaveFaults) :
      PhoneTakes C m (.stash share stamp faults) { m with inbox := (m.stash C share stamp faults).2 }
  | launch (limits : ActivityLimits) : m.process = none →
      PhoneTakes C m (.launch limits) { m with process := some { store := { limits := limits } } }
  | terminate (p : AppProcess) : m.process = some p → PhoneTakes C m .terminate { m with process := none }
  | app (p next : AppProcess) (step : AppStep) : m.process = some p → AppTakes p step next →
      PhoneTakes C m (.app step) { m with process := some next }
  | read (p : AppProcess) (faults : LoadFaults) : m.process = some p → p.bridge = .loading →
      PhoneTakes C m (.read faults) { m with
        snapshot := (loadSnapshotFile m.snapshot faults).2
        process := some { p with bridge := .applying (loadSnapshotFile m.snapshot faults).1 false } }
  | ingest (p : AppProcess) (entries : List InboxName) : m.process = some p → p.bridge = .idle →
      p.watcherArmed = true →
      PhoneTakes C m (.ingest entries) { m with process := some { p with bridge := .ingesting entries } }
  | sweep (p : AppProcess) (name : InboxName) (rest : List InboxName) (failed : Bool) : m.process = some p →
      p.bridge = .ingesting (name :: rest) → name.suffix ≠ .bin →
      PhoneTakes C m (.sweep failed) { m with
        inbox := if failed then m.inbox else m.inbox.remove name
        process := some { p with bridge := .ingesting rest } }
  | load (p : AppProcess) (name : InboxName) (rest : List InboxName) (faults : LoadFaults) : m.process = some p →
      p.bridge = .ingesting (name :: rest) → name.suffix = .bin →
      PhoneTakes C m (.load faults) { m with
        inbox := (loadInboxItemFile m.inbox name.guid faults).2
        process := some { p with
          bridge := loadedBridge name.guid rest (loadInboxItemFile m.inbox name.guid faults).1 } }
  | removeFile (p : AppProcess) (guid : Guid) (rest : List InboxName) (failed : Bool) : m.process = some p →
      p.bridge = .removing guid rest →
      PhoneTakes C m (.removeFile failed) { m with
        inbox := if failed then m.inbox else m.inbox.remove { suffix := .bin, guid := guid }
        process := some { p with bridge := .ingesting rest } }
  | saveWrite (p : AppProcess) (payloads : List ClipboardPayload) (last succeeded : Bool) : m.process = some p →
      p.writer = .writing payloads last →
      PhoneTakes C m (.saveWrite succeeded) { m with
        snapshot := if succeeded then some payloads else m.snapshot
        process := some { p with writer := if last then .absent else .returning } }

theorem takes_of_phoneStep (taken : m.step C label = some n) : PhoneTakes C m label n := by
  cases label with
  | stash share stamp faults =>
    cases taken
    exact .stash share stamp faults
  | launch limits =>
    cases none : m.process <;> simp only [Phone.step, none] at taken <;> cases taken
    exact .launch limits none
  | terminate =>
    obtain ⟨p, running, rfl⟩ := Option.map_eq_some_iff.mp taken
    exact .terminate p running
  | app step =>
    obtain ⟨p, running, rest⟩ := Option.bind_eq_some_iff.mp taken
    obtain ⟨next, went, rfl⟩ := Option.map_eq_some_iff.mp rest
    exact .app p next step running (takes_of_appStep went)
  | read faults =>
    obtain ⟨p, running, rest⟩ := Option.bind_eq_some_iff.mp taken
    cases at_ : p.bridge <;> simp only [at_] at rest <;> cases rest
    exact .read p faults running at_
  | ingest entries =>
    obtain ⟨p, running, rest⟩ := Option.bind_eq_some_iff.mp taken
    cases at_ : p.bridge <;> simp only [at_] at rest <;> try cases rest
    split_ifs at rest with listed
    cases rest
    exact .ingest p entries running at_ listed.1
  | sweep failed =>
    obtain ⟨p, running, rest⟩ := Option.bind_eq_some_iff.mp taken
    split at rest
    · rename_i name entries at_
      by_cases bin : name.suffix = .bin
      · rw [if_pos bin] at rest
        cases rest
      · rw [if_neg bin] at rest
        cases rest
        exact .sweep p name entries failed running at_ bin
    · cases rest
  | load faults =>
    obtain ⟨p, running, rest⟩ := Option.bind_eq_some_iff.mp taken
    split at rest
    · rename_i name entries at_
      split_ifs at rest with bin
      cases rest
      exact .load p name entries faults running at_ bin
    · cases rest
  | removeFile failed =>
    obtain ⟨p, running, rest⟩ := Option.bind_eq_some_iff.mp taken
    cases at_ : p.bridge <;> simp only [at_] at rest <;> cases rest
    exact .removeFile p _ _ failed running at_
  | saveWrite succeeded =>
    obtain ⟨p, running, rest⟩ := Option.bind_eq_some_iff.mp taken
    cases at_ : p.writer <;> simp only [at_] at rest <;> cases rest
    exact .saveWrite p _ _ succeeded running at_

theorem Regular.move {bridge : BridgePc} (regular : Regular p) (silent : awaits bridge = false)
    (starting : Starting bridge → p.running = false) (ingesting : Ingesting bridge → p.watcherArmed = true) :
    Regular { p with bridge := bridge } where
  good := regular.good
  notified told := regular.notified (.inr (told.resolve_left (by rw [silent]; nofun)))
  working := regular.working
  starting := starting
  ingesting := ingesting

theorem regular_fresh (limits : ActivityLimits) : Regular { store := { limits := limits } } where
  good := .fresh limits
  notified := by
    rintro (told | pending)
    · cases told
    · exact absurd pending (lt_irrefl 0)
  working there := absurd rfl there
  starting := nofun
  ingesting := nofun

theorem Sound.step (sound : Sound m) (takes : PhoneTakes C m label n) : Sound n := by
  cases takes with
  | stash _ _ _ => exact sound
  | launch limits _ =>
    rintro q ⟨⟩
    exact regular_fresh limits
  | terminate _ _ => exact fun _ none => by cases none
  | app p next step running takes =>
    rintro q ⟨⟩
    exact (sound p running).step takes
  | read p faults running at_ =>
    rintro q ⟨⟩
    have stopped := (sound p running).starting (by rw [at_]; trivial)
    exact (sound p running).move rfl (fun _ => stopped) nofun
  | ingest p entries running at_ armed =>
    rintro q ⟨⟩
    exact (sound p running).move rfl nofun (fun _ => armed)
  | sweep p name rest failed running at_ _ =>
    rintro q ⟨⟩
    have armed := (sound p running).ingesting (by rw [at_]; trivial)
    exact (sound p running).move rfl nofun (fun _ => armed)
  | load p name rest faults running at_ _ =>
    rintro q ⟨⟩
    have armed := (sound p running).ingesting (by rw [at_]; trivial)
    cases (loadInboxItemFile m.inbox name.guid faults).1 with
    | some payload => exact (sound p running).move rfl nofun (fun _ => armed)
    | none => exact (sound p running).move rfl nofun (fun _ => armed)
  | removeFile p name rest failed running at_ =>
    rintro q ⟨⟩
    have armed := (sound p running).ingesting (by rw [at_]; trivial)
    exact (sound p running).move rfl nofun (fun _ => armed)
  | saveWrite p payloads last succeeded running at_ =>
    rintro q ⟨⟩
    have regular := sound p running
    have working := regular.working (by rw [at_]; nofun)
    exact ⟨regular.good, regular.notified, fun _ => working, regular.starting, regular.ingesting⟩

def presentIn (m : Phone) (guid : Guid) (label : PhoneStep) (n : Phone) : Prop :=
  ∀ step p next, label = .app step → m.process = some p → n.process = some next → guid ∉ departed p next step

theorem Guarded.step (sound : Sound m) (guarded : Guarded m guid) (takes : PhoneTakes C m label n)
    (present : presentIn m guid label n) (backed : Backed m guid label)
    (other : ∀ share stamp faults, label = .stash share stamp faults → stamp.eventGuid ≠ guid) : Guarded n guid := by
  cases takes with
  | stash share stamp faults =>
    refine ⟨guarded.kept.imp_right (And.imp_left fun inside => ?_), guarded.covers, guarded.delivered⟩
    rw [InInbox]
    dsimp only
    rw [stash_guid faults (other share stamp faults rfl)]
    exact inside
  | launch limits none =>
    refine ⟨?_, ?_, ?_⟩
    · rcases guarded.kept with saved | ⟨inside, -⟩
      · rw [SecureIn, none] at saved
        exact .inl (.inl saved)
      · refine .inr ⟨inside, ?_⟩
        rintro ⟨q, entries, ⟨⟩, at_⟩
        cases at_
    · rintro q ⟨⟩
      exact covers_of_absent rfl
    · rintro q ⟨⟩
      trivial
  | terminate p running =>
    simp only [Backed, running] at backed
    refine ⟨?_, fun _ none => (by cases none), fun _ none => (by cases none)⟩
    rcases backed with inside | saved
    · refine .inr ⟨inside, ?_⟩
      rintro ⟨_, _, ended, _⟩
      cases ended
    · exact .inl saved
  | app p next step running takes => exact guarded.app sound running takes (present step p next rfl running rfl) backed
  | read p faults running at_ => exact guarded.read sound running at_ backed
  | ingest p entries running at_ armed => exact guarded.ingest running at_
  | sweep p name rest failed running at_ swept => exact guarded.sweep failed running at_ swept
  | load p name rest faults running at_ _ => exact guarded.load running at_ backed
  | removeFile p name rest failed running at_ => exact guarded.removeFile failed running at_
  | saveWrite p payloads last succeeded running at_ => exact guarded.saveWrite succeeded running at_ backed

def handling : BridgePc → List Guid
  | .ingesting entries => entries.map InboxName.guid
  | .adding guid _ entries => guid :: entries.map InboxName.guid
  | .notifying guid entries => guid :: entries.map InboxName.guid
  | .removing guid entries => guid :: entries.map InboxName.guid
  | _ => []

theorem guarded_stashed {share : SharePayload} {stamp : OriginStamp} {faults : SaveFaults}
    (saved : (m.stash C share stamp faults).1 = true)
    (new : ∀ p, m.process = some p → stamp.eventGuid ∉ handling p.bridge ∧
      stamp.eventGuid ∉ (payloadsOf p.store).map (fun q => q.meta_.eventGuid)) :
    Guarded { m with inbox := (m.stash C share stamp faults).2 } stamp.eventGuid := by
  refine ⟨.inr ⟨stash_saved saved, ?_⟩, fun p running => ?_, fun p running => ?_⟩
  · rintro ⟨p, entries, running, at_⟩
    have unnamed := (new p running).1
    rw [at_] at unnamed
    exact unnamed List.mem_cons_self
  · rintro payloads last - ⟨q, member, -, same⟩
    exact absurd (List.mem_map.mpr ⟨q, member, same⟩) (new p running).2
  · have unnamed := (new p running).1
    unfold Delivered
    split
    · rename_i name payload entries at_
      rintro rfl
      rw [at_] at unnamed
      exact absurd List.mem_cons_self unnamed
    · rename_i name entries at_
      rintro rfl
      rw [at_] at unnamed
      exact absurd List.mem_cons_self unnamed
    · trivial

end Run

end ClippProof.Clipboard
