import Clipp.Clipboard.Relaunch

open Foundation

namespace ClippModel.Clipboard

open ClippModel.Persistence ClippModel.Persistence.SealedSnapshot ClippModel.Clipboard.ClipboardPayload
  ClippModel.Clipboard.ClipboardPersistence ClippModel.Clipboard.ClipboardActivityStore

abbrev Guid := Sized 16

inductive SharePayload where
  | text (bytes : Bytes)
  | jpeg (bytes : Bytes)
  | png (bytes : Bytes)
  deriving DecidableEq

def payloadFromSharePayload (C : Codec) : SharePayload → Option ClipboardPayload
  | .text bytes =>
    if bytes.isEmpty then none else setUncompressedBytes C (blankPayload clippFormatUtf8) (bytes ++ [0])
  | .jpeg bytes => if bytes.isEmpty then none else setUncompressedBytes C (blankPayload clippFormatJpeg) bytes
  | .png bytes => if bytes.isEmpty then none else setUncompressedBytes C (blankPayload clippFormatPng) bytes

inductive Suffix where
  | bin
  | tmp
  | corrupt
  deriving DecidableEq

/-- The files of the inbox are named by the guid of what they hold. -/
structure InboxName where
  suffix : Suffix
  guid : Guid
  deriving DecidableEq

structure InboxFile where
  suffix : Suffix
  payload : ClipboardPayload
  deriving DecidableEq

def InboxFile.name (file : InboxFile) : InboxName := { suffix := file.suffix, guid := file.payload.meta_.eventGuid }

abbrev Inbox := List InboxFile

def Inbox.find (inbox : Inbox) (name : InboxName) : Option InboxFile := List.find? (fun file => file.name = name) inbox

def Inbox.remove (inbox : Inbox) (name : InboxName) : Inbox := List.filter (fun file => file.name ≠ name) inbox

def Inbox.put (inbox : Inbox) (file : InboxFile) : Inbox := file :: inbox.remove file.name

namespace ClipboardPersistence

/-- An inbox drop is one item. -/
def saveInboxItemFile (inbox : Inbox) (payload : ClipboardPayload) (faults : SaveFaults) : Bool × Inbox :=
  if (encodeRecord payload).isEmpty then (false, inbox)
  else if faults.opening then (false, inbox)
  else
    let temp : InboxFile := { suffix := .tmp, payload := payload }
    let staged := inbox.put temp
    if faults.writing.isSome || faults.moving then
      (false, if faults.removing then staged else staged.remove temp.name)
    else (true, (staged.remove temp.name).put { suffix := .bin, payload := payload })

/-- A file that does not open is moved aside. -/
def quarantineItem (inbox : Inbox) (file : InboxFile) (faults : LoadFaults) : Inbox :=
  let carcass : InboxFile := { suffix := .corrupt, payload := file.payload }
  if faults.moving then (if faults.removing then inbox else inbox.remove carcass.name)
  else (inbox.remove file.name).put carcass

def loadInboxItemFile (inbox : Inbox) (guid : Guid) (faults : LoadFaults) : Option ClipboardPayload × Inbox :=
  match if faults.existing then none else inbox.find { suffix := .bin, guid := guid } with
  | none => (none, inbox)
  | some file =>
    if faults.opening ∨ faults.reading then (none, quarantineItem inbox file faults)
    else match readBack [file.payload] with
      | none => (none, quarantineItem inbox file faults)
      | some [record] => (tryDecodeRecord record, inbox)
      | some _ => (none, inbox)

abbrev SnapshotFile := Option (List ClipboardPayload)

def loadSnapshotFile (snapshot : SnapshotFile) (faults : LoadFaults) : List ClipboardPayload × SnapshotFile :=
  match if faults.existing then none else snapshot with
  | none => ([], snapshot)
  | some payloads =>
    let quarantined := if faults.moving then snapshot else none
    if faults.opening ∨ faults.reading then ([], quarantined)
    else match readSnapshot payloads with
      | none => ([], quarantined)
      | some loaded => (loaded, snapshot)

end ClipboardPersistence

/-- Authored history is not replay. -/
def clearTransportFlags (payload : ClipboardPayload) : ClipboardPayload :=
  { payload with
    meta_ := { payload.meta_ with flags := payload.meta_.flags &&& ~~~(clpmFlagSyncReplay ||| clpmFlagRelay) } }

/-- Where `WriterLoop` is; `last` marks the flush behind the loop. -/
inductive ActivityWriterPc where
  | absent
  | waiting
  | debouncing
  | saving (last : Bool)
  | writing (payloads : List ClipboardPayload) (last : Bool)
  | returning
  deriving DecidableEq

inductive BridgePc where
  | idle
  | loading
  | applying (remaining : List ClipboardPayload) (notifying : Bool)
  | arming
  | ingesting (entries : List InboxName)
  | adding (guid : Guid) (payload : ClipboardPayload) (entries : List InboxName)
  | notifying (guid : Guid) (entries : List InboxName)
  | removing (guid : Guid) (entries : List InboxName)
  deriving DecidableEq

inductive MainPc where
  | idle
  | stopping
  | joining
  deriving DecidableEq

/-- The globals of the persistence with the store and the threads of a process that is paired with one group.
    `pending` counts the calls of other threads whose watcher call is still to come. -/
structure AppProcess where
  store : ClipboardActivityStore := {}
  running : Bool := false
  stop : Bool := false
  dirty : Bool := false
  watcherArmed : Bool := false
  pending : Nat := 0
  writer : ActivityWriterPc := .absent
  bridge : BridgePc := .idle
  main : MainPc := .idle
  deriving DecidableEq

inductive AppStep where
  | start
  | apply (clock : ActivityClock)
  | notifyApplied
  | loaded
  | arm
  | add (clock : ActivityClock)
  | notifyAdded
  | ingested
  | stop
  | halt
  | join
  | wake
  | debounced
  | saveSnapshot (now : Int) (order : List ClipboardActivityItemHeader)
  | relock
  | mutate (event : Event)
  | notify

namespace AppProcess

def activityDirtyWatcher (p : AppProcess) : AppProcess := { p with dirty := p.dirty || p.watcherArmed }

/-- The watcher is called for what a call updates. -/
def notifies (p : AppProcess) (updates : List ClipboardActivityUpdate) : Bool := p.watcherArmed && !updates.isEmpty

def leaveLoop (p : AppProcess) : AppProcess :=
  if p.dirty then { p with writer := .saving true } else { p with writer := .absent }

def loopTop (p : AppProcess) : AppProcess :=
  if p.stop then p.leaveLoop
  else if p.dirty then { p with writer := .debouncing }
  else { p with writer := .waiting }

/-- The headers in an order the sort may leave them in. -/
def newestFirst (headers order : List ClipboardActivityItemHeader) : Bool :=
  order.isPerm headers && decide (order.Pairwise (fun a b => b.timestamp ≤ a.timestamp))

def step (p : AppProcess) : AppStep → Option AppProcess
  | .start =>
    match p.bridge with
    | .idle => some (if p.running then p else { p with bridge := .loading })
    | _ => none
  | .apply clock =>
    match p.bridge with
    | .applying (payload :: rest) false =>
      let call := p.store.perform { call := .add payload, clock := clock }
      some { p with store := call.store, bridge := .applying rest (p.notifies call.updates) }
    | _ => none
  | .notifyApplied =>
    match p.bridge with
    | .applying rest true => some { p.activityDirtyWatcher with bridge := .applying rest false }
    | _ => none
  | .loaded =>
    match p.bridge with
    | .applying [] false => some { p with bridge := .arming }
    | _ => none
  | .arm =>
    match p.bridge with
    | .arming =>
      some { p with watcherArmed := true, running := true, stop := false, writer := .waiting, bridge := .idle }
    | _ => none
  | .add clock =>
    match p.bridge with
    | .adding guid payload entries =>
      let call := p.store.perform { call := .add payload, clock := clock }
      some { p with
        store := call.store
        bridge := if p.notifies call.updates then .notifying guid entries else .removing guid entries }
    | _ => none
  | .notifyAdded =>
    match p.bridge with
    | .notifying guid entries => some { p.activityDirtyWatcher with bridge := .removing guid entries }
    | _ => none
  | .ingested =>
    match p.bridge with
    | .ingesting [] => some { p with bridge := .idle }
    | _ => none
  | .stop =>
    match p.main with
    | .idle => some (if p.running then { p with main := .stopping } else p)
    | _ => none
  | .halt =>
    match p.main with
    | .stopping => some { p with stop := true, main := .joining }
    | _ => none
  | .join =>
    match p.main, p.writer with
    | .joining, .absent => some { p with running := false, main := .idle }
    | _, _ => none
  | .wake =>
    match p.writer with
    | .waiting =>
      if p.stop then some p.leaveLoop
      else if p.dirty then some { p with writer := .debouncing }
      else none
    | _ => none
  | .debounced =>
    match p.writer with
    -- the mark is cleared before the write, and whatever the write returns
    | .debouncing => some { p with dirty := false, writer := .saving false }
    | _ => none
  | .saveSnapshot now order =>
    match p.writer with
    | .saving last =>
      let limited := p.store.perform { call := .snapshot, clock := { added := now, limited := now } }
      if newestFirst (limited.store.items.map ActivityItem.header) order then
        some { p with
          store := limited.store
          dirty := p.dirty || p.notifies limited.updates
          writer := .writing (collectSnapshotPayloads limited.store order) last }
      else none
    | _ => none
  | .relock =>
    match p.writer with
    | .returning => some p.loopTop
    | _ => none
  | .mutate event =>
    let call := p.store.perform event
    some { p with store := call.store, pending := if p.notifies call.updates then p.pending + 1 else p.pending }
  | .notify => if p.pending = 0 then none else some { p.activityDirtyWatcher with pending := p.pending - 1 }

end AppProcess

/-- The phone: the extension's inbox, the snapshot file, and the process of the app while it lives. -/
structure Phone where
  inbox : Inbox := []
  snapshot : SnapshotFile := none
  process : Option AppProcess := none
  deriving DecidableEq

inductive PhoneStep where
  | stash (share : SharePayload) (stamp : OriginStamp) (faults : SaveFaults)
  | launch (limits : ActivityLimits)
  | terminate
  | app (step : AppStep)
  | read (faults : LoadFaults)
  | ingest (entries : List InboxName)
  | sweep (failed : Bool)
  | load (faults : LoadFaults)
  | removeFile (failed : Bool)
  | saveWrite (succeeded : Bool)

namespace Phone

def stash (C : Codec) (m : Phone) (share : SharePayload) (stamp : OriginStamp) (faults : SaveFaults) : Bool × Inbox :=
  match payloadFromSharePayload C share with
  | none => (false, m.inbox)
  | some built => saveInboxItemFile m.inbox (built.stampOrigin stamp) faults

def step (C : Codec) (m : Phone) : PhoneStep → Option Phone
  | .stash share stamp faults => some { m with inbox := (m.stash C share stamp faults).2 }
  | .launch limits =>
    match m.process with
    | none => some { m with process := some { store := { limits := limits } } }
    | some _ => none
  | .terminate => m.process.map (fun _ => { m with process := none })
  | .app step => m.process.bind (fun p => (p.step step).map (fun next => { m with process := some next }))
  | .read faults =>
    m.process.bind (fun p =>
      match p.bridge with
      | .loading =>
        let file := loadSnapshotFile m.snapshot faults
        some { m with snapshot := file.2, process := some { p with bridge := .applying file.1 false } }
      | _ => none)
  -- the inbox is drained behind each start; a listing that fails is empty
  | .ingest entries =>
    m.process.bind (fun p =>
      match p.bridge with
      | .idle =>
        if p.watcherArmed ∧ entries.all (fun name => (m.inbox.find name).isSome) then
          some { m with process := some { p with bridge := .ingesting entries } }
        else none
      | _ => none)
  | .sweep failed =>
    m.process.bind (fun p =>
      match p.bridge with
      | .ingesting (name :: rest) =>
        if name.suffix = .bin then none
        else
          some { m with
            inbox := if failed then m.inbox else m.inbox.remove name
            process := some { p with bridge := .ingesting rest } }
      | _ => none)
  | .load faults =>
    m.process.bind (fun p =>
      match p.bridge with
      | .ingesting (name :: rest) =>
        if name.suffix = .bin then
          let file := loadInboxItemFile m.inbox name.guid faults
          some { m with
            inbox := file.2
            process := some { p with
              bridge := match file.1 with
                | some payload => .adding name.guid (clearTransportFlags payload) rest
                | none => .removing name.guid rest } }
        else none
      | _ => none)
  | .removeFile failed =>
    m.process.bind (fun p =>
      match p.bridge with
      | .removing guid rest =>
        some { m with
          inbox := if failed then m.inbox else m.inbox.remove { suffix := .bin, guid := guid }
          process := some { p with bridge := .ingesting rest } }
      | _ => none)
  | .saveWrite succeeded =>
    m.process.bind (fun p =>
      match p.writer with
      | .writing payloads last =>
        some { m with
          snapshot := if succeeded then some payloads else m.snapshot
          process := some { p with writer := if last then .absent else .returning } }
      | _ => none)

end Phone

end ClippModel.Clipboard

namespace ClippProof.Clipboard

open ClippModel.Persistence ClippModel.Persistence.SealedSnapshot ClippModel.Clipboard
  ClippModel.Clipboard.ClipboardActivityStore ClippModel.Clipboard.ClipboardPersistence ClippProof.Persistence

variable {p next : AppProcess} {label : AppStep}

def withCall (p : AppProcess) (event : Event) (bridge : BridgePc) : AppProcess :=
  { p with store := (p.store.perform event).store, bridge := bridge }

def addEvent (payload : ClipboardPayload) (clock : ActivityClock) : Event := { call := .add payload, clock := clock }
def snapshotEvent (now : Int) : Event := { call := .snapshot, clock := { added := now, limited := now } }

/-- The steps of the process, one rule for each way the source goes on; those of the loop of the writer that are not
    a save are told apart by where they lead only. -/
inductive AppTakes (p : AppProcess) : AppStep → AppProcess → Prop where
  | refused (label : AppStep) : label = .start ∨ label = .stop → AppTakes p label p
  | start : p.bridge = .idle → p.running = false → AppTakes p .start { p with bridge := .loading }
  | apply (clock : ActivityClock) (payload : ClipboardPayload) (rest : List ClipboardPayload) :
      p.bridge = .applying (payload :: rest) false →
      AppTakes p (.apply clock) (withCall p (addEvent payload clock)
        (.applying rest (p.notifies (p.store.perform (addEvent payload clock)).updates)))
  | notifyApplied (rest : List ClipboardPayload) : p.bridge = .applying rest true →
      AppTakes p .notifyApplied { p.activityDirtyWatcher with bridge := .applying rest false }
  | loaded : p.bridge = .applying [] false → AppTakes p .loaded { p with bridge := .arming }
  | arm : p.bridge = .arming → AppTakes p .arm { p with
      watcherArmed := true, running := true, stop := false, writer := .waiting, bridge := .idle }
  | addNotifying (clock : ActivityClock) (guid : Guid) (payload : ClipboardPayload) (entries : List InboxName) :
      p.bridge = .adding guid payload entries →
      p.notifies (p.store.perform (addEvent payload clock)).updates = true →
      AppTakes p (.add clock) (withCall p (addEvent payload clock) (.notifying guid entries))
  | addSilent (clock : ActivityClock) (guid : Guid) (payload : ClipboardPayload) (entries : List InboxName) :
      p.bridge = .adding guid payload entries →
      p.notifies (p.store.perform (addEvent payload clock)).updates = false →
      AppTakes p (.add clock) (withCall p (addEvent payload clock) (.removing guid entries))
  | notifyAdded (guid : Guid) (entries : List InboxName) : p.bridge = .notifying guid entries →
      AppTakes p .notifyAdded { p.activityDirtyWatcher with bridge := .removing guid entries }
  | ingested : p.bridge = .ingesting [] → AppTakes p .ingested { p with bridge := .idle }
  | stop : p.main = .idle → p.running = true → AppTakes p .stop { p with main := .stopping }
  | halt : p.main = .stopping → AppTakes p .halt { p with stop := true, main := .joining }
  | join : p.main = .joining → p.writer = .absent → AppTakes p .join { p with running := false, main := .idle }
  | loopTop (label : AppStep) (writer : ActivityWriterPc) : label = .wake ∨ label = .relock →
      p.writer = .waiting ∨ p.writer = .returning →
      writer = .absent ∨ writer = .waiting ∨ writer = .debouncing ∨ writer = .saving true →
      AppTakes p label { p with writer := writer }
  | debounced : p.writer = .debouncing → AppTakes p .debounced { p with dirty := false, writer := .saving false }
  | saveSnapshot (now : Int) (order : List ClipboardActivityItemHeader) (last : Bool) : p.writer = .saving last →
      AppTakes p (.saveSnapshot now order) { p with
        store := (p.store.perform (snapshotEvent now)).store
        dirty := p.dirty || p.notifies (p.store.perform (snapshotEvent now)).updates
        writer := .writing (collectSnapshotPayloads (p.store.perform (snapshotEvent now)).store order) last }
  | mutate (event : Event) : AppTakes p (.mutate event) { p with
      store := (p.store.perform event).store
      pending := if p.notifies (p.store.perform event).updates then p.pending + 1 else p.pending }
  | notify : 0 < p.pending → AppTakes p .notify { p.activityDirtyWatcher with pending := p.pending - 1 }

theorem leaveLoop_takes (call : label = .wake ∨ label = .relock) (top : p.writer = .waiting ∨ p.writer = .returning) :
    AppTakes p label p.leaveLoop := by
  unfold AppProcess.leaveLoop
  split_ifs
  · exact .loopTop label _ call top (.inr (.inr (.inr rfl)))
  · exact .loopTop label _ call top (.inl rfl)

theorem bridge_takes (call : label = .start ∨ (∃ clock, label = .apply clock) ∨ label = .notifyApplied ∨
      label = .loaded ∨ label = .arm ∨ (∃ clock, label = .add clock) ∨ label = .notifyAdded ∨ label = .ingested)
    (taken : p.step label = some next) : AppTakes p label next := by
  rcases call with rfl | ⟨clock, rfl⟩ | rfl | rfl | rfl | ⟨clock, rfl⟩ | rfl | rfl <;>
    simp only [AppProcess.step] at taken <;> split at taken <;> cases taken
  · rename_i at_
    split_ifs with running
    · exact .refused _ (.inl rfl)
    · exact .start at_ (by simpa using running)
  · exact .apply clock _ _ ‹_›
  · exact .notifyApplied _ ‹_›
  · exact .loaded ‹_›
  · exact .arm ‹_›
  · rename_i at_
    split_ifs with notified
    · exact .addNotifying clock _ _ _ at_ notified
    · exact .addSilent clock _ _ _ at_ (Bool.eq_false_iff.mpr notified)
  · exact .notifyAdded _ _ ‹_›
  · exact .ingested ‹_›

theorem main_takes (call : label = .stop ∨ label = .halt ∨ label = .join) (taken : p.step label = some next) :
    AppTakes p label next := by
  rcases call with rfl | rfl | rfl <;> simp only [AppProcess.step] at taken <;> split at taken <;> cases taken
  · rename_i at_
    split_ifs with running
    · exact .stop at_ running
    · exact .refused _ (.inr rfl)
  · exact .halt ‹_›
  · exact .join ‹_› ‹_›

theorem writer_takes (call : label = .wake ∨ label = .debounced ∨ label = .relock)
    (taken : p.step label = some next) : AppTakes p label next := by
  rcases call with rfl | rfl | rfl <;> simp only [AppProcess.step] at taken <;> split at taken <;>
    try cases taken
  · rename_i at_
    split_ifs at taken with stopped dirty <;> cases taken
    · exact leaveLoop_takes (.inl rfl) (.inl at_)
    · exact .loopTop _ _ (.inl rfl) (.inl at_) (.inr (.inr (.inl rfl)))
  · exact .debounced ‹_›
  · rename_i at_
    unfold AppProcess.loopTop
    split_ifs with stopped dirty
    · exact leaveLoop_takes (.inr rfl) (.inr at_)
    · exact .loopTop _ _ (.inr rfl) (.inr at_) (.inr (.inr (.inl rfl)))
    · exact .loopTop _ _ (.inr rfl) (.inr at_) (.inr (.inl rfl))

theorem takes_of_appStep (taken : p.step label = some next) : AppTakes p label next := by
  cases label with
  | start => exact bridge_takes (.inl rfl) taken
  | apply clock => exact bridge_takes (.inr (.inl ⟨clock, rfl⟩)) taken
  | notifyApplied => exact bridge_takes (.inr (.inr (.inl rfl))) taken
  | loaded => exact bridge_takes (by simp) taken
  | arm => exact bridge_takes (by simp) taken
  | add clock => exact bridge_takes (by simp) taken
  | notifyAdded => exact bridge_takes (by simp) taken
  | ingested => exact bridge_takes (by simp) taken
  | stop => exact main_takes (.inl rfl) taken
  | halt => exact main_takes (.inr (.inl rfl)) taken
  | join => exact main_takes (.inr (.inr rfl)) taken
  | wake => exact writer_takes (.inl rfl) taken
  | debounced => exact writer_takes (.inr (.inl rfl)) taken
  | relock => exact writer_takes (.inr (.inr rfl)) taken
  | saveSnapshot now order =>
    simp only [AppProcess.step] at taken
    split at taken
    · rename_i last at_
      split_ifs at taken
      cases taken
      exact .saveSnapshot now order last at_
    · cases taken
  | mutate event =>
    cases taken
    exact .mutate event
  | notify =>
    simp only [AppProcess.step] at taken
    split_ifs at taken with none
    cases taken
    exact .notify (Nat.pos_of_ne_zero none)

end ClippProof.Clipboard
