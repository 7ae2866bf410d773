import Clipp.Clipboard.ShareInbox

open Foundation

namespace ClippProof.Clipboard

open ClippModel.Persistence ClippModel.Persistence.SealedSnapshot ClippModel.Clipboard
  ClippModel.Clipboard.ClipboardPayload ClippModel.Clipboard.ClipboardActivityStore
  ClippModel.Clipboard.ClipboardPersistence

/-- Among the payloads is one of the event that a store takes. -/
def Carries (payloads : List ClipboardPayload) (guid : Guid) : Prop :=
  ∃ p ∈ payloads, p.meta_.formatId ≠ clippFormatNone ∧ p.meta_.eventGuid = guid

instance carriesDecidable (payloads : List ClipboardPayload) (guid : Guid) : Decidable (Carries payloads guid) :=
  inferInstanceAs (Decidable (∃ p ∈ payloads, p.meta_.formatId ≠ clippFormatNone ∧ p.meta_.eventGuid = guid))

def payloadsOf (s : ClipboardActivityStore) : List ClipboardPayload := s.items.map ActivityItem.payload

def snapshotPayloads (m : Phone) : List ClipboardPayload := m.snapshot.getD []

def InInbox (m : Phone) (guid : Guid) : Prop := m.inbox.find { suffix := .bin, guid := guid } ≠ none

instance inInboxDecidable (m : Phone) (guid : Guid) : Decidable (InInbox m guid) :=
  inferInstanceAs (Decidable (_ ≠ none))

def awaits : BridgePc → Bool
  | .applying _ notifying => notifying
  | .notifying _ _ => true
  | _ => false

/-- A further write is marked, or a watcher is about to mark it. -/
def Outstanding (p : AppProcess) : Prop := p.dirty = true ∨ 0 < p.pending ∨ awaits p.bridge = true

instance outstandingDecidable (p : AppProcess) : Decidable (Outstanding p) :=
  inferInstanceAs (Decidable (_ ∨ _ ∨ _))

def Taken (p : AppProcess) (guid : Guid) : Prop :=
  match p.writer with
  | .saving _ => True
  | .writing payloads _ => Carries payloads guid
  | _ => False

/-- The process holds the item and is going to write it. -/
def WillWrite (p : AppProcess) (guid : Guid) : Prop := Carries (payloadsOf p.store) guid ∧ (Outstanding p ∨ Taken p guid)

def brought (p : AppProcess) : AppStep → List ClipboardPayload
  | .apply _ =>
    match p.bridge with
    | .applying (payload :: _) _ => [payload]
    | _ => []
  | .add _ =>
    match p.bridge with
    | .adding _ payload _ => [payload]
    | _ => []
  | .mutate event =>
    match event.call with
    | .add payload => [payload]
    | _ => []
  | _ => []

/-- What is left of the store behind a step: to save the budget counts as well. -/
def keptBy (next : AppProcess) : AppStep → List ClipboardPayload
  | .saveSnapshot _ _ =>
    match next.writer with
    | .writing payloads _ => payloads
    | _ => []
  | _ => payloadsOf next.store

def departed (p next : AppProcess) (step : AppStep) : List Guid :=
  let before := payloadsOf p.store ++ brought p step
  (before.map (fun q => q.meta_.eventGuid)).filter (fun guid =>
    decide (Carries before guid) && !decide (Carries (keptBy next step) guid))

instance recordedDecidable (s : ClipboardActivityStore) (p : ClipboardPayload) : Decidable (Recorded s p) :=
  inferInstanceAs (Decidable (_ ∨ ∃ item, existing s.items p = some item ∧ _))

/-- The item is in the store, and in the snapshot file or on its way there. -/
def Safe (m : Phone) (p : AppProcess) (guid : Guid) : Prop :=
  Carries (payloadsOf p.store) guid ∧ (Carries (snapshotPayloads m) guid ∨ Outstanding p ∨ Taken p guid)

/-- The share is in the inbox, and its file is not the one that is removed next. -/
def Waits (m : Phone) (p : AppProcess) (guid : Guid) : Prop :=
  InInbox m guid ∧ ∀ entries, p.bridge ≠ .removing guid entries

/-- What there is of the share besides what the step discards. -/
def Backed (m : Phone) (guid : Guid) (label : PhoneStep) : Prop :=
  match label, m.process with
  | .terminate, some _ => InInbox m guid ∨ Carries (snapshotPayloads m) guid
  | .read faults, some p => Carries (snapshotPayloads m) guid →
      Carries ((loadSnapshotFile m.snapshot faults).2.getD []) guid ∨ InInbox m guid ∨
        Carries (payloadsOf p.store) guid ∧ Outstanding p
  | .load faults, some p =>
    match p.bridge with
    | .ingesting (name :: _) =>
      name.guid = guid → Carries (loadInboxItemFile m.inbox guid faults).1.toList guid ∨ Safe m p guid
    | _ => True
  | .app (.add _), some p =>
    match p.bridge with
    | .adding name payload _ => name = guid → ¬ Recorded p.store payload ∨ Safe m p guid
    | _ => True
  | .saveWrite true, some p =>
    Carries (snapshotPayloads m) guid → Carries (payloadsOf p.store) guid ∨ Waits m p guid
  | .saveWrite false, some p =>
    Carries (payloadsOf p.store) guid → Outstanding p ∨ Carries (snapshotPayloads m) guid ∨ Waits m p guid
  | _, _ => True

variable {p next : AppProcess} {label : AppStep} {guid : Guid} {snap left right payloads : List ClipboardPayload}
  {event : Event} {q : ClipboardPayload}

theorem carries_append : Carries (left ++ right) guid ↔ Carries left guid ∨ Carries right guid := by
  constructor
  · rintro ⟨q, member, stored, same⟩
    rcases List.mem_append.mp member with first | second
    · exact .inl ⟨q, first, stored, same⟩
    · exact .inr ⟨q, second, stored, same⟩
  · rintro (⟨q, member, stored, same⟩ | ⟨q, member, stored, same⟩)
    · exact ⟨q, List.mem_append_left _ member, stored, same⟩
    · exact ⟨q, List.mem_append_right _ member, stored, same⟩

theorem Carries.mono (carries : Carries left guid) (sub : ∀ q ∈ left, q ∈ right) : Carries right guid := by
  obtain ⟨q, member, stored, same⟩ := carries
  exact ⟨q, sub q member, stored, same⟩

theorem stays_of_present (present : guid ∉ departed p next label)
    (before : Carries (payloadsOf p.store ++ brought p label) guid) : Carries (keptBy next label) guid := by
  by_contra absent
  obtain ⟨q, member, stored, same⟩ := before
  apply present
  apply List.mem_filter.mpr
  refine ⟨List.mem_map.mpr ⟨q, member, same⟩, ?_⟩
  rw [Bool.and_eq_true, Bool.not_eq_true']
  exact ⟨decide_eq_true ⟨q, member, stored, same⟩, decide_eq_false absent⟩

theorem collectWithin_mem {s : ClipboardActivityStore} {budget : Nat} {headers : List ClipboardActivityItemHeader}
    (collected : q ∈ collectWithin s budget headers) : q ∈ payloadsOf s := by
  induction headers generalizing budget with
  | nil => cases collected
  | cons header rest ih =>
    cases found : s.payloadReference header.id with
    | none =>
      simp only [collectWithin, found] at collected
      exact ih collected
    | some payload =>
      simp only [collectWithin, found] at collected
      split_ifs at collected with large
      · exact ih collected
      · rcases List.mem_cons.mp collected with rfl | later
        · obtain ⟨item, first, rfl⟩ := Option.map_eq_some_iff.mp found
          exact List.mem_map_of_mem (List.mem_of_find?_eq_some first)
        · exact ih later

theorem collected_mem {s : ClipboardActivityStore} {order : List ClipboardActivityItemHeader}
    (collected : q ∈ collectSnapshotPayloads s order) : q ∈ payloadsOf s := collectWithin_mem collected

theorem perform_silent (s : ClipboardActivityStore) (event : Event) (silent : (s.perform event).updates = []) :
    ∀ q ∈ payloadsOf (s.perform event).store, q ∈ payloadsOf s := by
  have sub : (s.perform event).store.items.Sublist s.items := by
    cases perform_changed s event with
    | fewer rest _ _ => exact rest
    | added q header call stored absent _ _ next =>
      obtain ⟨_, clock⟩ := event
      cases call
      simp only [perform, addItem, stored, if_false, absent, place] at silent
      cases silent
    | moved q item header call stored found newer _ _ _ =>
      obtain ⟨_, clock⟩ := event
      cases call
      simp only [perform, addItem, stored, if_false, found, not_le.mpr newer, place] at silent
      cases silent
  exact (sub.map ActivityItem.payload).subset

theorem limited_mem {s : ClipboardActivityStore} {now : Int}
    (member : q ∈ payloadsOf (s.perform (snapshotEvent now)).store) : q ∈ payloadsOf s :=
  (perform_sourced s (snapshotEvent now) q member).resolve_right (by rintro ⟨⟩)

theorem recorded_of_silent {s : ClipboardActivityStore} {clock : ActivityClock}
    (silent : (s.perform (addEvent q clock)).updates = []) : Recorded s q := by
  by_contra fresh
  have stored : q.meta_.formatId ≠ clippFormatNone := fun none => fresh (.inl none)
  cases found : existing s.items q with
  | none =>
    simp only [addEvent, perform, addItem, stored, if_false, found, place] at silent
    cases silent
  | some item =>
    have newer : ¬ q.meta_.timestamp ≤ item.payload.meta_.timestamp := fun le => fresh (.inr ⟨item, found, le⟩)
    simp only [addEvent, perform, addItem, stored, if_false, found, newer, place] at silent
    cases silent

def Starting : BridgePc → Prop
  | .loading => True
  | .applying _ _ => True
  | .arming => True
  | _ => False

def Ingesting : BridgePc → Prop
  | .ingesting _ => True
  | .adding _ _ _ => True
  | .notifying _ _ => True
  | .removing _ _ => True
  | _ => False

structure Regular (p : AppProcess) : Prop where
  good : WellFormed p.store
  notified : awaits p.bridge = true ∨ 0 < p.pending → p.watcherArmed = true
  working : p.writer ≠ .absent → p.running = true ∧ p.watcherArmed = true
  starting : Starting p.bridge → p.running = false
  ingesting : Ingesting p.bridge → p.watcherArmed = true

/-- The item is in the snapshot file, or the process is going to write it. -/
def Secure (snap : List ClipboardPayload) (p : AppProcess) (guid : Guid) : Prop :=
  Carries snap guid ∨ WillWrite p guid

/-- What the writer does not have with it is marked again. -/
def Covers (p : AppProcess) (guid : Guid) : Prop :=
  ∀ payloads last, p.writer = .writing payloads last → Carries (payloadsOf p.store) guid →
    Carries payloads guid ∨ Outstanding p

def Delivered (p : AppProcess) (guid : Guid) : Prop :=
  match p.bridge with
  | .adding name payload _ => name = guid → Carries [payload] guid ∨ Carries (payloadsOf p.store) guid
  | .notifying name _ => name = guid → Carries (payloadsOf p.store) guid
  | _ => True

theorem Regular.step (regular : Regular p) (takes : AppTakes p label next) : Regular next := by
  have good : ∀ event : Event, WellFormed (p.store.perform event).store :=
    fun event => regular.good.step (perform_changed p.store event)
  cases takes with
  | refused _ _ => exact regular
  | start idle stopped =>
    refine ⟨regular.good, fun told => regular.notified ?_, regular.working, fun _ => stopped, nofun⟩
    exact told.imp_left nofun
  | apply clock payload rest at_ =>
    have stopped := regular.starting (by rw [at_]; trivial)
    refine ⟨good _, fun told => ?_, regular.working, fun _ => stopped, nofun⟩
    rcases told with notifying | pending
    · exact (Bool.and_eq_true_iff.mp notifying).1
    · exact regular.notified (.inr pending)
  | notifyApplied rest at_ =>
    have stopped := regular.starting (by rw [at_]; trivial)
    exact ⟨regular.good, fun _ => regular.notified (.inl (by rw [at_]; rfl)), regular.working, fun _ => stopped, nofun⟩
  | loaded at_ =>
    have stopped := regular.starting (by rw [at_]; trivial)
    exact ⟨regular.good, fun told => regular.notified (told.imp_left nofun), regular.working, fun _ => stopped, nofun⟩
  | arm at_ => exact ⟨regular.good, fun _ => rfl, fun _ => ⟨rfl, rfl⟩, nofun, nofun⟩
  | addNotifying clock name payload entries at_ told =>
    have armed := regular.ingesting (by rw [at_]; trivial)
    exact ⟨good _, fun _ => armed, regular.working, nofun, fun _ => armed⟩
  | addSilent clock name payload entries at_ silent =>
    have armed := regular.ingesting (by rw [at_]; trivial)
    exact ⟨good _, fun _ => armed, regular.working, nofun, fun _ => armed⟩
  | notifyAdded name entries at_ =>
    have armed := regular.ingesting (by rw [at_]; trivial)
    exact ⟨regular.good, fun _ => armed, regular.working, nofun, fun _ => armed⟩
  | ingested at_ =>
    have armed := regular.ingesting (by rw [at_]; trivial)
    exact ⟨regular.good, fun _ => armed, regular.working, nofun, nofun⟩
  | stop _ _ => exact ⟨regular.good, regular.notified, regular.working, regular.starting, regular.ingesting⟩
  | halt _ => exact ⟨regular.good, regular.notified, regular.working, regular.starting, regular.ingesting⟩
  | join _ absent => exact ⟨regular.good, regular.notified, fun there => absurd absent there, fun _ => rfl, regular.ingesting⟩
  | loopTop _ writer _ top _ =>
    have working := regular.working (by rcases top with at_ | at_ <;> rw [at_] <;> nofun)
    exact ⟨regular.good, regular.notified, fun _ => working, regular.starting, regular.ingesting⟩
  | debounced at_ =>
    have working := regular.working (by rw [at_]; nofun)
    exact ⟨regular.good, regular.notified, fun _ => working, regular.starting, regular.ingesting⟩
  | saveSnapshot now order last at_ =>
    have working := regular.working (by rw [at_]; nofun)
    exact ⟨good _, regular.notified, fun _ => working, regular.starting, regular.ingesting⟩
  | mutate event =>
    refine ⟨good _, fun told => ?_, regular.working, regular.starting, regular.ingesting⟩
    rcases told with notifying | pending
    · exact regular.notified (.inl notifying)
    · by_cases updated : p.notifies (p.store.perform event).updates = true
      · exact (Bool.and_eq_true_iff.mp updated).1
      · rw [if_neg updated] at pending
        exact regular.notified (.inr pending)
  | notify some =>
    exact ⟨regular.good, fun _ => regular.notified (.inr some), regular.working, regular.starting, regular.ingesting⟩

theorem not_carries_nil : ¬ Carries [] guid := by
  rintro ⟨q, none, -⟩
  cases none

theorem outstanding_of_watcher (armed : p.watcherArmed = true) : p.activityDirtyWatcher.dirty = true := by
  rw [AppProcess.activityDirtyWatcher, armed]
  exact Bool.or_true _

theorem outstanding_of_unawaited (quiet : awaits p.bridge = false) (dirty : p.dirty = true → next.dirty = true)
    (pending : 0 < p.pending → 0 < next.pending) : Outstanding p → Outstanding next := by
  intro outstanding
  rcases outstanding with marked | waiting | awaited
  · exact .inl (dirty marked)
  · exact .inr (.inl (pending waiting))
  · cases quiet.symm.trans awaited

theorem mark_of_unawaited (quiet : awaits p.bridge = false) (dirty : p.dirty = true → next.dirty = true)
    (pending : 0 < p.pending → 0 < next.pending) (taken : Taken p guid → Taken next guid) :
    Outstanding p ∨ Taken p guid → Outstanding next ∨ Taken next guid :=
  Or.imp (outstanding_of_unawaited quiet dirty pending) taken

theorem keptBy_stored (takes : AppTakes p label next) (kept : Carries (keptBy next label) guid) :
    Carries (payloadsOf next.store) guid := by
  cases takes with
  | saveSnapshot now order last at_ => exact kept.mono (fun q collected => collected_mem collected)
  | refused _ call => rcases call with rfl | rfl <;> exact kept
  | loopTop _ _ call _ _ => rcases call with rfl | rfl <;> exact kept
  | _ => exact kept

theorem held_step (takes : AppTakes p label next) (present : guid ∉ departed p next label)
    (before : Carries (payloadsOf p.store ++ brought p label) guid) : Carries (payloadsOf next.store) guid :=
  keptBy_stored takes (stays_of_present present before)

theorem sourced_step (takes : AppTakes p label next) (held : Carries (payloadsOf next.store) guid) :
    Carries (payloadsOf p.store ++ brought p label) guid := by
  have performed : ∀ event : Event, (∀ q, event.call = .add q → q ∈ brought p label) →
      Carries (payloadsOf (p.store.perform event).store) guid →
      Carries (payloadsOf p.store ++ brought p label) guid := by
    intro event given held
    refine held.mono (fun q member => ?_)
    rcases perform_sourced p.store event q member with old | call
    · exact List.mem_append_left _ old
    · exact List.mem_append_right _ (given q call)
  cases takes with
  | apply clock payload rest at_ =>
    refine performed (addEvent payload clock) (fun q call => ?_) held
    cases call
    simp only [brought, at_, List.mem_singleton]
  | addNotifying clock name payload entries at_ _ =>
    refine performed (addEvent payload clock) (fun q call => ?_) held
    cases call
    simp only [brought, at_, List.mem_singleton]
  | addSilent clock name payload entries at_ _ =>
    refine performed (addEvent payload clock) (fun q call => ?_) held
    cases call
    simp only [brought, at_, List.mem_singleton]
  | saveSnapshot now order last at_ => exact performed (snapshotEvent now) (fun q call => by cases call) held
  | mutate event =>
    refine performed event (fun q call => ?_) held
    simp only [brought, call, List.mem_singleton]
  | _ => exact carries_append.mpr (.inl held)

/-- What is being written was collected by this step, from the store, or before. -/
theorem writing_step {last : Bool} (takes : AppTakes p label next) (present : guid ∉ departed p next label)
    (writing : next.writer = .writing payloads last) :
    p.writer = .writing payloads last ∧ (∀ now order, label ≠ .saveSnapshot now order) ∨
      (∃ now order, label = .saveSnapshot now order) ∧ (Carries (payloadsOf p.store) guid ↔ Carries payloads guid) := by
  have kept : Carries (payloadsOf p.store) guid → Carries (keptBy next label) guid :=
    fun held => stays_of_present present (carries_append.mpr (.inl held))
  cases takes with
  | saveSnapshot now order here at_ =>
    cases writing
    refine .inr ⟨⟨now, order, rfl⟩, kept, fun collected => ?_⟩
    exact collected.mono (fun q member => limited_mem (collected_mem member))
  | loopTop _ writer _ _ target => rcases target with rfl | rfl | rfl | rfl <;> cases writing
  | arm _ => cases writing
  | debounced _ => cases writing
  | refused _ call =>
    refine .inl ⟨writing, fun now order same => ?_⟩
    rcases call with rfl | rfl <;> cases same
  | _ => exact .inl ⟨writing, fun _ _ same => by cases same⟩

theorem outstanding_notified (regular : Regular p) (told : awaits p.bridge = true ∨ 0 < p.pending) :
    p.activityDirtyWatcher.dirty = true := outstanding_of_watcher (regular.notified told)

/-- A mark is taken away only by the writer, which then takes the item along. -/
theorem marked_step (regular : Regular p) (takes : AppTakes p label next) (present : guid ∉ departed p next label)
    (held : Carries (payloadsOf p.store) guid) (marked : Outstanding p ∨ Taken p guid) :
    Outstanding next ∨ Taken next guid := by
  have quiet : awaits p.bridge = false → (p.dirty = true → next.dirty = true) → (0 < p.pending → 0 < next.pending) →
      (Taken p guid → Taken next guid) → Outstanding next ∨ Taken next guid :=
    fun still dirty pending taken => mark_of_unawaited still dirty pending taken marked
  cases takes with
  | refused _ _ => exact marked
  | start idle _ => exact quiet (by rw [idle]; rfl) id id id
  | apply _ _ _ at_ => exact quiet (by rw [at_]; rfl) id id id
  | notifyApplied _ at_ => exact .inl (.inl (outstanding_notified regular (.inl (by rw [at_]; rfl))))
  | loaded at_ => exact quiet (by rw [at_]; rfl) id id id
  | arm at_ =>
    have absent : p.writer = .absent := by
      by_contra there
      have running := (regular.working there).1
      rw [regular.starting (by rw [at_]; trivial)] at running
      cases running
    apply quiet (by rw [at_]; rfl) id id
    rw [Taken, absent]
    exact False.elim
  | addNotifying _ _ _ _ _ _ => exact .inl (.inr (.inr rfl))
  | addSilent _ _ _ _ at_ _ => exact quiet (by rw [at_]; rfl) id id id
  | notifyAdded _ _ at_ => exact .inl (.inl (outstanding_notified regular (.inl (by rw [at_]; rfl))))
  | ingested at_ => exact quiet (by rw [at_]; rfl) id id id
  | stop _ _ => exact marked
  | halt _ => exact marked
  | join _ _ => exact marked
  | loopTop _ writer _ top _ =>
    refine marked.imp id (fun taken => ?_)
    rcases top with at_ | at_ <;> rw [Taken, at_] at taken <;> cases taken
  | debounced _ => exact .inr trivial
  | saveSnapshot now order last at_ => exact .inr (stays_of_present present (carries_append.mpr (.inl held)))
  | mutate event =>
    apply marked.imp_left
    rintro (dirty | pending | told)
    · exact .inl dirty
    · refine .inr (.inl ?_)
      show 0 < if p.notifies (p.store.perform event).updates then p.pending + 1 else p.pending
      split_ifs <;> omega
    · exact .inr (.inr told)
  | notify some => exact .inl (.inl (outstanding_notified regular (.inr some)))

theorem Secure.step (regular : Regular p) (takes : AppTakes p label next) (present : guid ∉ departed p next label)
    (secure : Secure snap p guid) : Secure snap next guid := by
  refine secure.imp_right (fun will => ?_)
  exact ⟨held_step takes present (carries_append.mpr (.inl will.1)), marked_step regular takes present will.1 will.2⟩

theorem Regular.absent (regular : Regular p) (stopped : p.running = false) : p.writer = .absent := by
  by_contra there
  rw [(regular.working there).1] at stopped
  cases stopped

theorem Covers.mono (covers : Covers p guid) (same : next.writer = p.writer)
    (held : Carries (payloadsOf next.store) guid → Carries (payloadsOf p.store) guid ∨ Outstanding next)
    (marked : Outstanding p → Outstanding next) : Covers next guid := by
  intro payloads last at_ carried
  rcases held carried with before | outstanding
  · exact (covers payloads last (same ▸ at_) before).imp_right marked
  · exact .inr outstanding

theorem covers_of_ne (other : ∀ payloads last, p.writer ≠ .writing payloads last) : Covers p guid :=
  fun payloads last at_ => absurd at_ (other payloads last)

theorem covers_of_absent (absent : p.writer = .absent) : Covers p guid :=
  covers_of_ne (fun payloads last writing => by cases absent.symm.trans writing)

theorem silent_of_armed {updates : List ClipboardActivityUpdate} (armed : p.watcherArmed = true)
    (silent : ¬ p.notifies updates = true) : updates = [] := by
  simpa [AppProcess.notifies, armed] using silent

theorem Covers.step (regular : Regular p) (takes : AppTakes p label next) (present : guid ∉ departed p next label)
    (covers : Covers p guid) : Covers next guid := by
  have kept : Carries (payloadsOf p.store) guid → Carries (keptBy next label) guid :=
    fun held => stays_of_present present (carries_append.mpr (.inl held))
  have back : ∀ event, (p.store.perform event).updates = [] →
      Carries (payloadsOf (p.store.perform event).store) guid → Carries (payloadsOf p.store) guid :=
    fun event silent held => held.mono (perform_silent p.store event silent)
  cases takes with
  | refused _ _ => exact covers
  | start idle stopped => exact covers_of_absent (regular.absent stopped)
  | apply clock payload rest at_ => exact covers_of_absent (regular.absent (regular.starting (by rw [at_]; trivial)))
  | notifyApplied rest at_ => exact covers_of_absent (regular.absent (regular.starting (by rw [at_]; trivial)))
  | loaded at_ => exact covers_of_absent (regular.absent (regular.starting (by rw [at_]; trivial)))
  | arm _ => exact covers_of_ne nofun
  | addNotifying clock name payload entries at_ told =>
    exact covers.mono rfl (fun _ => .inr (.inr (.inr rfl))) (fun _ => .inr (.inr rfl))
  | addSilent clock name payload entries at_ silent =>
    have armed := regular.ingesting (by rw [at_]; trivial)
    apply covers.mono
    · rfl
    · exact fun held => .inl (back _ (silent_of_armed armed (Bool.eq_false_iff.mp silent)) held)
    · exact outstanding_of_unawaited (by rw [at_]; rfl) id id
  | notifyAdded name entries at_ =>
    have armed := regular.ingesting (by rw [at_]; trivial)
    exact covers.mono rfl .inl (fun _ => .inl (outstanding_of_watcher armed))
  | ingested at_ =>
    apply covers.mono
    · rfl
    · exact .inl
    · exact outstanding_of_unawaited (by rw [at_]; rfl) id id
  | stop _ _ => exact covers
  | halt _ => exact covers
  | join _ _ => exact covers
  | loopTop _ writer _ _ target =>
    exact covers_of_ne (fun payloads last => by rcases target with rfl | rfl | rfl | rfl <;> nofun)
  | debounced _ => exact covers_of_ne nofun
  | saveSnapshot now order last at_ =>
    intro payloads again writing carried
    cases writing
    exact .inl (kept (carried.mono (fun q member => limited_mem member)))
  | mutate event =>
    by_cases told : p.notifies (p.store.perform event).updates = true
    · apply covers.mono
      · rfl
      · refine fun _ => .inr (.inr (.inl ?_))
        show 0 < if p.notifies (p.store.perform event).updates then p.pending + 1 else p.pending
        rw [if_pos told]
        omega
      · apply Or.imp_right
        apply Or.imp_left
        intro pending
        show 0 < if p.notifies (p.store.perform event).updates then p.pending + 1 else p.pending
        rw [if_pos told]
        omega
    · rw [if_neg told]
      by_cases absent : p.writer = .absent
      · exact covers_of_absent absent
      · have silent := silent_of_armed (regular.working absent).2 told
        exact covers.mono rfl (fun held => .inl (back event silent held)) id
  | notify some =>
    have armed := regular.notified (.inr some)
    exact covers.mono rfl .inl (fun _ => .inl (outstanding_of_watcher armed))

theorem Delivered.mono (delivered : Delivered p guid) (same : next.bridge = p.bridge)
    (store : Carries (payloadsOf p.store) guid → Carries (payloadsOf next.store) guid) : Delivered next guid := by
  rw [Delivered, same]
  cases at_ : p.bridge with
  | adding name payload entries =>
    rw [Delivered, at_] at delivered
    exact fun here => (delivered here).imp_right store
  | notifying name entries =>
    rw [Delivered, at_] at delivered
    exact fun here => store (delivered here)
  | _ => trivial

theorem Delivered.step (takes : AppTakes p label next) (present : guid ∉ departed p next label)
    (delivered : Delivered p guid) : Delivered next guid := by
  have stays := held_step takes present
  have kept : Carries (payloadsOf p.store) guid → Carries (payloadsOf next.store) guid :=
    fun held => stays (carries_append.mpr (.inl held))
  cases takes with
  | addNotifying clock name payload entries at_ _ =>
    intro here
    rw [Delivered, at_] at delivered
    apply stays
    rcases delivered here with first | held
    · exact carries_append.mpr (.inr (by simpa only [brought, at_] using first))
    · exact carries_append.mpr (.inl held)
  | saveSnapshot now order last _ => exact delivered.mono rfl kept
  | mutate event => exact delivered.mono rfl kept
  | refused _ _ => exact delivered
  | stop _ _ => exact delivered
  | halt _ => exact delivered
  | join _ _ => exact delivered
  | loopTop _ _ _ _ _ => exact delivered
  | debounced _ => exact delivered
  | notify _ => exact delivered
  | _ => trivial

/-- A file is about to be removed only with its share secure. -/
theorem removal_secure {m : Phone} (snapshot : snapshotPayloads m = snap) (running : m.process = some p)
    (regular : Regular p) (takes : AppTakes p label next) (present : guid ∉ departed p next label)
    (delivered : Delivered p guid) (backed : Backed m guid (.app label)) {entries : List InboxName}
    (removal : next.bridge = .removing guid entries) :
    p.bridge = .removing guid entries ∨ Secure snap next guid := by
  have step : Secure snap p guid → Secure snap next guid := Secure.step regular takes present
  cases takes with
  | addSilent clock name payload rest at_ silent =>
    right
    cases removal
    have armed := regular.ingesting (by rw [at_]; trivial)
    have recorded := recorded_of_silent (silent_of_armed armed (Bool.eq_false_iff.mp silent))
    simp only [Backed, running, at_] at backed
    obtain ⟨held, elsewhere⟩ := (backed trivial).resolve_left (not_not.mpr recorded)
    apply step
    rcases elsewhere with saved | will
    · exact .inl (snapshot ▸ saved)
    · exact .inr ⟨held, will⟩
  | notifyAdded name rest at_ =>
    right
    cases removal
    rw [Delivered, at_] at delivered
    have armed := regular.ingesting (by rw [at_]; trivial)
    exact .inr ⟨delivered rfl, .inl (.inl (outstanding_of_watcher armed))⟩
  | refused _ _ => exact .inl removal
  | stop _ _ => exact .inl removal
  | halt _ => exact .inl removal
  | join _ _ => exact .inl removal
  | loopTop _ _ _ _ _ => exact .inl removal
  | debounced _ => exact .inl removal
  | saveSnapshot _ _ _ _ => exact .inl removal
  | mutate _ => exact .inl removal
  | notify _ => exact .inl removal
  | start _ _ => cases removal
  | apply _ _ _ _ => cases removal
  | notifyApplied _ _ => cases removal
  | loaded _ => cases removal
  | arm _ => cases removal
  | addNotifying _ _ _ _ _ _ => cases removal
  | ingested _ => cases removal

end ClippProof.Clipboard
