import Clipp.Persistence.RuntimeSteps

open Foundation

namespace ClippProof.Persistence

open ClippModel.Registers ClippModel.Persistence SealedSnapshot

variable {next : Runtime} {label : RuntimeLabel}

/-- The runtime with what has become of the changes since the start: whether none has come since the
    writer last gave up the lock, whether a write that began after the last one has succeeded, and
    whether the final flush has attempted a write. -/
structure Session where
  runtime : Runtime
  untouched : Bool
  saved : Bool
  flushed : Bool

namespace Session

def boot (store : RegisterStore) (disk : Bytes → Option SavedFile) : Session where
  runtime := .boot store disk
  untouched := true
  saved := true
  flushed := false

def changes (m : Runtime) (op : StoreOp) : Bool := m.running && notifies m.store op

def finalWrite : WriterPc → Bool
  | .writing _ _ last => last
  | _ => false

def after (s : Session) (label : RuntimeLabel) (next : Runtime) : Session where
  runtime := next
  untouched :=
    match label with
    | .wake => true
    | .debounced => true
    | .relock => true
    | .mutate op => if changes s.runtime op then false else s.untouched
    | _ => s.untouched
  saved :=
    match label with
    | .launch => true
    | .saveWrite succeeded => s.saved || (succeeded && s.untouched)
    | .mutate op => if changes s.runtime op then false else s.saved
    | _ => s.saved
  flushed :=
    match label with
    | .launch => false
    | .saveWrite _ => s.flushed || finalWrite s.runtime.writer
    | _ => s.flushed

def step (s : Session) (label : RuntimeLabel) : Option Session :=
  (s.runtime.step label).map (s.after label)

end Session

open Session

def KeyResolved : RuntimeLabel → Prop
  | .keyChanged => False
  | .resolve result => result.isSome = true
  | _ => True

/-- When stopping returns, the changes are in a successful write or in one the final flush tried. -/
def FailedSaveRetried (ok : Session → RuntimeLabel → Prop) (store : RegisterStore)
    (disk : Bytes → Option SavedFile) : Prop :=
  ∀ (labels : List RuntimeLabel) (s stopped : Session),
    Path Session.step (fun s label => KeyResolved label ∧ ok s label) (.boot store disk) labels s →
    s.step .join = some stopped → stopped.saved = true ∨ stopped.flushed = true

/-- The changes are saved, or marked, or about to be marked. -/
def Outstanding (s : Session) : Prop := s.saved = true ∨ s.runtime.dirty = true ∨ 0 < s.runtime.pending

/-- A save outside the final flush fails only with the changes outstanding; the writer skips the final
    flush only with no unsaved change on its way to the mark; and then no further change comes. -/
def SavesFit (s : Session) : RuntimeLabel → Prop
  | .saveWrite false => finalWrite s.runtime.writer = true ∨ Outstanding s
  | .wake => s.runtime.stop = true → s.runtime.dirty = false → s.saved = true ∨ s.runtime.pending = 0
  | .relock => s.runtime.stop = true → s.runtime.dirty = false → s.saved = true ∨ s.runtime.pending = 0
  | .mutate op => s.runtime.writer = .absent → changes s.runtime op = true → s.flushed = true
  | _ => True

def Remembers (outstanding untouched done : Prop) : WriterPc → Prop
  | .absent => done
  | .saving _ last => last = true ∨ untouched ∨ outstanding
  | .writing _ _ last => last = true ∨ untouched ∨ outstanding
  | _ => outstanding

def ControlKeyed (running haveKey : Bool) : ControlPc → Prop
  | .loading _ _ => haveKey = true
  | .applying _ _ _ => haveKey = true
  | .launching => haveKey = true
  | .capturing => False
  | .flushing _ => False
  | .flushWriting _ _ => False
  | .rekeying _ _ => False
  | .swapping _ _ _ => False
  | .stopping => running = true
  | .joining => running = true
  | _ => True

structure Kept (s : Session) : Prop where
  control : ControlKeyed s.runtime.running s.runtime.haveKey s.runtime.control
  key : s.runtime.running = true → s.runtime.haveKey = true
  armed : s.runtime.running = true → s.runtime.listenerArmed = true
  kept : s.runtime.running = true →
    Remembers (Outstanding s) (s.untouched = true) (s.saved = true ∨ s.flushed = true) s.runtime.writer

theorem kept_boot (store : RegisterStore) (disk : Bytes → Option SavedFile) : Kept (.boot store disk) where
  control := trivial
  key running := by cases running
  armed running := by cases running
  kept running := by cases running

theorem Remembers.mono {outstanding outstanding' untouched untouched' done done' : Prop} {writer : WriterPc}
    (remembers : Remembers outstanding untouched done writer) (out : outstanding → outstanding')
    (fresh : untouched → untouched') (finished : done → done') :
    Remembers outstanding' untouched' done' writer := by
  cases writer with
  | absent => exact finished remembers
  | saving target last => exact Or.imp_right (Or.imp fresh out) remembers
  | writing target records last => exact Or.imp_right (Or.imp fresh out) remembers
  | _ => exact out remembers

theorem remembers_outstanding {outstanding untouched done : Prop} {writer : WriterPc} (out : outstanding)
    (finished : writer = .absent → done) : Remembers outstanding untouched done writer := by
  cases writer with
  | absent => exact finished rfl
  | saving target last => exact .inr (.inr out)
  | writing target records last => exact .inr (.inr out)
  | _ => exact out

theorem Outstanding.saved {s : Session} (outstanding : Outstanding s) (clean : s.runtime.dirty = false)
    (none : s.saved = true ∨ s.runtime.pending = 0) : s.saved = true := by
  rcases outstanding with saved | dirty | pending
  · exact saved
  · cases clean.symm.trans dirty
  · rcases none with saved | zero
    · exact saved
    · omega

theorem Kept.writer_there {s : Session} (inv : Kept s) (running : s.runtime.running = true)
    (there : s.runtime.writer = .waiting ∨ s.runtime.writer = .returning) : Outstanding s := by
  have kept := inv.kept running
  rcases there with at_ | at_ <;> rw [at_] at kept <;> exact kept

theorem waiting_of_loopTop {m : Runtime} (top : AtLoopTop m label) :
    m.writer = .waiting ∨ m.writer = .returning :=
  Or.imp And.right And.right top

theorem SavesFit.leaves {s : Session} (fits : SavesFit s label) (top : AtLoopTop s.runtime label)
    (stopped : s.runtime.stop = true) (clean : s.runtime.dirty = false) :
    s.saved = true ∨ s.runtime.pending = 0 := by
  rcases top with ⟨rfl, _⟩ | ⟨rfl, _⟩ <;> exact fits stopped clean

theorem after_loopTop {s : Session} (top : AtLoopTop s.runtime label) :
    s.after label next = { runtime := next, untouched := true, saved := s.saved, flushed := s.flushed } := by
  rcases top with ⟨rfl, _⟩ | ⟨rfl, _⟩ <;> rfl

theorem SavesFit.written {s : Session} {succeeded : Bool} (fits : SavesFit s (.saveWrite succeeded))
    (more : finalWrite s.runtime.writer = false) (unsaved : s.untouched = true ∨ Outstanding s) :
    (s.saved || (succeeded && s.untouched)) = true ∨ s.runtime.dirty = true ∨ 0 < s.runtime.pending := by
  have stay : Outstanding s →
      (s.saved || (succeeded && s.untouched)) = true ∨ s.runtime.dirty = true ∨ 0 < s.runtime.pending :=
    Or.imp_left (fun saved => by simp only [saved, Bool.true_or])
  cases succeeded with
  | false =>
    rcases fits with final | outstanding
    · cases more.symm.trans final
    · exact stay outstanding
  | true =>
    rcases unsaved with untouched | outstanding
    · simp only [untouched, Bool.and_self, Bool.or_true, true_or]
    · exact stay outstanding

theorem after_unchanged {s : Session} {op : StoreOp} (quiet : ¬ changes s.runtime op = true) :
    s.after (.mutate op) next = { s with runtime := next } := by
  change Session.mk next (if changes s.runtime op then false else s.untouched)
    (if changes s.runtime op then false else s.saved) s.flushed = _
  rw [if_neg quiet, if_neg quiet]

theorem Kept.mutate {s : Session} {op : StoreOp} (inv : Kept s) (fits : SavesFit s (.mutate op)) :
    Kept (s.after (.mutate op) { s.runtime with
      store := perform s.runtime.store op
      pending := if notifies s.runtime.store op then s.runtime.pending + 1 else s.runtime.pending }) := by
  by_cases changed : changes s.runtime op = true
  · have notified : notifies s.runtime.store op = true := ((Bool.and_eq_true _ _).mp changed).2
    refine ⟨inv.control, inv.key, inv.armed, fun _ => remembers_outstanding ?_ ?_⟩
    · right
      right
      change 0 < if notifies s.runtime.store op then s.runtime.pending + 1 else s.runtime.pending
      rw [if_pos notified]
      omega
    · intro absent
      exact .inr (fits absent changed)
  · rw [after_unchanged changed]
    refine ⟨inv.control, inv.key, inv.armed, fun running => (inv.kept running).mono ?_ id id⟩
    apply Or.imp_right
    apply Or.imp_right
    intro pending
    change 0 < if notifies s.runtime.store op then s.runtime.pending + 1 else s.runtime.pending
    split_ifs <;> omega

/-- A session that resolves its key once and keeps it holds one wherever its thread is about to use one. -/
theorem ControlKeyed.takes {m : Runtime} (keyed : ControlKeyed m.running m.haveKey m.control)
    (resolved : KeyResolved label) (taken : Takes m label next) :
    ControlKeyed next.running next.haveKey next.control := by
  cases taken with
  | refused _ _ _ => exact keyed
  | start _ _ => trivial
  | keyChanged _ _ => cases resolved
  | stop _ running => exact running
  | resolved target _ => trivial
  | unresolved _ => cases resolved
  | publish target _ => exact rfl
  | noFile target starting failed phase _ =>
    rw [phase] at keyed
    exact keyed
  | corrupt target starting failed file phase _ _ =>
    rw [phase] at keyed
    exact keyed
  | read target starting file records phase _ _ =>
    rw [phase] at keyed
    exact keyed
  | apply now r rest starting phase =>
    rw [phase] at keyed
    exact keyed
  | notifyApplied rest starting phase =>
    rw [phase] at keyed
    exact keyed
  | loaded starting phase =>
    rw [phase] at keyed
    cases starting with
    | true => exact keyed
    | false => trivial
  | launch _ => trivial
  | halt phase =>
    rw [phase] at keyed
    exact keyed
  | join _ _ => trivial
  | rekeyed _ _ _ phase =>
    rw [phase] at keyed
    cases keyed
  | capture phase _ =>
    rw [phase] at keyed
    cases keyed
  | captureNone phase _ =>
    rw [phase] at keyed
    cases keyed
  | flushSnapshot _ _ phase _ =>
    rw [phase] at keyed
    cases keyed
  | flushWrite _ _ _ phase =>
    rw [phase] at keyed
    cases keyed
  | swap _ _ _ phase =>
    rw [phase] at keyed
    cases keyed
  | swapNone _ _ phase =>
    rw [phase] at keyed
    cases keyed
  | _ => exact keyed

theorem Kept.leave {s : Session} (inv : Kept s) (fits : SavesFit s label) (top : AtLoopTop s.runtime label)
    (stopped : s.runtime.stop = true) (unflushed : s.runtime.dirty = false ∨ s.runtime.haveKey = false)
    (running : s.runtime.running = true) : s.saved = true := by
  have clean : s.runtime.dirty = false := by
    rcases unflushed with clean | keyless
    · exact clean
    · cases keyless.symm.trans (inv.key running)
  have outstanding := inv.writer_there running (waiting_of_loopTop top)
  exact outstanding.saved clean (fits.leaves top stopped clean)

theorem Kept.saveWrite {s : Session} {succeeded last : Bool} {target : Target} {records : List RegisterRecord}
    (inv : Kept s) (fits : SavesFit s (.saveWrite succeeded)) (at_ : s.runtime.writer = .writing target records last) :
    Kept (s.after (.saveWrite succeeded) { s.runtime with
      disk := s.runtime.saved target records succeeded
      writer := if last then .absent else .returning }) := by
  have final : finalWrite s.runtime.writer = last := by rw [at_]; rfl
  refine ⟨inv.control, inv.key, inv.armed, fun running => ?_⟩
  have kept := inv.kept running
  rw [at_] at kept
  change Remembers _ _ (_ ∨ (s.flushed || finalWrite s.runtime.writer) = true)
    (if last then WriterPc.absent else .returning)
  cases last with
  | true =>
    rw [final]
    exact .inr (Bool.or_true _)
  | false =>
    have unsaved : s.untouched = true ∨ Outstanding s := kept.resolve_left nofun
    exact fits.written final unsaved

theorem Kept.notify {s : Session} (inv : Kept s) :
    Kept (s.after .notify { s.runtime.callListeners with pending := s.runtime.pending - 1 }) := by
  refine ⟨inv.control, inv.key, inv.armed, fun running => (inv.kept running).mono ?_ id id⟩
  intro _
  have marked : s.runtime.callListeners.dirty = true := by
    rw [Runtime.callListeners, inv.armed running, Bool.or_true]
  exact .inr (.inl marked)

theorem Kept.notifyApplied {s : Session} {rest : List RegisterRecord} {starting : Bool} (inv : Kept s)
    (phase : s.runtime.control = .applying rest true starting) :
    Kept (s.after .notifyApplied { s.runtime.callListeners with control := .applying rest false starting }) := by
  have keyed := inv.control
  rw [phase] at keyed
  refine ⟨keyed, inv.key, inv.armed, fun running => (inv.kept running).mono ?_ id id⟩
  exact Or.imp_right (Or.imp_left (fun dirty => Bool.or_eq_true_iff.mpr (.inl dirty)))

theorem Kept.takes {s : Session} (inv : Kept s) (resolved : KeyResolved label) (fits : SavesFit s label)
    (taken : Takes s.runtime label next) : Kept (s.after label next) := by
  have keyed := inv.control.takes resolved taken
  cases taken with
  | refused _ _ call =>
    have same : s.after label s.runtime = s := by
      rcases call with ⟨rfl, _⟩ | ⟨rfl | rfl, _⟩ <;> rfl
    rw [same]
    exact inv
  | publish target _ => exact ⟨keyed, fun _ => rfl, inv.armed, inv.kept⟩
  | notifyApplied rest starting phase => exact inv.notifyApplied phase
  | launch phase =>
    have key := inv.control
    rw [phase] at key
    exact ⟨keyed, fun _ => key, fun _ => rfl, fun _ => .inl rfl⟩
  | rekeyed _ _ _ _ => cases keyed
  | flushSnapshot _ _ _ _ => cases keyed
  | flushWrite _ _ _ _ => cases keyed
  | swap _ _ _ phase =>
    have impossible := inv.control
    rw [phase] at impossible
    cases impossible
  | swapNone _ _ phase =>
    have impossible := inv.control
    rw [phase] at impossible
    cases impossible
  | join _ _ =>
    refine ⟨keyed, ?_, ?_, ?_⟩ <;> intro running <;> cases running
  | finalFlush _ top _ _ _ =>
    rw [after_loopTop top]
    exact ⟨keyed, inv.key, inv.armed, fun _ => .inl rfl⟩
  | leave _ top stopped unflushed =>
    rw [after_loopTop top]
    exact ⟨keyed, inv.key, inv.armed, fun running => .inl (inv.leave fits top stopped unflushed running)⟩
  | absorbBurst _ top _ dirty =>
    rw [after_loopTop top]
    exact ⟨keyed, inv.key, inv.armed, fun _ => .inr (.inl dirty)⟩
  | waitAgain at_ _ _ => exact ⟨keyed, inv.key, inv.armed, fun running => inv.writer_there running (.inr at_)⟩
  | debounced _ _ => exact ⟨keyed, inv.key, inv.armed, fun _ => .inr (.inl rfl)⟩
  | unpaired _ keyless =>
    refine ⟨keyed, inv.key, inv.armed, fun running => ?_⟩
    cases keyless.symm.trans (inv.key running)
  | saveSnapshot now target last at_ _ =>
    refine ⟨keyed, inv.key, inv.armed, fun running => ?_⟩
    have kept := inv.kept running
    rw [at_] at kept
    exact kept
  | saveWrite succeeded target records last at_ => exact inv.saveWrite fits at_
  | mutate op => exact inv.mutate fits
  | notify _ => exact inv.notify
  | _ => exact ⟨keyed, inv.key, inv.armed, inv.kept⟩

theorem Kept.step {s stopped : Session} (inv : Kept s) (resolved : KeyResolved label) (fits : SavesFit s label)
    (taken : s.step label = some stopped) : Kept stopped := by
  obtain ⟨next, went, rfl⟩ := Option.map_eq_some_iff.mp taken
  exact inv.takes resolved fits (takes_of_step went)

theorem joins {m : Runtime} (taken : m.step .join = some next) : m.control = .joining ∧ m.writer = .absent := by
  simp only [Runtime.step] at taken
  split at taken
  · rename_i phase at_
    exact ⟨phase, at_⟩
  · cases taken

/-- In every run of sessions with a key whose saves fit, no change is forgotten. -/
theorem failed_register_save_retried (store : RegisterStore) (disk : Bytes → Option SavedFile) :
    FailedSaveRetried SavesFit store disk := by
  intro labels s stopped path taken
  have inv : Kept s :=
    path.invariant Kept (fun _ _ _ inv ok taken => inv.step ok.1 ok.2 taken) (kept_boot store disk)
  obtain ⟨next, went, rfl⟩ := Option.map_eq_some_iff.mp taken
  obtain ⟨joining, absent⟩ := joins went
  have running := inv.control
  rw [joining] at running
  have kept := inv.kept running
  rw [absent] at kept
  exact kept

namespace OneChange

open RuntimeSample

def booted : Session := .boot store (fun _ => none)
def change : RuntimeLabel := .mutate (.upsert (.all 100) [0x6B] [0x6E] 0 HostId.zero)

def launch : List RuntimeLabel := [.start, .resolve (some group), .publish, .read false, .loaded, .launch]
def session : Session := lastOf Session.step booted launch
def changed : Session := lastOf Session.step (lastOf Session.step session [change]) [.notify]

/-- Stopping comes before the writer wakes, so that the final flush is left to write the change. -/
def stopping : Session := lastOf Session.step changed [.stop, .halt]
def flushing : Session := lastOf Session.step (lastOf Session.step stopping [.wake]) [.saveSnapshot 100]
def ended : Session := lastOf Session.step flushing [.saveWrite false]
def stopped : Session := lastOf Session.step ended [.join]

def forgetful : List RuntimeLabel :=
  launch ++ [change, .notify, .wake, .debounced, .saveSnapshot 100, .saveWrite false, .relock, .stop, .halt, .wake]

end OneChange

open OneChange RuntimeSample in
theorem failed_flush_attempted : stopped.saved = true ∨ stopped.flushed = true := by
  have opened : Path Session.step (fun s label => KeyResolved label ∧ SavesFit s label) booted launch session :=
    path_to_lastOf (by simp [launch, KeyResolved, SavesFit]) (by decide +kernel)
  have waiting : session.runtime.writer = .waiting := by decide +kernel
  have quiet : SavesFit session change := fun absent => by cases waiting.symm.trans absent
  have changing : Path Session.step (fun s label => KeyResolved label ∧ SavesFit s label) session
      ([change] ++ [.notify]) changed := by
    apply Path.append
    · exact step_to_lastOf ⟨trivial, quiet⟩ (by decide +kernel)
    · exact step_to_lastOf ⟨trivial, trivial⟩ (by decide +kernel)
  have halted : Path Session.step (fun s label => KeyResolved label ∧ SavesFit s label) changed
      [.stop, .halt] stopping := path_to_lastOf (by simp [KeyResolved, SavesFit]) (by decide +kernel)
  have marked : stopping.runtime.dirty = true := by decide +kernel
  have unsaved : SavesFit stopping .wake := fun _ clean => by cases marked.symm.trans clean
  have waking : Path Session.step (fun s label => KeyResolved label ∧ SavesFit s label) stopping
      ([.wake] ++ [.saveSnapshot 100]) flushing := by
    apply Path.append
    · exact step_to_lastOf ⟨trivial, unsaved⟩ (by decide +kernel)
    · exact step_to_lastOf ⟨trivial, trivial⟩ (by decide +kernel)
  have failing : Path Session.step (fun s label => KeyResolved label ∧ SavesFit s label) flushing
      [.saveWrite false] ended := step_to_lastOf ⟨trivial, .inl (by decide +kernel)⟩ (by decide +kernel)
  exact failed_register_save_retried store (fun _ => none) _ ended stopped
    ((((opened.append changing).append halted).append waking).append failing) (step_lastOf (by decide +kernel))

open OneChange RuntimeSample in
/-- After a failed write nothing is left to make the writer, or its final flush, try again. -/
theorem failed_save_forgotten : ¬ FailedSaveRetried (fun _ _ => True) store (fun _ => none) := by
  intro retried
  have run : (runLabels Session.step booted forgetful).map
      (fun s => (s.step .join).map (fun stopped => stopped.saved || stopped.flushed)) =
        some (some false) := by
    decide +kernel
  have keyed : ∀ label ∈ forgetful, ∀ _ : Session, KeyResolved label ∧ True := by
    simp [forgetful, launch, change, KeyResolved]
  obtain ⟨s, ran, joined⟩ := Option.map_eq_some_iff.mp run
  obtain ⟨stopped, taken, lost⟩ := Option.map_eq_some_iff.mp joined
  have remembered := retried _ s stopped (path_of_run keyed ran) taken
  rw [← Bool.or_eq_true, lost] at remembered
  cases remembered

end ClippProof.Persistence
