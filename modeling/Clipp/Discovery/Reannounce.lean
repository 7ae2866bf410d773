import Mathlib.Order.Basic
import Mathlib.Order.Nat
import Mathlib.Tactic.SplitIfs
import Clipp.Foundation.Machine

open Foundation

namespace ClippModel.Discovery

/-- The hash of the addresses of all interfaces; zero stands for a failed enumeration. -/
abbrev Fingerprint : Type := { hash : UInt64 // hash ≠ 0 }

/-- In nanoseconds of the steady clock, as all times here. -/
def seconds (n : Nat) : Nat := n * 1000000000

def kMinRepublishInterval : Nat := seconds 10

structure NetworkRuntime where
  wakePending : Bool
  interfacesChanged : Bool
  lastAddrHash : UInt64
  pendingHash : UInt64
  republishPending : Bool
  lastRepublish : Nat
  discoveryRunning : Bool
deriving DecidableEq

namespace NetworkRuntime

def boot (hash : UInt64) (now : Nat) (starts : Bool) : NetworkRuntime where
  wakePending := false
  interfacesChanged := false
  lastAddrHash := hash
  pendingHash := hash
  republishPending := false
  lastRepublish := now
  discoveryRunning := starts

def signalWake (s : NetworkRuntime) (interfacesChanged : Bool) : NetworkRuntime :=
  { s with interfacesChanged := s.interfacesChanged || interfacesChanged, wakePending := true }

/-- The cooldown of a pending republish, or the next removal the reconciler has deferred, if that comes first. -/
def computeNextWake (s : NetworkRuntime) (removal : Option Nat) : Option Nat :=
  let deadline := if s.republishPending then some (s.lastRepublish + kMinRepublishInterval) else none
  match removal, deadline with
  | some removal, some deadline => some (if removal < deadline then removal else deadline)
  | some removal, none => some removal
  | none, deadline => deadline

def rehash (s : NetworkRuntime) (hash : UInt64) : NetworkRuntime :=
  let taken := { s with interfacesChanged := false }
  if s.interfacesChanged ∧ hash ≠ 0 ∧ hash ≠ s.lastAddrHash then
    { taken with republishPending := true, pendingHash := hash }
  else taken

/-- Discovery is stopped and started again; the result tells whether it announced. -/
def maybeRepublish (s : NetworkRuntime) (now : Nat) (starts : Bool) : NetworkRuntime × Bool :=
  if s.republishPending ∧ s.lastRepublish + kMinRepublishInterval ≤ now then
    if starts then
      ({ s with discoveryRunning := true, lastAddrHash := s.pendingHash, lastRepublish := now,
                republishPending := false }, true)
    else ({ s with discoveryRunning := false, lastRepublish := now }, false)
  else (s, false)

end NetworkRuntime

/-- The runtime thread beside the addresses of the machine. `announced` is what the last discovery to start
    announced, `owed` that a notification since then read something else. -/
structure Host where
  runtime : NetworkRuntime
  addresses : Fingerprint
  announced : Option Fingerprint
  owed : Bool

inductive NetworkEvent where
  | notify (addresses : Fingerprint)
  | signal
  | wake (now : Nat) (removal : Option Nat) (starts : Bool)

namespace Host

def boot (addresses : Fingerprint) (now : Nat) (starts : Bool) : Host where
  runtime := .boot addresses.val now starts
  addresses := addresses
  announced := if starts then some addresses else none
  owed := false

def differs (s : Host) : Bool :=
  s.runtime.interfacesChanged && (match s.announced with
    | some announced => announced != s.addresses
    | none => false)

def rehash (s : Host) : Host :=
  { s with runtime := { s.runtime with wakePending := false }.rehash s.addresses.val, owed := s.owed || s.differs }

def maybeRepublish (s : Host) (now : Nat) (starts : Bool) : Host :=
  match s.runtime.maybeRepublish now starts with
  | (runtime, true) => { s with runtime := runtime, announced := some s.addresses, owed := false }
  | (runtime, false) => { s with runtime := runtime }

def processWake (s : Host) (now : Nat) (starts : Bool) : Host := s.rehash.maybeRepublish now starts

/-- The thread waits for a signal or for the next deadline. -/
def step (s : Host) : NetworkEvent → Option Host
  | .notify addresses => some { s with addresses := addresses, runtime := s.runtime.signalWake true }
  | .signal => some { s with runtime := s.runtime.signalWake false }
  | .wake now removal starts =>
    if s.runtime.wakePending ∨ ∃ deadline ∈ s.runtime.computeNextWake removal, deadline ≤ now then
      some (s.processWake now starts)
    else none

end Host

end ClippModel.Discovery

namespace ClippProof.Discovery

open ClippModel.Discovery ClippModel.Discovery.NetworkRuntime ClippModel.Discovery.Host

variable {s next : Host} {r : NetworkRuntime} {hash : UInt64} {now : Nat} {starts : Bool}

/-- The host answers to the network: what is remembered is what was announced, and no change goes unnoticed. -/
structure UpToDate (s : Host) : Prop where
  remembered : ∀ announced, s.announced = some announced → s.runtime.lastAddrHash = announced.val
  pending : s.owed = true → s.runtime.republishPending = true
  noticed : ∀ announced, s.announced = some announced → s.addresses ≠ announced →
    s.runtime.interfacesChanged = true ∨ s.runtime.republishPending = true

/-- No wake announces while the addresses are back at the remembered fingerprint. -/
def AnnounceFits (s : Host) : NetworkEvent → Prop
  | .wake now _ starts => ¬ (s.runtime.republishPending = true ∧
      s.runtime.lastRepublish + kMinRepublishInterval ≤ now ∧ starts = true ∧
      s.addresses.val = s.runtime.lastAddrHash)
  | .notify _ | .signal => True

instance announceFitsDecidable (s : Host) : ∀ event, Decidable (AnnounceFits s event)
  | .wake _ _ _ => inferInstanceAs (Decidable (¬ (_ ∧ _ ∧ _ ∧ _)))
  | .notify _ | .signal => isTrue trivial

/-- What `UpToDate` rests on: the pending fingerprint is a new one, and once the notifications are taken it is
    the one of the addresses, unless these are back at the remembered one. -/
structure Tracked (s : Host) : Prop where
  remembered : ∀ announced, s.announced = some announced → s.runtime.lastAddrHash = announced.val
  pending : s.owed = true → s.runtime.republishPending = true
  moved : s.runtime.republishPending = true → s.runtime.pendingHash ≠ s.runtime.lastAddrHash
  taken : s.runtime.interfacesChanged = false → s.addresses.val = s.runtime.lastAddrHash ∨
    s.runtime.republishPending = true ∧ s.addresses.val = s.runtime.pendingHash

theorem Tracked.upToDate (tracked : Tracked s) : UpToDate s := by
  refine ⟨tracked.remembered, tracked.pending, fun announced equal apart => ?_⟩
  cases flag : s.runtime.interfacesChanged with
  | true => exact .inl rfl
  | false =>
    rcases tracked.taken flag with same | ⟨pending, _⟩
    · exact absurd (Subtype.ext (same.trans (tracked.remembered announced equal))) apart
    · exact .inr pending

theorem tracked_boot (addresses : Fingerprint) (now : Nat) (starts : Bool) :
    Tracked (Host.boot addresses now starts) := by
  refine ⟨fun announced equal => ?_, nofun, nofun, fun _ => .inl rfl⟩
  unfold Host.boot at equal
  dsimp only at equal
  split_ifs at equal
  exact congrArg Subtype.val (Option.some.inj equal)

theorem rehash_cases (r : NetworkRuntime) (hash : UInt64) :
    r.interfacesChanged = true ∧ hash ≠ 0 ∧ hash ≠ r.lastAddrHash ∧
      r.rehash hash = { r with interfacesChanged := false, republishPending := true, pendingHash := hash } ∨
    ¬ (r.interfacesChanged = true ∧ hash ≠ 0 ∧ hash ≠ r.lastAddrHash) ∧
      r.rehash hash = { r with interfacesChanged := false } := by
  unfold NetworkRuntime.rehash
  split_ifs with moved
  · exact .inl ⟨moved.1, moved.2.1, moved.2.2, rfl⟩
  · exact .inr ⟨moved, rfl⟩

theorem Tracked.rehash (tracked : Tracked s) : Tracked s.rehash ∧ s.rehash.runtime.interfacesChanged = false := by
  unfold Host.rehash
  rcases rehash_cases { s.runtime with wakePending := false } s.addresses.val with
    ⟨_, _, moved, equal⟩ | ⟨unmoved, equal⟩
  · rw [equal]
    exact ⟨⟨tracked.remembered, fun _ => rfl, fun _ => moved, fun _ => .inr ⟨rfl, rfl⟩⟩, rfl⟩
  · rw [equal]
    have back : s.runtime.interfacesChanged = true → s.addresses.val = s.runtime.lastAddrHash := fun flag =>
      Classical.byContradiction (fun apart => unmoved ⟨flag, s.addresses.property, apart⟩)
    refine ⟨⟨tracked.remembered, fun owed => ?_, tracked.moved, fun _ => ?_⟩, rfl⟩
    · rcases Bool.or_eq_true _ _ ▸ owed with before | differs
      · exact tracked.pending before
      · -- A notification that read the remembered fingerprint read what was announced.
        obtain ⟨flag, differs⟩ := Bool.and_eq_true_iff.mp differs
        cases known : s.announced with
        | none => simp [known] at differs
        | some announced =>
          have same : announced = s.addresses :=
            Subtype.ext ((tracked.remembered announced known).symm.trans (back flag).symm)
          simp [known, same] at differs
    · cases flag : s.runtime.interfacesChanged with
      | true => exact .inl (back flag)
      | false => exact tracked.taken flag

theorem Tracked.maybeRepublish (tracked : Tracked s) (read : s.runtime.interfacesChanged = false)
    (fits : s.runtime.republishPending = true → s.runtime.lastRepublish + kMinRepublishInterval ≤ now →
      starts = true → s.addresses.val ≠ s.runtime.lastAddrHash) : Tracked (s.maybeRepublish now starts) := by
  unfold Host.maybeRepublish NetworkRuntime.maybeRepublish
  split_ifs with due up
  · have same : s.addresses.val = s.runtime.pendingHash :=
      (tracked.taken read).elim (fun back => absurd back (fits due.1 due.2 up)) And.right
    refine ⟨?_, nofun, nofun, fun _ => .inl same⟩
    rintro _ ⟨⟩
    exact same.symm
  · exact ⟨tracked.remembered, tracked.pending, tracked.moved, tracked.taken⟩
  · exact tracked

theorem rehash_lastAddrHash (s : Host) : s.rehash.runtime.lastAddrHash = s.runtime.lastAddrHash := by
  unfold Host.rehash
  rcases rehash_cases { s.runtime with wakePending := false } s.addresses.val with ⟨_, _, _, equal⟩ | ⟨_, equal⟩ <;>
    rw [equal]

theorem rehash_lastRepublish (s : Host) : s.rehash.runtime.lastRepublish = s.runtime.lastRepublish := by
  unfold Host.rehash
  rcases rehash_cases { s.runtime with wakePending := false } s.addresses.val with ⟨_, _, _, equal⟩ | ⟨_, equal⟩ <;>
    rw [equal]

theorem rehash_republishPending (back : s.addresses.val = s.runtime.lastAddrHash) :
    s.rehash.runtime.republishPending = s.runtime.republishPending := by
  unfold Host.rehash
  rcases rehash_cases { s.runtime with wakePending := false } s.addresses.val with ⟨_, _, moved, _⟩ | ⟨_, equal⟩
  · exact absurd back moved
  · rw [equal]

theorem Tracked.processWake {removal : Option Nat} (tracked : Tracked s)
    (fits : AnnounceFits s (.wake now removal starts)) : Tracked (s.processWake now starts) := by
  obtain ⟨read, taken⟩ := tracked.rehash
  refine read.maybeRepublish taken (fun pending cooled up back => fits ⟨?_, ?_, up, ?_⟩)
  · have remembered : s.addresses.val = s.runtime.lastAddrHash := back.trans (rehash_lastAddrHash s)
    exact (rehash_republishPending remembered).symm.trans pending
  · exact (Nat.add_le_add_right (rehash_lastRepublish s).ge _).trans cooled
  · exact back.trans (rehash_lastAddrHash s)

theorem Tracked.step {event : NetworkEvent} (tracked : Tracked s) (fits : AnnounceFits s event)
    (taken : s.step event = some next) : Tracked next := by
  cases event with
  | notify addresses =>
    cases taken
    refine ⟨tracked.remembered, tracked.pending, tracked.moved, fun flag => ?_⟩
    simp [signalWake] at flag
  | signal =>
    cases taken
    refine ⟨tracked.remembered, tracked.pending, tracked.moved, fun flag => tracked.taken ?_⟩
    simpa [signalWake] using flag
  | wake now removal starts =>
    rw [Host.step] at taken
    split_ifs at taken
    cases taken
    exact tracked.processWake fits

theorem unfit_wake_misremembers {event : NetworkEvent} (tracked : Tracked s) (unfit : ¬ AnnounceFits s event)
    (taken : s.step event = some next) : ¬ UpToDate next := by
  cases event with
  | wake now removal starts =>
    obtain ⟨pending, cooled, up, back⟩ := not_not.mp unfit
    have due : s.rehash.runtime.republishPending = true ∧
        s.rehash.runtime.lastRepublish + kMinRepublishInterval ≤ now :=
      ⟨(rehash_republishPending back).trans pending,
        (Nat.add_le_add_right (rehash_lastRepublish s).le _).trans cooled⟩
    have moved := tracked.rehash.1.moved due.1
    rw [Host.step] at taken
    split_ifs at taken
    cases taken
    unfold Host.processWake Host.maybeRepublish NetworkRuntime.maybeRepublish
    rw [if_pos due, if_pos up]
    intro upToDate
    exact moved ((upToDate.remembered s.addresses rfl).trans (back.trans (rehash_lastAddrHash s).symm))
  | notify _ | signal => exact absurd trivial unfit

theorem run_tracked {addresses : Fingerprint} {events : List NetworkEvent}
    (path : Path Host.step AnnounceFits (Host.boot addresses now starts) events s) : Tracked s :=
  path.invariant Tracked (fun _ _ _ tracked fits taken => tracked.step fits taken) (tracked_boot addresses now starts)

/-- Up to the first wake that fails the condition the host is up to date, and after that wake it is not. -/
theorem network_changes_announced (addresses : Fingerprint) (now : Nat) (starts : Bool) (events : List NetworkEvent)
    (s : Host) (path : Path Host.step AnnounceFits (Host.boot addresses now starts) events s) :
    UpToDate s ∧ ∀ event next, s.step event = some next → (UpToDate next ↔ AnnounceFits s event) := by
  have tracked := run_tracked path
  refine ⟨tracked.upToDate, fun event next taken => ⟨fun upToDate => ?_, fun fits => ?_⟩⟩
  · by_contra unfit
    exact unfit_wake_misremembers tracked unfit taken upToDate
  · exact (tracked.step fits taken).upToDate

namespace TwoNetworks

def home : Fingerprint := ⟨1, by decide⟩

def office : Fingerprint := ⟨2, by decide⟩

/-- Announced at home, moved to the office and announced there when the cooldown is over. -/
def moved : List NetworkEvent :=
  [.notify office, .wake (seconds 5) none true, .wake (seconds 10) none true]

def returned : List NetworkEvent :=
  [.notify office, .wake (seconds 5) none true, .notify home, .wake (seconds 6) none true,
    .wake (seconds 10) none true]

end TwoNetworks

open TwoNetworks in
theorem moved_host_up_to_date : UpToDate (lastOf Host.step (Host.boot home 0 true) moved) :=
  (network_changes_announced home 0 true moved _ (fitting_to_lastOf (by decide +kernel))).1

open TwoNetworks in
/-- The host that came back remembers the office, although it announced the addresses at home. -/
theorem returned_host_misremembers :
    ¬ ∀ events s, Path Host.step (fun _ _ => True) (Host.boot home 0 true) events s → UpToDate s := by
  intro always
  have run : Path Host.step (fun _ _ => True) (Host.boot home 0 true) returned
      (lastOf Host.step (Host.boot home 0 true) returned) :=
    path_to_lastOf (fun _ _ _ => trivial) (by decide +kernel)
  have announced : (lastOf Host.step (Host.boot home 0 true) returned).announced = some home := by decide +kernel
  have remembered : (lastOf Host.step (Host.boot home 0 true) returned).runtime.lastAddrHash = office.val := by
    decide +kernel
  have same := (always returned _ run).remembered home announced
  rw [remembered] at same
  exact absurd same (by decide)

end ClippProof.Discovery
