import Clipp.Discovery.Instances
import Clipp.Discovery.Reannounce
import Clipp.Peers.Reconnection

open Foundation

namespace ClippModel.Peers

def OutgoingReconciler.nextRemovalDeadline (s : OutgoingReconciler) : Option Nat :=
  s.pendingRemoval.entries.foldl (fun nearest removal =>
    match nearest with
    | some deadline => if removal.deadline < deadline then some removal.deadline else some deadline
    | none => some removal.deadline) none

end ClippModel.Peers

namespace ClippModel.Discovery

open ClippModel.Registers ClippModel.Peers

namespace DiscoveryState

/-- Stopped: the resolves under way are not cancelled. -/
def stop (s : DiscoveryState) : DiscoveryState :=
  { s with publishedInstanceName := [], liveInstances := fun _ => none, liveByHostId := fun _ => ∅ }

def startAgain (s : DiscoveryState) : DiscoveryState := { s with hostIDCollisionWarning := false }

/-- While discovery is stopped a callback changes nothing, but a browse that was let in before goes on with its
    records. -/
def drop (s : DiscoveryState) (letIn : Bool) : InstanceEvent → Option DiscoveryState
  | .complete name _ => if s.resolving.contains name then some { s with resolving := s.resolving.erase name } else none
  | .identified hostId => some { s with localHostId := hostId }
  | .browse name startsResolve => some (if letIn then s.handleBrowse name startsResolve else s)
  | .goodbye name => some (if letIn then s.handleGoodbye name else s)
  | .published _ => some s

end DiscoveryState

/-- Where the runtime thread is: asleep, or behind the stop of a discovery it is about to start again, or about to
    sweep. -/
inductive WakePhase where
  | asleep
  | restarting (now : Nat)
  | sweeping (now : Nat)
  deriving DecidableEq

/-- The runtime with what discovery and the reconciler keep, and the instances that are present on the network,
    each with the host that announced it. Discovery's callback takes no lock along: `underWay` lists the reports that
    have yet to reach the reconciler, the last one decided last, and `signals` counts its own calls to wake the
    runtime. -/
structure Neighbourhood where
  runtime : NetworkRuntime
  phase : WakePhase
  discovery : DiscoveryState
  underWay : List Report
  reconciler : OutgoingReconciler
  signals : Nat
  network : List (InstanceName × HostId)

/-- An instance leaves the network with its goodbye, which a stopped discovery does not hear. Reports reach the
    reconciler in any order, one of them with `deliver`. A wake stops discovery where it is to be started again, then
    starts it, then sweeps. `exit` and `cull` are what the peer manager does on its own. -/
inductive NeighbourEvent where
  | appear (name : InstanceName) (host : HostId)
  | discover (event : InstanceEvent) (letIn : Bool)
  | deliver (index : Nat) (now : Nat) (starts : HostId → Bool)
  | signal
  | notify
  | wake (now : Nat) (hash : UInt64)
  | restart (startsDiscovery : Bool)
  | sweep (starts : HostId → Bool)
  | exit (logId : Nat)
  | cull (silent : Nat → Bool)

namespace Neighbourhood

def boot (localHostId : HostId) (hash : UInt64) (now : Nat) (startsDiscovery : Bool) : Neighbourhood where
  runtime := .boot hash now startsDiscovery
  phase := .asleep
  discovery := .start localHostId false
  underWay := []
  reconciler := .boot
  signals := 0
  network := []

/-- A peer without a port is skipped. -/
def reaches : Report → Bool
  | .added peer => peer.port ≠ 0
  | .removed _ _ => true

/-- The reconciler is to wake the runtime where it defers a removal. -/
def onDiscoveryEvent (s : Neighbourhood) (now : Nat) (starts : HostId → Bool) : Report → Neighbourhood
  | .added peer => { s with reconciler := s.reconciler.onAdded starts peer }
  | .removed hostId _ =>
    { s with reconciler := s.reconciler.onRemoved hostId now
             signals := if (s.reconciler.active.find hostId).isSome then s.signals + 1 else s.signals }

/-- What an instance on the network resolves to is the host that announced it. -/
def Resolves (s : Neighbourhood) : InstanceEvent → Prop
  | .complete name (some peer) => ∀ present ∈ s.network, present.1 = name → present.2 = peer.hostId
  | .complete _ none | .browse _ _ | .goodbye _ | .published _ | .identified _ => True

instance resolvesDecidable (s : Neighbourhood) : ∀ event, Decidable (s.Resolves event)
  | .complete name (some peer) =>
    inferInstanceAs (Decidable (∀ present ∈ s.network, present.1 = name → present.2 = peer.hostId))
  | .complete _ none | .browse _ _ | .goodbye _ | .published _ | .identified _ => isTrue trivial

def remaining (s : Neighbourhood) : InstanceEvent → List (InstanceName × HostId)
  | .goodbye name => s.network.filter (fun present => present.1 ≠ name)
  | .browse _ _ | .complete _ _ | .published _ | .identified _ => s.network

/-- What this event makes discovery report is under way from here on. -/
def discover (s : Neighbourhood) (event : InstanceEvent) (letIn : Bool) : Option Neighbourhood :=
  let quiet := { s.discovery with reports := [] }
  let told := if s.runtime.discoveryRunning then quiet.step event else quiet.drop letIn event
  told.map (fun told => { s with discovery := told
                                 underWay := s.underWay ++ told.reports.reverse.filter reaches
                                 network := s.remaining event })

def deliver (s : Neighbourhood) (index now : Nat) (starts : HostId → Bool) : Option Neighbourhood :=
  s.underWay[index]?.map (fun report =>
    { s.onDiscoveryEvent now starts report with underWay := s.underWay.eraseIdx index })

/-- The cooldown is over and discovery is stopped, where it runs, and started again. -/
def reinitializes (runtime : NetworkRuntime) (now : Nat) : Prop :=
  runtime.republishPending = true ∧ runtime.lastRepublish + kMinRepublishInterval ≤ now

instance (runtime : NetworkRuntime) (now : Nat) : Decidable (reinitializes runtime now) :=
  inferInstanceAs (Decidable (_ ∧ _))

/-- `processWake`, up to the stop of discovery; `restart` and `sweep` are the rest of it. -/
def wake (s : Neighbourhood) (now : Nat) (hash : UInt64) : Neighbourhood :=
  let runtime := { s.runtime with wakePending := false }.rehash hash
  if reinitializes runtime now then
    { s with runtime := { runtime with discoveryRunning := false }
             phase := .restarting now
             discovery := if runtime.discoveryRunning then s.discovery.stop else s.discovery }
  else { s with runtime := runtime, phase := .sweeping now }

def restart (s : Neighbourhood) (startsDiscovery : Bool) : Option Neighbourhood :=
  match s.phase with
  | .restarting now => some { s with runtime := (s.runtime.maybeRepublish now startsDiscovery).1
                                     phase := .sweeping now
                                     discovery := s.discovery.startAgain }
  | .asleep | .sweeping _ => none

def sweep (s : Neighbourhood) (starts : HostId → Bool) : Option Neighbourhood :=
  match s.phase with
  | .sweeping now => some { s with phase := .asleep, reconciler := s.reconciler.sweep now starts }
  | .asleep | .restarting _ => none

def step (s : Neighbourhood) : NeighbourEvent → Option Neighbourhood
  | .appear name host =>
    if (s.network.map Prod.fst).contains name then none else some { s with network := (name, host) :: s.network }
  | .discover event letIn => if s.Resolves event then s.discover event letIn else none
  | .deliver index now starts => s.deliver index now starts
  | .signal => if s.signals = 0 then none
      else some { s with runtime := s.runtime.signalWake false, signals := s.signals - 1 }
  | .notify => some { s with runtime := s.runtime.signalWake true }
  | .wake now hash =>
    if s.phase = .asleep ∧ (s.runtime.wakePending ∨
        ∃ deadline ∈ s.runtime.computeNextWake s.reconciler.nextRemovalDeadline, deadline ≤ now) then
      some (s.wake now hash)
    else none
  | .restart startsDiscovery => s.restart startsDiscovery
  | .sweep starts => s.sweep starts
  | .exit logId => some { s with reconciler := { s.reconciler with manager := s.reconciler.manager.exit logId } }
  | .cull silent =>
    some { s with reconciler := { s.reconciler with manager := s.reconciler.manager.cullPeers silent } }

end Neighbourhood

end ClippModel.Discovery

namespace ClippProof.Discovery

open ClippModel.Registers ClippModel.Peers ClippModel.Discovery ClippProof.Peers

variable {s next : Neighbourhood} {d told : DiscoveryState} {r : OutgoingReconciler} {name other : InstanceName}
  {host : HostId} {now : Nat} {starts : HostId → Bool} {runtime : NetworkRuntime}

def Steady (r : OutgoingReconciler) (host : HostId) : Prop :=
  (r.active.find host).isSome = true ∧ r.pendingRemoval.find host = none

instance : Decidable (Steady r host) := inferInstanceAs (Decidable (_ ∧ _))

instance : Decidable (LiveAt d host name) :=
  match known : d.liveInstances name with
  | none => isFalse (fun live => by
      obtain ⟨state, found, _⟩ := live
      cases known.symm.trans found)
  | some state => decidable_of_iff (state.resolved = true ∧ state.hostId = host)
      ⟨fun both => ⟨state, known, both⟩, fun live => by
        obtain ⟨again, found, both⟩ := live
        cases known.symm.trans found
        exact both⟩

theorem steady_congr {after : OutgoingReconciler} (same : view after host = view r host) :
    Steady after host ↔ Steady r host := by
  have active : after.active.find host = r.active.find host := congrArg HostView.tracked same
  have pending : after.pendingRemoval.find host = r.pendingRemoval.find host := congrArg HostView.pending same
  rw [Steady, active, pending, Steady]

theorem steady_onAdded {peer : DiscoveredPeer} (steady : Steady (r.onAdded starts peer) host) :
    host = peer.hostId ∨ Steady r host := by
  by_cases same : host = peer.hostId
  · exact .inl same
  · exact .inr ((steady_congr (view_onAdded_ne same)).mp steady)

theorem steady_onRemoved {gone : HostId} : Steady (r.onRemoved gone now) host ↔ Steady r host ∧ host ≠ gone := by
  by_cases same : host = gone
  · subst same
    refine iff_of_false (fun steady => ?_) (fun both => both.2 rfl)
    cases found : r.active.find host with
    | none =>
      rw [onRemoved_untracked found] at steady
      cases found ▸ steady.1
    | some t =>
      have pending : (r.onRemoved host now).pendingRemoval.find host = some _ :=
        congrArg HostView.pending (view_onRemoved_tracked found)
      cases pending.symm.trans steady.2
  · exact (steady_congr (view_onRemoved_ne same)).trans (and_iff_left same).symm

theorem steady_dropExpired {removal : PendingRemoval} {freed : Bool}
    (steady : Steady (OutgoingReconciler.dropExpired (r, freed) removal).1 host) : Steady r host := by
  have forgotten : ∀ q : OutgoingReconciler, Steady (q.forget removal.hostId) host → Steady q host := by
    intro q after
    by_cases same : host = removal.hostId
    · have gone : (q.forget removal.hostId).active.find host = none := (KeyedMap.find_erase _ _ _).trans (if_pos same)
      cases gone ▸ after.1
    · exact (steady_congr (view_forget.trans (if_neg same))).mp after
  unfold OutgoingReconciler.dropExpired at steady
  cases found : r.active.find removal.hostId with
  | none =>
    rw [found] at steady
    exact forgotten r steady
  | some t =>
    rw [found] at steady
    dsimp only at steady
    split_ifs at steady
    · exact forgotten (r.removeOutgoing removal.hostId) steady
    · exact forgotten r steady

theorem steady_admitPendingPeers (rest : List TrackedPeer)
    (tracked : ∀ t ∈ rest, (r.active.find t.peer.hostId).isSome = true)
    (steady : Steady (OutgoingReconciler.admitPendingPeers starts rest r) host) : Steady r host := by
  induction rest generalizing r with
  | nil => exact steady
  | cons t rest ih =>
    have later : ∀ u ∈ rest, (r.active.find u.peer.hostId).isSome = true :=
      fun u member => tracked u (List.mem_cons_of_mem _ member)
    rw [OutgoingReconciler.admitPendingPeers] at steady
    dsimp only at steady
    split_ifs at steady
    · exact ih later steady
    · exact steady
    · have put : ∀ other, (r.active.put { t with admitted := true }).find other =
          if t.peer.hostId = other then some { t with admitted := true } else r.active.find other :=
        fun other => KeyedMap.find_put _ _ _
      have kept := ih (fun u member => by
        rw [put]
        split_ifs
        · rfl
        · exact later u member) steady
      refine ⟨?_, kept.2⟩
      by_cases same : t.peer.hostId = host
      · exact same ▸ tracked t List.mem_cons_self
      · have active := kept.1
        rwa [put, if_neg same] at active

theorem steady_sweep (steady : Steady (r.sweep now starts) host) : Steady r host := by
  have dropped : ∀ (due : List PendingRemoval) (q : OutgoingReconciler × Bool),
      Steady (due.foldl OutgoingReconciler.dropExpired q).1 host → Steady q.1 host := by
    intro due
    induction due with
    | nil => exact fun _ still => still
    | cons removal rest ih => exact fun q still => steady_dropExpired (ih _ still)
  unfold OutgoingReconciler.sweep at steady
  dsimp only at steady
  split_ifs at steady
  · refine dropped _ (r, false) (steady_admitPendingPeers _ (fun t member => ?_) steady)
    rw [KeyedMap.find_self member, Option.isSome_some]
  · exact dropped _ (r, false) steady

def Filed (d : DiscoveryState) : Prop := ∀ host name, LiveAt d host name → name ∈ d.liveByHostId host

inductive Heard (running : Bool) (d told : DiscoveryState) : InstanceEvent → Prop where
  | unheard {event : InstanceEvent} : told.liveByHostId = d.liveByHostId → told.reports = [] →
      (∀ host name, LiveAt told host name → LiveAt d host name) →
      (∀ name host, event = .goodbye name → ¬ LiveAt d host name) →
      (∀ name peer, event = .complete name (some peer) → running = true → d.filtersSelf peer = true) →
      Heard running d told event
  | added (name : InstanceName) (peer : DiscoveredPeer) : running = true → d.filtersSelf peer = false →
      told.liveByHostId = Function.update d.liveByHostId peer.hostId (insert name (d.liveByHostId peer.hostId)) →
      told.reports = [.added peer] →
      (∀ host other, LiveAt told host other → other = name ∧ host = peer.hostId ∨ LiveAt d host other) →
      Heard running d told (.complete name (some peer))
  | forgot (name : InstanceName) (host : HostId) (deviceName : Bytes) : LiveAt d host name →
      told.liveByHostId = Function.update d.liveByHostId host ((d.liveByHostId host).erase name) →
      told.reports = (if (d.liveByHostId host).erase name = ∅ then [.removed host deviceName] else []) →
      (∀ host other, LiveAt told host other → other ≠ name ∧ LiveAt d host other) →
      Heard running d told (.goodbye name)

theorem heard_browse {running startsResolve : Bool} (quiet : d.reports = []) :
    Heard running d (d.handleBrowse name startsResolve) (.browse name startsResolve) := by
  unfold DiscoveryState.handleBrowse
  by_cases own : d.publishedInstanceName ≠ [] ∧
      lowerAscii name = lowerAscii (fullInstanceFqdn d.publishedInstanceName)
  · rw [if_pos own]
    exact .unheard rfl quiet (fun _ _ live => live) nofun nofun
  · rw [if_neg own]
    cases known : d.liveInstances name with
    | some state => exact .unheard rfl quiet (fun _ _ live => live) nofun nofun
    | none => exact .unheard rfl quiet (fun _ _ live => (liveAt_browsed known).mp live) nofun nofun

theorem liveAt_markResolved {peer : DiscoveredPeer}
    (live : ∃ st, d.markResolved name peer other = some st ∧ st.resolved = true ∧ st.hostId = host) :
    other = name ∧ host = peer.hostId ∨ LiveAt d host other := by
  unfold DiscoveryState.markResolved at live
  cases known : d.liveInstances name with
  | none =>
    rw [known] at live
    exact .inr live
  | some state =>
    simp only [known] at live
    rw [liveAt_update] at live
    split_ifs at live with same
    · obtain ⟨_, ⟨⟩, _, named⟩ := live
      exact .inl ⟨same, named.symm⟩
    · exact .inr live

theorem heard_resolved {peer : DiscoveredPeer} (quiet : d.reports = []) :
    Heard true d (d.handleResolved name peer) (.complete name (some peer)) := by
  unfold DiscoveryState.handleResolved
  cases self : d.filtersSelf peer with
  | true =>
    refine .unheard rfl quiet (fun _ _ live => live) nofun (fun _ _ same _ => ?_)
    cases same
    exact self
  | false => exact .added name peer rfl self rfl (congrArg _ quiet) (fun _ _ live => liveAt_markResolved live)

theorem heard_goodbye {running : Bool} (filed : Filed d) (quiet : d.reports = []) :
    Heard running d (d.handleGoodbye name) (.goodbye name) := by
  have erased : ∀ host other, LiveAt { d with liveInstances := Function.update d.liveInstances name none } host other →
      other ≠ name ∧ LiveAt d host other := fun _ _ live => liveAt_erased.mp live
  unfold DiscoveryState.handleGoodbye
  cases known : d.liveInstances name with
  | none =>
    refine .unheard rfl quiet (fun _ _ live => live) (fun _ _ same live => ?_) nofun
    cases same
    obtain ⟨_, found, _⟩ := live
    cases known.symm.trans found
  | some gone =>
    dsimp only
    split_ifs with resolved
    · have live : LiveAt d gone.hostId name := ⟨gone, known, resolved, rfl⟩
      have listed : ¬ d.liveByHostId gone.hostId = ∅ := Finset.ne_empty_of_mem (filed _ _ live)
      unfold DiscoveryState.forgetResolved
      rw [if_neg listed]
      exact .forgot name gone.hostId gone.deviceName live rfl (by rw [quiet]) erased
    · refine .unheard rfl quiet (fun host other live => (erased host other live).2) (fun _ _ same live => ?_) nofun
      cases same
      obtain ⟨_, found, really, _⟩ := live
      cases known.symm.trans found
      exact resolved really

theorem heard_step {event : InstanceEvent} (filed : Filed d) (quiet : d.reports = [])
    (taken : d.step event = some told) : Heard true d told event := by
  cases event with
  | browse name startsResolve =>
    cases taken
    exact heard_browse quiet
  | goodbye name =>
    cases taken
    exact heard_goodbye filed quiet
  | complete name packet =>
    rw [DiscoveryState.step] at taken
    split_ifs at taken
    cases packet with
    | none =>
      cases taken
      exact .unheard rfl quiet (fun _ _ live => live) (fun _ _ same => by cases same) (fun _ _ same => by cases same)
    | some peer =>
      cases taken
      have heard : Heard true { d with resolving := d.resolving.erase name }
          (DiscoveryState.handleResolved { d with resolving := d.resolving.erase name } name peer)
          (.complete name (some peer)) := heard_resolved quiet
      cases heard with
      | unheard lists silent live heard self => exact .unheard lists silent live heard self
      | added _ _ running foreign lists told live => exact .added name peer running foreign lists told live
  | published name =>
    cases taken
    exact .unheard rfl quiet (fun _ _ live => live) (fun _ _ same => by cases same) (fun _ _ same => by cases same)
  | identified hostId =>
    cases taken
    exact .unheard rfl quiet (fun _ _ live => live) (fun _ _ same => by cases same) (fun _ _ same => by cases same)

theorem heard_drop {event : InstanceEvent} {letIn : Bool} (filed : Filed d) (empty : ∀ host, d.liveByHostId host = ∅)
    (quiet : d.reports = []) (taken : d.drop letIn event = some told) : Heard false d told event := by
  have nothing : ∀ host name, ¬ LiveAt d host name := by
    intro host name live
    have member := filed host name live
    rw [empty] at member
    exact Finset.notMem_empty name member
  cases event with
  | complete name _ =>
    rw [DiscoveryState.drop] at taken
    split_ifs at taken
    cases taken
    exact .unheard rfl quiet (fun _ _ live => live) nofun nofun
  | identified hostId =>
    cases taken
    exact .unheard rfl quiet (fun _ _ live => live) nofun nofun
  | browse name startsResolve =>
    rw [DiscoveryState.drop] at taken
    split_ifs at taken <;> cases taken
    · exact heard_browse quiet
    · exact .unheard rfl quiet (fun _ _ live => live) nofun nofun
  | goodbye name =>
    rw [DiscoveryState.drop] at taken
    split_ifs at taken <;> cases taken
    · exact heard_goodbye filed quiet
    · exact .unheard rfl quiet (fun _ _ live => live) (fun _ _ _ => nothing _ _) nofun
  | published _ =>
    cases taken
    exact .unheard rfl quiet (fun _ _ live => live) (fun _ _ _ => nothing _ _) nofun

def came : Report → Bool
  | .added _ => true
  | .removed _ _ => false

def lastWord (reports : List Report) (host : HostId) : Option Bool :=
  ((reports.filter fun report => report.host = host).getLast?).map came

/-- The reconciler has the host, and will have it once the reports under way have arrived in their order. -/
def Kept (s : Neighbourhood) (host : HostId) : Prop :=
  match lastWord s.underWay host with
  | some came => came = true
  | none => Steady s.reconciler host

instance : Decidable (Kept s host) :=
  match word : lastWord s.underWay host with
  | some came => decidable_of_iff (came = true) (by rw [Kept, word])
  | none => decidable_of_iff (Steady s.reconciler host) (by rw [Kept, word])

/-- A tracked host is on the network, or its removal is pending, or a report about it is still under way. -/
def NoGhosts (s : Neighbourhood) : Prop :=
  ∀ host t, s.reconciler.active.find host = some t → (∃ name, (name, host) ∈ s.network) ∨
    (s.reconciler.pendingRemoval.find host).isSome = true ∨ ∃ report ∈ s.underWay, report.host = host

/-- Discovery runs and has resolved every instance on the network, but for our own, and what it reported has arrived. -/
def CaughtUp (s : Neighbourhood) : Prop :=
  s.runtime.discoveryRunning = true ∧ s.underWay = [] ∧
    ∀ present ∈ s.network, present.2 = s.discovery.localHostId ∨ LiveAt s.discovery present.2 present.1

/-- What discovery lists and what the reconciler keeps is on the network. -/
structure Accurate (s : Neighbourhood) : Prop where
  listed : ∀ host name, name ∈ s.discovery.liveByHostId host → (name, host) ∈ s.network
  present : ∀ host, Kept s host → ∃ name, (name, host) ∈ s.network

def LastOf (s : Neighbourhood) (name : InstanceName) (host : HostId) : Prop :=
  Kept s host ∧ ∀ present ∈ s.network, present.2 = host → present.1 = name

instance : Decidable (LastOf s name host) := inferInstanceAs (Decidable (_ ∧ _))

/-- The last word about the host was that it went, and without this report it is that it came. -/
def Overtakes (s : Neighbourhood) (index : Nat) (host : HostId) : Prop :=
  lastWord s.underWay host = some false ∧ lastWord (s.underWay.eraseIdx index) host = some true

instance {index : Nat} : Decidable (Overtakes s index host) := inferInstanceAs (Decidable (_ ∧ _))

/-- A resolve that is reported is that of an instance on the network. An instance that discovery lists, or that is
    the last one of a host the reconciler keeps, leaves only while discovery has it as resolved. And the report that a
    host went does not overtake the one that it came, unless the host is back. -/
def Noticed (s : Neighbourhood) : NeighbourEvent → Prop
  | .discover (.complete name (some peer)) _ =>
    s.runtime.discoveryRunning = true → s.discovery.filtersSelf peer = false → name ∈ s.network.map Prod.fst
  | .discover (.goodbye name) _ => ∀ present ∈ s.network, present.1 = name →
      (name ∈ s.discovery.liveByHostId present.2 ∨ LastOf s name present.2) → LiveAt s.discovery present.2 name
  | .deliver index _ _ =>
    ∀ report ∈ s.underWay[index]?, Overtakes s index report.host → report.host ∈ s.network.map Prod.snd
  | _ => True

instance noticedDecidable (s : Neighbourhood) : ∀ event, Decidable (Noticed s event)
  | .discover (.complete _ (some _)) _ => inferInstanceAs (Decidable (_ → _ → _))
  | .discover (.goodbye name) _ => inferInstanceAs (Decidable (∀ present ∈ s.network, present.1 = name →
      (name ∈ s.discovery.liveByHostId present.2 ∨ LastOf s name present.2) → LiveAt s.discovery present.2 name))
  | .deliver index _ _ => inferInstanceAs (Decidable
      (∀ report ∈ s.underWay[index]?, Overtakes s index report.host → report.host ∈ s.network.map Prod.snd))
  | .discover (.browse _ _) _ | .discover (.complete _ none) _ | .discover (.published _) _
  | .discover (.identified _) _ | .appear _ _ | .signal | .notify | .wake _ _ | .restart _ | .sweep _ | .exit _
  | .cull _ => isTrue trivial

section Reports

variable {reports : List Report} {report : Report} {index : Nat}

theorem lastWord_append (reports : List Report) (report : Report) (host : HostId) :
    lastWord (reports ++ [report]) host = if report.host = host then some (came report) else lastWord reports host := by
  rw [lastWord, List.filter_append, List.filter_singleton]
  split_ifs with same <;> simp [same, lastWord]

theorem lastWord_none : lastWord reports host = none ↔ ∀ report ∈ reports, report.host ≠ host := by
  simp [lastWord]

theorem eraseIdx_split (here : reports[index]? = some report) :
    ∃ before after, reports = before ++ report :: after ∧ reports.eraseIdx index = before ++ after := by
  obtain ⟨inside, there⟩ := List.getElem?_eq_some_iff.mp here
  refine ⟨reports.take index, reports.drop (index + 1), ?_, List.eraseIdx_eq_take_drop_succ _ _⟩
  rw [← there, List.getElem_cons_drop, List.take_append_drop]

theorem lastWord_eraseIdx_ne (here : reports[index]? = some report) (other : report.host ≠ host) :
    lastWord (reports.eraseIdx index) host = lastWord reports host := by
  obtain ⟨before, after, whole, rest⟩ := eraseIdx_split here
  rw [rest, whole, lastWord, lastWord, List.filter_append, List.filter_append, List.filter_cons,
    if_neg (by simpa using other)]

theorem lastWord_eraseIdx (here : reports[index]? = some report) :
    lastWord reports report.host = some (came report) ∨
      lastWord (reports.eraseIdx index) report.host = lastWord reports report.host := by
  obtain ⟨before, after, whole, rest⟩ := eraseIdx_split here
  rw [rest, whole, lastWord, lastWord, List.filter_append, List.filter_append, List.filter_cons, if_pos (by simp)]
  cases later : after.filter (fun other => other.host = report.host) with
  | nil => exact .inl (by simp)
  | cons head tail => exact .inr (by simp [List.getLast?_append, List.getLast?_cons])

theorem kept_congr {after : Neighbourhood} (underWay : after.underWay = s.underWay)
    (steady : Steady after.reconciler host → Steady s.reconciler host) (kept : Kept after host) : Kept s host := by
  unfold Kept at kept ⊢
  rw [underWay] at kept
  cases word : lastWord s.underWay host with
  | some came => rwa [word] at kept
  | none =>
    rw [word] at kept
    exact steady kept

theorem kept_append {after : Neighbourhood} (underWay : after.underWay = s.underWay ++ [report])
    (same : after.reconciler = s.reconciler) :
    Kept after host ↔ if report.host = host then came report = true else Kept s host := by
  unfold Kept
  rw [underWay, lastWord_append, same]
  split_ifs <;> rfl

end Reports

theorem Accurate.noGhosts (accurate : Accurate s) : NoGhosts s := by
  intro host t found
  cases word : lastWord s.underWay host with
  | some came =>
    refine .inr (.inr ?_)
    by_contra none
    push Not at none
    rw [lastWord_none.mpr none] at word
    cases word
  | none =>
    cases pending : s.reconciler.pendingRemoval.find host with
    | some removal => exact .inr (.inl rfl)
    | none =>
      have kept : Kept s host := by
        rw [Kept, word]
        exact ⟨found ▸ rfl, pending⟩
      exact .inl (accurate.present host kept)

structure Tabled (s : Neighbourhood) : Prop where
  filed : Filed s.discovery
  stopped : s.runtime.discoveryRunning = false → ∀ host, s.discovery.liveByHostId host = ∅
  between : ∀ now, s.phase = .restarting now → s.runtime.discoveryRunning = false
  announcers : (s.network.map Prod.fst).Nodup

theorem Tabled.announcer {host there : HostId} (tabled : Tabled s) (here : (name, host) ∈ s.network)
    (also : (name, there) ∈ s.network) : host = there :=
  congrArg Prod.snd (List.inj_on_of_nodup_map tabled.announcers here also rfl)

structure Discovers (s next : Neighbourhood) (event : InstanceEvent) : Prop where
  heard : Heard s.runtime.discoveryRunning s.discovery next.discovery event
  network : next.network = s.remaining event
  underWay : next.underWay = s.underWay ++ next.discovery.reports.reverse.filter Neighbourhood.reaches
  rest : next.runtime = s.runtime ∧ next.phase = s.phase ∧ next.reconciler = s.reconciler

theorem discovers {event : InstanceEvent} {letIn : Bool} (tabled : Tabled s)
    (taken : s.discover event letIn = some next) : Discovers s next event := by
  obtain ⟨told, stepped, rfl⟩ := Option.map_eq_some_iff.mp taken
  refine ⟨?_, rfl, rfl, rfl, rfl, rfl⟩
  have quiet : Filed { s.discovery with reports := [] } := tabled.filed
  -- The tables do not depend on the reports of the step before.
  have heard : Heard s.runtime.discoveryRunning { s.discovery with reports := [] } told event := by
    cases up : s.runtime.discoveryRunning with
    | true =>
      rw [up, if_pos rfl] at stepped
      exact heard_step quiet rfl stepped
    | false =>
      rw [up, if_neg Bool.false_ne_true] at stepped
      exact heard_drop quiet (tabled.stopped up) rfl stepped
  cases heard with
  | unheard lists silent live unknown self => exact .unheard lists silent live unknown self
  | added name peer up foreign lists silent live => exact .added name peer up foreign lists silent live
  | forgot name host deviceName known lists silent live => exact .forgot name host deviceName known lists silent live

theorem remaining_sublist (s : Neighbourhood) (event : InstanceEvent) : (s.remaining event).Sublist s.network := by
  cases event with
  | goodbye name => exact List.filter_sublist
  | _ => exact .refl _

theorem mem_remaining {event : InstanceEvent} :
    (other, host) ∈ s.remaining event ↔ (other, host) ∈ s.network ∧ event ≠ .goodbye other := by
  cases event with
  | goodbye name =>
    simp only [Neighbourhood.remaining, List.mem_filter, decide_eq_true_eq, ne_eq, InstanceEvent.goodbye.injEq]
    exact and_congr_right (fun _ => not_congr eq_comm)
  | _ => exact (and_iff_left nofun).symm

theorem Tabled.discover {event : InstanceEvent} {letIn : Bool} (tabled : Tabled s)
    (taken : s.discover event letIn = some next) : Tabled next := by
  obtain ⟨heard, network, -, runtime, phase, -⟩ := discovers tabled taken
  have between : ∀ now, next.phase = .restarting now → next.runtime.discoveryRunning = false := by
    rw [phase, runtime]
    exact tabled.between
  have announcers : (next.network.map Prod.fst).Nodup := by
    rw [network]
    exact tabled.announcers.sublist ((remaining_sublist s event).map _)
  cases heard with
  | unheard lists _ live _ _ =>
    refine ⟨fun host name here => ?_, fun off host => ?_, between, announcers⟩
    · rw [lists]
      exact tabled.filed host name (live host name here)
    · rw [lists]
      exact tabled.stopped (runtime ▸ off) host
  | added name peer up _ lists _ live =>
    refine ⟨fun host other here => ?_, fun off => ?_, between, announcers⟩
    · rw [lists]
      by_cases same : host = peer.hostId
      · subst same
        rw [Function.update_self, Finset.mem_insert]
        exact (live _ _ here).imp And.left (tabled.filed _ _)
      · rw [Function.update_of_ne same]
        exact tabled.filed _ _ ((live _ _ here).resolve_left (fun both => same both.2))
    · rw [runtime, up] at off
      cases off
  | forgot name there _ known lists _ live =>
    refine ⟨fun host other here => ?_, fun off => ?_, between, announcers⟩
    · rw [lists]
      obtain ⟨apart, before⟩ := live _ _ here
      by_cases same : host = there
      · subst same
        rw [Function.update_self, Finset.mem_erase]
        exact ⟨apart, tabled.filed _ _ before⟩
      · rw [Function.update_of_ne same]
        exact tabled.filed _ _ before
    · have listed := tabled.filed _ _ known
      rw [tabled.stopped (runtime ▸ off)] at listed
      cases Finset.notMem_empty _ listed

theorem noticed_goodbye {letIn : Bool} : Noticed s (.discover (.goodbye name) letIn) ↔
    ∀ host, (name, host) ∈ s.network →
      (name ∈ s.discovery.liveByHostId host ∨ LastOf s name host) → LiveAt s.discovery host name := by
  constructor
  · intro noticed host member
    exact noticed (name, host) member rfl
  · intro noticed present member named
    subst named
    exact noticed present.2 member

theorem accurate_congr (accurate : Accurate s) (lists : next.discovery.liveByHostId = s.discovery.liveByHostId)
    (network : next.network = s.network) (kept : ∀ host, Kept next host → Kept s host) : Accurate next := by
  refine ⟨fun host name listed => ?_, fun host here => ?_⟩
  · rw [network]
    exact accurate.listed host name (lists ▸ listed)
  · rw [network]
    exact accurate.present host (kept host here)

theorem accurate_unknown_goodbye {letIn : Bool} (accurate : Accurate s) (network : next.network = s.remaining (.goodbye name))
    (lists : next.discovery.liveByHostId = s.discovery.liveByHostId) (same : ∀ host, Kept next host ↔ Kept s host)
    (unknown : ∀ host, ¬ LiveAt s.discovery host name) :
    Accurate next ↔ Noticed s (.discover (.goodbye name) letIn) := by
  have stays : ∀ other host, (other, host) ∈ next.network ↔ (other, host) ∈ s.network ∧ name ≠ other := by
    intro other host
    rw [network, mem_remaining]
    simp
  rw [noticed_goodbye]
  constructor
  · rintro after host member (listed | ⟨kept, last⟩)
    · have still := after.listed host name (lists ▸ listed)
      exact absurd rfl ((stays _ _).mp still).2
    · obtain ⟨other, still⟩ := after.present host ((same host).mpr kept)
      obtain ⟨before, apart⟩ := (stays _ _).mp still
      exact absurd (last _ before rfl).symm apart
  · intro noticed
    refine ⟨fun host other listed => ?_, fun host kept => ?_⟩
    · rw [lists] at listed
      have before := accurate.listed host other listed
      refine (stays _ _).mpr ⟨before, fun here => ?_⟩
      subst here
      exact unknown host (noticed host before (.inl listed))
    · rw [same] at kept
      by_contra none
      have last : LastOf s name host := by
        refine ⟨kept, fun present member at_ => ?_⟩
        by_contra apart
        exact none ⟨present.1, (stays _ _).mpr ⟨at_ ▸ member, fun here => apart here.symm⟩⟩
      obtain ⟨other, before⟩ := accurate.present host kept
      have here : other = name := last.2 _ before rfl
      exact unknown host (noticed host (here ▸ before) (.inr last))

theorem accurate_added {peer : DiscoveredPeer} {letIn : Bool} (accurate : Accurate s) (up : s.runtime.discoveryRunning = true)
    (foreign : s.discovery.filtersSelf peer = false) (network : next.network = s.network)
    (lists : next.discovery.liveByHostId =
      Function.update s.discovery.liveByHostId peer.hostId (insert name (s.discovery.liveByHostId peer.hostId)))
    (kept : ∀ host, Kept next host → host = peer.hostId ∨ Kept s host)
    (resolves : s.Resolves (.complete name (some peer))) :
    Accurate next ↔ Noticed s (.discover (.complete name (some peer)) letIn) := by
  constructor
  · intro after _ _
    have listed : name ∈ next.discovery.liveByHostId peer.hostId := by
      rw [lists, Function.update_self]
      exact Finset.mem_insert_self _ _
    have member := after.listed peer.hostId name listed
    rw [network] at member
    exact List.mem_map.mpr ⟨_, member, rfl⟩
  · intro noticed
    have member : (name, peer.hostId) ∈ s.network := by
      obtain ⟨present, member, named⟩ := List.mem_map.mp (noticed up foreign)
      have announced := resolves present member named
      rwa [show present = (name, peer.hostId) from Prod.ext named announced] at member
    refine ⟨fun host other listed => ?_, fun host here => ?_⟩
    · rw [network]
      rw [lists] at listed
      by_cases same : host = peer.hostId
      · subst same
        rw [Function.update_self, Finset.mem_insert] at listed
        rcases listed with rfl | before
        · exact member
        · exact accurate.listed _ _ before
      · rw [Function.update_of_ne same] at listed
        exact accurate.listed _ _ listed
    · rw [network]
      rcases kept host here with rfl | before
      · exact ⟨name, member⟩
      · exact accurate.present host before

theorem accurate_goodbye {there : HostId} {letIn : Bool} (tabled : Tabled s) (accurate : Accurate s)
    (known : LiveAt s.discovery there name) (network : next.network = s.remaining (.goodbye name))
    (lists : next.discovery.liveByHostId =
      Function.update s.discovery.liveByHostId there ((s.discovery.liveByHostId there).erase name))
    (kept : ∀ host, Kept next host → Kept s host ∧
      ((s.discovery.liveByHostId there).erase name = ∅ → host ≠ there)) :
    Accurate next ∧ Noticed s (.discover (.goodbye name) letIn) := by
  have here : (name, there) ∈ s.network := accurate.listed _ _ (tabled.filed _ _ known)
  have stays : ∀ other host, (other, host) ∈ s.network → name ≠ other → (other, host) ∈ next.network := by
    intro other host member apart
    rw [network, mem_remaining]
    exact ⟨member, fun same => apart (InstanceEvent.goodbye.inj same)⟩
  refine ⟨⟨fun host other listed => ?_, fun host still => ?_⟩, ?_⟩
  · rw [lists] at listed
    by_cases same : host = there
    · subst same
      rw [Function.update_self, Finset.mem_erase] at listed
      exact stays _ _ (accurate.listed _ _ listed.2) (Ne.symm listed.1)
    · rw [Function.update_of_ne same] at listed
      have before := accurate.listed _ _ listed
      refine stays _ _ before (fun named => ?_)
      subst named
      exact same (tabled.announcer before here)
  · obtain ⟨before, removed⟩ := kept host still
    by_cases same : host = there
    · subst same
      obtain ⟨other, left⟩ := Finset.nonempty_iff_ne_empty.mpr (fun last => removed last rfl)
      obtain ⟨apart, listed⟩ := Finset.mem_erase.mp left
      exact ⟨other, stays _ _ (accurate.listed _ _ listed) (Ne.symm apart)⟩
    · obtain ⟨other, member⟩ := accurate.present host before
      refine ⟨other, stays _ _ member (fun named => ?_)⟩
      subst named
      exact same (tabled.announcer member here)
  · rw [noticed_goodbye]
    intro host member _
    rwa [tabled.announcer member here]

theorem kept_discovers {event : InstanceEvent} (discovers : Discovers s next event) :
    (next.discovery.reports = [] → ∀ host, Kept next host ↔ Kept s host) ∧
      (∀ peer, next.discovery.reports = [.added peer] → ∀ host, Kept next host → host = peer.hostId ∨ Kept s host) ∧
      ∀ gone deviceName, next.discovery.reports = [.removed gone deviceName] → ∀ host,
        Kept next host → Kept s host ∧ host ≠ gone := by
  obtain ⟨-, -, underWay, -, -, same⟩ := discovers
  have still : next.underWay = s.underWay → ∀ host, Kept next host ↔ Kept s host := by
    intro quiet host
    unfold Kept
    rw [quiet, same]
  refine ⟨fun silent => still (by rw [underWay, silent]; exact List.append_nil _), fun peer told host kept => ?_,
    fun gone deviceName told host kept => ?_⟩
  · rw [told] at underWay
    by_cases port : peer.port = 0
    · have quiet : next.underWay = s.underWay := by simpa [Neighbourhood.reaches, port] using underWay
      exact .inr ((still quiet host).mp kept)
    · have more : next.underWay = s.underWay ++ [.added peer] := by
        simpa [Neighbourhood.reaches, port] using underWay
      rw [kept_append more same] at kept
      split_ifs at kept with named
      · exact .inl named.symm
      · exact .inr kept
  · rw [told] at underWay
    have more : next.underWay = s.underWay ++ [.removed gone deviceName] := underWay
    rw [kept_append more same] at kept
    split_ifs at kept with named
    · cases kept
    · exact ⟨kept, fun here => named here.symm⟩

theorem accurate_discover {event : InstanceEvent} {letIn : Bool} (tabled : Tabled s) (accurate : Accurate s)
    (resolves : s.Resolves event) (taken : s.discover event letIn = some next) :
    Accurate next ↔ Noticed s (.discover event letIn) := by
  have made := discovers tabled taken
  obtain ⟨silent, came, went⟩ := kept_discovers made
  obtain ⟨heard, network, -⟩ := made
  cases heard with
  | unheard lists quiet live unknown self =>
    have same := silent quiet
    cases event with
    | goodbye name => exact accurate_unknown_goodbye accurate network lists same (fun host => unknown name host rfl)
    | complete name packet =>
      refine iff_of_true (accurate_congr accurate lists network (fun host => (same host).mp)) ?_
      cases packet with
      | none => exact trivial
      | some peer =>
        intro up foreign
        cases foreign.symm.trans (self name peer rfl up)
    | browse _ _ | published _ | identified _ =>
      exact iff_of_true (accurate_congr accurate lists network (fun host => (same host).mp)) trivial
  | added name peer up foreign lists told _ =>
    exact accurate_added accurate up foreign network lists (came peer told) resolves
  | forgot name there deviceName known lists told _ =>
    have both : Accurate next ∧ Noticed s (.discover (.goodbye name) letIn) := by
      refine accurate_goodbye tabled accurate known network lists (fun host kept => ?_)
      split_ifs at told with last
      · obtain ⟨before, apart⟩ := went there deviceName told host kept
        exact ⟨before, fun _ => apart⟩
      · exact ⟨(silent told host).mp kept, fun empty => absurd empty last⟩
    exact iff_of_true both.1 both.2

/-- A report that arrives leaves what is kept, unless it is overtaken. -/
theorem kept_deliver {index : Nat} {report : Report} (here : s.underWay[index]? = some report)
    (taken : s.deliver index now starts = some next) :
    (∀ host, Kept next host → Kept s host ∨ host = report.host ∧ Overtakes s index host) ∧
      (Overtakes s index report.host → Kept next report.host) := by
  rw [Neighbourhood.deliver, here, Option.map_some, Option.some.injEq] at taken
  have underWay : next.underWay = s.underWay.eraseIdx index := by rw [← taken]
  have reconciler : next.reconciler = (s.onDiscoveryEvent now starts report).reconciler := by rw [← taken]
  refine ⟨fun host kept => ?_, fun overtakes => ?_⟩
  · unfold Kept at kept ⊢
    rw [underWay] at kept
    by_cases same : report.host = host
    · subst same
      rcases lastWord_eraseIdx here with last | stands
      · rw [last]
        cases report with
        | added peer => exact .inl rfl
        | removed gone deviceName =>
          cases word : lastWord (s.underWay.eraseIdx index) gone with
          | some came =>
            have back : lastWord (s.underWay.eraseIdx index) (Report.removed gone deviceName).host = some came := word
            simp only [back] at kept
            subst kept
            exact .inr ⟨rfl, last, back⟩
          | none =>
            have back : lastWord (s.underWay.eraseIdx index) (Report.removed gone deviceName).host = none := word
            simp only [back, reconciler, Neighbourhood.onDiscoveryEvent] at kept
            exact absurd rfl (steady_onRemoved.mp kept).2
      · left
        rw [stands] at kept
        cases word : lastWord s.underWay report.host with
        | some came => rwa [word] at kept
        | none =>
          have member : report ∈ s.underWay := List.mem_of_getElem? here
          exact absurd rfl (lastWord_none.mp word report member)
    · left
      rw [lastWord_eraseIdx_ne here same] at kept
      cases word : lastWord s.underWay host with
      | some came => rwa [word] at kept
      | none =>
        rw [word, reconciler] at kept
        cases report with
        | added peer => exact (steady_onAdded kept).resolve_left (fun named => same named.symm)
        | removed gone deviceName => exact (steady_onRemoved.mp kept).1
  · unfold Kept
    rw [underWay, overtakes.2]

theorem accurate_deliver {index : Nat} (accurate : Accurate s) (taken : s.deliver index now starts = some next) :
    Accurate next ↔ Noticed s (.deliver index now starts) := by
  obtain ⟨report, here, moved⟩ := Option.map_eq_some_iff.mp taken
  obtain ⟨before, after⟩ := kept_deliver here taken
  have network : next.network = s.network := by
    rw [← moved]
    cases report <;> rfl
  have lists : next.discovery.liveByHostId = s.discovery.liveByHostId := by
    rw [← moved]
    cases report <;> rfl
  constructor
  · intro later arrived member overtakes
    obtain rfl := Option.some.inj (here.symm.trans member)
    obtain ⟨name, present⟩ := later.present report.host (after overtakes)
    rw [network] at present
    exact List.mem_map.mpr ⟨_, present, rfl⟩
  · intro noticed
    refine ⟨fun host name listed => ?_, fun host kept => ?_⟩
    · rw [network]
      exact accurate.listed host name (lists ▸ listed)
    · rw [network]
      rcases before host kept with still | ⟨rfl, overtakes⟩
      · exact accurate.present host still
      · obtain ⟨present, member, named⟩ := List.mem_map.mp (noticed report here overtakes)
        exact ⟨present.1, named ▸ member⟩

theorem rehash_discoveryRunning {hash : UInt64} : (runtime.rehash hash).discoveryRunning = runtime.discoveryRunning := by
  rcases rehash_cases runtime hash with ⟨_, _, _, equal⟩ | ⟨_, equal⟩ <;> rw [equal]

theorem Tabled.wake {hash : UInt64} (tabled : Tabled s) : Tabled (s.wake now hash) := by
  unfold Neighbourhood.wake
  dsimp only
  split_ifs with due up
  · refine ⟨fun host name live => ?_, fun _ _ => rfl, fun _ _ => rfl, tabled.announcers⟩
    obtain ⟨_, found, _⟩ := live
    cases found
  · rw [rehash_discoveryRunning] at up
    exact ⟨tabled.filed, fun _ => tabled.stopped (by simpa using up), fun _ _ => rfl, tabled.announcers⟩
  · refine ⟨tabled.filed, fun off => tabled.stopped ?_, nofun, tabled.announcers⟩
    rwa [rehash_discoveryRunning] at off

theorem Tabled.restart {startsDiscovery : Bool} (tabled : Tabled s) (taken : s.restart startsDiscovery = some next) :
    Tabled next := by
  rw [Neighbourhood.restart] at taken
  split at taken
  · rename_i now phase
    cases taken
    exact ⟨tabled.filed, fun _ => tabled.stopped (tabled.between now phase), nofun, tabled.announcers⟩
  · cases taken
  · cases taken

theorem Tabled.step {event : NeighbourEvent} (tabled : Tabled s) (taken : s.step event = some next) :
    Tabled next := by
  cases event with
  | appear name host =>
    rw [Neighbourhood.step] at taken
    split_ifs at taken with known
    cases taken
    rw [List.contains_iff_mem] at known
    exact ⟨tabled.filed, tabled.stopped, tabled.between, List.nodup_cons.mpr ⟨known, tabled.announcers⟩⟩
  | discover event letIn =>
    rw [Neighbourhood.step] at taken
    split_ifs at taken
    exact tabled.discover taken
  | deliver index now starts =>
    obtain ⟨report, -, rfl⟩ := Option.map_eq_some_iff.mp taken
    cases report <;> exact ⟨tabled.filed, tabled.stopped, tabled.between, tabled.announcers⟩
  | wake now hash =>
    rw [Neighbourhood.step] at taken
    split_ifs at taken
    cases taken
    exact tabled.wake
  | restart startsDiscovery => exact tabled.restart taken
  | sweep starts =>
    rw [Neighbourhood.step, Neighbourhood.sweep] at taken
    split at taken <;> cases taken
    exact ⟨tabled.filed, tabled.stopped, nofun, tabled.announcers⟩
  | signal =>
    rw [Neighbourhood.step] at taken
    split_ifs at taken
    cases taken
    exact ⟨tabled.filed, tabled.stopped, tabled.between, tabled.announcers⟩
  | notify | exit _ | cull _ =>
    cases taken
    exact ⟨tabled.filed, tabled.stopped, tabled.between, tabled.announcers⟩

theorem Accurate.wake {hash : UInt64} (accurate : Accurate s) : Accurate (s.wake now hash) := by
  unfold Neighbourhood.wake
  dsimp only
  split_ifs
  · refine ⟨fun host name listed => ?_, accurate.present⟩
    exact absurd listed (Finset.notMem_empty name)
  · exact ⟨accurate.listed, accurate.present⟩
  · exact ⟨accurate.listed, accurate.present⟩

/-- Up to the first event that fails the condition the tables agree with the network, and after it they do not. -/
theorem accurate_step {event : NeighbourEvent} (tabled : Tabled s) (accurate : Accurate s)
    (taken : s.step event = some next) : Accurate next ↔ Noticed s event := by
  cases event with
  | appear name host =>
    rw [Neighbourhood.step] at taken
    split_ifs at taken
    cases taken
    refine iff_of_true ⟨fun host name listed => ?_, fun host kept => ?_⟩ trivial
    · exact List.mem_cons_of_mem _ (accurate.listed host name listed)
    · obtain ⟨name, member⟩ := accurate.present host kept
      exact ⟨name, List.mem_cons_of_mem _ member⟩
  | discover event letIn =>
    rw [Neighbourhood.step] at taken
    split_ifs at taken with resolves
    exact accurate_discover tabled accurate resolves taken
  | deliver index now starts => exact accurate_deliver accurate taken
  | wake now hash =>
    rw [Neighbourhood.step] at taken
    split_ifs at taken
    cases taken
    exact iff_of_true accurate.wake trivial
  | restart startsDiscovery =>
    rw [Neighbourhood.step, Neighbourhood.restart] at taken
    split at taken <;> cases taken
    exact iff_of_true ⟨accurate.listed, accurate.present⟩ trivial
  | sweep starts =>
    rw [Neighbourhood.step, Neighbourhood.sweep] at taken
    split at taken <;> cases taken
    exact iff_of_true (accurate_congr accurate rfl rfl fun host => kept_congr rfl steady_sweep) trivial
  | signal =>
    rw [Neighbourhood.step] at taken
    split_ifs at taken
    cases taken
    exact iff_of_true ⟨accurate.listed, accurate.present⟩ trivial
  | notify | exit _ | cull _ =>
    cases taken
    exact iff_of_true ⟨accurate.listed, accurate.present⟩ trivial

theorem run_accurate {localHostId : HostId} {hash : UInt64} {startsDiscovery : Bool} {events : List NeighbourEvent}
    (path : Path Neighbourhood.step Noticed (Neighbourhood.boot localHostId hash now startsDiscovery) events s) :
    Tabled s ∧ Accurate s := by
  refine path.invariant (fun s => Tabled s ∧ Accurate s) ?_ ?_
  · intro s event next both noticed taken
    exact ⟨both.1.step taken, (accurate_step both.1 both.2 taken).mpr noticed⟩
  · refine ⟨⟨fun host name live => ?_, fun _ _ => rfl, nofun, List.nodup_nil⟩, fun host name listed => ?_,
      fun host kept => ?_⟩
    · obtain ⟨_, found, _⟩ := live
      cases found
    · exact absurd listed (Finset.notMem_empty name)
    · cases kept.1

/-- While every departure is noticed there are no ghosts, whether or not discovery has caught up. -/
theorem no_ghosts_while_noticed (localHostId : HostId) (hash : UInt64) (now : Nat) (startsDiscovery : Bool)
    (events : List NeighbourEvent) (s : Neighbourhood)
    (path : Path Neighbourhood.step Noticed (Neighbourhood.boot localHostId hash now startsDiscovery) events s) :
    NoGhosts s ∧ ∀ event next, s.step event = some next → (Accurate next ↔ Noticed s event) := by
  obtain ⟨tabled, accurate⟩ := run_accurate path
  exact ⟨accurate.noGhosts, fun event next taken => accurate_step tabled accurate taken⟩

namespace OneRestart

open OneInstance

def laptopName : InstanceName := [98]

def laptop : DiscoveredPeer :=
  { deviceName := [0x70], ip := [0x32], hostId := ⟨List.replicate 16 9, rfl⟩, port := 1 }

def arrives : NeighbourEvent := .deliver 0 0 (fun _ => true)

def resolve (name : InstanceName) (peer : DiscoveredPeer) : List NeighbourEvent :=
  [.discover (.browse name true) false, .discover (.complete name (some peer)) false]

/-- Both peers are discovered, and a change of the interfaces restarts discovery. -/
def restarted : List NeighbourEvent :=
  [.appear tablet device.hostId, .appear laptopName laptop.hostId] ++ resolve tablet device ++ [arrives] ++
    resolve laptopName laptop ++
    [arrives, .notify, .wake (seconds 10) 2, .restart true, .sweep (fun _ => true)]

def tabletLeaves : NeighbourEvent := .discover (.goodbye tablet) false

def leavesLate : List NeighbourEvent :=
  restarted ++ resolve laptopName laptop ++ [arrives] ++ resolve tablet device ++ [arrives, tabletLeaves, arrives]

/-- The tablet leaves before it has been seen again; the laptop is resolved. -/
def leavesEarly : List NeighbourEvent := restarted ++ [tabletLeaves] ++ resolve laptopName laptop ++ [arrives]

/-- The report that the tablet went overtakes the one that it came. -/
def overtaken : List NeighbourEvent :=
  [.appear tablet device.hostId] ++ resolve tablet device ++ [tabletLeaves, .deliver 1 0 (fun _ => true), arrives]

def atBoot : Neighbourhood := .boot HostId.zero 1 0 true

end OneRestart

open OneRestart in
theorem late_departure_leaves_no_ghost : NoGhosts (lastOf Neighbourhood.step atBoot leavesLate) :=
  (no_ghosts_while_noticed HostId.zero 1 0 true leavesLate _ (fitting_to_lastOf (by decide +kernel))).1

open OneRestart OneInstance in
/-- The tablet stays tracked, and will not be reported as removed. -/
theorem early_departure_leaves_ghost :
    ¬ ∀ events s, Path Neighbourhood.step (fun _ _ => True) atBoot events s → CaughtUp s → NoGhosts s := by
  intro always
  have run : Path Neighbourhood.step (fun _ _ => True) atBoot leavesEarly
      (lastOf Neighbourhood.step atBoot leavesEarly) :=
    path_to_lastOf (fun _ _ _ => trivial) (by decide +kernel)
  have network : (lastOf Neighbourhood.step atBoot leavesEarly).network = [(laptopName, laptop.hostId)] := by
    decide +kernel
  have steady : Steady (lastOf Neighbourhood.step atBoot leavesEarly).reconciler device.hostId := by decide +kernel
  have arrived : (lastOf Neighbourhood.step atBoot leavesEarly).underWay.length = 0 := by decide +kernel
  rw [List.length_eq_zero_iff] at arrived
  have caughtUp : CaughtUp (lastOf Neighbourhood.step atBoot leavesEarly) := by
    refine ⟨by decide +kernel, arrived, ?_⟩
    rw [network]
    decide +kernel
  obtain ⟨t, found⟩ := Option.isSome_iff_exists.mp steady.1
  rcases always leavesEarly _ run caughtUp device.hostId t found with ⟨name, member⟩ | pending | ⟨report, member, -⟩
  · rw [network] at member
    have other : device.hostId ≠ laptop.hostId := by decide
    exact other (congrArg Prod.snd (List.mem_singleton.mp member))
  · rw [steady.2] at pending
    cases pending
  · rw [arrived] at member
    cases member

open OneRestart OneInstance in
/-- Nor does the tablet leave the reconciler where the report that it went overtakes the one that it came. -/
example : (lastOf Neighbourhood.step atBoot overtaken).network.length = 0 ∧
    (lastOf Neighbourhood.step atBoot overtaken).underWay.length = 0 ∧
    Steady (lastOf Neighbourhood.step atBoot overtaken).reconciler device.hostId := by decide +kernel

end ClippProof.Discovery
