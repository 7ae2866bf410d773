import Mathlib.Data.Finset.Basic
import Mathlib.Logic.Function.Basic
import Clipp.Foundation.Machine
import Clipp.Peers.Reconciler

open Foundation

namespace ClippModel.Discovery

open ClippModel.Registers ClippModel.Peers

/-- The name of a service instance in the text of the system, one number a code unit. -/
abbrev InstanceName : Type := List UInt16

def kServiceType : InstanceName := "_clipp._tcp.local".toList.map (fun c => UInt16.ofNat c.toNat)

def fullInstanceFqdn (instance_ : InstanceName) : InstanceName := instance_ ++ 46 :: kServiceType

def lowerAscii (name : InstanceName) : InstanceName :=
  name.map (fun c => if 65 ≤ c ∧ c ≤ 90 then c - 65 + 97 else c)

structure InstanceState where
  resolved : Bool
  hostId : HostId
  deviceName : Bytes
deriving DecidableEq

inductive Report where
  | added (peer : DiscoveredPeer)
  | removed (hostId : HostId) (deviceName : Bytes)

def Report.host : Report → HostId
  | .added peer => peer.hostId
  | .removed hostId _ => hostId

/-- `resolving` lists the resolves that have yet to complete, `reports` what the callback was told, the last one
    first. A host is missing from `liveByHostId` where its set is empty. -/
structure DiscoveryState where
  includeSelf : Bool
  localHostId : HostId
  publishedInstanceName : InstanceName
  hostIDCollisionWarning : Bool
  liveInstances : InstanceName → Option InstanceState
  liveByHostId : HostId → Finset InstanceName
  resolving : List InstanceName
  reports : List Report

/-- `startsResolve` tells whether the system takes the request, `packet` what a completed resolve brought: nothing
    where it failed, its text was not for our network or it had no address. -/
inductive InstanceEvent where
  | browse (name : InstanceName) (startsResolve : Bool)
  | goodbye (name : InstanceName)
  | complete (name : InstanceName) (packet : Option DiscoveredPeer)
  | published (name : InstanceName)
  | identified (hostId : HostId)

namespace DiscoveryState

def start (localHostId : HostId) (includeSelf : Bool) : DiscoveryState where
  includeSelf := includeSelf
  localHostId := localHostId
  publishedInstanceName := []
  hostIDCollisionWarning := false
  liveInstances _ := none
  liveByHostId _ := ∅
  resolving := []
  reports := []

/-- A resolve that names our own host is not tracked, unless the browse includes it. -/
def filtersSelf (s : DiscoveryState) (peer : DiscoveredPeer) : Bool := peer.hostId = s.localHostId && !s.includeSelf

def markResolved (s : DiscoveryState) (name : InstanceName) (peer : DiscoveredPeer) :
    InstanceName → Option InstanceState :=
  match s.liveInstances name with
  | some _ => Function.update s.liveInstances name
      (some { resolved := true, hostId := peer.hostId, deviceName := peer.deviceName })
  | none => s.liveInstances

def handleResolved (s : DiscoveryState) (name : InstanceName) (peer : DiscoveredPeer) : DiscoveryState :=
  if s.filtersSelf peer then
    let isSelf := (lowerAscii s.publishedInstanceName).isPrefixOf (lowerAscii name)
    { s with hostIDCollisionWarning := s.hostIDCollisionWarning || !isSelf }
  else
    { s with liveInstances := s.markResolved name peer
             liveByHostId := Function.update s.liveByHostId peer.hostId (insert name (s.liveByHostId peer.hostId))
             reports := .added peer :: s.reports }

/-- Removed is reported where the set of the host becomes empty. -/
def forgetResolved (s : DiscoveryState) (name : InstanceName) (gone : InstanceState) : DiscoveryState :=
  if s.liveByHostId gone.hostId = ∅ then s
  else
    let rest := (s.liveByHostId gone.hostId).erase name
    { s with liveByHostId := Function.update s.liveByHostId gone.hostId rest
             reports := if rest = ∅ then .removed gone.hostId gone.deviceName :: s.reports else s.reports }

def handleGoodbye (s : DiscoveryState) (name : InstanceName) : DiscoveryState :=
  match s.liveInstances name with
  | none => s
  | some gone =>
    let erased := { s with liveInstances := Function.update s.liveInstances name none }
    if gone.resolved then erased.forgetResolved name gone else erased

/-- Our own instance and those already known are passed over. -/
def handleBrowse (s : DiscoveryState) (name : InstanceName) (startsResolve : Bool) : DiscoveryState :=
  if s.publishedInstanceName ≠ [] ∧ lowerAscii name = lowerAscii (fullInstanceFqdn s.publishedInstanceName) then s
  else
    match s.liveInstances name with
    | some _ => s
    | none =>
      { s with liveInstances := Function.update s.liveInstances name
                 (some { resolved := false, hostId := HostId.zero, deviceName := [] })
               resolving := if startsResolve then name :: s.resolving else s.resolving }

def step (s : DiscoveryState) : InstanceEvent → Option DiscoveryState
  | .browse name startsResolve => some (s.handleBrowse name startsResolve)
  | .goodbye name => some (s.handleGoodbye name)
  | .complete name packet =>
    if name ∈ s.resolving then
      let completed := { s with resolving := s.resolving.erase name }
      match packet with
      | some peer => some (completed.handleResolved name peer)
      | none => some completed
    else none
  | .published name => some { s with publishedInstanceName := name }
  | .identified hostId => some { s with localHostId := hostId }

end DiscoveryState

end ClippModel.Discovery

namespace ClippProof.Discovery

open ClippModel.Registers ClippModel.Peers ClippModel.Discovery ClippModel.Discovery.DiscoveryState

variable {s next : DiscoveryState} {name : InstanceName} {peer : DiscoveredPeer} {host : HostId}

/-- The instance is live and its resolve named the host. -/
def LiveAt (s : DiscoveryState) (host : HostId) (name : InstanceName) : Prop :=
  ∃ state, s.liveInstances name = some state ∧ state.resolved = true ∧ state.hostId = host

def lastReport (s : DiscoveryState) (host : HostId) : Option Report := s.reports.find? (fun r => r.host = host)

def Reported (s : DiscoveryState) (host : HostId) : Prop := ∃ peer, lastReport s host = some (.added peer)

structure Bookkept (s : DiscoveryState) : Prop where
  exact : ∀ host name, name ∈ s.liveByHostId host ↔ LiveAt s host name
  reported : ∀ host, Reported s host ↔ ∃ name, LiveAt s host name

/-- A resolve is tracked only while its instance is live and has not been resolved to another host. -/
def ResolveFits (s : DiscoveryState) : InstanceEvent → Prop
  | .complete name (some peer) => s.filtersSelf peer = true ∨
      ∃ state ∈ s.liveInstances name, state.resolved = true → state.hostId = peer.hostId
  | .complete _ none | .browse _ _ | .goodbye _ | .published _ | .identified _ => True

instance resolveFitsDecidable (s : DiscoveryState) : ∀ event, Decidable (ResolveFits s event)
  | .complete name (some peer) => inferInstanceAs (Decidable (s.filtersSelf peer = true ∨ ∃ state ∈ s.liveInstances name, _ → _))
  | .complete _ none | .browse _ _ | .goodbye _ | .published _ | .identified _ => isTrue trivial

theorem LiveAt.unique {other : HostId} (live : LiveAt s host name) (there : LiveAt s other name) : host = other := by
  obtain ⟨state, found, _, here⟩ := live
  obtain ⟨again, same, _, named⟩ := there
  cases found.symm.trans same
  exact here.symm.trans named

theorem liveAt_update {live : InstanceName → Option InstanceState} {state : Option InstanceState}
    {other : InstanceName} :
    (∃ st, Function.update live name state other = some st ∧ st.resolved = true ∧ st.hostId = host) ↔
      if other = name then ∃ st, state = some st ∧ st.resolved = true ∧ st.hostId = host
      else ∃ st, live other = some st ∧ st.resolved = true ∧ st.hostId = host := by
  split_ifs with same
  · rw [same, Function.update_self]
  · rw [Function.update_of_ne same]

theorem bookkept_start (localHostId : HostId) (includeSelf : Bool) :
    Bookkept (DiscoveryState.start localHostId includeSelf) where
  exact _ name := iff_of_false (Finset.notMem_empty name) nofun
  reported _ := iff_of_false nofun nofun

theorem liveAt_browsed {other : InstanceName} (known : s.liveInstances name = none) :
    (∃ st, Function.update s.liveInstances name (some { resolved := false, hostId := HostId.zero, deviceName := [] })
      other = some st ∧ st.resolved = true ∧ st.hostId = host) ↔ LiveAt s host other := by
  rw [liveAt_update, LiveAt]
  split_ifs with same
  · rw [same, known]
    exact iff_of_false (by rintro ⟨_, ⟨⟩, resolved, _⟩; cases resolved) nofun
  · exact Iff.rfl

theorem Bookkept.handleBrowse {startsResolve : Bool} (bookkept : Bookkept s) :
    Bookkept (s.handleBrowse name startsResolve) := by
  unfold DiscoveryState.handleBrowse
  by_cases own : s.publishedInstanceName ≠ [] ∧
      lowerAscii name = lowerAscii (fullInstanceFqdn s.publishedInstanceName)
  · rw [if_pos own]
    exact bookkept
  · rw [if_neg own]
    cases known : s.liveInstances name with
    | some state => exact bookkept
    | none =>
      refine ⟨fun host other => (bookkept.exact host other).trans (liveAt_browsed known).symm, fun host => ?_⟩
      exact (bookkept.reported host).trans (exists_congr fun other => (liveAt_browsed known).symm)

theorem lastReport_cons {report : Report} {reports : List Report} :
    (report :: reports).find? (fun r => r.host = host) =
      if report.host = host then some report else reports.find? (fun r => r.host = host) := by
  rw [List.find?_cons]
  by_cases same : report.host = host <;> simp [same]

theorem Bookkept.filtered (bookkept : Bookkept s) (self : s.filtersSelf peer = true) :
    Bookkept (s.handleResolved name peer) := by
  unfold DiscoveryState.handleResolved
  rw [if_pos self]
  exact ⟨bookkept.exact, bookkept.reported⟩

theorem Bookkept.resolved {state : InstanceState} (bookkept : Bookkept s) (foreign : s.filtersSelf peer = false)
    (live : s.liveInstances name = some state) (same : state.resolved = true → state.hostId = peer.hostId) :
    Bookkept (s.handleResolved name peer) := by
  have only : ∀ host, LiveAt s host name → host = peer.hostId := by
    rintro host ⟨_, found, resolved, rfl⟩
    cases live.symm.trans found
    exact same resolved
  have lives : ∀ host other, LiveAt (s.handleResolved name peer) host other ↔
      if other = name then peer.hostId = host else LiveAt s host other := by
    intro host other
    simp only [LiveAt, DiscoveryState.handleResolved, foreign, Bool.false_eq_true, if_false, markResolved, live]
    rw [liveAt_update]
    split_ifs
    · exact ⟨by rintro ⟨_, ⟨⟩, _, named⟩; exact named, fun named => ⟨_, rfl, rfl, named⟩⟩
    · exact Iff.rfl
  refine ⟨fun host other => ?_, fun host => ?_⟩
  · rw [lives host other]
    simp only [DiscoveryState.handleResolved, foreign, Bool.false_eq_true, if_false]
    by_cases here : host = peer.hostId
    · subst here
      rw [Function.update_self, Finset.mem_insert, bookkept.exact]
      split_ifs with named
      · exact iff_of_true (.inl named) rfl
      · exact or_iff_right named
    · rw [Function.update_of_ne here, bookkept.exact]
      split_ifs with named
      · subst named
        exact iff_of_false (fun there => here (only host there)) (Ne.symm here)
      · exact Iff.rfl
  · simp only [Reported, lastReport, lives]
    simp only [DiscoveryState.handleResolved, foreign, Bool.false_eq_true, if_false, lastReport_cons]
    by_cases here : peer.hostId = host
    · exact iff_of_true ⟨peer, if_pos here⟩ ⟨name, by rw [if_pos rfl]; exact here⟩
    · have kept : (if (Report.added peer).host = host then some (.added peer)
          else s.reports.find? (fun r => r.host = host)) = lastReport s host := if_neg here
      simp only [kept]
      refine (bookkept.reported host).trans (exists_congr fun other => ?_)
      split_ifs with named
      · subst named
        exact iff_of_false (fun there => here (only host there).symm) here
      · exact Iff.rfl

theorem liveAt_erased {live : InstanceName → Option InstanceState} {other : InstanceName} :
    (∃ st, Function.update live name none other = some st ∧ st.resolved = true ∧ st.hostId = host) ↔
      other ≠ name ∧ ∃ st, live other = some st ∧ st.resolved = true ∧ st.hostId = host := by
  rw [liveAt_update]
  split_ifs with same
  · exact iff_of_false nofun (fun both => both.1 same)
  · exact (and_iff_right same).symm

theorem Bookkept.goodbye_unresolved {gone : InstanceState} (bookkept : Bookkept s)
    (live : s.liveInstances name = some gone) (unresolved : gone.resolved ≠ true) :
    Bookkept { s with liveInstances := Function.update s.liveInstances name none } := by
  have lives : ∀ host other, LiveAt { s with liveInstances := Function.update s.liveInstances name none } host other ↔
      LiveAt s host other := by
    intro host other
    refine liveAt_erased.trans (and_iff_right_of_imp ?_)
    rintro ⟨state, found, resolved, _⟩ same
    rw [same] at found
    cases live.symm.trans found
    exact unresolved resolved
  refine ⟨fun host other => (bookkept.exact host other).trans (lives host other).symm, fun host => ?_⟩
  exact (bookkept.reported host).trans (exists_congr fun other => (lives host other).symm)

theorem Bookkept.goodbye_resolved {gone : InstanceState} (bookkept : Bookkept s)
    (live : s.liveInstances name = some gone) (resolved : gone.resolved = true) :
    Bookkept (DiscoveryState.forgetResolved
      { s with liveInstances := Function.update s.liveInstances name none } name gone) := by
  have here : LiveAt s gone.hostId name := ⟨gone, live, resolved, rfl⟩
  have member : name ∈ s.liveByHostId gone.hostId := (bookkept.exact _ _).mpr here
  have nonempty : ¬ s.liveByHostId gone.hostId = ∅ := Finset.ne_empty_of_mem member
  unfold DiscoveryState.forgetResolved
  rw [if_neg nonempty]
  have lives : ∀ host other, other ∈ Function.update s.liveByHostId gone.hostId
      ((s.liveByHostId gone.hostId).erase name) host ↔ other ≠ name ∧ LiveAt s host other := by
    intro host other
    by_cases same : host = gone.hostId
    · rw [same, Function.update_self, Finset.mem_erase, bookkept.exact]
    · rw [Function.update_of_ne same, bookkept.exact]
      refine (and_iff_right_of_imp fun there named => ?_).symm
      rw [named] at there
      exact same (there.unique here)
  refine ⟨fun host other => (lives host other).trans liveAt_erased.symm, fun host => ?_⟩
  have remaining : (∃ other, LiveAt { s with liveInstances := Function.update s.liveInstances name none } host other) ↔
      ∃ other, other ≠ name ∧ LiveAt s host other := exists_congr fun other => liveAt_erased
  refine Iff.trans ?_ remaining.symm
  dsimp only [Reported, lastReport]
  by_cases same : host = gone.hostId
  · subst same
    have left : (∃ other, other ≠ name ∧ LiveAt s gone.hostId other) ↔
        (s.liveByHostId gone.hostId).erase name ≠ ∅ := by
      rw [← Finset.nonempty_iff_ne_empty]
      exact exists_congr fun other => by rw [Finset.mem_erase, bookkept.exact]
    rw [left]
    split_ifs with last
    · have latest : (Report.removed gone.hostId gone.deviceName :: s.reports).find? (fun r => r.host = gone.hostId) =
          some (.removed gone.hostId gone.deviceName) := lastReport_cons.trans (if_pos rfl)
      rw [latest]
      exact iff_of_false nofun (fun more => more last)
    · exact iff_of_true ((bookkept.reported _).mpr ⟨name, here⟩) last
  · have kept : (if (s.liveByHostId gone.hostId).erase name = ∅ then
        .removed gone.hostId gone.deviceName :: s.reports else s.reports).find? (fun r => r.host = host) =
          lastReport s host := by
      split_ifs
      · exact lastReport_cons.trans (if_neg (Ne.symm same))
      · rfl
    rw [kept]
    refine (bookkept.reported host).trans (exists_congr fun other => ?_)
    refine (and_iff_right_of_imp fun there named => ?_).symm
    rw [named] at there
    exact same (there.unique here)

theorem Bookkept.handleGoodbye (bookkept : Bookkept s) : Bookkept (s.handleGoodbye name) := by
  unfold DiscoveryState.handleGoodbye
  cases live : s.liveInstances name with
  | none => exact bookkept
  | some gone =>
    dsimp only
    split_ifs with resolved
    · exact bookkept.goodbye_resolved live resolved
    · exact bookkept.goodbye_unresolved live resolved

theorem Bookkept.step {event : InstanceEvent} (bookkept : Bookkept s) (fits : ResolveFits s event)
    (taken : s.step event = some next) : Bookkept next := by
  cases event with
  | browse name startsResolve =>
    cases taken
    exact bookkept.handleBrowse
  | goodbye name =>
    cases taken
    exact bookkept.handleGoodbye
  | complete name packet =>
    rw [DiscoveryState.step] at taken
    split_ifs at taken
    have completed : Bookkept { s with resolving := s.resolving.erase name } := ⟨bookkept.exact, bookkept.reported⟩
    cases packet with
    | none =>
      cases taken
      exact completed
    | some peer =>
      cases taken
      cases self : s.filtersSelf peer with
      | true => exact completed.filtered self
      | false =>
        rcases fits with filtered | ⟨state, live, same⟩
        · cases self.symm.trans filtered
        · exact completed.resolved self live same
  | published name =>
    cases taken
    exact ⟨bookkept.exact, bookkept.reported⟩
  | identified hostId =>
    cases taken
    exact ⟨bookkept.exact, bookkept.reported⟩

/-- A resolve that is tracked against the condition leaves its instance under a host it is not live at. -/
theorem Bookkept.misfiled (bookkept : Bookkept s) (foreign : s.filtersSelf peer = false)
    (misfit : ¬ ∃ state ∈ s.liveInstances name, state.resolved = true → state.hostId = peer.hostId) :
    ¬ Bookkept (s.handleResolved name peer) := by
  intro after
  have filed := after.exact
  simp only [LiveAt, DiscoveryState.handleResolved, foreign, Bool.false_eq_true, if_false] at filed
  cases live : s.liveInstances name with
  | none =>
    obtain ⟨state, found, _⟩ := (filed peer.hostId name).mp (by
      rw [Function.update_self]
      exact Finset.mem_insert_self _ _)
    simp [markResolved, live] at found
  | some state =>
    obtain ⟨resolved, elsewhere⟩ := Classical.not_imp.mp (fun same => misfit ⟨state, live, same⟩)
    have before : name ∈ s.liveByHostId state.hostId := (bookkept.exact _ _).mpr ⟨state, live, resolved, rfl⟩
    obtain ⟨renamed, found, _, named⟩ := (filed state.hostId name).mp (by
      rw [Function.update_of_ne elsewhere]
      exact before)
    simp only [markResolved, live, Function.update_self, Option.some.injEq] at found
    subst found
    exact elsewhere named.symm

theorem unfit_resolve_misfiles {event : InstanceEvent} (bookkept : Bookkept s) (unfit : ¬ ResolveFits s event)
    (taken : s.step event = some next) : ¬ Bookkept next := by
  cases event with
  | complete name packet =>
    cases packet with
    | none => exact absurd trivial unfit
    | some peer =>
      rw [DiscoveryState.step] at taken
      split_ifs at taken
      cases taken
      obtain ⟨foreign, misfit⟩ := not_or.mp unfit
      have completed : Bookkept { s with resolving := s.resolving.erase name } := ⟨bookkept.exact, bookkept.reported⟩
      exact completed.misfiled (Bool.eq_false_of_not_eq_true foreign) misfit
  | browse _ _ | goodbye _ | published _ | identified _ => exact absurd trivial unfit

theorem run_bookkept {localHostId : HostId} {includeSelf : Bool} {events : List InstanceEvent}
    (path : Path DiscoveryState.step ResolveFits (DiscoveryState.start localHostId includeSelf) events s) : Bookkept s :=
  path.invariant Bookkept (fun _ _ _ bookkept fits taken => bookkept.step fits taken)
    (bookkept_start localHostId includeSelf)

/-- Up to the first resolve that fails the condition the maps and the reports agree, and after it they do not. -/
theorem instances_bookkept (localHostId : HostId) (includeSelf : Bool) (events : List InstanceEvent)
    (s : DiscoveryState)
    (path : Path DiscoveryState.step ResolveFits (DiscoveryState.start localHostId includeSelf) events s) :
    Bookkept s ∧ ∀ event next, s.step event = some next → (Bookkept next ↔ ResolveFits s event) := by
  have bookkept := run_bookkept path
  refine ⟨bookkept, fun event next taken => ⟨fun after => ?_, fun fits => bookkept.step fits taken⟩⟩
  by_contra unfit
  exact unfit_resolve_misfiles bookkept unfit taken after

namespace OneInstance

def tablet : InstanceName := [97]

def device : DiscoveredPeer :=
  { deviceName := [0x74], ip := [0x31], hostId := ⟨List.replicate 16 7, rfl⟩, port := 1 }

def resolvedLive : List InstanceEvent :=
  [.browse tablet true, .complete tablet (some device), .goodbye tablet]

/-- The goodbye comes before the resolve completes. -/
def resolvedLate : List InstanceEvent :=
  [.browse tablet true, .goodbye tablet, .complete tablet (some device)]

end OneInstance

open OneInstance in
theorem resolved_instance_bookkept :
    Bookkept (lastOf DiscoveryState.step (DiscoveryState.start HostId.zero false) resolvedLive) :=
  (instances_bookkept HostId.zero false resolvedLive _ (fitting_to_lastOf (by decide +kernel))).1

open OneInstance in
/-- The host stays under an instance that is gone, was reported as added and will not be reported as removed. -/
theorem late_resolve_misfiles :
    ¬ ∀ events s, Path DiscoveryState.step (fun _ _ => True) (DiscoveryState.start HostId.zero false) events s →
      Bookkept s := by
  intro always
  have run : Path DiscoveryState.step (fun _ _ => True) (DiscoveryState.start HostId.zero false) resolvedLate
      (lastOf DiscoveryState.step (DiscoveryState.start HostId.zero false) resolvedLate) :=
    path_to_lastOf (fun _ _ _ => trivial) (by decide +kernel)
  have filed : tablet ∈ (lastOf DiscoveryState.step (DiscoveryState.start HostId.zero false)
      resolvedLate).liveByHostId device.hostId := by decide +kernel
  have gone : (lastOf DiscoveryState.step (DiscoveryState.start HostId.zero false)
      resolvedLate).liveInstances tablet = none := by decide +kernel
  obtain ⟨state, live, _⟩ := ((always resolvedLate _ run).exact device.hostId tablet).mp filed
  cases gone.symm.trans live

end ClippProof.Discovery
