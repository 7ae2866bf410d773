import Clipp.Foundation.Machine
import Clipp.Peers.ReconcilerLaws

open Foundation

namespace ClippModel.Peers

namespace OutgoingReconciler

/-- The reports and sweeps, together with what the peer manager does on its own, and the end of a run of the
    network runtime, which clears both. -/
inductive RuntimeEvent where
  | reconcile (event : ReconcilerEvent)
  | exit (logId : Nat)
  | cull (silent : Nat → Bool)
  | restart

def step (s : OutgoingReconciler) : RuntimeEvent → Option OutgoingReconciler
  | .reconcile event => some (s.handle event)
  | .exit logId => some { s with manager := s.manager.exit logId }
  | .cull silent => some { s with manager := s.manager.cullPeers silent }
  | .restart => some { boot with manager := s.manager.clearPeers }

end OutgoingReconciler

end ClippModel.Peers

namespace ClippProof.Peers

open ClippModel.Registers ClippModel.Peers ClippModel.Peers.PeerManager ClippModel.Peers.OutgoingReconciler

variable {s next : OutgoingReconciler} {m : PeerManager} {host : HostId} {t : TrackedPeer} {event : RuntimeEvent}
  {starts : HostId → Bool} {now : Nat}

def Connected (s : OutgoingReconciler) (host : HostId) (endpoint : DiscoveredPeer) : Prop :=
  ∃ p ∈ s.manager.outgoingTo host, Serves p endpoint

/-- Every host marked as admitted has its connection, or gets one the next time it is announced at its
    endpoint, or at the next sweep. -/
def Reconnectable (s : OutgoingReconciler) : Prop :=
  ∀ host t, s.active.find host = some t → t.admitted = true →
    Connected s host t.peer ∨
    (∀ peer starts, peer.hostId = host → SameEndpoint t.peer peer →
      Connected (s.handle (.added peer starts)) host t.peer) ∨
    (∀ now starts, Connected (s.handle (.sweep now starts)) host t.peer)

/-- A cull comes only while no connection to a host that is marked as admitted has stopped. -/
def CullsFit (s : OutgoingReconciler) : RuntimeEvent → Prop
  | .cull _ => ∀ host t, s.active.find host = some t → t.admitted = true →
      ∀ p ∈ s.manager.outgoingTo host, p.isRunning = true
  | _ => True

theorem AllSound.reconnectable (sound : AllSound s) : Reconnectable s := by
  intro host t found admitted
  obtain ⟨p, connections, serves⟩ := (sound host).connected t found admitted
  have member : p ∈ s.manager.outgoingTo host := by
    rw [show s.manager.outgoingTo host = [p] from connections]
    exact List.mem_singleton_self p
  exact .inl ⟨p, member, serves⟩

theorem outgoingTo_exit (logId : Nat) : (m.exit logId).outgoingTo host =
    (m.outgoingTo host).map (fun p => if p.logId = logId then { p with isRunning := false } else p) := by
  unfold outgoingTo exit
  rw [List.filter_map]
  congr 1
  apply List.filter_congr
  intro p _
  dsimp only [Function.comp_apply]
  split_ifs <;> rfl

theorem outgoingTo_cullPeers (silent : Nat → Bool) :
    (m.cullPeers silent).outgoingTo host = (m.outgoingTo host).filter (·.isRunning) := by
  unfold outgoingTo cullPeers
  rw [List.filter_comm]
  apply List.filter_congr
  intro p member
  have outgoing : p.connType = .outgoing := (mem_outgoingTo.mp member).2.2
  simp [outgoing]

theorem AllSound.manager (sound : AllSound s)
    (empty : ∀ host, s.manager.outgoingTo host = [] → m.outgoingTo host = [])
    (kept : ∀ host t p, s.active.find host = some t → t.admitted = true → s.manager.outgoingTo host = [p] →
      Serves p t.peer → ∃ q, m.outgoingTo host = [q] ∧ Serves q t.peer) :
    AllSound { s with manager := m } := by
  intro host
  refine ⟨(sound host).tracked, fun t found admitted => ?_, fun none => empty host ((sound host).closed none)⟩
  obtain ⟨p, connections, serves⟩ := (sound host).connected t found admitted
  exact kept host t p found admitted connections serves

theorem AllSound.step (sound : AllSound s) (fits : CullsFit s event) (taken : s.step event = some next) :
    AllSound next := by
  cases event with
  | reconcile event =>
    cases taken
    exact sound.handle event
  | exit logId =>
    cases taken
    refine sound.manager (fun host none => ?_) (fun host t p _ _ only serves => ?_)
    · rw [outgoingTo_exit, none, List.map_nil]
    · rw [outgoingTo_exit, only]
      refine ⟨_, rfl, ?_⟩
      dsimp only
      split_ifs <;> exact serves
  | cull silent =>
    cases taken
    refine sound.manager (fun host none => ?_) (fun host t p found admitted only serves => ?_)
    · rw [outgoingTo_cullPeers, none, List.filter_nil]
    · have runs := fits host t found admitted p (only ▸ List.mem_singleton_self p)
      rw [outgoingTo_cullPeers, only, List.filter_cons_of_pos runs]
      exact ⟨p, rfl, serves⟩
  | restart =>
    cases taken
    intro host
    exact HostView.sound_unknown

/-- The host is marked as admitted, or not tracked, and has no connection. -/
structure Stranded (s : OutgoingReconciler) (host : HostId) : Prop where
  marked : ∀ t, s.active.find host = some t → t.admitted = true
  unserved : s.manager.outgoingTo host = []

theorem Stranded.removeOutgoing (stranded : Stranded s host) (other : HostId) :
    Stranded (s.removeOutgoing other) host := by
  refine ⟨stranded.marked, ?_⟩
  change (s.manager.removeOutgoingPeer other).outgoingTo host = []
  by_cases same : host = other
  · rw [same]
    exact outgoingTo_removeOutgoingPeer_self
  · rw [outgoingTo_removeOutgoingPeer_ne same]
    exact stranded.unserved

theorem Stranded.forget (stranded : Stranded s host) (other : HostId) : Stranded (s.forget other) host := by
  refine ⟨fun t found => ?_, stranded.unserved⟩
  have here : (s.forget other).active.find host = if host = other then none else s.active.find host :=
    KeyedMap.find_erase _ _ _
  rw [here] at found
  split_ifs at found
  exact stranded.marked t found

theorem Stranded.dropExpired {removal : PendingRemoval} {freed : Bool} (stranded : Stranded s host) :
    Stranded (dropExpired (s, freed) removal).1 host := by
  unfold OutgoingReconciler.dropExpired
  cases found : s.active.find removal.hostId with
  | none => exact stranded.forget _
  | some t =>
    dsimp only
    split_ifs
    · exact (stranded.removeOutgoing _).forget _
    · exact stranded.forget _

theorem Stranded.admitPendingPeers (rest : List TrackedPeer)
    (marked : ∀ t ∈ rest, t.peer.hostId = host → t.admitted = true) (unserved : s.manager.outgoingTo host = []) :
    (admitPendingPeers starts rest s).manager.outgoingTo host = [] := by
  induction rest generalizing s with
  | nil => exact unserved
  | cons t rest ih =>
    have later : ∀ u ∈ rest, u.peer.hostId = host → u.admitted = true :=
      fun u member => marked u (List.mem_cons_of_mem _ member)
    rw [OutgoingReconciler.admitPendingPeers]
    by_cases skip : (t.admitted || (s.pendingRemoval.find t.peer.hostId).isSome) = true
    · rw [if_pos skip]
      exact ih later unserved
    · have apart : host ≠ t.peer.hostId := by
        intro same
        rw [marked t List.mem_cons_self same.symm] at skip
        exact skip rfl
      have forwarded : (forwardAddPeer s.manager starts t.peer).2.outgoingTo host = [] :=
        (addPeer_outgoingTo_ne apart).trans unserved
      rw [if_neg skip]
      dsimp only
      split_ifs
      · exact forwarded
      · exact ih later forwarded

theorem Stranded.sweep (stranded : Stranded s host) : (s.sweep now starts).manager.outgoingTo host = [] := by
  have dropped : ∀ (due : List PendingRemoval) (s : OutgoingReconciler × Bool), Stranded s.1 host →
      Stranded (due.foldl OutgoingReconciler.dropExpired s).1 host := by
    intro due
    induction due with
    | nil => exact fun _ still => still
    | cons removal rest ih => exact fun _ still => ih _ still.dropExpired
  have swept := dropped (s.pendingRemoval.entries.filter (fun removal => removal.deadline ≤ now)) (s, false) stranded
  unfold OutgoingReconciler.sweep
  dsimp only
  split_ifs
  · refine Stranded.admitPendingPeers _ (fun t member same => ?_) swept.unserved
    exact swept.marked t (KeyedMap.find_eq_some.mpr ⟨member, same⟩)
  · exact swept.unserved

theorem Stranded.unreachable (stranded : Stranded s host) (found : s.active.find host = some t) :
    ¬ Reconnectable s := by
  have admitted := stranded.marked t found
  have unconnected : ∀ {r : OutgoingReconciler}, r.manager.outgoingTo host = [] → ¬ Connected r host t.peer := by
    rintro r none ⟨p, member, _⟩
    rw [none] at member
    cases member
  intro reconnectable
  rcases reconnectable host t found admitted with connected | announced | swept
  · exact unconnected stranded.unserved connected
  · have key : t.peer.hostId = host := find_active found
    subst key
    have kept : s.onAdded (fun _ => true) t.peer = unpend s t.peer.hostId := by
      rw [onAdded_eq, found]
      dsimp only
      rw [if_neg (by simp), if_pos admitted]
    have again := announced t.peer (fun _ => true) rfl ⟨rfl, rfl⟩
    change Connected (s.onAdded (fun _ => true) t.peer) t.peer.hostId t.peer at again
    rw [kept] at again
    exact unconnected stranded.unserved again
  · exact unconnected stranded.sweep (swept 0 (fun _ => true))

/-- A stopped connection that is culled away from a host marked as admitted is not made again. -/
theorem unfit_cull_strands (sound : AllSound s) (taken : s.step event = some next) (unfit : ¬ CullsFit s event) :
    ¬ Reconnectable next := by
  cases event with
  | cull silent =>
    cases taken
    simp only [CullsFit, not_forall] at unfit
    obtain ⟨host, t, found, admitted, p, member, stopped⟩ := unfit
    obtain ⟨q, connections, _⟩ := (sound host).connected t found admitted
    have only : s.manager.outgoingTo host = [q] := connections
    have same : p = q := by rwa [only, List.mem_singleton] at member
    subst same
    refine Stranded.unreachable (s := { s with manager := s.manager.cullPeers silent }) ⟨fun u here => ?_, ?_⟩ found
    · cases found.symm.trans here
      exact admitted
    · rw [outgoingTo_cullPeers, only, List.filter_cons_of_neg stopped, List.filter_nil]
  | _ => exact absurd trivial unfit

theorem allSound_boot : AllSound boot := fun _ => HostView.sound_unknown

theorem run_allSound {events : List RuntimeEvent} (path : Path step CullsFit boot events s) : AllSound s :=
  path.invariant AllSound (fun _ _ _ sound fits taken => sound.step fits taken) allSound_boot

/-- Up to the first cull that fails the condition every admitted host is connected or reconnectable, and
    after that cull one is not. -/
theorem admitted_peers_reconnectable (events : List RuntimeEvent) (s : OutgoingReconciler)
    (path : Path step CullsFit boot events s) :
    Reconnectable s ∧ ∀ event next, s.step event = some next → (Reconnectable next ↔ CullsFit s event) := by
  have sound := run_allSound path
  refine ⟨sound.reconnectable, fun event next taken => ⟨fun reconnectable => ?_, fun fits => ?_⟩⟩
  · by_contra unfit
    exact unfit_cull_strands sound taken unfit reconnectable
  · exact (sound.step fits taken).reconnectable

namespace OneHost

def laptop : DiscoveredPeer := { deviceName := [], ip := [0x31], hostId := HostId.zero, port := 1 }

/-- Discovered, with or without a wake socket for its connection, and culled. -/
def discovery (starts : Bool) : List RuntimeEvent :=
  [.reconcile (.added laptop (fun _ => starts)), .cull (fun _ => false)]

def discovered (starts : Bool) : OutgoingReconciler := boot.onAdded (fun _ => starts) laptop

def culled (starts : Bool) : OutgoingReconciler :=
  { discovered starts with manager := (discovered starts).manager.cullPeers (fun _ => false) }

end OneHost

open OneHost in
theorem running_peer_reconnectable : Reconnectable (culled true) := by
  have running : ∀ p ∈ (discovered true).manager.peers, p.isRunning = true := by decide +kernel
  have fits : CullsFit (discovered true) (.cull (fun _ => false)) :=
    fun _ _ _ _ p member => running p (mem_outgoingTo.mp member).1
  have run : Path step CullsFit boot (discovery true) (culled true) :=
    .cons trivial rfl (.cons fits rfl (.nil (culled true)))
  exact (admitted_peers_reconnectable _ _ run).1

open OneHost in
/-- The connection fails to start and is culled. The host stays marked as admitted, and no announcement of its
    endpoint and no sweep makes another connection. -/
theorem failed_start_strands : ¬ ∀ events s, Path step (fun _ _ => True) boot events s → Reconnectable s := by
  intro always
  have run : Path step (fun _ _ => True) boot (discovery false) (culled false) :=
    .cons trivial rfl (.cons trivial rfl (.nil (culled false)))
  have tracked : (culled false).active.find HostId.zero = some { peer := laptop, admitted := true } := by
    decide +kernel
  have stranded : Stranded (culled false) HostId.zero := by
    refine ⟨fun t found => ?_, by decide +kernel⟩
    cases tracked.symm.trans found
    rfl
  exact stranded.unreachable tracked (always _ _ run)

end ClippProof.Peers
