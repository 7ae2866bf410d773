import Clipp.Peers.Reconciler

open Foundation

namespace ClippProof.Peers

open ClippModel.Registers ClippModel.Peers ClippModel.Peers.PeerManager ClippModel.Peers.OutgoingReconciler
open ClippModel.Peers.PeerLimits

variable {s : OutgoingReconciler} {m : PeerManager} {host other : HostId} {starts : HostId → Bool}
  {peer tracked : DiscoveredPeer} {t : TrackedPeer} {removal : PendingRemoval} {freed : Bool} {now : Nat}

structure HostView where
  tracked : Option TrackedPeer
  pending : Option PendingRemoval
  connections : List Peer

def HostView.unknown : HostView := { tracked := none, pending := none, connections := [] }

def view (s : OutgoingReconciler) (host : HostId) : HostView where
  tracked := s.active.find host
  pending := s.pendingRemoval.find host
  connections := s.manager.outgoingTo host

def SameEndpoint (a b : DiscoveredPeer) : Prop := a.ip = b.ip ∧ a.port = b.port

def Serves (p : Peer) (peer : DiscoveredPeer) : Prop := p.ip = peer.ip ∧ p.port = peer.port

/-- Only a tracked host is pending; an admitted one has one connection, to its endpoint, and no other host
    has any. -/
structure HostView.Sound (v : HostView) : Prop where
  tracked : v.pending.isSome = true → v.tracked.isSome = true
  connected : ∀ t, v.tracked = some t → t.admitted = true → ∃ p, v.connections = [p] ∧ Serves p t.peer
  closed : (∀ t, v.tracked = some t → t.admitted = false) → v.connections = []

theorem HostView.Sound.untracked {v : HostView} (sound : v.Sound) (found : v.tracked = none) :
    v.connections = [] := sound.closed (fun t here => by cases found.symm.trans here)

theorem HostView.Sound.deferred {v : HostView} (sound : v.Sound) (found : v.tracked = some t)
    (refused : ¬ t.admitted = true) : v.connections = [] := by
  apply sound.closed
  intro u here
  cases found.symm.trans here
  exact Bool.eq_false_iff.mpr refused

def AllSound (s : OutgoingReconciler) : Prop := ∀ host, (view s host).Sound

theorem HostView.sound_unknown : HostView.unknown.Sound where
  tracked := by simp [HostView.unknown]
  connected := by simp [HostView.unknown]
  closed := fun _ => rfl

theorem find_active (found : s.active.find host = some t) : t.peer.hostId = host :=
  (KeyedMap.find_eq_some.mp found).2

theorem addPeer_outgoingTo_ne {hostName ip : Bytes} {port : UInt16} {start : Bool} (apart : other ≠ host) :
    (m.addPeer hostName host ip port start).2.outgoingTo other = m.outgoingTo other := by
  unfold addPeer
  split_ifs
  · rfl
  · rfl
  · simp [outgoingTo, createPeer, isOutgoingTo, apart.symm]

theorem view_track_ne (same : tracked.hostId = peer.hostId) (apart : other ≠ peer.hostId) :
    view (s.track starts tracked peer) other = view s other := by
  have elsewhere : ¬ tracked.hostId = other := fun here => apart (here.symm.trans same)
  simp only [view, track, forwardAddPeer, addPeer_outgoingTo_ne apart, HostView.mk.injEq, and_true]
  exact KeyedMap.find_put_ne elsewhere

theorem view_track_self (same : tracked.hostId = peer.hostId) :
    view (s.track starts tracked peer) peer.hostId =
      { tracked := some { peer := tracked, admitted := (forwardAddPeer s.manager starts peer).1 ≠ .rejectedPeerLimit }
        pending := s.pendingRemoval.find peer.hostId
        connections := (forwardAddPeer s.manager starts peer).2.outgoingTo peer.hostId } := by
  simp only [view, track, HostView.mk.injEq, and_true]
  exact (KeyedMap.find_put _ _ _).trans (if_pos same)

theorem track_room (starts : HostId → Bool) (same : tracked.hostId = peer.hostId)
    (fresh : s.manager.outgoingTo peer.hostId = []) (room : s.manager.outgoingCount < maxOutgoingPeers) :
    (∃ p, Serves p peer ∧ view (s.track starts tracked peer) peer.hostId =
      { tracked := some { peer := tracked, admitted := true }
        pending := s.pendingRemoval.find peer.hostId
        connections := [p] }) ∧
    (s.track starts tracked peer).manager.outgoingCount = s.manager.outgoingCount + 1 := by
  have added : forwardAddPeer s.manager starts peer = _ := addPeer_room fresh room
  refine ⟨⟨s.manager.createPeer peer.deviceName peer.hostId peer.ip peer.port (starts peer.hostId),
    ⟨rfl, rfl⟩, ?_⟩, ?_⟩
  · rw [view_track_self same, added]
    simp only [HostView.mk.injEq, true_and]
    refine ⟨by simp, ?_⟩
    rw [outgoingTo, List.filter_append]
    exact congrArg (· ++ _) fresh |>.trans (by simp [createPeer, isOutgoingTo, isOutgoing])
  · simp only [track, added]
    simp [outgoingCount, createPeer, isOutgoing]

theorem track_full (starts : HostId → Bool) (same : tracked.hostId = peer.hostId)
    (fresh : s.manager.outgoingTo peer.hostId = []) (full : ¬ s.manager.outgoingCount < maxOutgoingPeers) :
    view (s.track starts tracked peer) peer.hostId =
      { tracked := some { peer := tracked, admitted := false }
        pending := s.pendingRemoval.find peer.hostId
        connections := [] } ∧
    (s.track starts tracked peer).manager = s.manager := by
  have refused : forwardAddPeer s.manager starts peer = (.rejectedPeerLimit, s.manager) := addPeer_full fresh full
  constructor
  · rw [view_track_self same, refused, fresh]
    simp
  · simp only [track, refused]

/-- What forwarding comes to, by the number of outgoing peers before and after: the host has its connection,
    or there was no room for it. -/
inductive Admission (before after : Nat) (v : HostView) (tracked peer : DiscoveredPeer) : Prop where
  | accepted (p : Peer) : Serves p peer → before < maxOutgoingPeers → after = before + 1 →
      v.tracked = some { peer := tracked, admitted := true } → v.connections = [p] →
      Admission before after v tracked peer
  | refused : ¬ before < maxOutgoingPeers → after = before →
      v.tracked = some { peer := tracked, admitted := false } → v.connections = [] →
      Admission before after v tracked peer

theorem track_cases (same : tracked.hostId = peer.hostId) (fresh : s.manager.outgoingTo peer.hostId = []) :
    Admission s.manager.outgoingCount (s.track starts tracked peer).manager.outgoingCount
      (view (s.track starts tracked peer) peer.hostId) tracked peer := by
  by_cases room : s.manager.outgoingCount < maxOutgoingPeers
  · obtain ⟨⟨p, serves, here⟩, count⟩ := track_room starts same fresh room
    exact .accepted p serves room count (by rw [here]) (by rw [here])
  · obtain ⟨here, manager⟩ := track_full starts same fresh room
    exact .refused room (by rw [manager]) (by rw [here]) (by rw [here])

theorem Admission.sound {before after : Nat} {v : HostView} (admission : Admission before after v tracked peer)
    (endpoint : SameEndpoint tracked peer) : v.Sound := by
  cases admission with
  | accepted p serves _ _ found connections =>
    refine ⟨fun _ => by simp [found], fun t here _ => ?_, fun none => ?_⟩
    · rw [found] at here
      cases here
      exact ⟨p, connections, serves.1.trans endpoint.1.symm, serves.2.trans endpoint.2.symm⟩
    · cases none _ found
  | refused _ _ found connections =>
    refine ⟨fun _ => by simp [found], fun t here admitted => ?_, fun _ => connections⟩
    rw [found] at here
    cases here
    cases admitted

/-- An announcement leaves the host tracked at its endpoint and not pending. It is admitted already, and kept
    as it is, or forwarded, after at most one connection to it was closed. -/
inductive AddedOutcome (s next : OutgoingReconciler) (peer : DiscoveredPeer) : Prop where
  | kept (t : TrackedPeer) : s.active.find peer.hostId = some t → t.admitted = true → SameEndpoint t.peer peer →
      view next peer.hostId = { view s peer.hostId with pending := none } → next.manager = s.manager →
      AddedOutcome s next peer
  | forwarded (tracked : DiscoveredPeer) (before : Nat) : SameEndpoint tracked peer →
      s.manager.outgoingCount ≤ before + 1 →
      Admission before next.manager.outgoingCount (view next peer.hostId) tracked peer →
      (view next peer.hostId).pending = none → AddedOutcome s next peer

def unpend (s : OutgoingReconciler) (host : HostId) : OutgoingReconciler :=
  { s with pendingRemoval := s.pendingRemoval.erase host }

theorem view_unpend_self : view (unpend s host) host = { view s host with pending := none } := by
  simp only [view, unpend, HostView.mk.injEq, true_and, and_true]
  exact (KeyedMap.find_erase _ _ _).trans (if_pos rfl)

theorem view_unpend_ne (apart : other ≠ host) : view (unpend s host) other = view s other := by
  simp only [view, unpend, HostView.mk.injEq, true_and, and_true]
  exact (KeyedMap.find_erase _ _ _).trans (if_neg apart)

theorem view_removeOutgoing_ne (apart : other ≠ host) : view (s.removeOutgoing host) other = view s other := by
  simp only [view, removeOutgoing, outgoingTo_removeOutgoingPeer_ne apart]

theorem onAdded_eq : s.onAdded starts peer =
    match s.active.find peer.hostId with
    | none => (unpend s peer.hostId).track starts peer peer
    | some t =>
      if t.peer.ip ≠ peer.ip ∨ t.peer.port ≠ peer.port then
        (if t.admitted then (unpend s peer.hostId).removeOutgoing peer.hostId else unpend s peer.hostId).track
          starts peer peer
      else if t.admitted then unpend s peer.hostId
      else (unpend s peer.hostId).track starts t.peer peer := by
  unfold onAdded
  dsimp only
  cases s.active.find peer.hostId <;> rfl

theorem onAdded_cases (sound : (view s peer.hostId).Sound) : AddedOutcome s (s.onAdded starts peer) peer := by
  have cleared : (unpend s peer.hostId).pendingRemoval.find peer.hostId = none :=
    congrArg HostView.pending view_unpend_self
  rw [onAdded_eq]
  cases found : s.active.find peer.hostId with
  | none =>
    have fresh : s.manager.outgoingTo peer.hostId = [] := sound.untracked found
    exact .forwarded peer _ ⟨rfl, rfl⟩ (Nat.le_succ _) (track_cases (s := unpend s peer.hostId) rfl fresh) cleared
  | some t =>
    dsimp only
    split_ifs with moved admitted admitted
    · obtain ⟨p, connections, _⟩ := sound.connected t found admitted
      have removed : ((unpend s peer.hostId).removeOutgoing peer.hostId).manager.outgoingTo peer.hostId = [] :=
        outgoingTo_removeOutgoingPeer_self
      have freed : (s.manager.removeOutgoingPeer peer.hostId).outgoingCount + 1 = s.manager.outgoingCount := by
        have all := outgoingCount_removeOutgoingPeer s.manager peer.hostId
        rwa [show s.manager.outgoingTo peer.hostId = [p] from connections, List.length_singleton] at all
      exact .forwarded peer _ ⟨rfl, rfl⟩ freed.ge (track_cases rfl removed) cleared
    · have fresh : s.manager.outgoingTo peer.hostId = [] := sound.deferred found admitted
      exact .forwarded peer _ ⟨rfl, rfl⟩ (Nat.le_succ _) (track_cases (s := unpend s peer.hostId) rfl fresh) cleared
    · obtain ⟨ip, port⟩ := not_or.mp moved
      exact .kept t found admitted ⟨not_not.mp ip, not_not.mp port⟩ view_unpend_self rfl
    · obtain ⟨ip, port⟩ := not_or.mp moved
      have fresh : s.manager.outgoingTo peer.hostId = [] := sound.deferred found admitted
      exact .forwarded t.peer _ ⟨not_not.mp ip, not_not.mp port⟩ (Nat.le_succ _)
        (track_cases (s := unpend s peer.hostId) (find_active found) fresh) cleared

theorem view_onAdded_ne (apart : other ≠ peer.hostId) : view (s.onAdded starts peer) other = view s other := by
  rw [onAdded_eq]
  cases found : s.active.find peer.hostId with
  | none => exact (view_track_ne rfl apart).trans (view_unpend_ne apart)
  | some t =>
    dsimp only
    split_ifs
    · exact (view_track_ne rfl apart).trans ((view_removeOutgoing_ne apart).trans (view_unpend_ne apart))
    · exact (view_track_ne rfl apart).trans (view_unpend_ne apart)
    · exact view_unpend_ne apart
    · exact (view_track_ne (find_active found) apart).trans (view_unpend_ne apart)

theorem onAdded_keeps (sound : (view s peer.hostId).Sound) (found : s.active.find peer.hostId = some t)
    (endpoint : SameEndpoint t.peer peer) {p : Peer} (member : p ∈ s.manager.outgoingTo peer.hostId) :
    p ∈ (s.onAdded starts peer).manager.outgoingTo peer.hostId := by
  have still : ¬ (t.peer.ip ≠ peer.ip ∨ t.peer.port ≠ peer.port) := by
    rintro (ip | port)
    · exact ip endpoint.1
    · exact port endpoint.2
  rw [onAdded_eq, found]
  dsimp only
  rw [if_neg still]
  split_ifs with admitted
  · exact member
  · have none : s.manager.outgoingTo peer.hostId = [] := sound.deferred found admitted
    rw [none] at member
    cases member

theorem view_onRemoved_ne (apart : other ≠ host) : view (s.onRemoved host now) other = view s other := by
  unfold onRemoved
  split_ifs
  · simp only [view, HostView.mk.injEq, true_and, and_true]
    exact KeyedMap.find_put_ne (fun same => apart same.symm)
  · rfl

theorem view_onRemoved_tracked (found : s.active.find host = some t) :
    view (s.onRemoved host now) host =
      { view s host with pending := some { hostId := host, deadline := now + kRemovalGrace } } := by
  rw [onRemoved, found, Option.isSome_some, if_pos rfl]
  simp only [view, HostView.mk.injEq, true_and, and_true]
  exact (KeyedMap.find_put _ _ _).trans (if_pos rfl)

theorem onRemoved_untracked (missing : s.active.find host = none) : s.onRemoved host now = s := by
  rw [onRemoved, missing]
  exact if_neg (by simp)

theorem onRemoved_manager : (s.onRemoved host now).manager = s.manager := by
  unfold onRemoved
  split_ifs <;> rfl

theorem view_forget : view (s.forget host) other =
    if other = host then { view s host with tracked := none, pending := none } else view s other := by
  split_ifs with same
  · subst same
    simp only [view, forget, HostView.mk.injEq, and_true]
    exact ⟨(KeyedMap.find_erase _ _ _).trans (if_pos rfl), (KeyedMap.find_erase _ _ _).trans (if_pos rfl)⟩
  · simp only [view, forget, HostView.mk.injEq, and_true]
    exact ⟨(KeyedMap.find_erase _ _ _).trans (if_neg same), (KeyedMap.find_erase _ _ _).trans (if_neg same)⟩

theorem view_dropExpired (sound : (view s removal.hostId).Sound) :
    view (dropExpired (s, freed) removal).1 other =
      if other = removal.hostId then .unknown else view s other := by
  unfold dropExpired
  cases found : s.active.find removal.hostId with
  | none =>
    dsimp only
    rw [view_forget]
    split_ifs
    · simp [HostView.unknown, sound.untracked found]
    · rfl
  | some t =>
    dsimp only
    split_ifs with admitted same same
    · rw [view_forget, if_pos same]
      simp [view, HostView.unknown, removeOutgoing, outgoingTo_removeOutgoingPeer_self]
    · rw [view_forget, if_neg same, view_removeOutgoing_ne same]
    · rw [view_forget, if_pos same]
      simp [HostView.unknown, sound.deferred found admitted]
    · rw [view_forget, if_neg same]

theorem dropExpired_unfreed (kept : (dropExpired (s, freed) removal).2 = false) :
    freed = false ∧ (dropExpired (s, freed) removal).1.manager = s.manager := by
  unfold dropExpired at kept ⊢
  cases found : s.active.find removal.hostId with
  | none =>
    simp only [found] at kept ⊢
    exact ⟨kept, rfl⟩
  | some t =>
    simp only [found] at kept ⊢
    split_ifs at kept ⊢
    exact ⟨kept, rfl⟩

theorem dropped (freed : Bool) (due : List PendingRemoval) (sound : AllSound s) :
    (∀ host, view (due.foldl dropExpired (s, freed)).1 host =
      if host ∈ due.map PendingRemoval.hostId then .unknown else view s host) ∧
    ((due.foldl dropExpired (s, freed)).2 = false →
      freed = false ∧ (due.foldl dropExpired (s, freed)).1.manager = s.manager) := by
  induction due generalizing s freed with
  | nil => exact ⟨fun _ => by simp, fun kept => ⟨kept, rfl⟩⟩
  | cons removal rest ih =>
    have one : ∀ host, view (dropExpired (s, freed) removal).1 host =
        if host = removal.hostId then .unknown else view s host := fun _ => view_dropExpired (sound _)
    have next : AllSound (dropExpired (s, freed) removal).1 := by
      intro host
      rw [one]
      split_ifs
      · exact HostView.sound_unknown
      · exact sound host
    obtain ⟨views, kept⟩ := ih (dropExpired (s, freed) removal).2 next
    constructor
    · intro host
      rw [List.foldl_cons, views, one, List.map_cons]
      by_cases first : host = removal.hostId
      · simp [first]
      · simp [first]
    · intro unfreed
      obtain ⟨still, manager⟩ := kept unfreed
      obtain ⟨start, same⟩ := dropExpired_unfreed still
      exact ⟨start, manager.trans same⟩

/-- While there is room, every tracked host that is not pending is admitted. -/
def Filled (s : OutgoingReconciler) : Prop :=
  s.manager.outgoingCount < maxOutgoingPeers →
    ∀ host t, s.active.find host = some t → s.pendingRemoval.find host = none → t.admitted = true

inductive MayAdmit (v w : HostView) : Prop where
  | same : w = v → MayAdmit v w
  | admitted (t : TrackedPeer) (p : Peer) : v.tracked = some t → t.admitted = false → v.pending = none →
      w = { tracked := some { t with admitted := true }, pending := none, connections := [p] } →
      Serves p t.peer → MayAdmit v w

theorem MayAdmit.sound {v w : HostView} (may : MayAdmit v w) (sound : v.Sound) : w.Sound := by
  cases may with
  | same equal => exact equal ▸ sound
  | admitted t p found waiting pending equal serves =>
    subst equal
    refine ⟨by simp, fun u here _ => ?_, fun none => ?_⟩
    · cases here
      exact ⟨p, rfl, serves⟩
    · cases none _ rfl

theorem admitPendingPeers_next (rest : List TrackedPeer) (fresh : s.manager.outgoingTo t.peer.hostId = [])
    (waiting : t.admitted = false) (calm : s.pendingRemoval.find t.peer.hostId = none) :
    admitPendingPeers starts (t :: rest) s =
      if s.manager.outgoingCount < maxOutgoingPeers then admitPendingPeers starts rest (s.track starts t.peer t.peer)
      else s := by
  have goes : ¬ (t.admitted || (s.pendingRemoval.find t.peer.hostId).isSome) = true := by simp [waiting, calm]
  rw [admitPendingPeers, if_neg goes]
  split_ifs with room
  · have added : forwardAddPeer s.manager starts t.peer = _ := addPeer_room fresh room
    simp [track, added]
  · have rejected : forwardAddPeer s.manager starts t.peer = (.rejectedPeerLimit, s.manager) :=
      addPeer_full fresh room
    simp [rejected]

/-- The list still holds every host that waits for a slot, as it is tracked. -/
structure Remaining (s : OutgoingReconciler) (rest : List TrackedPeer) : Prop where
  current : ∀ t ∈ rest, s.active.find t.peer.hostId = some t
  distinct : (rest.map (·.peer.hostId)).Nodup
  left : ∀ host t, s.active.find host = some t → s.pendingRemoval.find host = none → t.admitted = false → t ∈ rest

theorem Remaining.all (s : OutgoingReconciler) : Remaining s s.active.entries :=
  ⟨fun _ member => KeyedMap.find_self member, s.active.keys_nodup,
    fun _ _ found _ _ => (KeyedMap.find_eq_some.mp found).1⟩

theorem Remaining.skip {rest : List TrackedPeer} (remaining : Remaining s (t :: rest))
    (skip : (t.admitted || (s.pendingRemoval.find t.peer.hostId).isSome) = true) : Remaining s rest := by
  refine ⟨fun u member => remaining.current u (List.mem_cons_of_mem _ member),
    (List.nodup_cons.mp remaining.distinct).2, fun host u found quiet waiting => ?_⟩
  rcases List.mem_cons.mp (remaining.left host u found quiet waiting) with rfl | member
  · have key : u.peer.hostId = host := find_active found
    rw [key, quiet, waiting] at skip
    cases skip
  · exact member

theorem Remaining.track {rest : List TrackedPeer} (remaining : Remaining s (t :: rest))
    (mine : (s.track starts t.peer t.peer).active.find t.peer.hostId = some { t with admitted := true }) :
    Remaining (s.track starts t.peer t.peer) rest := by
  have others : ∀ host, host ≠ t.peer.hostId → view (s.track starts t.peer t.peer) host = view s host :=
    fun _ apart => view_track_ne rfl apart
  obtain ⟨fresh, distinct⟩ := List.nodup_cons.mp remaining.distinct
  refine ⟨fun u member => ?_, distinct, fun host u found quiet waiting => ?_⟩
  · have apart : u.peer.hostId ≠ t.peer.hostId := fun same => fresh (List.mem_map.mpr ⟨u, member, same⟩)
    exact (congrArg HostView.tracked (others _ apart)).trans
      (remaining.current u (List.mem_cons_of_mem _ member))
  · by_cases same : host = t.peer.hostId
    · subst same
      cases mine.symm.trans found
      cases waiting
    · have before := (congrArg HostView.tracked (others host same)).symm.trans found
      rcases List.mem_cons.mp (remaining.left host u before quiet waiting) with rfl | member
      · exact absurd (find_active before).symm same
      · exact member

theorem admitPendingPeers_spec (starts : HostId → Bool) (rest : List TrackedPeer) (sound : AllSound s)
    (remaining : Remaining s rest) :
    Filled (admitPendingPeers starts rest s) ∧
      ∀ host, MayAdmit (view s host) (view (admitPendingPeers starts rest s) host) := by
  induction rest generalizing s with
  | nil =>
    refine ⟨fun _ host t found quiet => ?_, fun host => .same rfl⟩
    by_contra waiting
    cases remaining.left host t found quiet (Bool.eq_false_iff.mpr waiting)
  | cons t rest ih =>
    by_cases skip : (t.admitted || (s.pendingRemoval.find t.peer.hostId).isSome) = true
    · rw [admitPendingPeers, if_pos skip]
      exact ih sound (remaining.skip skip)
    · obtain ⟨waiting, calm⟩ : t.admitted = false ∧ s.pendingRemoval.find t.peer.hostId = none := by
        simpa using skip
      have here : s.active.find t.peer.hostId = some t := remaining.current t List.mem_cons_self
      have fresh : s.manager.outgoingTo t.peer.hostId = [] :=
        (sound t.peer.hostId).deferred here (Bool.eq_false_iff.mp waiting)
      rw [admitPendingPeers_next rest fresh waiting calm]
      split_ifs with room
      · obtain ⟨⟨p, serves, one⟩, _⟩ := track_room starts (rfl : t.peer.hostId = _) fresh room
        rw [calm] at one
        have mine : (s.track starts t.peer t.peer).active.find t.peer.hostId = some { t with admitted := true } :=
          congrArg HostView.tracked one
        have step : ∀ host, MayAdmit (view s host) (view (s.track starts t.peer t.peer) host) := by
          intro host
          by_cases same : host = t.peer.hostId
          · subst same
            exact .admitted t p here waiting calm one serves
          · exact .same (view_track_ne rfl same)
        obtain ⟨filled, views⟩ := ih (fun host => (step host).sound (sound host)) (remaining.track mine)
        refine ⟨filled, fun host => ?_⟩
        by_cases same : host = t.peer.hostId
        · subst same
          cases views t.peer.hostId with
          | same equal => exact .admitted t p here waiting calm (equal.trans one) serves
          | admitted u _ is stillWaiting _ _ _ =>
            cases mine.symm.trans is
            cases stillWaiting
        · have elsewhere : view (s.track starts t.peer t.peer) host = view s host := view_track_ne rfl same
          rw [← elsewhere]
          exact views host
      · exact ⟨fun open_ => absurd open_ room, fun host => .same rfl⟩

end ClippProof.Peers
