import Clipp.Peers.ReconcilerSteps
import Mathlib.Data.List.Induction

open Foundation

namespace ClippProof.Peers

open ClippModel.Registers ClippModel.Peers ClippModel.Peers.PeerManager ClippModel.Peers.OutgoingReconciler
open ClippModel.Peers.PeerLimits

variable {s : OutgoingReconciler} {host : HostId} {starts : HostId → Bool} {peer : DiscoveredPeer}
  {t : TrackedPeer} {now : Nat} {event : ReconcilerEvent}

def Due (s : OutgoingReconciler) (now : Nat) (host : HostId) : Prop :=
  ∃ removal, s.pendingRemoval.find host = some removal ∧ removal.deadline ≤ now

theorem mem_due : host ∈ (s.pendingRemoval.entries.filter (fun removal => removal.deadline ≤ now)).map
    PendingRemoval.hostId ↔ Due s now host := by
  simp only [List.mem_map, List.mem_filter, decide_eq_true_eq, Due, KeyedMap.find_eq_some]
  constructor
  · rintro ⟨removal, ⟨member, overdue⟩, same⟩
    exact ⟨removal, ⟨member, same⟩, overdue⟩
  · rintro ⟨removal, ⟨member, same⟩, overdue⟩
    exact ⟨removal, ⟨member, overdue⟩, same⟩

theorem Filled.unchanged {next : OutgoingReconciler} (filled : Filled s)
    (room : s.manager.outgoingCount < maxOutgoingPeers) (same : view next host = view s host)
    (found : next.active.find host = some t) (quiet : next.pendingRemoval.find host = none) : t.admitted = true :=
  filled room host t ((congrArg HostView.tracked same).symm.trans found)
    ((congrArg HostView.pending same).symm.trans quiet)

/-- A sweep drops the hosts whose grace period is over, and may fill the slots that frees. -/
structure SweepOutcome (s next : OutgoingReconciler) (now : Nat) : Prop where
  filled : Filled s → Filled next
  dropped : ∀ host, Due s now host → view next host = .unknown
  kept : ∀ host, ¬ Due s now host → MayAdmit (view s host) (view next host)

theorem sweep_spec (sound : AllSound s) : SweepOutcome s (s.sweep now starts) now := by
  obtain ⟨views, unfreed⟩ := dropped false
    (s.pendingRemoval.entries.filter (fun removal => removal.deadline ≤ now)) sound
  unfold OutgoingReconciler.sweep
  dsimp only
  generalize (s.pendingRemoval.entries.filter (fun removal => removal.deadline ≤ now)).foldl dropExpired
    (s, false) = swept at views unfreed ⊢
  have dropped : ∀ host, Due s now host → view swept.1 host = .unknown :=
    fun host due => (views host).trans (if_pos (mem_due.mpr due))
  have kept : ∀ host, ¬ Due s now host → view swept.1 host = view s host :=
    fun host quiet => (views host).trans (if_neg (fun member => quiet (mem_due.mp member)))
  split_ifs with freed
  · have sweptSound : AllSound swept.1 := by
      intro host
      by_cases due : Due s now host
      · rw [dropped host due]
        exact HostView.sound_unknown
      · rw [kept host due]
        exact sound host
    obtain ⟨full, admits⟩ := admitPendingPeers_spec starts swept.1.active.entries sweptSound (.all swept.1)
    refine ⟨fun _ => full, fun host due => ?_, fun host quiet => ?_⟩
    · cases admits host with
      | same equal => exact equal.trans (dropped host due)
      | admitted t _ found _ _ _ _ =>
        rw [dropped host due] at found
        cases found
    · rw [← kept host quiet]
      exact admits host
  · have manager := (unfreed (Bool.eq_false_iff.mpr freed)).2
    refine ⟨fun filled room host t found quiet => ?_, dropped, fun host quiet => .same (kept host quiet)⟩
    rw [manager] at room
    have notDue : ¬ Due s now host := by
      intro due
      have gone := congrArg HostView.tracked (dropped host due)
      cases gone.symm.trans found
    exact filled.unchanged room (kept host notDue) found quiet

theorem AllSound.handle (sound : AllSound s) (event : ReconcilerEvent) :
    AllSound (s.handle event) := by
  intro host
  cases event with
  | added peer starts =>
    change (view (s.onAdded starts peer) host).Sound
    by_cases same : host = peer.hostId
    · subst same
      have before := sound peer.hostId
      have outcome : AddedOutcome s (s.onAdded starts peer) peer := onAdded_cases before
      cases outcome with
      | kept t found _ _ equal _ =>
        rw [equal]
        exact ⟨fun pending => (nomatch pending), before.connected, before.closed⟩
      | forwarded tracked count endpoint _ admission _ => exact admission.sound endpoint
    · rw [view_onAdded_ne same]
      exact sound host
  | removed hostId now =>
    change (view (s.onRemoved hostId now) host).Sound
    by_cases same : host = hostId
    · subst same
      cases found : s.active.find host with
      | none =>
        rw [onRemoved_untracked found]
        exact sound host
      | some t =>
        rw [view_onRemoved_tracked found]
        refine ⟨fun _ => ?_, (sound host).connected, (sound host).closed⟩
        exact Option.isSome_iff_exists.mpr ⟨t, found⟩
    · rw [view_onRemoved_ne same]
      exact sound host
  | sweep now starts =>
    have outcome : SweepOutcome s (s.handle (.sweep now starts)) now := sweep_spec sound
    by_cases due : Due s now host
    · rw [outcome.dropped host due]
      exact HostView.sound_unknown
    · exact (outcome.kept host due).sound (sound host)

theorem Filled.handle (filled : Filled s) (sound : AllSound s) (event : ReconcilerEvent) :
    Filled (s.handle event) := by
  cases event with
  | added peer starts =>
    intro room host t found quiet
    change (s.onAdded starts peer).manager.outgoingCount < maxOutgoingPeers at room
    change (s.onAdded starts peer).active.find host = some t at found
    have slots : s.manager.outgoingCount < maxOutgoingPeers ∧ (host = peer.hostId → t.admitted = true) := by
      have outcome : AddedOutcome s (s.onAdded starts peer) peer := onAdded_cases (sound peer.hostId)
      cases outcome with
      | kept u here admitted _ equal manager =>
        refine ⟨manager ▸ room, ?_⟩
        rintro rfl
        cases ((congrArg HostView.tracked equal).trans here).symm.trans found
        exact admitted
      | forwarded tracked before _ close admission _ =>
        cases admission with
        | accepted p _ _ after here _ =>
          refine ⟨close.trans_lt (after ▸ room), ?_⟩
          rintro rfl
          cases here.symm.trans found
          rfl
        | refused full after _ _ => exact absurd (after ▸ room) full
    by_cases same : host = peer.hostId
    · exact slots.2 same
    · exact filled.unchanged slots.1 (view_onAdded_ne same) found quiet
  | removed hostId now =>
    intro room host t found quiet
    change (s.onRemoved hostId now).manager.outgoingCount < maxOutgoingPeers at room
    change (s.onRemoved hostId now).active.find host = some t at found
    rw [onRemoved_manager] at room
    by_cases same : host = hostId
    · subst same
      cases before : s.active.find host with
      | none =>
        rw [onRemoved_untracked before, before] at found
        cases found
      | some u =>
        have marked : (view (s.onRemoved host now) host).pending = _ :=
          congrArg HostView.pending (view_onRemoved_tracked before)
        cases marked.symm.trans quiet
    · exact filled.unchanged room (view_onRemoved_ne same) found quiet
  | sweep now starts =>
    have outcome : SweepOutcome s (s.handle (.sweep now starts)) now := sweep_spec sound
    exact outcome.filled filled

theorem run_append (events : List ReconcilerEvent) (event : ReconcilerEvent) :
    run (events ++ [event]) = (run events).handle event := by
  rw [run, List.foldl_append]
  rfl

theorem run_sound (events : List ReconcilerEvent) : AllSound (run events) ∧ Filled (run events) := by
  induction events using List.reverseRecOn with
  | nil =>
    constructor
    · intro host
      exact HostView.sound_unknown
    · intro _ host t found
      cases found
  | append_singleton events event ih =>
    rw [run_append]
    exact ⟨ih.1.handle event, ih.2.handle ih.1 event⟩

def reportOf (host : HostId) : ReconcilerEvent → Bool
  | .added peer _ => peer.hostId = host
  | .removed hostId _ => hostId = host
  | .sweep _ _ => false

def lastReport (host : HostId) (events : List ReconcilerEvent) : Option ReconcilerEvent :=
  (events.filter (reportOf host)).getLast?

def Remembered (v : HostView) (host : HostId) : Option ReconcilerEvent → Prop
  | some (.added peer _) => v.pending = none ∧ ∃ t, v.tracked = some t ∧ SameEndpoint t.peer peer
  | some (.removed _ at_) => v.tracked = none ∨
      v.pending = some { hostId := host, deadline := at_ + kRemovalGrace }
  | _ => v.tracked = none

theorem lastReport_append (events : List ReconcilerEvent) (event : ReconcilerEvent) :
    lastReport host (events ++ [event]) =
      if reportOf host event = true then some event else lastReport host events := by
  unfold lastReport
  rw [List.filter_append]
  split_ifs with about
  · rw [List.filter_cons_of_pos about, List.filter_nil, List.getLast?_append]
    rfl
  · rw [List.filter_cons_of_neg about, List.filter_nil, List.append_nil]

theorem AddedOutcome.tracked {next : OutgoingReconciler} (outcome : AddedOutcome s next peer) :
    (view next peer.hostId).pending = none ∧
      ∃ t, (view next peer.hostId).tracked = some t ∧ SameEndpoint t.peer peer := by
  cases outcome with
  | kept t found _ endpoint equal _ =>
    rw [equal]
    exact ⟨rfl, t, found, endpoint⟩
  | forwarded tracked _ endpoint _ admission cleared =>
    refine ⟨cleared, ?_⟩
    cases admission with
    | accepted _ _ _ _ found _ => exact ⟨_, found, endpoint⟩
    | refused _ _ found _ => exact ⟨_, found, endpoint⟩

theorem Remembered.sweep {next : OutgoingReconciler} {report : Option ReconcilerEvent}
    (before : Remembered (view s host) host report) (outcome : SweepOutcome s next now) :
    Remembered (view next host) host report := by
  by_cases due : Due s now host
  · rw [outcome.dropped host due]
    obtain ⟨removal, pending, _⟩ := due
    cases report with
    | none => rfl
    | some report =>
      cases report with
      | added => cases before.1.symm.trans pending
      | removed => exact .inl rfl
      | sweep => rfl
  · cases outcome.kept host due with
    | same equal => exact equal ▸ before
    | admitted t p found waiting quiet equal serves =>
      rw [equal]
      cases report with
      | none => cases before.symm.trans found
      | some report =>
        cases report with
        | added peer starts =>
          obtain ⟨_, u, here, endpoint⟩ := before
          cases found.symm.trans here
          exact ⟨rfl, _, rfl, endpoint⟩
        | removed hostId at_ =>
          rcases before with missing | pending
          · cases missing.symm.trans found
          · cases quiet.symm.trans pending
        | sweep => cases before.symm.trans found

theorem remembered (events : List ReconcilerEvent) (host : HostId) :
    Remembered (view (run events) host) host (lastReport host events) := by
  induction events using List.reverseRecOn with
  | nil => exact rfl
  | append_singleton events event ih =>
    have sound := (run_sound events).1
    rw [run_append, lastReport_append]
    cases event with
    | added peer starts =>
      change Remembered (view ((run events).onAdded starts peer) host) host _
      by_cases same : peer.hostId = host
      · subst same
        rw [if_pos (by simp [reportOf])]
        exact (onAdded_cases (sound peer.hostId)).tracked
      · rw [if_neg (by simp [reportOf, same]), view_onAdded_ne (Ne.symm same)]
        exact ih
    | removed hostId at_ =>
      change Remembered (view ((run events).onRemoved hostId at_) host) host _
      by_cases same : hostId = host
      · subst same
        rw [if_pos (by simp [reportOf])]
        cases found : (run events).active.find hostId with
        | none =>
          rw [onRemoved_untracked found]
          exact .inl found
        | some t =>
          rw [view_onRemoved_tracked found]
          exact .inr rfl
      · rw [if_neg (by simp [reportOf, same]), view_onRemoved_ne (Ne.symm same)]
        exact ih
    | sweep now starts =>
      rw [if_neg (by simp [reportOf])]
      exact ih.sweep (sweep_spec sound)

/-- An event between a reported departure and the end of the grace period that does not announce the host. -/
def WithinGrace (host : HostId) (at_ : Nat) : ReconcilerEvent → Prop
  | .added peer _ => peer.hostId ≠ host
  | .removed hostId later => hostId = host → at_ ≤ later
  | .sweep now _ => now < at_ + kRemovalGrace

/-- The host is tracked as before and its removal not due before the deadline. -/
structure Deferred (v : HostView) (t : TrackedPeer) (connections : List Peer) (deadline : Nat) : Prop where
  tracked : v.tracked = some t
  connections : v.connections = connections
  pending : ∃ removal, v.pending = some removal ∧ deadline ≤ removal.deadline

theorem Deferred.handle {at_ : Nat} {connections : List Peer}
    (deferred : Deferred (view s host) t connections (at_ + kRemovalGrace)) (sound : AllSound s)
    (within : WithinGrace host at_ event) :
    Deferred (view (s.handle event) host) t connections (at_ + kRemovalGrace) := by
  cases event with
  | added peer starts =>
    have same : view (s.handle (.added peer starts)) host = view s host := view_onAdded_ne (Ne.symm within)
    rw [same]
    exact deferred
  | removed hostId later =>
    change Deferred (view (s.onRemoved hostId later) host) t connections _
    by_cases same : hostId = host
    · subst same
      rw [view_onRemoved_tracked deferred.tracked]
      exact ⟨deferred.tracked, deferred.connections, _, rfl, Nat.add_le_add_right (within rfl) _⟩
    · rw [view_onRemoved_ne (Ne.symm same)]
      exact deferred
  | sweep now starts =>
    have outcome : SweepOutcome s (s.handle (.sweep now starts)) now := sweep_spec sound
    obtain ⟨removal, pending, later⟩ := deferred.pending
    have early : ¬ Due s now host := by
      rintro ⟨other, there, overdue⟩
      cases pending.symm.trans there
      exact absurd (later.trans overdue) (not_le.mpr within)
    cases outcome.kept host early with
    | same equal => exact equal ▸ deferred
    | admitted _ _ _ _ quiet _ _ => cases quiet.symm.trans pending

theorem Deferred.foldl {at_ : Nat} {connections : List Peer} {between : List ReconcilerEvent}
    (deferred : Deferred (view s host) t connections (at_ + kRemovalGrace)) (sound : AllSound s)
    (within : ∀ event ∈ between, WithinGrace host at_ event) :
    Deferred (view (between.foldl OutgoingReconciler.handle s) host) t connections (at_ + kRemovalGrace) ∧
      AllSound (between.foldl OutgoingReconciler.handle s) := by
  induction between generalizing s with
  | nil => exact ⟨deferred, sound⟩
  | cons event rest ih =>
    have first := within event List.mem_cons_self
    exact ih (deferred.handle sound first) (sound.handle event)
      (fun later member => within later (List.mem_cons_of_mem _ member))

/-- A host that is announced again within its grace period keeps its connections. -/
theorem connections_survive_grace {events between : List ReconcilerEvent} {at_ : Nat} {p : Peer}
    (found : (run events).active.find peer.hostId = some t) (endpoint : SameEndpoint t.peer peer)
    (within : ∀ event ∈ between, WithinGrace peer.hostId at_ event)
    (member : p ∈ (run events).manager.outgoingTo peer.hostId) :
    p ∈ (run (events ++ .removed peer.hostId at_ :: between ++ [.added peer starts])).manager.outgoingTo
      peer.hostId := by
  have sound := (run_sound events).1
  have runs : run (events ++ .removed peer.hostId at_ :: between ++ [.added peer starts]) =
      (between.foldl OutgoingReconciler.handle ((run events).handle (.removed peer.hostId at_))).onAdded
        starts peer := by
    rw [run_append, run, List.foldl_append]
    rfl
  have start : Deferred (view ((run events).handle (.removed peer.hostId at_)) peer.hostId) t
      ((run events).manager.outgoingTo peer.hostId) (at_ + kRemovalGrace) := by
    change Deferred (view ((run events).onRemoved peer.hostId at_) peer.hostId) t _ _
    rw [view_onRemoved_tracked found]
    exact ⟨found, rfl, _, rfl, le_rfl⟩
  obtain ⟨deferred, after⟩ := start.foldl (sound.handle _) within
  have same : (between.foldl OutgoingReconciler.handle ((run events).handle
      (.removed peer.hostId at_))).manager.outgoingTo peer.hostId = (run events).manager.outgoingTo peer.hostId :=
    deferred.connections
  rw [runs]
  exact onAdded_keeps (after peer.hostId) deferred.tracked endpoint (same ▸ member)

theorem grace_expires {events : List ReconcilerEvent} {hostId : HostId} {at_ : Nat}
    (last : lastReport host events = some (.removed hostId at_)) (overdue : at_ + kRemovalGrace ≤ now) :
    (run (events ++ [.sweep now starts])).active.find host = none := by
  have outcome : SweepOutcome (run events) ((run events).handle (.sweep now starts)) now :=
    sweep_spec (run_sound events).1
  have before := remembered events host
  rw [last] at before
  rw [run_append]
  by_cases due : Due (run events) now host
  · exact congrArg HostView.tracked (outcome.dropped host due)
  · rcases before with missing | pending
    · cases outcome.kept host due with
      | same equal => exact (congrArg HostView.tracked equal).trans missing
      | admitted t _ found _ _ _ _ => cases missing.symm.trans found
    · exact absurd ⟨_, pending, overdue⟩ due

theorem admitted_and_served {events : List ReconcilerEvent} (found : (run events).active.find host = some t)
    (quiet : (run events).pendingRemoval.find host = none)
    (room : (run events).manager.outgoingCount < maxOutgoingPeers) :
    t.admitted = true ∧ ∃ p ∈ (run events).manager.outgoingTo host, Serves p t.peer := by
  obtain ⟨sound, filled⟩ := run_sound events
  have admitted := filled room host t found quiet
  obtain ⟨q, connections, serves⟩ := (sound host).connected t found admitted
  have member : q ∈ (run events).manager.outgoingTo host := by
    rw [show (run events).manager.outgoingTo host = [q] from connections]
    exact List.mem_singleton_self q
  exact ⟨admitted, q, member, serves⟩

/-- What holds after any sequence of reports and sweeps. -/
structure Reconciled (events : List ReconcilerEvent) : Prop where
  pendingTracked : ∀ host, ((run events).pendingRemoval.find host).isSome = true →
    ((run events).active.find host).isSome = true
  announced : ∀ host peer starts, lastReport host events = some (.added peer starts) →
    (run events).pendingRemoval.find host = none ∧
      ∃ t, (run events).active.find host = some t ∧ SameEndpoint t.peer peer
  reannounced : ∀ peer starts t, (run events).active.find peer.hostId = some t → SameEndpoint t.peer peer →
    ∀ p ∈ (run events).manager.outgoingTo peer.hostId,
      p ∈ (run (events ++ [.added peer starts])).manager.outgoingTo peer.hostId
  connectionKept : ∀ peer starts t at_ between, (run events).active.find peer.hostId = some t →
    SameEndpoint t.peer peer → (∀ event ∈ between, WithinGrace peer.hostId at_ event) →
    ∀ p ∈ (run events).manager.outgoingTo peer.hostId,
      p ∈ (run (events ++ .removed peer.hostId at_ :: between ++ [.added peer starts])).manager.outgoingTo
        peer.hostId
  expired : ∀ host hostId at_ now starts, lastReport host events = some (.removed hostId at_) →
    at_ + kRemovalGrace ≤ now → (run (events ++ [.sweep now starts])).active.find host = none
  admitted : ∀ host t now starts, (run (events ++ [.sweep now starts])).active.find host = some t →
    (run (events ++ [.sweep now starts])).pendingRemoval.find host = none →
    (run (events ++ [.sweep now starts])).manager.outgoingCount < maxOutgoingPeers →
    t.admitted = true ∧ ∃ p ∈ (run (events ++ [.sweep now starts])).manager.outgoingTo host, Serves p t.peer

theorem discovery_reconciled (events : List ReconcilerEvent) : Reconciled events where
  pendingTracked host := ((run_sound events).1 host).tracked
  announced host peer starts last := by
    have kept := remembered events host
    rw [last] at kept
    exact kept
  reannounced peer starts t found endpoint p member := by
    rw [run_append]
    exact onAdded_keeps ((run_sound events).1 peer.hostId) found endpoint member
  connectionKept _ _ _ _ _ found endpoint within _ member := connections_survive_grace found endpoint within member
  expired _ _ _ _ _ last overdue := grace_expires last overdue
  admitted _ _ _ _ found quiet room := admitted_and_served found quiet room

end ClippProof.Peers
