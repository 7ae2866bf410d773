import Clipp.Foundation.ByteOrder
import Clipp.Foundation.KeyedList
import Clipp.Foundation.Machine
import Clipp.Peers.PeerManager

open Foundation

namespace ClippModel.Peers

/-- What waits in the queue of a peer: an item, named by its place in the activity store, or an encoded frame. -/
inductive OutboundMessage where
  | payload (guid : Bytes)
  | rawFrame (tag body : Bytes)
  deriving DecidableEq

/-- Where the thread of a peer is: an incoming one is `handshaking` and then `serving`, an outgoing one goes round
    between `connecting`, `connected` and `backoff`. -/
inductive ThreadPhase where
  | handshaking
  | serving
  | connecting
  | connected
  | backoff
  | exited
  deriving DecidableEq

/-- `sent` lists the queued messages that went out, in order. -/
structure OutboundPeer where
  logId : Nat
  connType : ConnType
  remoteServesRegisters : Bool
  thread : ThreadPhase
  messageQueue : List OutboundMessage
  sent : List OutboundMessage
  deriving DecidableEq

/-- How an attempt to connect ends. A remote of another host id is refused after its capabilities were read. -/
inductive ConnectOutcome where
  | failed
  | mismatched (servesRegisters : Bool)
  | connected (servesRegisters : Bool)

inductive ThreadMove where
  | connect (outcome : ConnectOutcome)
  | retry
  | drain (sends : Bool)
  | disconnect
  | finish

namespace OutboundPeer

def isRunning (p : OutboundPeer) : Bool := p.thread ≠ .exited

def push (message : OutboundMessage) (p : OutboundPeer) : OutboundPeer :=
  { p with messageQueue := p.messageQueue ++ [message] }

/-- `DrainOutboundMessages` takes a message from the queue before it sends it, so one that fails is lost. -/
def drainOutboundMessage (p : OutboundPeer) (sends : Bool) : Option OutboundPeer :=
  match p.messageQueue with
  | [] => none
  | message :: rest =>
    if sends then some { p with messageQueue := rest, sent := p.sent ++ [message] }
    else some { p with messageQueue := rest, thread := .backoff }

/-- The loop of an incoming peer has no turn that drains the queue. -/
def move (p : OutboundPeer) : ThreadMove → Option OutboundPeer
  | .connect outcome =>
    match p.thread, outcome with
    | .connecting, .failed => some { p with thread := .backoff }
    | .connecting, .mismatched serves => some { p with thread := .backoff, remoteServesRegisters := serves }
    | .connecting, .connected serves => some { p with thread := .connected, remoteServesRegisters := serves }
    | .handshaking, .connected serves => some { p with thread := .serving, remoteServesRegisters := serves }
    | .handshaking, _ => some { p with thread := .exited }
    | _, _ => none
  | .retry =>
    match p.thread with
    | .backoff => some { p with thread := .connecting }
    | _ => none
  | .drain sends =>
    match p.thread with
    | .connected => p.drainOutboundMessage sends
    | _ => none
  | .disconnect =>
    match p.thread with
    | .connected => some { p with thread := .backoff }
    | .serving => some { p with thread := .exited }
    | _ => none
  -- an outgoing thread only ends by itself when it finds no host id of its own
  | .finish =>
    match p.thread with
    | .connecting => some { p with thread := .exited }
    | _ => none

end OutboundPeer

structure OutboundManager where
  peers : List OutboundPeer
  nextPeerLogId : Nat
  deriving DecidableEq

inductive OutboundEvent where
  | add (connType : ConnType) (starts : Bool)
  | remove (dropped : Nat → Bool)
  | thread (logId : Nat) (move : ThreadMove)
  | broadcastClipboard (guid : Bytes)
  | broadcastRegisterFrame (tag body : Bytes)
  | broadcastFrame (tag body : Bytes)

namespace OutboundManager

def boot : OutboundManager := { peers := [], nextPeerLogId := 1 }

def createPeer (s : OutboundManager) (connType : ConnType) (starts : Bool) : OutboundPeer where
  logId := s.nextPeerLogId
  connType := connType
  remoteServesRegisters := false
  thread := if starts then (match connType with | .outgoing => .connecting | .incoming => .handshaking) else .exited
  messageQueue := []
  sent := []

/-- One loop of the manager that pushes a message to the peers it selects. -/
def pushTo (s : OutboundManager) (selects : OutboundPeer → Bool) (message : OutboundMessage) : OutboundManager :=
  { s with peers := s.peers.map (fun p => if selects p then p.push message else p) }

def broadcastClipboard (s : OutboundManager) (guid : Bytes) : OutboundManager × Nat :=
  (s.pushTo (fun _ => true) (.payload guid), s.peers.length)

def broadcastRegisterFrame (s : OutboundManager) (tag body : Bytes) : OutboundManager :=
  s.pushTo (·.remoteServesRegisters) (.rawFrame tag body)

def broadcastFrame (s : OutboundManager) (tag body : Bytes) : OutboundManager :=
  s.pushTo (fun _ => true) (.rawFrame tag body)

/-- The calls that remove peers hold the lock until their threads have ended. -/
def step (s : OutboundManager) : OutboundEvent → Option OutboundManager
  | .add connType starts =>
    some { peers := s.peers ++ [s.createPeer connType starts], nextPeerLogId := s.nextPeerLogId + 1 }
  | .remove dropped => some { s with peers := s.peers.filter (fun p => !dropped p.logId) }
  | .thread logId move =>
    match (s.peers.find? (fun p => p.logId = logId)).bind (·.move move) with
    | some moved => some { s with peers := KeyedList.modify OutboundPeer.logId logId (fun _ => moved) s.peers }
    | none => none
  | .broadcastClipboard guid => some (s.broadcastClipboard guid).1
  | .broadcastRegisterFrame tag body => some (s.broadcastRegisterFrame tag body)
  | .broadcastFrame tag body => some (s.broadcastFrame tag body)

end OutboundManager

end ClippModel.Peers

namespace ClippProof.Peers

open ClippModel.Peers ClippModel.Peers.OutboundManager

variable {s next : OutboundManager} {p q : OutboundPeer} {event : OutboundEvent} {logId : Nat}

def selects : OutboundEvent → OutboundPeer → Bool
  | .broadcastClipboard _ | .broadcastFrame _ _ => fun _ => true
  | .broadcastRegisterFrame _ _ => (·.remoteServesRegisters)
  | .add _ _ | .remove _ | .thread _ _ => fun _ => false

def OwnThread (logId : Nat) (_ : OutboundManager) : OutboundEvent → Prop
  | .thread id _ => id = logId
  | _ => False

/-- The thread of the peer can send, by itself, all that is in its queue. -/
def Delivers (s : OutboundManager) (logId : Nat) : Prop :=
  ∃ p ∈ s.peers, p.logId = logId ∧ ∃ events last, Path step (OwnThread logId) s events last ∧
    ∃ q ∈ last.peers, q.logId = logId ∧ q.sent = p.sent ++ p.messageQueue

/-- Whatever a broadcast pushes is pushed to peers that can send it, and its count promises no less. -/
structure Disciplined (s next : OutboundManager) (event : OutboundEvent) : Prop where
  delivers : ∀ p ∈ s.peers, selects event p = true → Delivers next p.logId
  honest : ∀ guid, event = .broadcastClipboard guid → 0 < (s.broadcastClipboard guid).2 →
    ∃ p ∈ next.peers, Delivers next p.logId

/-- A broadcast only selects outgoing peers whose thread has not ended. -/
def BroadcastFits (s : OutboundManager) (event : OutboundEvent) : Prop :=
  ∀ p ∈ s.peers, selects event p = true → p.connType = .outgoing ∧ p.isRunning = true

def Typed (p : OutboundPeer) : Prop :=
  match p.connType with
  | .incoming => p.thread = .handshaking ∨ p.thread = .serving ∨ p.thread = .exited
  | .outgoing => p.thread = .connecting ∨ p.thread = .connected ∨ p.thread = .backoff ∨ p.thread = .exited

def Sending (p : OutboundPeer) : Prop := p.connType = .outgoing ∧ p.isRunning = true

structure Moves (p q : OutboundPeer) : Prop where
  logId : q.logId = p.logId
  connType : q.connType = p.connType
  typed : Typed p → Typed q
  silent : Typed p → ¬ Sending p → q.messageQueue = p.messageQueue ∧ q.sent = p.sent ∧ ¬ Sending q
  kept : p.messageQueue = [] → q.messageQueue = []

theorem drain_cases {sends : Bool} (taken : p.drainOutboundMessage sends = some q) :
    ∃ message rest, p.messageQueue = message :: rest ∧
      (q = { p with messageQueue := rest, sent := p.sent ++ [message] } ∨
        q = { p with messageQueue := rest, thread := .backoff }) := by
  unfold OutboundPeer.drainOutboundMessage at taken
  cases queued : p.messageQueue with
  | nil => simp [queued] at taken
  | cons message rest =>
    simp only [queued] at taken
    split_ifs at taken <;> cases taken
    · exact ⟨message, rest, rfl, .inl rfl⟩
    · exact ⟨message, rest, rfl, .inr rfl⟩

theorem moves_phase {thread : ThreadPhase} {serves : Bool}
    (typed : Typed p → Typed { p with thread := thread, remoteServesRegisters := serves })
    (runs : p.isRunning = true) : Moves p { p with thread := thread, remoteServesRegisters := serves } :=
  ⟨rfl, rfl, typed, fun _ quiet => ⟨rfl, rfl, fun sending => quiet ⟨sending.1, runs⟩⟩, fun queued => queued⟩

theorem move_moves {move : ThreadMove} (taken : p.move move = some q) : Moves p q := by
  cases move with
  | connect outcome =>
    cases here : p.thread <;> cases outcome <;> simp only [OutboundPeer.move, here] at taken <;> cases taken
    all_goals
      refine moves_phase (fun typed => ?_) (by simp [OutboundPeer.isRunning, here])
      cases type : p.connType <;> simp_all [Typed]
  | retry =>
    cases here : p.thread <;> simp only [OutboundPeer.move, here] at taken <;> cases taken
    refine moves_phase (fun typed => ?_) (by simp [OutboundPeer.isRunning, here])
    cases type : p.connType <;> simp_all [Typed]
  | drain sends =>
    cases here : p.thread <;> simp only [OutboundPeer.move, here] at taken <;> try cases taken
    have sending : Typed p → Sending p := by
      intro typed
      cases type : p.connType <;> simp_all [Typed, Sending, OutboundPeer.isRunning]
    obtain ⟨message, rest, queued, drained⟩ := drain_cases taken
    have nonempty : p.messageQueue ≠ [] := by simp [queued]
    rcases drained with rfl | rfl
    · exact ⟨rfl, rfl, id, fun typed quiet => absurd (sending typed) quiet, fun none => absurd none nonempty⟩
    · refine ⟨rfl, rfl, fun typed => ?_, fun typed quiet => absurd (sending typed) quiet,
        fun none => absurd none nonempty⟩
      have outgoing := (sending typed).1
      simp [Typed, outgoing]
  | disconnect =>
    cases here : p.thread <;> simp only [OutboundPeer.move, here] at taken <;> cases taken
    all_goals
      refine moves_phase (fun typed => ?_) (by simp [OutboundPeer.isRunning, here])
      cases type : p.connType <;> simp_all [Typed]
  | finish =>
    cases here : p.thread <;> simp only [OutboundPeer.move, here] at taken <;> cases taken
    refine moves_phase (fun typed => ?_) (by simp [OutboundPeer.isRunning, here])
    cases type : p.connType <;> simp_all [Typed]

structure Queued (s : OutboundManager) : Prop where
  distinct : (s.peers.map OutboundPeer.logId).Nodup
  fresh : ∀ p ∈ s.peers, p.logId < s.nextPeerLogId
  typed : ∀ p ∈ s.peers, Typed p

theorem queued_boot : Queued boot := ⟨List.nodup_nil, nofun, nofun⟩

theorem thread_takes {move : ThreadMove} (taken : s.step (.thread logId move) = some next) :
    ∃ p q, p ∈ s.peers ∧ p.logId = logId ∧ p.move move = some q ∧
      next = { s with peers := KeyedList.modify OutboundPeer.logId logId (fun _ => q) s.peers } := by
  rw [step] at taken
  cases moved : (s.peers.find? (fun p => p.logId = logId)).bind (·.move move) with
  | none => simp [moved] at taken
  | some q =>
    simp only [moved, Option.some.injEq] at taken
    obtain ⟨p, found, here⟩ := Option.bind_eq_some_iff.mp moved
    have named : p.logId = logId := by simpa using List.find?_some found
    exact ⟨p, q, List.mem_of_find?_eq_some found, named, here, taken.symm⟩

theorem mem_replaced {r : OutboundPeer}
    (member : r ∈ KeyedList.modify OutboundPeer.logId logId (fun _ => q) s.peers) :
    r = q ∨ r ∈ s.peers ∧ r.logId ≠ logId := by
  obtain ⟨a, before, same⟩ := KeyedList.mem_modify.mp member
  split_ifs at same with here
  · exact .inl same.symm
  · exact .inr (same ▸ ⟨before, here⟩)

theorem Queued.replace (queued : Queued s) (member : p ∈ s.peers) (moves : Moves p q) :
    Queued { s with peers := KeyedList.modify OutboundPeer.logId p.logId (fun _ => q) s.peers } := by
  refine ⟨?_, fun r inside => ?_, fun r inside => ?_⟩
  · exact (KeyedList.keys_modify (fun _ _ => moves.logId)).symm ▸ queued.distinct
  · rcases mem_replaced inside with rfl | ⟨before, _⟩
    · exact moves.logId ▸ queued.fresh p member
    · exact queued.fresh r before
  · rcases mem_replaced inside with rfl | ⟨before, _⟩
    · exact moves.typed (queued.typed p member)
    · exact queued.typed r before

theorem Queued.pushTo {selected : OutboundPeer → Bool} {message : OutboundMessage} (queued : Queued s) :
    Queued (s.pushTo selected message) := by
  have keeps : ∀ p : OutboundPeer, (if selected p then p.push message else p).logId = p.logId := by
    intro p
    split_ifs <;> rfl
  refine ⟨?_, fun r inside => ?_, fun r inside => ?_⟩
  · have names : (s.pushTo selected message).peers.map OutboundPeer.logId = s.peers.map OutboundPeer.logId := by
      rw [OutboundManager.pushTo, List.map_map]
      exact List.map_congr_left (fun p _ => keeps p)
    exact names ▸ queued.distinct
  · obtain ⟨p, before, rfl⟩ := List.mem_map.mp inside
    exact (keeps p).symm ▸ queued.fresh p before
  · obtain ⟨p, before, rfl⟩ := List.mem_map.mp inside
    have typed := queued.typed p before
    split_ifs
    · exact typed
    · exact typed

theorem Queued.add {connType : ConnType} {starts : Bool} (queued : Queued s) :
    Queued { peers := s.peers ++ [s.createPeer connType starts], nextPeerLogId := s.nextPeerLogId + 1 } := by
  refine ⟨KeyedList.distinct_append queued.distinct queued.fresh rfl, KeyedList.below_append queued.fresh rfl,
    fun r inside => ?_⟩
  · rcases List.mem_append.mp inside with before | last
    · exact queued.typed r before
    · rw [List.mem_singleton.mp last]
      cases connType <;> cases starts <;> simp [Typed, OutboundManager.createPeer]

theorem Queued.step (queued : Queued s) (taken : s.step event = some next) : Queued next := by
  cases event with
  | add connType starts =>
    cases taken
    exact queued.add
  | remove dropped =>
    cases taken
    have subset : ∀ {p}, p ∈ s.peers.filter (fun p => !dropped p.logId) → p ∈ s.peers :=
      fun member => (List.mem_filter.mp member).1
    exact ⟨(List.filter_sublist.map _).nodup queued.distinct, fun p member => queued.fresh p (subset member),
      fun p member => queued.typed p (subset member)⟩
  | thread logId move =>
    obtain ⟨p, q, member, rfl, moved, rfl⟩ := thread_takes taken
    exact queued.replace member (move_moves moved)
  | broadcastClipboard guid =>
    cases taken
    exact queued.pushTo
  | broadcastRegisterFrame tag body =>
    cases taken
    exact queued.pushTo
  | broadcastFrame tag body =>
    cases taken
    exact queued.pushTo

theorem connected_drains (messages : List OutboundMessage) (p : OutboundPeer) (here : p.thread = .connected)
    (waiting : p.messageQueue = messages) :
    ∃ moves q, Path OutboundPeer.move (fun _ _ => True) p moves q ∧ q.logId = p.logId ∧
      q.sent = p.sent ++ messages := by
  induction messages generalizing p with
  | nil => exact ⟨[], p, .nil p, rfl, (List.append_nil _).symm⟩
  | cons message rest ih =>
    let drained := { p with messageQueue := rest, sent := p.sent ++ [message] }
    have drains : p.move (.drain true) = some drained := by
      simp [OutboundPeer.move, here, OutboundPeer.drainOutboundMessage, waiting, drained]
    obtain ⟨moves, q, path, same, sent⟩ := ih drained here rfl
    refine ⟨_, q, .cons trivial drains path, same, ?_⟩
    rw [sent, List.append_assoc, List.singleton_append]

theorem sending_drains (typed : Typed p) (sending : Sending p) :
    ∃ moves q, Path OutboundPeer.move (fun _ _ => True) p moves q ∧ q.logId = p.logId ∧
      q.sent = p.sent ++ p.messageQueue := by
  have connects : ∀ r : OutboundPeer, r.thread = .connecting → ∃ moves q,
      Path OutboundPeer.move (fun _ _ => True) r moves q ∧ q.logId = r.logId ∧ q.sent = r.sent ++ r.messageQueue := by
    intro r here
    have connected : r.move (.connect (.connected false)) =
        some { r with thread := .connected, remoteServesRegisters := false } := by
      simp [OutboundPeer.move, here]
    obtain ⟨moves, q, path, same, sent⟩ := connected_drains r.messageQueue
      { r with thread := .connected, remoteServesRegisters := false } rfl rfl
    exact ⟨_, q, .cons trivial connected path, same, sent⟩
  obtain ⟨outgoing, runs⟩ := sending
  simp only [Typed, outgoing] at typed
  rcases typed with here | here | here | here
  · exact connects p here
  · exact connected_drains p.messageQueue p here rfl
  · have retried : p.move .retry = some { p with thread := .connecting } := by simp [OutboundPeer.move, here]
    obtain ⟨moves, q, path, same, sent⟩ := connects { p with thread := .connecting } rfl
    exact ⟨_, q, .cons trivial retried path, same, sent⟩
  · simp [OutboundPeer.isRunning, here] at runs

theorem Queued.own_path {moves : List ThreadMove} (path : Path OutboundPeer.move (fun _ _ => True) p moves q)
    (queued : Queued s) (member : p ∈ s.peers) :
    ∃ events last, Path OutboundManager.step (OwnThread p.logId) s events last ∧ q ∈ last.peers := by
  induction path generalizing s with
  | nil p => exact ⟨[], s, .nil s, member⟩
  | @cons p r q move moves _ moved _ ih =>
    have moves := move_moves moved
    let after := { s with peers := KeyedList.modify OutboundPeer.logId p.logId (fun _ => r) s.peers }
    have taken : s.step (.thread p.logId move) = some after := by
      simp only [OutboundManager.step, KeyedList.find_of_mem queued.distinct member, Option.bind_some, moved, after]
    have here : r ∈ after.peers := KeyedList.mem_modify.mpr ⟨p, member, if_pos rfl⟩
    obtain ⟨events, last, path, inside⟩ := ih (queued.replace member moves) here
    rw [moves.logId] at path
    have own : OwnThread p.logId s (.thread p.logId move) := rfl
    exact ⟨_, last, .cons own taken path, inside⟩

theorem Queued.delivers (queued : Queued s) (member : p ∈ s.peers) (sending : Sending p) : Delivers s p.logId := by
  obtain ⟨moves, q, path, same, sent⟩ := sending_drains (queued.typed p member) sending
  obtain ⟨events, last, run, inside⟩ := queued.own_path path member
  exact ⟨p, member, rfl, events, last, run, q, inside, same, sent⟩

theorem Queued.silent {events : List OutboundEvent} {last : OutboundManager} (queued : Queued s) (member : p ∈ s.peers)
    (quiet : ¬ Sending p) (run : Path OutboundManager.step (OwnThread p.logId) s events last) :
    ∀ q ∈ last.peers, q.logId = p.logId → q.sent = p.sent := by
  have silent : Queued last ∧ ∀ q ∈ last.peers, q.logId = p.logId → q.sent = p.sent ∧ ¬ Sending q := by
    refine run.invariant (fun s => Queued s ∧ ∀ q ∈ s.peers, q.logId = p.logId → q.sent = p.sent ∧ ¬ Sending q) ?_
      ⟨queued, fun q inside same => ?_⟩
    · rintro s event next ⟨queued, still⟩ own taken
      refine ⟨queued.step taken, fun r inside same => ?_⟩
      cases event with
      | thread logId move =>
        obtain ⟨q, moved, before, here, turned, rfl⟩ := thread_takes taken
        rcases mem_replaced inside with rfl | ⟨earlier, _⟩
        · have moves := move_moves turned
          obtain ⟨sent, mute⟩ := still q before (moves.logId.symm.trans same)
          obtain ⟨_, kept, after⟩ := moves.silent (queued.typed q before) mute
          exact ⟨kept.trans sent, after⟩
        · exact still r earlier same
      | _ => exact absurd own id
    · rw [List.inj_on_of_nodup_map queued.distinct inside member same]
      exact ⟨rfl, quiet⟩
  exact fun q inside same => (silent.2 q inside same).1

theorem Queued.delivers_iff (queued : Queued s) (member : p ∈ s.peers) (waiting : p.messageQueue ≠ []) :
    Delivers s p.logId ↔ Sending p := by
  refine ⟨fun delivers => ?_, queued.delivers member⟩
  by_contra quiet
  obtain ⟨r, inside, same, events, last, run, q, there, named, sent⟩ := delivers
  cases List.inj_on_of_nodup_map queued.distinct inside member same
  rw [queued.silent member quiet run q there named] at sent
  exact waiting (List.self_eq_append_right.mp sent)

theorem pushTo_pushes {selected : OutboundPeer → Bool} {message : OutboundMessage} (member : p ∈ s.peers)
    (chosen : selected p = true) : p.push message ∈ (s.pushTo selected message).peers :=
  List.mem_map.mpr ⟨p, member, if_pos chosen⟩

theorem selected_pushed (taken : s.step event = some next) (member : p ∈ s.peers)
    (chosen : selects event p = true) : ∃ message, p.push message ∈ next.peers := by
  cases event with
  | broadcastClipboard guid =>
    cases taken
    exact ⟨_, pushTo_pushes member chosen⟩
  | broadcastRegisterFrame tag body =>
    cases taken
    exact ⟨_, pushTo_pushes member chosen⟩
  | broadcastFrame tag body =>
    cases taken
    exact ⟨_, pushTo_pushes member chosen⟩
  | add _ _ | remove _ | thread _ _ => cases chosen

theorem Queued.selected_delivers_iff (queued : Queued s) (taken : s.step event = some next) (member : p ∈ s.peers)
    (chosen : selects event p = true) : Delivers next p.logId ↔ Sending p := by
  obtain ⟨message, pushed⟩ := selected_pushed taken member chosen
  have waiting : (p.push message).messageQueue ≠ [] := by simp [OutboundPeer.push]
  have after := (queued.step taken).delivers_iff pushed waiting
  exact after

theorem Queued.disciplined_iff (queued : Queued s) (taken : s.step event = some next) :
    Disciplined s next event ↔ BroadcastFits s event := by
  refine ⟨fun disciplined p member chosen => ?_, fun fits => ⟨fun p member chosen => ?_, ?_⟩⟩
  · exact (queued.selected_delivers_iff taken member chosen).mp (disciplined.delivers p member chosen)
  · exact (queued.selected_delivers_iff taken member chosen).mpr (fits p member chosen)
  · rintro guid rfl some_
    obtain ⟨p, member⟩ := List.exists_mem_of_length_pos some_
    obtain ⟨message, pushed⟩ := selected_pushed taken member rfl
    exact ⟨_, pushed, (queued.selected_delivers_iff taken member rfl).mpr (fits p member rfl)⟩

def QuietIncoming (s : OutboundManager) : Prop := ∀ p ∈ s.peers, p.connType = .incoming → p.messageQueue = []

theorem QuietIncoming.pushTo {selected : OutboundPeer → Bool} {message : OutboundMessage} (quiet : QuietIncoming s)
    (fits : ∀ p ∈ s.peers, selected p = true → p.connType = .outgoing ∧ p.isRunning = true) :
    QuietIncoming (s.pushTo selected message) := by
  intro q inside incoming
  obtain ⟨p, member, rfl⟩ := List.mem_map.mp inside
  split_ifs at incoming ⊢ with chosen
  · cases incoming.symm.trans (fits p member chosen).1
  · exact quiet p member incoming

theorem QuietIncoming.step (quiet : QuietIncoming s) (fits : BroadcastFits s event)
    (taken : s.step event = some next) : QuietIncoming next := by
  cases event with
  | add connType starts =>
    cases taken
    intro p inside incoming
    rcases List.mem_append.mp inside with before | last
    · exact quiet p before incoming
    · rw [List.mem_singleton.mp last]
      rfl
  | remove dropped =>
    cases taken
    exact fun p inside => quiet p (List.mem_filter.mp inside).1
  | thread logId move =>
    obtain ⟨p, q, member, rfl, moved, rfl⟩ := thread_takes taken
    have moves := move_moves moved
    intro r inside incoming
    rcases mem_replaced inside with rfl | ⟨before, _⟩
    · exact moves.kept (quiet p member (moves.connType.symm.trans incoming))
    · exact quiet r before incoming
  | broadcastClipboard guid =>
    cases taken
    exact quiet.pushTo fits
  | broadcastRegisterFrame tag body =>
    cases taken
    exact quiet.pushTo fits
  | broadcastFrame tag body =>
    cases taken
    exact quiet.pushTo fits

theorem run_queued {ok : OutboundManager → OutboundEvent → Prop} {events : List OutboundEvent}
    (path : Path OutboundManager.step ok boot events s) : Queued s :=
  path.invariant Queued (fun _ _ _ queued _ taken => queued.step taken) queued_boot

theorem run_quiet {events : List OutboundEvent} (path : Path OutboundManager.step BroadcastFits boot events s) :
    QuietIncoming s :=
  path.invariant QuietIncoming (fun _ _ _ quiet fits taken => quiet.step fits taken) nofun

/-- In every run whose broadcasts meet the condition no incoming peer has a message waiting, and a next broadcast
    reaches only peers that can send it exactly if it meets the condition as well. -/
theorem broadcasts_disciplined (events : List OutboundEvent) (s : OutboundManager)
    (path : Path OutboundManager.step BroadcastFits boot events s) :
    QuietIncoming s ∧
      ∀ event next, s.step event = some next → (Disciplined s next event ↔ BroadcastFits s event) :=
  ⟨run_quiet path, fun _ _ taken => (run_queued path).disciplined_iff taken⟩

instance broadcastFitsDecidable (s : OutboundManager) (event : OutboundEvent) : Decidable (BroadcastFits s event) :=
  inferInstanceAs (Decidable (∀ p ∈ s.peers, _ → _))

def copiedToGateway : List OutboundEvent :=
  [.add .outgoing true, .thread 1 (.connect (.connected true)), .broadcastClipboard [1]]

theorem copied_item_waits_for_sender : QuietIncoming (lastOf OutboundManager.step boot copiedToGateway) :=
  (broadcasts_disciplined copiedToGateway _ (fitting_to_lastOf (by decide +kernel))).1

/-- Only an incoming connection: the count is one, and nothing ever sends what was queued. -/
theorem copied_item_stuck_at_incoming : ¬ ∀ events s, Path OutboundManager.step (fun _ _ => True) boot events s →
    QuietIncoming s ∧ ∀ event next, s.step event = some next → Disciplined s next event := by
  intro always
  let accepted := lastOf OutboundManager.step boot [.add .incoming true]
  have run : Path OutboundManager.step (fun _ _ => True) boot [.add .incoming true] accepted :=
    path_to_lastOf (fun _ _ _ => trivial) (by decide +kernel)
  have disciplined := (always _ accepted run).2 (.broadcastClipboard [1]) _ rfl
  obtain ⟨p, member, incoming⟩ : ∃ p ∈ accepted.peers, p.connType = .incoming := by decide +kernel
  have sending := ((run_queued run).disciplined_iff rfl).mp disciplined p member rfl
  cases incoming.symm.trans sending.1

end ClippProof.Peers
