import Clipp.Foundation.SortedVector
import Clipp.Gateway.NetMap
import Clipp.Peers.PeerManager

open Foundation

namespace ClippModel.Peers

open ClippModel.Registers
open ClippModel.Gateway (PeerConnState)

/-- Times are nanoseconds of the steady clock, of which 0 is none. The operating system 0 is the unknown one. -/
structure PeerDisplayEntry where
  hostName : Bytes
  hostID : HostId
  osType : UInt16
  hasIncomingConnection : Bool
  hasOutgoingConnection : Bool
  outgoingConnState : PeerConnState
  bytesSent : UInt64
  bytesReceived : UInt64
  connectedSince : Int
  incomingConnectionCount : Nat
  outgoingConnectionCount : Nat

namespace PeerDisplayEntry

def placeholder (hostName : Bytes) (hostID : HostId) (state : PeerConnState) : PeerDisplayEntry where
  hostName := hostName
  hostID := hostID
  osType := 0
  hasIncomingConnection := false
  hasOutgoingConnection := false
  outgoingConnState := state
  bytesSent := 0
  bytesReceived := 0
  connectedSince := 0
  incomingConnectionCount := 0
  outgoingConnectionCount := 0

def rename (hostName : Bytes) (entry : PeerDisplayEntry) : PeerDisplayEntry :=
  if hostName = [] then entry else { entry with hostName := hostName }

def learn (osType : UInt16) (entry : PeerDisplayEntry) : PeerDisplayEntry :=
  if entry.osType = 0 ∧ osType ≠ 0 then { entry with osType := osType } else entry

def flag (entry : PeerDisplayEntry) : PeerDisplayEntry :=
  { entry with hasIncomingConnection := 0 < entry.incomingConnectionCount
               hasOutgoingConnection := 0 < entry.outgoingConnectionCount }

def count (entry : PeerDisplayEntry) : ConnType → PeerDisplayEntry
  | .incoming => { entry with incomingConnectionCount := entry.incomingConnectionCount + 1 }
  | .outgoing => { entry with outgoingConnectionCount := entry.outgoingConnectionCount + 1 }

/-- A count that is 0 stays 0. -/
def uncount (entry : PeerDisplayEntry) : ConnType → PeerDisplayEntry
  | .incoming => { entry with incomingConnectionCount := entry.incomingConnectionCount - 1 }
  | .outgoing => { entry with outgoingConnectionCount := entry.outgoingConnectionCount - 1 }

def date (connectedSince : Int) (entry : PeerDisplayEntry) : PeerDisplayEntry :=
  if entry.connectedSince = 0 ∨ connectedSince < entry.connectedSince then
    { entry with connectedSince := connectedSince }
  else entry

@[simp] theorem placeholder_hostID (hostName : Bytes) (hostID : HostId) (state : PeerConnState) :
    (placeholder hostName hostID state).hostID = hostID := rfl

@[simp] theorem rename_hostID (hostName : Bytes) (entry : PeerDisplayEntry) :
    (entry.rename hostName).hostID = entry.hostID := by
  unfold rename
  split_ifs <;> rfl

@[simp] theorem learn_hostID (osType : UInt16) (entry : PeerDisplayEntry) :
    (entry.learn osType).hostID = entry.hostID := by
  unfold learn
  split_ifs <;> rfl

@[simp] theorem flag_hostID (entry : PeerDisplayEntry) : entry.flag.hostID = entry.hostID := rfl

@[simp] theorem count_hostID (entry : PeerDisplayEntry) (connType : ConnType) :
    (entry.count connType).hostID = entry.hostID := by
  cases connType <;> rfl

@[simp] theorem uncount_hostID (entry : PeerDisplayEntry) (connType : ConnType) :
    (entry.uncount connType).hostID = entry.hostID := by
  cases connType <;> rfl

@[simp] theorem date_hostID (connectedSince : Int) (entry : PeerDisplayEntry) :
    (entry.date connectedSince).hostID = entry.hostID := by
  unfold date
  split_ifs <;> rfl

end PeerDisplayEntry

namespace PeerDisplay

open PeerDisplayEntry

def findEntry (hostID : HostId) (entries : List PeerDisplayEntry) : Option PeerDisplayEntry :=
  entries.find? (fun entry => entry.hostID = hostID)

def insertEntry (entry : PeerDisplayEntry) (entries : List PeerDisplayEntry) : List PeerDisplayEntry :=
  entries.insertIdx (SortedVector.upperBound PeerDisplayEntry.hostID entry.hostID entries) entry

def assignEntry (entry : PeerDisplayEntry) (entries : List PeerDisplayEntry) : List PeerDisplayEntry :=
  entries.set (SortedVector.position PeerDisplayEntry.hostID entry.hostID entries) entry

def notifyPeer (entries : List PeerDisplayEntry) (hostName : Bytes) (hostID : HostId) (osType : UInt16)
    (connType : ConnType) (connectedSince : Int) : List PeerDisplayEntry :=
  let updated := fun found : PeerDisplayEntry => (((found.learn osType).count connType).flag).date connectedSince
  SortedVector.sort PeerDisplayEntry.hostID <|
    match findEntry hostID entries with
    | none => insertEntry (updated (placeholder hostName hostID .connecting)) entries
    | some found => assignEntry (updated (found.rename hostName)) entries

def notifyPeerRemoved (entries : List PeerDisplayEntry) (hostID : HostId) (connType : ConnType) :
    List PeerDisplayEntry :=
  match findEntry hostID entries with
  | none => entries
  | some found =>
    let updated := (found.uncount connType).flag
    if 0 < updated.incomingConnectionCount ∨ 0 < updated.outgoingConnectionCount then assignEntry updated entries
    else entries.eraseIdx (SortedVector.position PeerDisplayEntry.hostID hostID entries)

def notifyPeerConnState (entries : List PeerDisplayEntry) (hostName : Bytes) (hostID : HostId)
    (state : PeerConnState) : List PeerDisplayEntry :=
  match findEntry hostID entries with
  | none => insertEntry (placeholder hostName hostID state) entries
  | some found =>
    let named := if found.hostName = [] then found.rename hostName else found
    assignEntry { named with outgoingConnState := state } entries

def notifyPeerBytes (entries : List PeerDisplayEntry) (hostID : HostId) (bytesSent bytesReceived : UInt64) :
    List PeerDisplayEntry :=
  match findEntry hostID entries with
  | none => entries
  | some found =>
    assignEntry { found with bytesSent := found.bytesSent + bytesSent
                             bytesReceived := found.bytesReceived + bytesReceived } entries

end PeerDisplay

end ClippModel.Peers

namespace ClippProof.Peers

open ClippModel.Registers ClippModel.Peers ClippModel.Peers.PeerDisplay
open ClippModel.Gateway (PeerConnState)

variable {entry found : PeerDisplayEntry} {entries : List PeerDisplayEntry} {m : KeyedMap PeerDisplayEntry.hostID}
  {hostName : Bytes} {hostID : HostId} {osType : UInt16} {connType : ConnType} {connectedSince : Int}
  {state : PeerConnState} {bytesSent bytesReceived : UInt64} {tally after : HostId → ConnType → Nat}

structure Shows (counts : ConnType → Nat) (entry : PeerDisplayEntry) : Prop where
  incoming : entry.incomingConnectionCount = counts .incoming
  outgoing : entry.outgoingConnectionCount = counts .outgoing
  hasIncoming : entry.hasIncomingConnection = true ↔ 0 < counts .incoming
  hasOutgoing : entry.hasOutgoingConnection = true ↔ 0 < counts .outgoing

def Linked (counts : ConnType → Nat) : Prop := 0 < counts .incoming ∨ 0 < counts .outgoing

/-- The entries are in order, there is one for every host with a connection, and it counts them. -/
structure Displays (tally : HostId → ConnType → Nat) (entries : List PeerDisplayEntry) : Prop where
  ascending : entries.Pairwise (fun a b => a.hostID < b.hostID)
  present : ∀ hostID, (∃ entry ∈ entries, entry.hostID = hostID) ↔ Linked (tally hostID)
  faithful : ∀ entry ∈ entries, Shows (tally entry.hostID) entry

def raise (tally : HostId → ConnType → Nat) (hostID : HostId) (connType : ConnType) : HostId → ConnType → Nat :=
  fun other kind => tally other kind + if other = hostID ∧ kind = connType then 1 else 0

def lower (tally : HostId → ConnType → Nat) (hostID : HostId) (connType : ConnType) : HostId → ConnType → Nat :=
  fun other kind => tally other kind - if other = hostID ∧ kind = connType then 1 else 0

theorem displays_empty : Displays (fun _ _ => 0) [] where
  ascending := .nil
  present _ := by simp [Linked]
  faithful _ member := absurd member List.not_mem_nil

theorem Displays.unique {tally after : HostId → ConnType → Nat} (left : Displays tally entries)
    (right : Displays after entries) : tally = after := by
  funext hostID connType
  have both : Linked (tally hostID) ↔ Linked (after hostID) := (left.present hostID).symm.trans (right.present hostID)
  by_cases linked : Linked (tally hostID)
  · obtain ⟨entry, member, rfl⟩ := (left.present hostID).mpr linked
    have here := left.faithful entry member
    have there := right.faithful entry member
    cases connType with
    | incoming => exact here.incoming.symm.trans there.incoming
    | outgoing => exact here.outgoing.symm.trans there.outgoing
  · have unlinked := mt both.mpr linked
    unfold Linked at linked unlinked
    cases connType <;> omega

theorem displays_iff : Displays tally m.entries ↔
    ∀ hostID, ((m.find hostID).isSome = true ↔ Linked (tally hostID)) ∧
      ∀ entry, m.find hostID = some entry → Shows (tally hostID) entry := by
  constructor
  · intro displays hostID
    refine ⟨?_, ?_⟩
    · rw [← displays.present hostID, Option.isSome_iff_exists]
      simp only [KeyedMap.find_eq_some]
    · intro entry found
      obtain ⟨member, rfl⟩ := KeyedMap.find_eq_some.mp found
      exact displays.faithful entry member
  · intro agrees
    refine ⟨m.ascending, ?_, ?_⟩
    · intro hostID
      rw [← (agrees hostID).1, Option.isSome_iff_exists]
      simp only [KeyedMap.find_eq_some]
    · intro entry member
      exact (agrees entry.hostID).2 entry (KeyedMap.find_self member)

theorem Displays.put (displays : Displays tally m.entries) (linked : Linked (after entry.hostID))
    (shown : Shows (after entry.hostID) entry)
    (others : ∀ hostID, hostID ≠ entry.hostID → after hostID = tally hostID) :
    Displays after (m.put entry).entries := by
  rw [displays_iff] at displays ⊢
  intro hostID
  by_cases here : entry.hostID = hostID
  · subst here
    rw [KeyedMap.find_put, if_pos rfl]
    refine ⟨iff_of_true rfl linked, ?_⟩
    intro held same
    rwa [← Option.some.inj same]
  · rw [KeyedMap.find_put, if_neg here, others hostID (Ne.symm here)]
    exact displays hostID

theorem Displays.erase (displays : Displays tally m.entries) (unlinked : ¬ Linked (after hostID))
    (others : ∀ other, other ≠ hostID → after other = tally other) :
    Displays after (m.erase hostID).entries := by
  rw [displays_iff] at displays ⊢
  intro other
  rw [KeyedMap.find_erase]
  split_ifs with here
  · subst here
    exact ⟨iff_of_false Bool.false_ne_true unlinked, nofun⟩
  · rw [others other here]
    exact displays other

theorem raise_ne {other : HostId} (apart : other ≠ hostID) : raise tally hostID connType other = tally other := by
  funext kind
  rw [raise, if_neg (fun same => apart same.1), Nat.add_zero]

theorem lower_ne {other : HostId} (apart : other ≠ hostID) : lower tally hostID connType other = tally other := by
  funext kind
  rw [lower, if_neg (fun same => apart same.1), Nat.sub_zero]

theorem linked_raise : Linked (raise tally hostID connType hostID) := by
  cases connType with
  | incoming => exact .inl (by simp [raise])
  | outgoing => exact .inr (by simp [raise])

theorem Shows.rename {counts : ConnType → Nat} (shown : Shows counts entry) :
    Shows counts (entry.rename hostName) := by
  unfold PeerDisplayEntry.rename
  split_ifs
  · exact shown
  · exact ⟨shown.incoming, shown.outgoing, shown.hasIncoming, shown.hasOutgoing⟩

structure Counts (counts : ConnType → Nat) (entry : PeerDisplayEntry) : Prop where
  incoming : entry.incomingConnectionCount = counts .incoming
  outgoing : entry.outgoingConnectionCount = counts .outgoing

theorem Shows.counted {counts : ConnType → Nat} (shown : Shows counts entry) : Counts counts entry :=
  ⟨shown.incoming, shown.outgoing⟩

theorem Counts.learn {counts : ConnType → Nat} (counted : Counts counts entry) :
    Counts counts (entry.learn osType) := by
  unfold PeerDisplayEntry.learn
  split_ifs
  · exact ⟨counted.incoming, counted.outgoing⟩
  · exact counted

theorem Counts.count (counted : Counts (tally hostID) entry) :
    Counts (raise tally hostID connType hostID) (entry.count connType) := by
  cases connType with
  | incoming => exact ⟨by simp [PeerDisplayEntry.count, raise, counted.incoming],
      by simp [PeerDisplayEntry.count, raise, counted.outgoing]⟩
  | outgoing => exact ⟨by simp [PeerDisplayEntry.count, raise, counted.incoming],
      by simp [PeerDisplayEntry.count, raise, counted.outgoing]⟩

theorem Counts.uncount (counted : Counts (tally hostID) entry) :
    Counts (lower tally hostID connType hostID) (entry.uncount connType) := by
  cases connType with
  | incoming => exact ⟨by simp [PeerDisplayEntry.uncount, lower, counted.incoming],
      by simp [PeerDisplayEntry.uncount, lower, counted.outgoing]⟩
  | outgoing => exact ⟨by simp [PeerDisplayEntry.uncount, lower, counted.incoming],
      by simp [PeerDisplayEntry.uncount, lower, counted.outgoing]⟩

theorem Counts.flag {counts : ConnType → Nat} (counted : Counts counts entry) : Shows counts entry.flag where
  incoming := counted.incoming
  outgoing := counted.outgoing
  hasIncoming := by simp [PeerDisplayEntry.flag, counted.incoming]
  hasOutgoing := by simp [PeerDisplayEntry.flag, counted.outgoing]

theorem Shows.date {counts : ConnType → Nat} (shown : Shows counts entry) :
    Shows counts (entry.date connectedSince) := by
  unfold PeerDisplayEntry.date
  split_ifs
  · exact ⟨shown.incoming, shown.outgoing, shown.hasIncoming, shown.hasOutgoing⟩
  · exact shown

theorem findEntry_eq (hostID : HostId) (m : KeyedMap PeerDisplayEntry.hostID) :
    findEntry hostID m.entries = m.find hostID := by
  unfold findEntry KeyedMap.find
  congr 1
  funext entry
  exact decide_eq_decide.mpr Iff.rfl

theorem insertEntry_eq (absent : m.find entry.hostID = none) : insertEntry entry m.entries = (m.put entry).entries :=
  SortedVector.insertIdx_upperBound absent

theorem assignEntry_eq (held : m.find entry.hostID = some found) :
    assignEntry entry m.entries = (m.put entry).entries := SortedVector.set_position held

theorem Displays.assign (displays : Displays tally m.entries) (held : m.find hostID = some found)
    (here : entry.hostID = hostID) (linked : Linked (after hostID)) (shown : Shows (after hostID) entry)
    (others : ∀ other, other ≠ hostID → after other = tally other) : Displays after (assignEntry entry m.entries) := by
  subst here
  rw [assignEntry_eq held]
  exact displays.put linked shown others

theorem Displays.absent (displays : Displays tally m.entries) (absent : m.find hostID = none) :
    ¬ Linked (tally hostID) := by
  rw [← ((displays_iff.mp displays) hostID).1, absent]
  exact Bool.false_ne_true

theorem Displays.linked (displays : Displays tally m.entries) (held : m.find hostID = some found) :
    Linked (tally hostID) := by
  rw [← ((displays_iff.mp displays) hostID).1, held, Option.isSome_some]

theorem Displays.shown (displays : Displays tally m.entries) (held : m.find hostID = some found) :
    Shows (tally hostID) found ∧ found.hostID = hostID :=
  ⟨((displays_iff.mp displays) hostID).2 found held, KeyedMap.find_key held⟩

theorem Displays.mapped (displays : Displays tally entries) :
    ∃ m : KeyedMap PeerDisplayEntry.hostID, m.entries = entries := ⟨⟨entries, displays.ascending⟩, rfl⟩

theorem Displays.notifyPeer (displays : Displays tally entries) :
    Displays (raise tally hostID connType)
      (notifyPeer entries hostName hostID osType connType connectedSince) := by
  obtain ⟨m, rfl⟩ := displays.mapped
  -- The found entry, or a new one with no connections, is counted in and takes its place.
  have counted : ∀ start : PeerDisplayEntry, start.hostID = hostID → Counts (tally hostID) start →
      Displays (raise tally hostID connType)
        (m.put ((((start.learn osType).count connType).flag).date connectedSince)).entries := by
    intro start here counts
    apply displays.put
    · simpa [here] using linked_raise
    · simpa [here] using counts.learn.count.flag.date
    · intro other apart
      exact raise_ne (by simpa [here] using apart)
  rw [PeerDisplay.notifyPeer, findEntry_eq]
  cases held : m.find hostID with
  | none =>
    have unlinked := displays.absent held
    unfold Linked at unlinked
    dsimp only
    rw [insertEntry_eq (by simpa using held), SortedVector.sort_eq (KeyedMap.ascending _)]
    exact counted _ rfl ⟨by simp [PeerDisplayEntry.placeholder]; omega, by simp [PeerDisplayEntry.placeholder]; omega⟩
  | some found =>
    obtain ⟨shown, here⟩ := displays.shown held
    dsimp only
    rw [assignEntry_eq (by simpa [here] using held), SortedVector.sort_eq (KeyedMap.ascending _)]
    exact counted _ (by simpa using here) shown.rename.counted

theorem Displays.notifyPeerRemoved (displays : Displays tally entries) :
    Displays (lower tally hostID connType) (notifyPeerRemoved entries hostID connType) := by
  obtain ⟨m, rfl⟩ := displays.mapped
  rw [PeerDisplay.notifyPeerRemoved, findEntry_eq]
  cases held : m.find hostID with
  | none =>
    have unlinked := displays.absent held
    have same : lower tally hostID connType = tally := by
      funext other kind
      by_cases here : other = hostID
      · subst here
        unfold Linked at unlinked
        cases kind <;> simp only [lower] <;> omega
      · rw [lower_ne here]
    rw [same]
    exact displays
  | some found =>
    obtain ⟨shown, here⟩ := displays.shown held
    have less : Shows (lower tally hostID connType hostID) (found.uncount connType).flag := shown.counted.uncount.flag
    dsimp only
    rw [less.incoming, less.outgoing]
    split_ifs with left
    · exact displays.assign held (by simpa using here) left less (fun other apart => lower_ne apart)
    · rw [SortedVector.eraseIdx_position held]
      exact displays.erase left (fun other apart => lower_ne apart)

theorem Displays.notifyPeerConnState (displays : Displays tally entries) (linked : Linked (tally hostID)) :
    Displays tally (notifyPeerConnState entries hostName hostID state) := by
  obtain ⟨m, rfl⟩ := displays.mapped
  rw [PeerDisplay.notifyPeerConnState, findEntry_eq]
  cases held : m.find hostID with
  | none => exact absurd linked (displays.absent held)
  | some found =>
    obtain ⟨shown, here⟩ := displays.shown held
    dsimp only
    split_ifs
    · refine displays.assign held (by simpa using here) linked ?_ (fun _ _ => rfl)
      have named : Shows (tally hostID) (found.rename hostName) := shown.rename
      exact ⟨named.incoming, named.outgoing, named.hasIncoming, named.hasOutgoing⟩
    · refine displays.assign held here linked ?_ (fun _ _ => rfl)
      exact ⟨shown.incoming, shown.outgoing, shown.hasIncoming, shown.hasOutgoing⟩

theorem Displays.notifyPeerBytes (displays : Displays tally entries) :
    Displays tally (notifyPeerBytes entries hostID bytesSent bytesReceived) := by
  obtain ⟨m, rfl⟩ := displays.mapped
  rw [PeerDisplay.notifyPeerBytes, findEntry_eq]
  cases held : m.find hostID with
  | none => exact displays
  | some found =>
    obtain ⟨shown, here⟩ := displays.shown held
    refine displays.assign held here (displays.linked held) ?_ (fun _ _ => rfl)
    exact ⟨shown.incoming, shown.outgoing, shown.hasIncoming, shown.hasOutgoing⟩

end ClippProof.Peers
