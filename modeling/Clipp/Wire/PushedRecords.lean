import Clipp.Foundation.KeyedList
import Clipp.Registers.History
import Clipp.Registers.Remote
import Clipp.Wire.RegisterDigest

open Foundation

namespace ClippProof.Wire

open ClippModel.Registers ClippModel.Registers.RegisterStore ClippModel.Wire.RegisterWire ClippProof.Registers

variable {a b s : RegisterStore} {na nb : UInt64} {name : Bytes} {r q : RegisterRecord} {e : RegisterDigestEntry}
  {remote listed advertised : List RegisterDigestEntry} {order : List RegisterRecord}
  {arrivals : List (UInt64 × RegisterRecord)} {reading : RegisterRecord → UInt64} {n : Nat}

/-- What is pushed is each replicated record once, where the digest lacks its name or shows older stamps. -/
structure PushesExactly (a : RegisterStore) (na : UInt64) (remote : List RegisterDigestEntry) : Prop where
  once : ((a.recordsToPush na remote).result.map RegisterRecord.name).Nodup
  exact : ∀ r, r ∈ (a.recordsToPush na remote).result ↔ visible a na r.name = some r ∧
    (remoteEntry remote r.name = none ∨ ∃ e, remoteEntry remote r.name = some e ∧ entryStamps e < stamps r)

/-- Under every name of ours the store holds a record at least as high in the value order. -/
def AsHighAsOurs (a : RegisterStore) (na : UInt64) (peer : RegisterStore) : Prop :=
  ∀ name r, visible a na name = some r → ∃ q, peer.records.find name = some q ∧ valueKey r ≤ valueKey q

def Advertises (b : RegisterStore) (nb : UInt64) (advertised : List RegisterDigestEntry) (name : Bytes)
    (q : RegisterRecord) : Prop :=
  visible b nb name = some q ∧ digestEntry q ∈ advertised

/-- No advertised record has our written stamp and a touch that hides ours, but a lower content. -/
def TieFree (a b : RegisterStore) (na nb : UInt64) (advertised : List RegisterDigestEntry) : Prop :=
  ∀ name r q, visible a na name = some r → Advertises b nb advertised name q → r.written = q.written →
    r.touched ≤ q.touched → valueKey r ≤ valueKey q

/-- A record of ours that the peer reads as expired is one the peer does not need. -/
def Timely (a b : RegisterStore) (na nb : UInt64) (reading : RegisterRecord → UInt64) : Prop :=
  ∀ name r, visible a na name = some r → isExpired r (reading r) b.ttlMs = true →
    ∃ q, visible b nb name = some q ∧ valueKey r ≤ valueKey q

theorem pushed_names_distinct (a : RegisterStore) (na : UInt64) (remote : List RegisterDigestEntry) :
    ((a.recordsToPush na remote).result.map RegisterRecord.name).Nodup := by
  have part : (a.recordsToPush na remote).result.Sublist (replicatedMap a na).entries := List.filter_sublist
  exact (part.map _).nodup (replicatedMap a na).keys_nodup

theorem pushes_exactly (a : RegisterStore) (na : UInt64) (remote : List RegisterDigestEntry) :
    PushesExactly a na remote where
  once := pushed_names_distinct a na remote
  exact r := by
    rw [mem_pushed, shouldPush_iff]
    cases remoteEntry remote r.name with
    | none => simp
    | some e => simp

theorem listed_names_distinct (listing : listed.Perm (b.digest nb).result) :
    (listed.map RegisterDigestEntry.name).Nodup := by
  have same : (b.digest nb).result.map RegisterDigestEntry.name = (replicatedMap b nb).entries.map RegisterRecord.name :=
    List.map_map
  rw [(listing.map _).nodup_iff, same]
  exact (replicatedMap b nb).keys_nodup

theorem remoteEntry_cut (listing : listed.Perm (b.digest nb).result) :
    remoteEntry (listed.take n) name = some e ↔ ∃ q, Advertises b nb (listed.take n) name q ∧ digestEntry q = e := by
  constructor
  · intro found
    have member := List.mem_of_find?_eq_some found
    have key : e.name = name := by simpa using List.find?_some found
    obtain ⟨q, resident, rfl⟩ := List.mem_map.mp (listing.mem_iff.mp (List.mem_of_mem_take member))
    have shown : visible b nb q.name = some q := mem_snapshot.mp resident
    have same : q.name = name := key
    rw [same] at shown
    exact ⟨q, ⟨shown, member⟩, rfl⟩
  · rintro ⟨q, ⟨shown, member⟩, rfl⟩
    have distinct : ((listed.take n).map RegisterDigestEntry.name).Nodup :=
      ((List.take_sublist n listed).map _).nodup (listed_names_distinct listing)
    have key : (digestEntry q).name = name := visible_name shown
    have found := KeyedList.find_of_mem distinct member
    rwa [key] at found

theorem shouldPush_cut (listing : listed.Perm (b.digest nb).result) : shouldPush (listed.take n) r = true ↔
    ∀ q, Advertises b nb (listed.take n) r.name q → stamps q < stamps r := by
  rw [shouldPush_iff]
  constructor
  · intro older q shown
    exact older (digestEntry q) ((remoteEntry_cut listing).mpr ⟨q, shown, rfl⟩)
  · intro older e found
    obtain ⟨q, shown, rfl⟩ := (remoteEntry_cut listing).mp found
    exact older q shown

theorem replay_others (others : ∀ p ∈ arrivals, name ≠ p.2.name) :
    (replay s arrivals).records.find name = s.records.find name := by
  induction arrivals generalizing s with
  | nil => rfl
  | cons p rest ih =>
    rw [replay, ih fun p' member => others p' (List.mem_cons_of_mem _ member)]
    exact applyRemote_others s p.1 p.2 (others p List.mem_cons_self)

theorem applyRemote_find_congr {after : RegisterStore} {p : UInt64 × RegisterRecord} (ttl : after.ttlMs = s.ttlMs)
    (same : after.records.find p.2.name = s.records.find p.2.name) :
    (after.applyRemote p.1 p.2).store.records.find p.2.name =
      (s.applyRemote p.1 p.2).store.records.find p.2.name := by
  change (after.applyRemoteLocked p.1 p.2).2.records.find p.2.name =
    (s.applyRemoteLocked p.1 p.2).2.records.find p.2.name
  by_cases named : p.2.name = []
  · rw [applyRemote_nameless after p.1 named, applyRemote_nameless s p.1 named, same]
  by_cases expired : isExpired p.2 p.1 s.ttlMs = true
  · rw [applyRemote_expired s p.1 expired, applyRemote_expired after p.1 (ttl ▸ expired), same]
  · have fresh : isExpired p.2 p.1 s.ttlMs = false := by simpa using expired
    rw [applyRemote_find s p.1 _ named fresh, applyRemote_find after p.1 _ named (ttl ▸ fresh),
      unexpired_congr ttl same, if_pos rfl, if_pos rfl]

theorem replay_once {p : UInt64 × RegisterRecord} (distinct : (arrivals.map (·.2.name)).Nodup) (member : p ∈ arrivals) :
    (replay s arrivals).records.find p.2.name = (s.applyRemote p.1 p.2).store.records.find p.2.name := by
  induction arrivals generalizing s with
  | nil => cases member
  | cons head rest ih =>
    rw [List.map_cons, List.nodup_cons] at distinct
    rcases List.mem_cons.mp member with rfl | later
    · exact replay_others fun p' inRest same => distinct.1 (List.mem_map.mpr ⟨p', inRest, same.symm⟩)
    · have apart : p.2.name ≠ head.2.name := fun same => distinct.1 (List.mem_map.mpr ⟨p, later, same⟩)
      rw [replay, ih distinct.2 later]
      exact applyRemote_find_congr (applyRemote_ttlMs ..) (applyRemote_others s head.1 head.2 apart)

theorem digest_find (named : name ≠ []) : (b.digest nb).store.records.find name = visible b nb name := by
  rw [visible_of_named named]
  exact prune_find

theorem arrivals_distinct (sent : order.Perm (a.recordsToPush na remote).result) :
    ((order.map fun r => (reading r, r)).map (·.2.name)).Nodup := by
  rw [List.map_map]
  exact (sent.map _).nodup_iff.mpr (pushed_names_distinct a na _)

theorem find_of_pushed (sent : order.Perm (a.recordsToPush na remote).result) (ours : visible a na name = some r)
    (pushed : shouldPush remote r = true) :
    (replay (b.digest nb).store (order.map fun r => (reading r, r))).records.find name =
      ((b.digest nb).store.applyRemote (reading r) r).store.records.find name := by
  have key : r.name = name := visible_name ours
  have member : r ∈ order := by
    rw [sent.mem_iff, mem_pushed, key]
    exact ⟨ours, pushed⟩
  have arrives : (reading r, r) ∈ order.map fun r => (reading r, r) := List.mem_map_of_mem member
  rw [← key]
  exact replay_once (arrivals_distinct sent) arrives

theorem find_of_kept (sent : order.Perm (a.recordsToPush na remote).result) (ours : visible a na name = some r)
    (kept : ¬ shouldPush remote r = true) :
    (replay (b.digest nb).store (order.map fun r => (reading r, r))).records.find name = visible b nb name := by
  have named : name ≠ [] := (visible_eq_some.mp ours).1
  rw [← digest_find named]
  refine replay_others fun p member same => ?_
  obtain ⟨other, inOrder, rfl⟩ := List.mem_map.mp member
  obtain ⟨shown, pushed⟩ := mem_pushed.mp (sent.mem_iff.mp inOrder)
  rw [← same, ours] at shown
  cases shown
  exact kept pushed

theorem reached_of_pushed (sent : order.Perm (a.recordsToPush na remote).result) (ours : visible a na name = some r)
    (pushed : shouldPush remote r = true) :
    (∃ q, (replay (b.digest nb).store (order.map fun r => (reading r, r))).records.find name = some q ∧
        valueKey r ≤ valueKey q) ↔
      (isExpired r (reading r) b.ttlMs = true → ∃ q, visible b nb name = some q ∧ valueKey r ≤ valueKey q) := by
  have key : r.name = name := visible_name ours
  have named : name ≠ [] := (visible_eq_some.mp ours).1
  rw [find_of_pushed sent ours pushed]
  by_cases expired : isExpired r (reading r) b.ttlMs = true
  · have unchanged : ((b.digest nb).store.applyRemote (reading r) r).store.records = (b.digest nb).store.records :=
      applyRemote_expired (b.digest nb).store (reading r) expired
    rw [unchanged, digest_find named]
    exact ⟨fun reached _ => reached, fun reached => reached expired⟩
  · have fresh : isExpired r (reading r) (b.digest nb).store.ttlMs = false := Bool.eq_false_iff.mpr expired
    obtain ⟨q, found, le⟩ := applyRemote_covers (key ▸ named) fresh
    rw [key] at found
    exact ⟨fun _ gone => absurd gone expired, fun _ => ⟨q, found, le.2.1⟩⟩

theorem hidden_of_kept (listing : listed.Perm (b.digest nb).result)
    (kept : ¬ shouldPush (listed.take n) r = true) :
    ∃ q, Advertises b nb (listed.take n) r.name q ∧ stamps r ≤ stamps q := by
  rw [shouldPush_cut listing] at kept
  push Not at kept
  exact kept

theorem valueKey_le_of_stamps (later : stamps r ≤ stamps q)
    (tie : r.written = q.written → r.touched ≤ q.touched → valueKey r ≤ valueKey q) : valueKey r ≤ valueKey q := by
  rcases Prod.Lex.toLex_le_toLex.mp later with written | ⟨same, touched⟩
  · exact (valueKey_lt_of_written written).le
  · exact tie same touched

/-- One name: the peer ends at least as high there unless a tie hides our content, or the peer reads what it needed
as expired. -/
theorem reached_iff (listing : listed.Perm (b.digest nb).result)
    (sent : order.Perm (a.recordsToPush na (listed.take n)).result) (ours : visible a na name = some r) :
    (∃ q, (replay (b.digest nb).store (order.map fun r => (reading r, r))).records.find name = some q ∧
        valueKey r ≤ valueKey q) ↔
      (∀ q, Advertises b nb (listed.take n) name q → r.written = q.written → r.touched ≤ q.touched →
        valueKey r ≤ valueKey q) ∧
      (isExpired r (reading r) b.ttlMs = true → ∃ q, visible b nb name = some q ∧ valueKey r ≤ valueKey q) := by
  have key : r.name = name := visible_name ours
  by_cases pushed : shouldPush (listed.take n) r = true
  · rw [reached_of_pushed sent ours pushed]
    refine ⟨fun reached => ⟨fun q shown written touched => ?_, reached⟩, And.right⟩
    have newer := (shouldPush_cut listing).mp pushed q (key ▸ shown)
    exact absurd newer (not_lt.mpr (Prod.Lex.toLex_le_toLex.mpr (.inr ⟨written, touched⟩)))
  · rw [find_of_kept sent ours pushed]
    obtain ⟨q, shown, later⟩ := hidden_of_kept listing pushed
    rw [key] at shown
    constructor
    · rintro ⟨kept, found, le⟩
      refine ⟨fun other advertised _ _ => ?_, fun _ => ⟨kept, found, le⟩⟩
      have same := found.symm.trans advertised.1
      cases same
      exact le
    · rintro ⟨tieFree, _⟩
      exact ⟨q, shown.1, valueKey_le_of_stamps later (tieFree q shown)⟩

/-- What is pushed is exact for every digest; across the cut digest of the peer it leaves the peer as high as ours,
except where a tie in both stamps hides our content or the peer reads what it needed as expired. -/
theorem pushed_records_reach_iff (a b : RegisterStore) (na nb : UInt64) (listed : List RegisterDigestEntry)
    (order : List RegisterRecord) (reading : RegisterRecord → UInt64) (names : ∀ e ∈ listed, e.name.length ≤ kMaxNameLen)
    (listing : listed.Perm (b.digest nb).result)
    (decoded : tryDecodeDigest (encodeDigest listed) = some advertised)
    (sent : order.Perm (a.recordsToPush na advertised).result) :
    (∀ remote, PushesExactly a na remote) ∧
      (AsHighAsOurs a na (replay (b.digest nb).store (order.map fun r => (reading r, r))) ↔
        TieFree a b na nb (listed.take kMaxDigestEntries) ∧ Timely a b na nb reading) := by
  have cut : listed.take kMaxDigestEntries = advertised :=
    Option.some.inj ((tryDecodeDigest_encodeDigest names).symm.trans decoded)
  subst cut
  refine ⟨pushes_exactly a na, ?_⟩
  constructor
  · intro high
    exact ⟨fun name r q ours => ((reached_iff listing sent ours).mp (high name r ours)).1 q,
      fun name r ours => ((reached_iff listing sent ours).mp (high name r ours)).2⟩
  · rintro ⟨tieFree, timely⟩ name r ours
    exact (reached_iff listing sent ours).mpr ⟨fun q => tieFree name r q ours, timely name r ours⟩

namespace Rewritten

open SameInstant

def later : RegisterRecord := writtenRecord [0x6B] [3] 0 (host 2) { wallMs := 101, counter := 0 }
def store : RegisterStore := ((SameInstant.store 2).applyRemote 101 later).store
def shown : List RegisterDigestEntry := ((SameInstant.store 1).digest 101).result

end Rewritten

open Rewritten in
theorem pushed_rewrite_reaches :
    (∀ remote, PushesExactly store 101 remote) ∧
      (AsHighAsOurs store 101 (replay ((SameInstant.store 1).digest 101).store [(102, later)]) ↔
        TieFree store (SameInstant.store 1) 101 101 (shown.take kMaxDigestEntries) ∧
          Timely store (SameInstant.store 1) 101 101 fun _ => 102) :=
  pushed_records_reach_iff store (SameInstant.store 1) 101 101 shown [later] (fun _ => 102)
    (by decide +kernel) (.refl _) (tryDecodeDigest_encodeDigest (by decide +kernel)) (.of_eq (by decide +kernel))

open SameInstant in
/-- The peer's record and ours tie in both stamps, ours has the higher content, and nothing is pushed. -/
theorem tied_content_is_not_pushed :
    tryDecodeDigest (encodeDigest ((store 1).digest 100).result) = some ((store 1).digest 100).result ∧
      ((store 2).recordsToPush 100 ((store 1).digest 100).result).result = [] ∧
      ¬ AsHighAsOurs (store 2) 100 (replay ((store 1).digest 100).store []) := by
  refine ⟨by decide +kernel, by decide +kernel, fun high => ?_⟩
  obtain ⟨q, found, le⟩ := high [0x6B] (written 2) (by decide +kernel)
  have kept : (replay ((store 1).digest 100).store []).records.find [0x6B] = some (written 1) := by decide +kernel
  rw [kept] at found
  cases found
  exact absurd le (by decide +kernel)

end ClippProof.Wire
