import Clipp.Registers.LocalWrites

open Foundation

namespace ClippModel.Registers

namespace StoreCall

/-- The reading at which the call leaves its result: where it mints, the reading it mints at. -/
def instant : StoreCall → UInt64
  | .operation (.upsert t _ _ _ _) => t.mint
  | .operation (.delete t _ _) => t.mint
  | .operation (.read t _) => t.mint
  | .mirrorDefault t _ => t.mint
  | call => call.reading

def UserNamed : StoreCall → Prop
  | .operation (.upsert _ name _ _ _) => name ≠ []
  | .operation (.delete _ name _) => name ≠ []
  | .operation (.read _ name) => name ≠ []
  | _ => True

end StoreCall

end ClippModel.Registers

namespace ClippProof.Registers

open ClippModel.Registers ClippModel.Registers.RegisterStore

variable {s base after : RegisterStore} {call : StoreCall} {fired : Bool} {t : Readings} {now phys : UInt64}
  {name : Bytes} {r q incoming : RegisterRecord}

/-- The set of unexpired replicated records differs. -/
def ChangedAt (s after : RegisterStore) (now : UInt64) : Prop :=
  ∃ name, visible after now name ≠ visible s now name

structure FiresOnChange (s : RegisterStore) (call : StoreCall) : Prop where
  fired : call.notified s = true → ChangedAt s (call.after s) call.instant
  quiet : call.notified s = false → ∀ now, call.reading ≤ now → ¬ ChangedAt s (call.after s) now
  exactly : call.reading ≤ call.instant →
    (call.notified s = true ↔ ChangedAt s (call.after s) call.instant)

/-- The calls that tell nobody: refused and missed ones, the mirror and all that only prune and read. -/
structure SilentCalls (s : RegisterStore) : Prop where
  refused : ∀ t name value valueFlags origin, (s.upsertWithFlags t name value valueFlags origin).result ≠ .ok →
    (s.upsertWithFlags t name value valueFlags origin).notified = false
  unread : ∀ t name, (s.read t name).result = none → (s.read t name).notified = false
  undeleted : ∀ t name origin, (s.deleteFrom t name origin).result = .notFound →
    (s.deleteFrom t name origin).notified = false
  surfaces : ∀ call : StoreCall, (∀ op, call ≠ .operation op) → call.notified s = false

theorem Dropped.visible_later {expiry : UInt64} (drop : Dropped expiry s after) (le : expiry ≤ now) (name : Bytes) :
    visible after now name = visible s now name := by
  unfold visible
  split_ifs
  · rfl
  · exact drop.unexpired_later le name

theorem Effect.quiet (effect : Effect s call after fired) (silent : fired = false) (le : call.reading ≤ now)
    (name : Bytes) : visible after now name = visible s now name := by
  cases effect with
  | dropped _ _ drop => exact drop.visible_later le name
  | mirrored t value =>
    unfold visible
    split_ifs with nameless
    · rfl
    · have kept : (install s (s.clock.now t.mint).2 (mirrorRecord s value (s.clock.now t.mint).1)).records.find name =
          s.records.find name := by
        rw [install_find]
        exact if_neg (Ne.symm nameless)
      exact unexpired_congr rfl kept
  | stored t name value valueFlags origin admitted => cases silent
  | touched t name r live value => cases silent
  | buried t name origin r live value => cases silent
  | received now incoming =>
    have records := applyRemote_quiet s now silent
    exact visible_congr (applyRemote_ttlMs s now incoming) (by rw [records])

/-- A record stamped above the clock is a change that can be seen, as long as it has a lifetime. -/
theorem minted_changes (seen : SeenBy id s) (fresh : ¬ s.clock.Exhausted t.mint) (lifetime : s.ttlMs ≠ 0)
    (named : r.name ≠ []) (stamp : r.touched = (s.clock.now t.mint).1) (ttl : base.ttlMs = s.ttlMs) :
    ChangedAt s (install base (s.clock.now t.mint).2 r) t.mint := by
  refine ⟨r.name, ?_⟩
  have alive : isExpired r t.mint s.ttlMs = false := by
    refine minted_alive stamp ?_
    have positive : 0 < s.ttlMs.toNat := UInt64.pos_iff_ne_zero.mpr lifetime
    omega
  have shown : visible (install base (s.clock.now t.mint).2 r) t.mint r.name = some r := by
    refine visible_eq_some.mpr ⟨named, install_find_self _, ?_⟩
    change isExpired r t.mint base.ttlMs = false
    rw [ttl, alive]
  rw [shown]
  intro same
  have held := (visible_eq_some.mp same.symm).2.1
  have below : r.touched ≤ s.clock.last := (seen r.name r held).2
  exact absurd (HlcClock.now_above fresh) (not_lt.mpr (stamp ▸ below))

theorem Effect.fires (effect : Effect s call after fired) (notified : fired = true) (seen : SeenBy id s)
    (fits : MintFits s call) (named : call.UserNamed) (lifetime : s.ttlMs ≠ 0) : ChangedAt s after call.instant := by
  cases effect with
  | dropped _ _ drop => cases notified
  | mirrored t value => cases notified
  | stored t name value valueFlags origin admitted =>
    exact minted_changes seen (fits t.mint ⟨admitted, rfl⟩) lifetime named rfl rfl
  | touched t name r live value =>
    refine minted_changes seen (fits t.mint ⟨⟨r, live, value⟩, rfl⟩) lifetime ?_ rfl rfl
    rw [unexpired_name live]
    exact named
  | buried t name origin r live value =>
    refine minted_changes seen (fits t.mint ⟨⟨r, live, value⟩, rfl⟩) lifetime ?_ rfl rfl
    change r.name ≠ []
    rw [unexpired_name live]
    exact named
  | received now incoming => exact (applyRemote_joins s now incoming).result.mp notified

theorem fires_on_change (seen : SeenBy id s) (lifetime : s.ttlMs ≠ 0) (fits : MintFits s call)
    (named : call.UserNamed) : FiresOnChange s call := by
  have effect := call_effect s call
  have loud : call.notified s = true → ChangedAt s (call.after s) call.instant :=
    fun notified => effect.fires notified seen fits named lifetime
  have silent : call.notified s = false → ∀ now, call.reading ≤ now → ¬ ChangedAt s (call.after s) now := by
    rintro quiet now le ⟨name, differs⟩
    exact differs (effect.quiet quiet le name)
  refine ⟨loud, silent, fun ordered => ⟨loud, fun changed => ?_⟩⟩
  by_contra quiet
  exact silent (Bool.eq_false_iff.mpr quiet) call.instant ordered changed

theorem silent_calls (s : RegisterStore) : SilentCalls s where
  refused := fun t name value valueFlags origin refused =>
    ((local_write s t name value valueFlags origin).refused refused).1
  unread := by
    intro t name missed
    rcases read_cases s t name with ⟨_, quiet, _⟩ | ⟨r, _, _, equal⟩
    · exact quiet
    · rw [equal] at missed
      cases missed
  undeleted := by
    intro t name origin missed
    change (s.deleteLocked t name origin).1 = .notFound at missed
    change decide ((s.deleteLocked t name origin).1 = .deleted) = false
    rw [missed]
    rfl
  surfaces := by
    intro call other
    cases call with
    | operation op => exact absurd rfl (other op)
    | getForBroadcast now name => exact getForBroadcast_quiet s now name
    | _ => rfl

theorem run_seen {localHost : HostId} {ttlMs : UInt64} {maxCount maxValueBytes : Nat} {floor : Hlc}
    {calls : List StoreCall}
    (path : Path StoreCall.step MintFits (configured localHost ttlMs maxCount maxValueBytes floor) calls s) :
    SeenBy id s ∧ s.ttlMs = ttlMs := by
  refine path.invariant (fun s => SeenBy id s ∧ s.ttlMs = ttlMs) ?_ ⟨seenBy_configured _ _ _ _ _, rfl⟩
  intro s call next inv fits taken
  cases taken
  have effect := call_effect s call
  exact ⟨effect.seenBy monotone_id fits.lifts inv.1, effect.limits.1.trans inv.2⟩

/-- After every run the listeners hear of a call exactly when it changes what is replicated, as long as
    records have a lifetime and no stamp is minted from an exhausted counter. -/
theorem listeners_fire_exactly (localHost : HostId) (ttlMs : UInt64) (maxCount maxValueBytes : Nat) (floor : Hlc)
    (lifetime : ttlMs ≠ 0) :
    ∀ calls s, Path StoreCall.step MintFits (configured localHost ttlMs maxCount maxValueBytes floor) calls s →
      SilentCalls s ∧ ∀ call, MintFits s call → call.UserNamed → FiresOnChange s call := by
  intro calls s path
  obtain ⟨seen, ttl⟩ := run_seen path
  exact ⟨silent_calls s, fun call fits named => fires_on_change seen (ttl ▸ lifetime) fits named⟩

namespace Audience

def store (ttlMs : UInt64) : RegisterStore := configured HostId.zero ttlMs 8 8 {}
def write : StoreCall := .operation (.upsert (.all 100) [0x6B] [0x70] 0 HostId.zero)

def twin : RegisterRecord := writtenRecord [0x6B] [0x70] 0 HostId.zero { wallMs := 200, counter := 0 }
def poison : RegisterRecord := writtenRecord [0x6C] [] 0 HostId.zero { wallMs := 200, counter := maxWord }
def poisoned : RegisterStore :=
  perform (perform (store 1000) (.applyRemote 100 twin)) (.applyRemote 100 poison)

end Audience

open Audience in
theorem first_write_fires : FiresOnChange (store 1000) write := by
  refine ((listeners_fire_exactly HostId.zero 1000 8 8 {} (by decide)) [] (store 1000) (.nil _)).2 write ?_
    (List.cons_ne_nil _ _)
  intro phys mints
  rw [← mints.2]
  decide

open Audience in
/-- Without a lifetime a write is heard that leaves nothing to see; a counter that wraps repeats a record. -/
theorem fires_without_change : ¬ FiresOnChange (store 0) write ∧ ¬ FiresOnChange poisoned write := by
  have unchanged : ∀ s : RegisterStore, write.notified s = true →
      (s.snapshotForSync 100).result = ((write.after s).snapshotForSync 100).result → ¬ FiresOnChange s write := by
    intro s notified same fires
    obtain ⟨name, differs⟩ := fires.fired notified
    exact differs (snapshot_eq_iff.mp same name).symm
  exact ⟨unchanged (store 0) (by decide +kernel) (by decide +kernel),
    unchanged poisoned (by decide +kernel) (by decide +kernel)⟩

end ClippProof.Registers
