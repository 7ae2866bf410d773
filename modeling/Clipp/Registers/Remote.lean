import Clipp.Registers.AntiEntropy
import Clipp.Registers.Calls

open Foundation

namespace ClippProof.Registers

open ClippModel.Registers ClippModel.Registers.RegisterStore

variable {s after : RegisterStore} {call : StoreCall} {fired : Bool} {now phys : UInt64} {name : Bytes}
  {r q incoming : RegisterRecord} {β : Type} [LinearOrder β] {f : Hlc → β}

/-- One remote record is joined into the store: expiry decides on both sides first, the merge last. -/
structure JoinsRemote (s : RegisterStore) (now : UInt64) (incoming : RegisterRecord) (call : Call Bool) : Prop where
  ignored : incoming.name = [] ∨ isExpired incoming now s.ttlMs = true → call.store.records = s.records
  inserted : incoming.name ≠ [] → isExpired incoming now s.ttlMs = false →
    s.records.find incoming.name = none → call.store.records.find incoming.name = some incoming
  superseded : incoming.name ≠ [] → isExpired incoming now s.ttlMs = false → ∀ resident,
    s.records.find incoming.name = some resident → isExpired resident now s.ttlMs = true →
      call.store.records.find incoming.name = some incoming
  merged : incoming.name ≠ [] → isExpired incoming now s.ttlMs = false → ∀ resident,
    s.records.find incoming.name = some resident → isExpired resident now s.ttlMs = false →
      call.store.records.find incoming.name = some (mergeRecords resident incoming)
  others : ∀ name, name ≠ incoming.name → call.store.records.find name = s.records.find name
  result : call.result = true ↔ ∃ name, visible call.store now name ≠ visible s now name

theorem unexpired_congr (ttl : after.ttlMs = s.ttlMs) (same : after.records.find name = s.records.find name) :
    unexpired after now name = unexpired s now name := by rw [unexpired, unexpired, ttl, same]

theorem visible_congr (ttl : after.ttlMs = s.ttlMs) (same : after.records.find name = s.records.find name) :
    visible after now name = visible s now name := by rw [visible, visible, unexpired_congr ttl same]

theorem unexpired_of_expired (found : s.records.find name = some r) (expired : isExpired r now s.ttlMs = true) :
    unexpired s now name = none := by simp [unexpired, found, expired]

theorem applyRemote_changed (s : RegisterStore) (now : UInt64) (incoming : RegisterRecord)
    (changed : (s.applyRemoteLocked now incoming).1 = true) :
    incoming.name ≠ [] ∧ isExpired incoming now s.ttlMs = false ∧
      unexpired s now incoming.name ≠ some (absorb (unexpired s now incoming.name) incoming) := by
  have named : incoming.name ≠ [] := by
    intro nameless
    rw [applyRemote_nameless s now nameless] at changed
    cases changed
  have fresh : isExpired incoming now s.ttlMs = false := by
    rw [Bool.eq_false_iff]
    intro expired
    simp [applyRemoteLocked, named, expired] at changed
  refine ⟨named, fresh, ?_⟩
  unfold applyRemoteLocked at changed
  simp only [List.isEmpty_iff, named, fresh, Bool.false_eq_true, if_false] at changed
  cases found : s.records.find incoming.name with
  | none => simp [unexpired, found]
  | some resident =>
    by_cases old : isExpired resident now s.ttlMs = true
    · rw [unexpired_of_expired found old]
      exact Option.some_ne_none _ |>.symm
    · have live : unexpired s now incoming.name = some resident :=
        unexpired_eq_some.mpr ⟨found, by simpa using old⟩
      simp only [found, old, Bool.false_eq_true, if_false] at changed
      split_ifs at changed with dominated
      rw [live]
      exact fun same => dominated (Option.some.inj same).symm

theorem fresh_absorb (fresh : isExpired incoming now s.ttlMs = false) :
    isExpired (absorb (unexpired s now incoming.name) incoming) now s.ttlMs = false :=
  unexpired_above (le_absorb fun _ live => unexpired_name live) fresh

theorem applyRemote_joins (s : RegisterStore) (now : UInt64) (incoming : RegisterRecord) :
    JoinsRemote s now incoming (s.applyRemote now incoming) where
  ignored := by
    intro ignored
    change (s.applyRemoteLocked now incoming).2.records = s.records
    rcases ignored with nameless | expired
    · rw [applyRemote_nameless s now nameless]
    · exact applyRemote_expired s now expired
  inserted := by
    intro named fresh absent
    change (s.applyRemoteLocked now incoming).2.records.find incoming.name = _
    rw [applyRemote_find s now _ named fresh, if_pos rfl]
    simp [unexpired, absent, absorb]
  superseded := by
    intro named fresh resident found expired
    change (s.applyRemoteLocked now incoming).2.records.find incoming.name = _
    rw [applyRemote_find s now _ named fresh, if_pos rfl, unexpired_of_expired found expired]
    rfl
  merged := by
    intro named fresh resident found alive
    change (s.applyRemoteLocked now incoming).2.records.find incoming.name = _
    rw [applyRemote_find s now _ named fresh, if_pos rfl, unexpired_eq_some.mpr ⟨found, alive⟩]
    rfl
  others := fun name other => applyRemote_others s now incoming other
  result := by
    change (s.applyRemoteLocked now incoming).1 = true ↔
      ∃ name, visible (s.applyRemoteLocked now incoming).2 now name ≠ visible s now name
    have ttl := applyRemote_ttlMs s now incoming
    constructor
    · intro changed
      obtain ⟨named, fresh, differs⟩ := applyRemote_changed s now incoming changed
      refine ⟨incoming.name, ?_⟩
      have stored : visible (s.applyRemoteLocked now incoming).2 now incoming.name =
          some (absorb (unexpired s now incoming.name) incoming) := by
        refine visible_eq_some.mpr ⟨named, ?_, ?_⟩
        · rw [applyRemote_find s now _ named fresh, if_pos rfl]
        · rw [ttl]
          exact fresh_absorb fresh
      rw [stored, visible_of_named named]
      exact differs.symm
    · rintro ⟨name, differs⟩
      by_contra quiet
      have records := applyRemote_quiet s now (Bool.eq_false_iff.mpr quiet)
      exact differs (visible_congr ttl (by rw [records]))

/-- A store together with the records that the resident of each name took in. -/
structure Absorbing where
  store : RegisterStore
  absorbed : Bytes → List RegisterRecord

def arrival (s : RegisterStore) : StoreCall → List RegisterRecord
  | .operation (.applyRemote now incoming) =>
    if incoming.name ≠ [] ∧ isExpired incoming now s.ttlMs = false then [incoming] else []
  | _ => []

namespace Absorbing

def start (s : RegisterStore) : Absorbing := { store := s, absorbed := fun _ => [] }

def carried (st : Absorbing) (call : StoreCall) (name : Bytes) : List RegisterRecord :=
  if (call.after st.store).records.find name = st.store.records.find name ∨
      (unexpired st.store call.reading name).isSome then st.absorbed name
  else []

def step (st : Absorbing) (call : StoreCall) : Option Absorbing :=
  some
    { store := call.after st.store
      absorbed := fun name => st.carried call name ++
        (arrival st.store call).filter (fun r => r.name = name) ++
        ((call.after st.store).records.find name).toList }

/-- No tombstone's touch is below that of a record it took in. -/
def Outlasting (f : Hlc → β) (st : Absorbing) : Prop :=
  ∀ name r, st.store.records.find name = some r → r.isTombstone = true →
    ∀ q ∈ st.absorbed name, f q.touched ≤ f r.touched

def ShadowsToTheEnd (st : Absorbing) : Prop :=
  ∀ name r, st.store.records.find name = some r → r.isTombstone = true → ∀ q ∈ st.absorbed name,
    ∀ now ttlMs, isExpired r now ttlMs = true → isExpired q now ttlMs = true

structure Kept (f : Hlc → β) (st : Absorbing) : Prop where
  seen : SeenBy f st.store
  absorbed : ∀ name r, st.store.records.find name = some r → ∀ q ∈ st.absorbed name, f q.touched ≤ f r.touched

end Absorbing

theorem install_touched (seen : SeenBy f s) (stamp : r.touched = (s.clock.now phys).1)
    (lifted : f s.clock.last ≤ f (s.clock.now phys).1) {c : HlcClock}
    (resident : s.records.find name = some q) {p : RegisterRecord}
    (found : (install s c r).records.find name = some p) : f q.touched ≤ f p.touched := by
  rw [install_find] at found
  split_ifs at found
  · cases found
    rw [stamp]
    exact (seen name q resident).2.trans lifted
  · rw [resident] at found
    cases found
    exact le_rfl

theorem Effect.touched_mono (effect : Effect s call after fired) (mono : Monotone f) (lifts : LiftsBy f s call)
    (seen : SeenBy f s) (live : unexpired s call.reading name = some r)
    (found : after.records.find name = some q) : f r.touched ≤ f q.touched := by
  have resident := (unexpired_eq_some.mp live).1
  cases effect with
  | dropped _ _ drop =>
    have kept := drop.find_of_unexpired live
    rw [found] at kept
    cases kept
    exact le_rfl
  | mirrored t value => exact install_touched seen rfl (lifts t.mint rfl) resident found
  | stored t target value valueFlags origin admitted =>
    have pruned := (dropped_prune s t.expiry).seenBy seen
    exact install_touched pruned rfl (lifts t.mint ⟨admitted, rfl⟩)
      ((dropped_prune s t.expiry).find_of_unexpired live) found
  | touched t target p named value =>
    exact install_touched seen rfl (lifts t.mint ⟨⟨p, named, value⟩, rfl⟩) resident found
  | buried t target origin p named value =>
    exact install_touched seen rfl (lifts t.mint ⟨⟨p, named, value⟩, rfl⟩) resident found
  | received now incoming =>
    by_cases same : name = incoming.name
    · subst same
      by_cases named : incoming.name = []
      · rw [applyRemote_nameless s now named, resident] at found
        cases found
        exact le_rfl
      by_cases expired : isExpired incoming now s.ttlMs = true
      · rw [applyRemote_expired s now expired, resident] at found
        cases found
        exact le_rfl
      · have here : unexpired s now incoming.name = some r := live
        rw [applyRemote_find s now _ named (by simpa using expired), if_pos rfl, here] at found
        cases found
        exact mono (le_max_left _ _)
    · rw [applyRemote_others s now incoming same, resident] at found
      cases found
      exact le_rfl

theorem arrival_touched (member : q ∈ (arrival s call).filter (fun r => r.name = name))
    (found : (call.after s).records.find name = some r) : q.touched ≤ r.touched := by
  obtain ⟨arrived, sameName⟩ := List.mem_filter.mp member
  have key : q.name = name := of_decide_eq_true sameName
  subst key
  cases call with
  | operation op =>
    cases op with
    | applyRemote now incoming =>
      rw [arrival] at arrived
      split_ifs at arrived with taken
      · cases List.mem_singleton.mp arrived
        have stored : (s.applyRemoteLocked now q).2.records.find q.name = some r := found
        rw [applyRemote_find s now _ taken.1 taken.2, if_pos rfl] at stored
        cases stored
        exact (le_absorb fun _ live => unexpired_name live).2.2
      · cases arrived
    | _ => cases arrived
  | _ => cases arrived

theorem Absorbing.Kept.step {st next : Absorbing} (inv : st.Kept f) (mono : Monotone f)
    (lifts : LiftsBy f st.store call) (taken : st.step call = some next) : next.Kept f := by
  cases taken
  have effect := call_effect st.store call
  refine ⟨effect.seenBy mono lifts inv.seen, ?_⟩
  intro name r found q member
  rcases List.mem_append.mp member with earlier | resident
  · rcases List.mem_append.mp earlier with old | arrived
    · rw [Absorbing.carried] at old
      split_ifs at old with kept
      · rcases kept with same | live
        · exact inv.absorbed name r (same.symm.trans found) q old
        · obtain ⟨p, live⟩ := Option.isSome_iff_exists.mp live
          have before := inv.absorbed name p (unexpired_eq_some.mp live).1 q old
          exact before.trans (effect.touched_mono mono lifts inv.seen live found)
      · cases old
    · exact mono (arrival_touched arrived found)
  · have same : (call.after st.store).records.find name = some q := Option.mem_toList.mp resident
    rw [found] at same
    cases same
    exact le_rfl

theorem Absorbing.kept_start (empty : s.records = .empty) : (Absorbing.start s).Kept f := by
  constructor
  · intro name r found
    rw [show (Absorbing.start s).store.records = .empty from empty] at found
    cases found
  · intro name r found q member
    cases member

theorem absorbing_kept {ok : Absorbing → StoreCall → Prop} (mono : Monotone f)
    (lifts : ∀ st call, ok st call → LiftsBy f st.store call) {calls : List StoreCall} {st : Absorbing}
    (empty : s.records = .empty) (path : Path Absorbing.step ok (.start s) calls st) : st.Kept f :=
  path.invariant (Absorbing.Kept f) (fun st call _ inv allowed taken => inv.step mono (lifts st call allowed) taken)
    (Absorbing.kept_start empty)

theorem isExpired_of_wall {nowMs ttlMs : UInt64} (le : q.touched.wallMs ≤ r.touched.wallMs)
    (expired : isExpired r nowMs ttlMs = true) : isExpired q nowMs ttlMs = true := by
  have walls : q.touched.wallMs.toNat ≤ r.touched.wallMs.toNat := le
  rw [isExpired_iff] at expired ⊢
  omega

/-- In every run whose steps meet the side condition, tombstones are touched above all they took in. -/
def TombstonesOutlast (ok : Absorbing → StoreCall → Prop) (s : RegisterStore) : Prop :=
  ∀ calls st, Path Absorbing.step ok (.start s) calls st → st.Outlasting id

/-- `ApplyRemote` is the join with expiry; a tombstone is touched above what it absorbed in every run that
    mints no stamp from an exhausted counter, and in no run does it expire first. -/
theorem apply_remote_is_join (localHost : HostId) (ttlMs : UInt64) (maxCount maxValueBytes : Nat) (floor : Hlc) :
    (∀ s now incoming, JoinsRemote s now incoming (s.applyRemote now incoming)) ∧
      TombstonesOutlast (fun st call => MintFits st.store call)
        (configured localHost ttlMs maxCount maxValueBytes floor) ∧
      ∀ calls st, Path Absorbing.step (fun _ _ => True)
        (.start (configured localHost ttlMs maxCount maxValueBytes floor)) calls st → st.ShadowsToTheEnd := by
  refine ⟨applyRemote_joins, ?_, ?_⟩
  · intro calls st path name r found _ q member
    have kept : st.Kept id := absorbing_kept monotone_id (fun _ _ fits => fits.lifts) rfl path
    exact kept.absorbed name r found q member
  · intro calls st path name r found _ q member now ttlMs expired
    have kept : st.Kept Hlc.wallMs := absorbing_kept wall_monotone (fun _ _ _ => liftsBy_wall _ _) rfl path
    exact isExpired_of_wall (kept.absorbed name r found q member) expired

namespace Burial

def store : RegisterStore := configured HostId.zero RegisterStore.kDefaultTtlMs 8 8 {}
def sent (stamp : Hlc) : RegisterRecord where
  name := [0x6B]
  value := [0x70]
  written := stamp
  touched := stamp
  originHostId := HostId.zero
  flags := 0

def removal : StoreCall := .operation (.delete (.all 100) [0x6B] HostId.zero)
def receiving (stamp : Hlc) : StoreCall := .operation (.applyRemote 100 (sent stamp))
def ran (stamp : Hlc) : Absorbing := lastOf Absorbing.step (.start store) [receiving stamp, removal]

def newest : Hlc := { wallMs := 10000, counter := 5 }
def poisoned : Hlc := { wallMs := 10000, counter := maxWord }

end Burial

open Burial in
theorem burial_outlasts_received : (ran newest).Outlasting id := by
  have path : Path Absorbing.step (fun st call => MintFits st.store call) (.start store)
      [receiving newest, removal] (ran newest) := by
    refine .cons ?_ rfl (.single ?_ rfl)
    · intro phys mints
      cases mints
    · intro phys mints
      rw [← mints.2]
      change ¬ ((store.applyRemoteLocked 100 (sent newest)).2).clock.Exhausted 100
      decide +kernel
  exact (apply_remote_is_join HostId.zero RegisterStore.kDefaultTtlMs 8 8 {}).2.1 _ _ path

open Burial in
/-- A tombstone minted from an exhausted counter is touched below the value that it buries. -/
theorem poisoned_touch_outlasts_burial : ¬ TombstonesOutlast (fun _ _ => True) store := by
  intro outlasts
  have path : Path Absorbing.step (fun _ _ => True) (.start store) [receiving poisoned, removal] (ran poisoned) :=
    .cons trivial rfl (.single trivial rfl)
  have below := outlasts _ _ path [0x6B]
    { name := [0x6B], value := [], written := { wallMs := 10000, counter := 0 },
      touched := { wallMs := 10000, counter := 0 }, originHostId := HostId.zero, flags := RegisterFlags.tombstone }
    (by decide +kernel) (by decide) (sent poisoned) (by decide +kernel)
  exact absurd below (by decide)

end ClippProof.Registers
