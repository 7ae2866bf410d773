import Clipp.Registers.AntiEntropy
import Clipp.Registers.History

open Foundation

namespace ClippModel.Registers

inductive Leg where
  | unsent
  | digest (entries : List RegisterDigestEntry)
  | pushing (pending : List RegisterRecord)
  deriving DecidableEq

/-- Two connected daemons. Leg `i` carries the digest of store `i` to the other store and the
    other store's pushes back to store `i`. -/
structure Exchange where
  stores : Bool → RegisterStore
  legs : Bool → Leg

inductive ExchangeLabel where
  | send (i : Bool) (now : UInt64)
  | answer (i : Bool) (now : UInt64)
  | deliver (i : Bool) (now : UInt64) (r : RegisterRecord)

def ExchangeLabel.now : ExchangeLabel → UInt64
  | .send _ now => now
  | .answer _ now => now
  | .deliver _ now _ => now

def ExchangeLabel.leg : ExchangeLabel → Bool
  | .send i _ => i
  | .answer i _ => i
  | .deliver i _ _ => i

namespace Exchange

def start (stores : Bool → RegisterStore) : Exchange := { stores := stores, legs := fun _ => .unsent }

def move (x : Exchange) (i : Bool) (after : RegisterStore) (j : Bool) (leg : Leg) : Exchange where
  stores := Function.update x.stores i after
  legs := Function.update x.legs j leg

/-- `wire` is what the digest codec makes of a digest. -/
def step (wire : List RegisterDigestEntry → List RegisterDigestEntry) (x : Exchange) :
    ExchangeLabel → Option Exchange
  | .send i now =>
    match x.legs i with
    | .unsent =>
      let call := (x.stores i).digest now
      some (x.move i call.store i (.digest (wire call.result)))
    | _ => none
  | .answer i now =>
    match x.legs i with
    | .digest entries =>
      let call := (x.stores (!i)).recordsToPush now entries
      some (x.move (!i) call.store i (.pushing call.result))
    | _ => none
  | .deliver i now r =>
    match x.legs i with
    | .pushing pending =>
      if r ∈ pending then
        some (x.move i ((x.stores i).applyRemote now r).store i (.pushing (pending.erase r)))
      else none
    | _ => none

def Finished (x : Exchange) : Prop := ∀ i, x.legs i = .pushing []

end Exchange

end ClippModel.Registers

namespace ClippProof.Registers

open ClippModel.Registers ClippModel.Registers.RegisterStore

variable {wire : List RegisterDigestEntry → List RegisterDigestEntry} {x y : Exchange}
  {stores : Bool → RegisterStore} {label : ExchangeLabel} {now nowEnd : UInt64} {name : Bytes}
  {r q top : RegisterRecord} {i j : Bool} {after : RegisterStore} {leg : Leg}

def During (now nowEnd : UInt64) (_ : Exchange) (label : ExchangeLabel) : Prop :=
  now ≤ label.now ∧ label.now ≤ nowEnd

def Lasting (stores : Bool → RegisterStore) (nowEnd : UInt64) (r : RegisterRecord) : Prop :=
  ∀ i, isExpired r nowEnd (stores i).ttlMs = false

/-- Whatever the order of the steps, the stores end with one record under each unexpired name. -/
def Converges (wire : List RegisterDigestEntry → List RegisterDigestEntry)
    (stores : Bool → RegisterStore) (now nowEnd : UInt64) : Prop :=
  ∀ labels final, Path (Exchange.step wire) (During now nowEnd) (.start stores) labels final →
    final.Finished → ∀ name r i, name ≠ [] → (final.stores i).records.find name = some r →
    Lasting stores nowEnd r → ∀ j, (final.stores j).records.find name = some r

/-- No two records of one name share their written stamp and differ in contents. -/
def NoWrittenTies (stores : Bool → RegisterStore) (now : UInt64) : Prop :=
  ∀ r ∈ ((stores false).snapshotForSync now).result, ∀ q ∈ ((stores true).snapshotForSync now).result,
    r.name = q.name → r.written = q.written →
    r.originHostId = q.originHostId ∧ r.flags = q.flags ∧ r.value = q.value

/-- Under some name one side has the newer value and the other the fresher, lasting touch. -/
def CrossedStamps (stores : Bool → RegisterStore) (now nowEnd : UInt64) : Prop :=
  ∃ i, ∃ r ∈ ((stores i).snapshotForSync now).result, ∃ q ∈ ((stores (!i)).snapshotForSync now).result,
    r.name = q.name ∧ q.written < r.written ∧ r.touched < q.touched ∧ Lasting stores nowEnd q

instance (stores : Bool → RegisterStore) (nowEnd : UInt64) (r : RegisterRecord) :
    Decidable (Lasting stores nowEnd r) := inferInstanceAs (Decidable (∀ _ : Bool, _))

instance (stores : Bool → RegisterStore) (now : UInt64) : Decidable (NoWrittenTies stores now) :=
  inferInstanceAs (Decidable (∀ r ∈ _, ∀ q ∈ _, _))

instance (stores : Bool → RegisterStore) (now nowEnd : UInt64) :
    Decidable (CrossedStamps stores now nowEnd) :=
  inferInstanceAs (Decidable (∃ _ : Bool, ∃ r ∈ _, ∃ q ∈ _, _))

inductive Moved (wire : List RegisterDigestEntry → List RegisterDigestEntry) (x : Exchange) :
    ExchangeLabel → Exchange → Prop where
  | send (i : Bool) (now : UInt64) : x.legs i = .unsent → Moved wire x (.send i now)
      (x.move i ((x.stores i).pruneExpiredLocked now) i (.digest (wire ((x.stores i).digest now).result)))
  | answer (i : Bool) (now : UInt64) (entries : List RegisterDigestEntry) :
      x.legs i = .digest entries → Moved wire x (.answer i now)
      (x.move (!i) ((x.stores (!i)).pruneExpiredLocked now) i
        (.pushing ((x.stores (!i)).recordsToPush now entries).result))
  | deliver (i : Bool) (now : UInt64) (r : RegisterRecord) (pending : List RegisterRecord) :
      x.legs i = .pushing pending → r ∈ pending → Moved wire x (.deliver i now r)
      (x.move i ((x.stores i).applyRemoteLocked now r).2 i (.pushing (pending.erase r)))

theorem moved_iff : x.step wire label = some y ↔ Moved wire x label y := by
  constructor
  · intro taken
    cases label with
    | send i now =>
      cases phase : x.legs i <;> simp only [Exchange.step, phase] at taken <;> cases taken
      exact .send i now phase
    | answer i now =>
      cases phase : x.legs i <;> simp only [Exchange.step, phase] at taken <;> cases taken
      exact .answer i now _ phase
    | deliver i now r =>
      cases phase : x.legs i with
      | pushing pending =>
        simp only [Exchange.step, phase] at taken
        split_ifs at taken with member
        cases taken
        exact .deliver i now r pending phase member
      | _ =>
        simp only [Exchange.step, phase] at taken
        cases taken
  · rintro (⟨i, now, phase⟩ | ⟨i, now, entries, phase⟩ | ⟨i, now, r, pending, phase, member⟩)
    · simp only [Exchange.step, phase]
      rfl
    · simp only [Exchange.step, phase]
      rfl
    · simp only [Exchange.step, phase, member, if_true]
      rfl

theorem move_store : (x.move i after j leg).stores i = after := by simp [Exchange.move]

theorem move_store_other {k : Bool} (other : k ≠ i) : (x.move i after j leg).stores k = x.stores k := by
  simp [Exchange.move, other]

theorem move_leg : (x.move i after j leg).legs j = leg := by simp [Exchange.move]

theorem move_leg_other {k : Bool} (other : k ≠ j) : (x.move i after j leg).legs k = x.legs k := by
  simp [Exchange.move, other]

theorem moved_leg_other {k : Bool} (moved : Moved wire x label y) (other : k ≠ label.leg) :
    y.legs k = x.legs k := by
  cases moved <;> exact move_leg_other other

theorem moved_quiet {k : Bool} (moved : Moved wire x label y) (quiet : ∀ pending, y.legs k ≠ .pushing pending) :
    ∀ pending, x.legs k ≠ .pushing pending := by
  intro pending phase
  by_cases same : k = label.leg
  · subst same
    cases moved with
    | send i t unsent =>
      rw [show x.legs (ExchangeLabel.send i t).leg = .unsent from unsent] at phase
      cases phase
    | answer i t => exact quiet _ move_leg
    | deliver i t => exact quiet _ move_leg
  · exact quiet pending ((moved_leg_other moved same).trans phase)

inductive Touches (now : UInt64) (s : RegisterStore) : RegisterStore → Prop where
  | kept : Touches now s s
  | pruned : Touches now s (s.pruneExpiredLocked now)
  | received (r : RegisterRecord) : Touches now s (s.applyRemoteLocked now r).2

theorem moved_touches (moved : Moved wire x label y) (k : Bool) :
    Touches label.now (x.stores k) (y.stores k) := by
  cases moved with
  | send i now =>
    by_cases same : k = i
    · subst same
      rw [move_store]
      exact .pruned
    · rw [move_store_other same]
      exact .kept
  | answer i now =>
    by_cases same : k = !i
    · subst same
      rw [move_store]
      exact .pruned
    · rw [move_store_other same]
      exact .kept
  | deliver i now r =>
    by_cases same : k = i
    · subst same
      rw [move_store]
      exact .received r
    · rw [move_store_other same]
      exact .kept

theorem Touches.ttlMs {s : RegisterStore} (touches : Touches now s after) : after.ttlMs = s.ttlMs := by
  cases touches with
  | kept => rfl
  | pruned => rfl
  | received r => exact applyRemote_ttlMs s now r

theorem Touches.covers {s : RegisterStore} (touches : Touches now s after)
    (alive : isExpired r now s.ttlMs = false) (covered : Covers s r) : Covers after r := by
  cases touches with
  | kept => exact covered
  | pruned => exact (dropped_prune s now).covers alive covered
  | received q => exact applyRemote_keeps_covered alive covered

theorem Lasting.above (le : q ≤ r) (lasting : Lasting stores nowEnd q) : Lasting stores nowEnd r :=
  fun i => unexpired_above le (lasting i)

/-- Every digest under way describes residents of the store it came from, which until its own
    digest is answered holds nothing but what it started with. -/
structure Faithful (stores : Bool → RegisterStore) (now : UInt64) (x : Exchange) : Prop where
  ttlMs : ∀ i, (x.stores i).ttlMs = (stores i).ttlMs
  origin : ∀ i, (∀ pending, x.legs i ≠ .pushing pending) → ∀ name r,
    (x.stores i).records.find name = some r → (stores i).records.find name = some r
  digest : ∀ i entries, x.legs i = .digest entries → ∀ e ∈ entries,
    ∃ r, visible (stores i) now e.name = some r ∧ e = digestEntry r

theorem faithful_start : Faithful stores now (.start stores) where
  ttlMs _ := rfl
  origin _ _ _ _ found := found
  digest _ _ phase := by cases phase

theorem mem_digest {s : RegisterStore} {e : RegisterDigestEntry} (member : e ∈ (s.digest now).result) :
    ∃ r, visible s now e.name = some r ∧ e = digestEntry r := by
  obtain ⟨r, resident, rfl⟩ := List.mem_map.mp member
  exact ⟨r, mem_snapshot.mp resident, rfl⟩

theorem moved_find {k : Bool} (moved : Moved wire x label y) (quiet : ∀ pending, y.legs k ≠ .pushing pending)
    (found : (y.stores k).records.find name = some r) : (x.stores k).records.find name = some r := by
  cases moved with
  | send i t =>
    by_cases same : k = i
    · subst same
      rw [move_store] at found
      exact (dropped_prune _ t).find_of_some found
    · rwa [move_store_other same] at found
  | answer i t =>
    by_cases same : k = !i
    · subst same
      rw [move_store] at found
      exact (dropped_prune _ t).find_of_some found
    · rwa [move_store_other same] at found
  | deliver i t p =>
    by_cases same : k = i
    · subst same
      exact absurd move_leg (quiet _)
    · rwa [move_store_other same] at found

theorem Faithful.step (cut : ∀ d, (wire d).Sublist d) (inv : Faithful stores now x)
    (during : During now nowEnd x label) (moved : Moved wire x label y) : Faithful stores now y := by
  refine ⟨fun k => (moved_touches moved k).ttlMs.trans (inv.ttlMs k), ?_, ?_⟩
  · intro k quiet name r found
    exact inv.origin k (moved_quiet moved quiet) name r (moved_find moved quiet found)
  · intro k entries phase e member
    by_cases same : k = label.leg
    · subst same
      cases moved with
      | send i t unsent =>
        have sent : Leg.digest (wire ((x.stores i).digest t).result) = .digest entries :=
          move_leg.symm.trans phase
        cases sent
        obtain ⟨r, seen, equal⟩ := mem_digest ((cut _).subset member)
        obtain ⟨named, found, alive⟩ := visible_eq_some.mp seen
        rw [inv.ttlMs] at alive
        have old := inv.origin i (by simp [unsent]) _ _ found
        exact ⟨r, visible_eq_some.mpr ⟨named, old, unexpired_earlier during.1 alive⟩, equal⟩
      | answer i t => cases move_leg.symm.trans phase
      | deliver i t => cases move_leg.symm.trans phase
    · rw [moved_leg_other moved same] at phase
      exact inv.digest k entries phase e member

structure Within (P : RegisterRecord → Prop) (stores : Bool → RegisterStore) (now : UInt64)
    (x : Exchange) : Prop where
  resident : ∀ i name r, (x.stores i).records.find name = some r →
    isExpired r now (stores i).ttlMs = false → P r
  pending : ∀ i pending, x.legs i = .pushing pending → ∀ r ∈ pending, P r

theorem within_received {P : RegisterRecord → Prop} {s : RegisterStore} (closed : MergeClosed P)
    {t : UInt64} (later : now ≤ t) (incoming : P q)
    (resident : ∀ name r, s.records.find name = some r → isExpired r now s.ttlMs = false → P r)
    (found : (s.applyRemoteLocked t q).2.records.find name = some r)
    (alive : isExpired r now s.ttlMs = false) : P r := by
  by_cases named : q.name = []
  · rw [applyRemote_nameless s t named] at found
    exact resident name r found alive
  by_cases expired : isExpired q t s.ttlMs = true
  · rw [applyRemote_expired s t expired] at found
    exact resident name r found alive
  rw [applyRemote_find s t name named (by simpa using expired)] at found
  split_ifs at found with same
  · cases found
    cases live : unexpired s t q.name with
    | none => exact incoming
    | some p =>
      obtain ⟨old, fresh⟩ := unexpired_eq_some.mp live
      exact closed p q (unexpired_name live) (resident _ p old (unexpired_earlier later fresh)) incoming
  · exact resident name r found alive

theorem Within.step {P : RegisterRecord → Prop} (closed : MergeClosed P) (inv : Within P stores now x)
    (faithful : Faithful stores now x) (during : During now nowEnd x label) (moved : Moved wire x label y) :
    Within P stores now y := by
  refine ⟨?_, ?_⟩
  · intro k name r found alive
    cases moved with
    | send i t =>
      by_cases same : k = i
      · subst same
        rw [move_store] at found
        exact inv.resident k name r ((dropped_prune _ t).find_of_some found) alive
      · rw [move_store_other same] at found
        exact inv.resident k name r found alive
    | answer i t =>
      by_cases same : k = !i
      · subst same
        rw [move_store] at found
        exact inv.resident _ name r ((dropped_prune _ t).find_of_some found) alive
      · rw [move_store_other same] at found
        exact inv.resident k name r found alive
    | deliver i t p pending phase member =>
      by_cases same : k = i
      · subst same
        rw [move_store] at found
        rw [← faithful.ttlMs] at alive
        refine within_received closed during.1 (inv.pending k pending phase p member) ?_ found alive
        intro name r old fresh
        rw [faithful.ttlMs] at fresh
        exact inv.resident k name r old fresh
      · rw [move_store_other same] at found
        exact inv.resident k name r found alive
  · intro k pending phase r member
    by_cases same : k = label.leg
    · subst same
      cases moved with
      | send i t => cases move_leg.symm.trans phase
      | answer i t entries sent =>
        cases move_leg.symm.trans phase
        have seen := (List.mem_filter.mp member).1
        obtain ⟨live, _⟩ := mem_replicated_prune.mp seen
        obtain ⟨found, fresh⟩ := unexpired_eq_some.mp live
        rw [faithful.ttlMs] at fresh
        exact inv.resident _ _ r found (unexpired_earlier during.1 fresh)
      | deliver i t p before held =>
        cases move_leg.symm.trans phase
        exact inv.pending i before held r (List.mem_of_mem_erase member)
    · rw [moved_leg_other moved same] at phase
      exact inv.pending k pending phase r member

/-- Store `i` holds the record, and what it owes the other store for it is held there or pending. -/
structure Reaching (top : RegisterRecord) (i : Bool) (x : Exchange) : Prop where
  held : Covers (x.stores i) top
  offered : ∀ pending, x.legs (!i) = .pushing pending →
    Covers (x.stores (!i)) top ∨ ∃ p ∈ pending, top ≤ p

theorem covers_le {s : RegisterStore} (le : q ≤ r) (covered : Covers s r) : Covers s q := by
  obtain ⟨p, found, above⟩ := covered
  exact ⟨p, by rw [le.1]; exact found, le.trans above⟩

theorem stamps_mono (le : q ≤ r) : stamps q ≤ stamps r := by
  rw [stamps, stamps, Prod.Lex.toLex_le_toLex]
  rcases (written_mono le.2.1).lt_or_eq with less | same
  · exact .inl less
  · exact .inr ⟨same, le.2.2⟩

theorem Reaching.step (inv : Reaching top i x) (faithful : Faithful stores now x)
    (lasting : Lasting stores nowEnd top) (named : top.name ≠ [])
    (newer : ∀ q, visible (stores (!i)) now top.name = some q → stamps q < stamps top)
    (during : During now nowEnd x label) (moved : Moved wire x label y) : Reaching top i y := by
  have alive : ∀ k, isExpired top label.now (x.stores k).ttlMs = false := by
    intro k
    rw [faithful.ttlMs]
    exact unexpired_earlier during.2 (lasting k)
  refine ⟨(moved_touches moved i).covers (alive i) inv.held, ?_⟩
  intro pending phase
  by_cases same : (!i) = label.leg
  · cases moved with
    | send j t =>
      change (!i) = j at same
      subst same
      cases move_leg.symm.trans phase
    | answer j t entries sent =>
      change (!i) = j at same
      subst same
      right
      cases move_leg.symm.trans phase
      -- the digest shows the other side below the record, so the answer pushes it
      obtain ⟨p, found, le⟩ := inv.held
      rw [← Bool.not_not i] at found
      have key : p.name = top.name := KeyedMap.find_key found
      have fresh : isExpired p t (x.stores (!!i)).ttlMs = false := unexpired_above le (alive _)
      refine ⟨p, List.mem_filter.mpr ⟨mem_replicated_prune.mpr ⟨?_, by rw [key]; exact named⟩, ?_⟩, le⟩
      · rw [key]
        exact unexpired_eq_some.mpr ⟨found, fresh⟩
      · rw [shouldPush]
        cases entry : remoteEntry entries p.name with
        | none => rfl
        | some e =>
          have member := List.mem_of_find?_eq_some entry
          have entryName : e.name = p.name := by simpa using List.find?_some entry
          obtain ⟨q, seen, equal⟩ := faithful.digest _ entries sent e member
          rw [entryName, key] at seen
          have less : stamps q < stamps p := (newer q seen).trans_le (stamps_mono le)
          rw [equal]
          simpa [digestEntry, stamps, Prod.Lex.toLex_lt_toLex, eq_comm (a := q.written) (b := p.written)]
            using less
    | deliver j t p before held member =>
      change (!i) = j at same
      subst same
      cases move_leg.symm.trans phase
      rw [move_store]
      rcases inv.offered before held with covered | ⟨carrier, waiting, le⟩
      · exact .inl (applyRemote_keeps_covered (alive _) covered)
      · by_cases arrived : carrier = p
        · subst arrived
          left
          refine covers_le le (applyRemote_covers ?_ (unexpired_above le (alive _)))
          rw [← le.1]
          exact named
        · exact .inr ⟨carrier, (List.mem_erase_of_ne arrived).mpr waiting, le⟩
  · rw [moved_leg_other moved same] at phase
    rcases inv.offered pending phase with covered | waiting
    · exact .inl ((moved_touches moved _).covers (alive _) covered)
    · exact .inr waiting

end ClippProof.Registers
