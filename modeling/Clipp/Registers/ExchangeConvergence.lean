import Clipp.Registers.Exchange

open Foundation

namespace ClippProof.Registers

open ClippModel.Registers ClippModel.Registers.RegisterStore

variable {wire : List RegisterDigestEntry → List RegisterDigestEntry} {x : Exchange}
  {stores : Bool → RegisterStore} {now nowEnd : UInt64} {name : Bytes} {r q top : RegisterRecord}
  {i j : Bool}

theorem within_start {P : RegisterRecord → Prop} (named : ∀ r, r.name = [] → P r)
    (seen : ∀ i name r, visible (stores i) now name = some r → P r) : Within P stores now (.start stores) := by
  refine ⟨?_, fun i pending phase => by cases phase⟩
  intro i name r found alive
  by_cases nameless : r.name = []
  · exact named r nameless
  · have key : r.name = name := KeyedMap.find_key found
    exact seen i name r (visible_eq_some.mpr ⟨key ▸ nameless, found, alive⟩)

theorem exchange_within {P : RegisterRecord → Prop} {labels : List ExchangeLabel} {final : Exchange}
    (cut : ∀ d, (wire d).Sublist d) (closed : MergeClosed P) (named : ∀ r, r.name = [] → P r)
    (seen : ∀ i name r, visible (stores i) now name = some r → P r)
    (path : Path (Exchange.step wire) (During now nowEnd) (.start stores) labels final) :
    Within P stores now final := by
  have both := path.invariant (fun x => Faithful stores now x ∧ Within P stores now x)
    (fun x label y inv during taken =>
      have moved := moved_iff.mp taken
      ⟨inv.1.step cut during moved, inv.2.step closed inv.1 during moved⟩)
    ⟨faithful_start, within_start named seen⟩
  exact both.2

theorem exchange_covers {labels : List ExchangeLabel} {final : Exchange} (cut : ∀ d, (wire d).Sublist d)
    (path : Path (Exchange.step wire) (During now nowEnd) (.start stores) labels final)
    (lasting : Lasting stores nowEnd r) (covered : Covers (stores i) r) : Covers (final.stores i) r := by
  have both := path.invariant (fun x => Faithful stores now x ∧ Covers (x.stores i) r) ?_
    ⟨faithful_start, covered⟩
  · exact both.2
  intro x label y inv during taken
  have moved := moved_iff.mp taken
  refine ⟨inv.1.step cut during moved, (moved_touches moved i).covers ?_ inv.2⟩
  rw [inv.1.ttlMs]
  exact unexpired_earlier during.2 (lasting i)

structure Top (stores : Bool → RegisterStore) (now : UInt64) (i : Bool) (top : RegisterRecord) : Prop where
  visible : visible (stores i) now top.name = some top
  above : ∀ q, ClippProof.Registers.visible (stores (!i)) now top.name = some q → q ≤ top

theorem shown_in_snapshot (found : visible (stores i) now name = some r) :
    r ∈ ((stores i).snapshotForSync now).result := by
  rw [mem_snapshot, visible_name found]
  exact found

theorem NoWrittenTies.same (ties : NoWrittenTies stores now)
    (left : visible (stores i) now name = some r) (right : visible (stores (!i)) now name = some q)
    (written : r.written = q.written) : valueKey r = valueKey q := by
  have key : r.name = q.name := (visible_name left).trans (visible_name right).symm
  have contents : r.originHostId = q.originHostId ∧ r.flags = q.flags ∧ r.value = q.value := by
    cases i with
    | false => exact ties r (shown_in_snapshot left) q (shown_in_snapshot right) key written
    | true =>
      obtain ⟨origin, flags, value⟩ :=
        ties q (shown_in_snapshot right) r (shown_in_snapshot left) key.symm written.symm
      exact ⟨origin.symm, flags.symm, value.symm⟩
  obtain ⟨origin, flags, value⟩ := contents
  simp only [valueKey, written, origin, flags, value]

theorem top_held {labels : List ExchangeLabel} {final : Exchange} (cut : ∀ d, (wire d).Sublist d)
    (ties : NoWrittenTies stores now) (isTop : Top stores now i top) (lasting : Lasting stores nowEnd top)
    (path : Path (Exchange.step wire) (During now nowEnd) (.start stores) labels final)
    (finished : final.Finished) : ∀ k, Covers (final.stores k) top := by
  obtain ⟨named, found, _⟩ := visible_eq_some.mp isTop.visible
  have held : Covers (stores i) top := ⟨top, found, le_rfl⟩
  have here : Covers (final.stores i) top := exchange_covers cut path lasting held
  have there : Covers (final.stores (!i)) top := by
    by_cases shared : visible (stores (!i)) now top.name = some top
    · exact exchange_covers cut path lasting ⟨top, (visible_eq_some.mp shared).2.1, le_rfl⟩
    have newer : ∀ q, visible (stores (!i)) now top.name = some q → stamps q < stamps top := by
      intro q seen
      have le := isTop.above q seen
      apply lt_of_le_of_ne (stamps_mono le)
      intro same
      have both : (q.written, q.touched) = (top.written, top.touched) := same
      have key := ties.same isTop.visible seen (congrArg Prod.fst both).symm
      have touched : q.touched = top.touched := congrArg Prod.snd both
      have equal : q = top := record_ext le.1 (Prod.ext key.symm touched)
      exact shared (equal ▸ seen)
    have both := path.invariant (fun x => Faithful stores now x ∧ Reaching top i x)
      (fun x label y inv during taken =>
        have moved := moved_iff.mp taken
        ⟨inv.1.step cut during moved, inv.2.step inv.1 lasting named newer during moved⟩)
      ⟨faithful_start, held, fun pending phase => by cases phase⟩
    rcases both.2.offered [] (finished _) with covered | ⟨p, waiting, _⟩
    · exact covered
    · cases waiting
  intro k
  rcases Bool.eq_or_eq_not k i with same | same
  · exact same ▸ here
  · exact same ▸ there

theorem below_of_seen {labels : List ExchangeLabel} {final : Exchange} (cut : ∀ d, (wire d).Sublist d)
    (named : name ≠ []) (seen : ∀ i q, visible (stores i) now name = some q → q ≤ top) (order : now ≤ nowEnd)
    (path : Path (Exchange.step wire) (During now nowEnd) (.start stores) labels final)
    (found : (final.stores i).records.find name = some r) (lasting : Lasting stores nowEnd r) : r ≤ top := by
  have closed : MergeClosed (fun q => q.name = name → q ≤ top) := by
    intro a b same left right merged
    have key : a.name = name := (mergeRecords_name same).symm.trans merged
    exact mergeRecords_le (left key) (right (same ▸ key))
  have within := exchange_within cut closed (fun q nameless key => absurd (key.symm.trans nameless) named)
    (fun i other q found key => seen i q (by rw [← key, visible_name found]; exact found)) path
  exact within.resident i name r found (unexpired_earlier order (lasting i)) (KeyedMap.find_key found)

theorem none_of_unseen {labels : List ExchangeLabel} {final : Exchange} (cut : ∀ d, (wire d).Sublist d)
    (named : name ≠ []) (unseen : ∀ i, visible (stores i) now name = none) (order : now ≤ nowEnd)
    (path : Path (Exchange.step wire) (During now nowEnd) (.start stores) labels final)
    (found : (final.stores i).records.find name = some r) : ¬ Lasting stores nowEnd r := by
  intro lasting
  have closed : MergeClosed (fun q => q.name ≠ name) :=
    fun a b same left _ merged => left ((mergeRecords_name same).symm.trans merged)
  have within := exchange_within cut closed (fun q nameless key => named (key.symm.trans nameless))
    (fun i other q found key => by
      rw [← visible_name found, key, unseen] at found
      cases found) path
  exact within.resident i name r found (unexpired_earlier order (lasting i)) (KeyedMap.find_key found)

theorem lasting_congr (same : r.touched = q.touched) (lasting : Lasting stores nowEnd r) :
    Lasting stores nowEnd q := by
  intro i
  rw [← lasting i, isExpired, isExpired, same]

theorem comparable_or_fading (ties : NoWrittenTies stores now) (uncrossed : ¬ CrossedStamps stores now nowEnd)
    (left : visible (stores i) now name = some r) (right : visible (stores (!i)) now name = some q) :
    r ≤ q ∨ q ≤ r ∨ ¬ Lasting stores nowEnd (mergeRecords r q) := by
  have key : r.name = q.name := (visible_name left).trans (visible_name right).symm
  rcases lt_trichotomy r.written q.written with less | same | more
  · rcases le_or_gt r.touched q.touched with touched | touched
    · exact .inl ⟨key, (valueKey_lt_of_written less).le, touched⟩
    · right
      right
      intro lasting
      rw [← Bool.not_not i] at left
      refine uncrossed ⟨!i, q, shown_in_snapshot right, r, shown_in_snapshot left, key.symm, less, touched, ?_⟩
      exact lasting_congr (max_eq_left touched.le) lasting
  · have value := ties.same left right same
    rcases le_total r.touched q.touched with touched | touched
    · exact .inl ⟨key, value.le, touched⟩
    · exact .inr (.inl ⟨key.symm, value.ge, touched⟩)
  · rcases le_or_gt q.touched r.touched with touched | touched
    · exact .inr (.inl ⟨key.symm, (valueKey_lt_of_written more).le, touched⟩)
    · right
      right
      intro lasting
      refine uncrossed ⟨i, r, shown_in_snapshot left, q, shown_in_snapshot right, key, more, touched, ?_⟩
      exact lasting_congr (max_eq_right touched.le) lasting

theorem top_everywhere {labels : List ExchangeLabel} {final : Exchange} (cut : ∀ d, (wire d).Sublist d)
    (ties : NoWrittenTies stores now) (isTop : Top stores now i top) (order : now ≤ nowEnd)
    (path : Path (Exchange.step wire) (During now nowEnd) (.start stores) labels final)
    (finished : final.Finished) (found : (final.stores j).records.find top.name = some r)
    (lasting : Lasting stores nowEnd r) : ∀ k, (final.stores k).records.find top.name = some r := by
  obtain ⟨named, _, _⟩ := visible_eq_some.mp isTop.visible
  have seen : ∀ k q, visible (stores k) now top.name = some q → q ≤ top := by
    intro k q shown
    rcases Bool.eq_or_eq_not k i with same | same
    · rw [same, isTop.visible] at shown
      cases shown
      exact le_rfl
    · exact isTop.above q (same ▸ shown)
  have below := fun {k : Bool} {q : RegisterRecord} =>
    below_of_seen (i := k) (r := q) cut named seen order path
  have topLasting : Lasting stores nowEnd top := lasting.above (below found lasting)
  have resident : ∀ k, (final.stores k).records.find top.name = some top := by
    intro k
    obtain ⟨q, here, le⟩ := top_held cut ties isTop topLasting path finished k
    rw [here, le_antisymm (below here (topLasting.above le)) le]
  have equal := resident j
  rw [found] at equal
  cases equal
  exact resident

/-- The exchange converges in every order of its steps, also over a wire that drops digest entries. -/
theorem exchange_converges (cut : ∀ d, (wire d).Sublist d) (order : now ≤ nowEnd)
    (ties : NoWrittenTies stores now) (uncrossed : ¬ CrossedStamps stores now nowEnd) :
    Converges wire stores now nowEnd := by
  intro labels final path finished name r i named found lasting
  have conclude : ∀ k top, Top stores now k top → top.name = name →
      ∀ j, (final.stores j).records.find name = some r := by
    rintro k top isTop rfl
    exact top_everywhere cut ties isTop order path finished found lasting
  cases left : visible (stores i) now name with
  | none =>
    cases right : visible (stores (!i)) now name with
    | none =>
      have unseen : ∀ k, visible (stores k) now name = none := by
        intro k
        rcases Bool.eq_or_eq_not k i with same | same
        · exact same ▸ left
        · exact same ▸ right
      exact absurd lasting (none_of_unseen cut named unseen order path found)
    | some q =>
      have key := visible_name right
      refine conclude (!i) q ⟨by rw [key]; exact right, ?_⟩ key
      intro p shown
      rw [Bool.not_not, key, left] at shown
      cases shown
  | some p =>
    have key := visible_name left
    cases right : visible (stores (!i)) now name with
    | none =>
      refine conclude i p ⟨by rw [key]; exact left, ?_⟩ key
      intro q shown
      rw [key, right] at shown
      cases shown
    | some q =>
      have other := visible_name right
      rcases comparable_or_fading ties uncrossed left right with le | le | fading
      · refine conclude (!i) q ⟨by rw [other]; exact right, ?_⟩ other
        intro p' shown
        rw [Bool.not_not, other, left] at shown
        cases shown
        exact le
      · refine conclude i p ⟨by rw [key]; exact left, ?_⟩ key
        intro q' shown
        rw [key, right] at shown
        cases shown
        exact le
      · have same : p.name = q.name := key.trans other.symm
        have seen : ∀ k s, visible (stores k) now name = some s → s ≤ mergeRecords p q := by
          intro k s shown
          rcases Bool.eq_or_eq_not k i with at_ | at_
          · rw [at_, left] at shown
            cases shown
            exact le_mergeRecords_left same
          · rw [at_, right] at shown
            cases shown
            exact le_mergeRecords_right same
        exact absurd (lasting.above (below_of_seen cut named seen order path found lasting)) fading

theorem leg_drains (wire : List RegisterDigestEntry → List RegisterDigestEntry) (order : now ≤ nowEnd)
    (i : Bool) {pending : List RegisterRecord} (phase : x.legs i = .pushing pending) :
    ∃ labels y, Path (Exchange.step wire) (During now nowEnd) x labels y ∧ y.legs i = .pushing [] ∧
      (∀ k, k ≠ i → y.legs k = x.legs k ∧ y.stores k = x.stores k) ∧
      ∀ name, (∀ p ∈ pending, p.name ≠ name) →
        (y.stores i).records.find name = (x.stores i).records.find name := by
  induction pending generalizing x with
  | nil => exact ⟨[], x, .nil x, phase, fun _ _ => ⟨rfl, rfl⟩, fun _ _ => rfl⟩
  | cons p rest ih =>
    have moved : Moved wire x (.deliver i now p) _ := .deliver i now p (p :: rest) phase List.mem_cons_self
    have taken := moved_iff.mpr moved
    rw [List.erase_cons_head] at taken
    obtain ⟨labels, y, path, drained, others, kept⟩ := ih (x := x.move i _ i (.pushing rest)) move_leg
    have instant : During now nowEnd x (.deliver i now p) := ⟨le_rfl, order⟩
    refine ⟨_, y, .cons instant taken path, drained, ?_, ?_⟩
    · intro k other
      obtain ⟨leg, store⟩ := others k other
      exact ⟨leg.trans (move_leg_other other), store.trans (move_store_other other)⟩
    · intro name absent
      rw [kept name (fun q member => absent q (List.mem_cons_of_mem _ member)), move_store]
      exact applyRemote_others _ _ _ (absent p List.mem_cons_self).symm

theorem digests_cross (order : now ≤ nowEnd) (i : Bool)
    (left : visible (stores i) now name = some r) (right : visible (stores (!i)) now name = some q)
    (newer : stamps q < stamps r) :
    ∃ labels x pending back, Path (Exchange.step id) (During now nowEnd) (.start stores) labels x ∧
      x.legs i = .pushing pending ∧ x.legs (!i) = .pushing back ∧
      (∀ p ∈ pending, p.name ≠ name) ∧ (x.stores i).records.find name = some r := by
  have distinct : (!i) ≠ i := Bool.not_ne_self i
  have distinct' : i ≠ !i := distinct.symm
  let pruned : Bool → RegisterStore := fun k => (stores k).pruneExpiredLocked now
  let x₁ := (Exchange.start stores).move i (pruned i) i (.digest ((stores i).digest now).result)
  let x₂ := x₁.move (!i) (pruned (!i)) (!i) (.digest ((stores (!i)).digest now).result)
  have store₁ : x₁.stores (!i) = stores (!i) := move_store_other distinct
  have first : (Exchange.start stores).step id (.send i now) = some x₁ :=
    moved_iff.mpr (.send i now rfl)
  have second : x₁.step id (.send (!i) now) = some x₂ := by
    have moved : Moved id x₁ (.send (!i) now) _ := .send (!i) now (move_leg_other distinct)
    rw [store₁] at moved
    exact moved_iff.mpr moved
  have here₂ : x₂.stores i = pruned i := (move_store_other distinct').trans move_store
  have there₂ : x₂.stores (!i) = pruned (!i) := move_store
  let x₃ := x₂.move i ((pruned i).pruneExpiredLocked now) (!i)
    (.pushing ((pruned i).recordsToPush now ((stores (!i)).digest now).result).result)
  have third : x₂.step id (.answer (!i) now) = some x₃ := by
    have moved : Moved id x₂ (.answer (!i) now) _ := .answer (!i) now _ move_leg
    rw [Bool.not_not, here₂] at moved
    exact moved_iff.mpr moved
  have there₃ : x₃.stores (!i) = pruned (!i) := (move_store_other distinct).trans there₂
  have leg₃ : x₃.legs i = .digest ((stores i).digest now).result :=
    (move_leg_other distinct').trans ((move_leg_other distinct').trans move_leg)
  let answered := ((pruned (!i)).recordsToPush now ((stores i).digest now).result).result
  let x₄ := x₃.move (!i) ((pruned (!i)).pruneExpiredLocked now) i (.pushing answered)
  have fourth : x₃.step id (.answer i now) = some x₄ := by
    have moved : Moved id x₃ (.answer i now) _ := .answer i now _ leg₃
    rw [there₃] at moved
    exact moved_iff.mpr moved
  have instant : ∀ x l, l.now = now → During now nowEnd x l := fun x l same => by
    rw [During, same]
    exact ⟨le_rfl, order⟩
  refine ⟨_, x₄, answered, _, .cons (instant _ _ rfl) first (.cons (instant _ _ rfl) second
    (.cons (instant _ _ rfl) third (.cons (instant _ _ rfl) fourth (.nil x₄)))), move_leg,
    (move_leg_other distinct).trans move_leg, ?_, ?_⟩
  · intro p member key
    obtain ⟨resident, pushed⟩ := List.mem_filter.mp member
    obtain ⟨twice, _⟩ := mem_replicated_prune.mp resident
    have once := (unexpired_eq_some.mp twice).1
    rw [key, prune_find, ← visible_of_named (visible_eq_some.mp right).1, right] at once
    cases once
    have less := shouldPush_digest.mp pushed r (by rw [key]; exact left)
    exact lt_asymm newer less
  · have live : unexpired (stores i) now name = some r := by
      rw [← visible_of_named (visible_eq_some.mp left).1]
      exact left
    have alive : isExpired r now (pruned i).ttlMs = false := (unexpired_eq_some.mp live).2
    have kept : x₄.stores i = (pruned i).pruneExpiredLocked now := (move_store_other distinct').trans move_store
    rw [kept, prune_find]
    exact unexpired_eq_some.mpr ⟨prune_find.trans live, alive⟩

/-- Crossed stamps stay apart when both digests are answered before any push arrives. -/
theorem crossed_diverges (order : now ≤ nowEnd) (crossed : CrossedStamps stores now nowEnd) :
    ¬ Converges id stores now nowEnd := by
  obtain ⟨i, r, leftShown, q, rightShown, same, written, touched, lasting⟩ := crossed
  have left := mem_snapshot.mp leftShown
  have right : visible (stores (!i)) now r.name = some q := by
    rw [same]
    exact mem_snapshot.mp rightShown
  intro converges
  have newer : stamps q < stamps r := Prod.Lex.toLex_lt_toLex.mpr (.inl written)
  obtain ⟨labels, x, pending, back, path, here, there, absent, resident⟩ :=
    digests_cross order i left right newer
  obtain ⟨deliveries, y, drain, drained, others, kept⟩ := leg_drains id order i here
  have waiting : y.legs (!i) = .pushing back := (others _ (Bool.not_ne_self i)).1.trans there
  obtain ⟨deliveries', z, drain', drained', others', _⟩ := leg_drains id order (!i) waiting
  have other := others' i (Bool.not_ne_self i).symm
  have finished : z.Finished := by
    intro k
    rcases Bool.eq_or_eq_not k i with same | same
    · rw [same, other.1]
      exact drained
    · rw [same]
      exact drained'
  have whole := (path.append drain).append drain'
  have key := visible_name right
  obtain ⟨named, found, _⟩ := visible_eq_some.mp right
  obtain ⟨w, held, le⟩ := exchange_covers (fun d => List.Sublist.refl d) whole lasting
    ⟨q, by rw [key]; exact found, le_rfl⟩
  rw [key] at held
  have equal := converges _ z whole finished r.name w (!i) named held (lasting.above le) i
  rw [other.2, kept r.name absent, resident] at equal
  cases equal
  exact absurd le.2.2 (not_le.mpr touched)

/-- With no written ties the exchange converges in every order exactly when no name has crossed
    stamps: a newer value on one side and a fresher touch on the other. -/
theorem exchange_converges_iff (stores : Bool → RegisterStore) (now nowEnd : UInt64)
    (order : now ≤ nowEnd) (ties : NoWrittenTies stores now) :
    Converges id stores now nowEnd ↔ ¬ CrossedStamps stores now nowEnd :=
  ⟨fun converges crossed => crossed_diverges order crossed converges,
    exchange_converges (fun d => List.Sublist.refl d) order ties⟩

namespace CrossedTouch

def hostA : HostId := ⟨List.replicate 16 1, rfl⟩
def hostB : HostId := ⟨List.replicate 16 2, rfl⟩
def create (host : HostId) : RegisterStore := .create host RegisterStore.kDefaultTtlMs 8 8
def original : RegisterStore := ((create hostA).upsert (.all 100) [0x6B] [1] false).store
def copy : RegisterRecord := writtenRecord [0x6B] [1] 0 hostA { wallMs := 100, counter := 0 }
def copied : RegisterStore := ((create hostB).applyRemote 100 copy).store

def diverged : Bool → RegisterStore
  | false => (original.upsert (.all 150) [0x6B] [2] false).store
  | true => (copied.read (.all 200) [0x6B]).store

end CrossedTouch

open CrossedTouch in
/-- A rewrite and a later read on the other side can leave the touched stamps apart for good. -/
theorem rewrite_and_read_stay_apart :
    NoWrittenTies CrossedTouch.diverged 300 ∧ ¬ Converges id CrossedTouch.diverged 300 300 :=
  ⟨by decide +kernel, crossed_diverges le_rfl (by decide +kernel)⟩

theorem exchange_converges_iff_copied :
    Converges id (fun i => if i then CrossedTouch.copied else CrossedTouch.diverged false) 300 400 :=
  (exchange_converges_iff _ 300 400 (by decide) (by decide +kernel)).mpr (by decide +kernel)

end ClippProof.Registers
