import Clipp.Clipboard.ActivityLimits
import Clipp.Foundation.Machine
import Mathlib.Data.Finset.Basic
import Mathlib.Data.Finset.Dedup
import Mathlib.Logic.Function.Basic

open Foundation

namespace ClippModel.Clipboard

open ClippModel.Clipboard.ClipboardActivityStore

structure Notification where
  thread : Nat
  watcherID : Nat
  update : ClipboardActivityUpdate
  deriving DecidableEq

def storedIDs (items : List ActivityItem) : Finset Nat := (items.map (fun item => item.header.id)).toFinset

def follow (view : Finset Nat) : ClipboardActivityUpdate → Finset Nat
  | .added itemID => insert itemID view
  | .removed itemID => view.erase itemID
  | .cleared => ∅
  | .moved _ => view

/-- The store with its watchers. `underway` lists the notifications that are not delivered yet, in the order in
    which the calls had the lock, and `views` is what each watcher knows. -/
structure WatchedStore where
  store : ClipboardActivityStore := {}
  watchers : List Nat := []
  nextWatcherID : Nat := 1
  underway : List Notification := []
  views : Nat → Finset Nat := fun _ => ∅

def notifyWatchers (thread : Nat) (watchers : List Nat) (updates : List ClipboardActivityUpdate) : List Notification :=
  updates.flatMap (fun update => watchers.map (fun watcherID => { thread, watcherID, update }))

inductive WatchedStep where
  | call (thread : Nat) (event : Event)
  | queryAndRegister (thread : Nat) (now : Int)
  | unregister (watcherID : Nat)
  | deliver (thread : Nat)

namespace WatchedStore

/-- A thread makes its next call after it has delivered what the last one brought. -/
def idle (s : WatchedStore) (thread : Nat) : Bool := s.underway.all (fun n => n.thread ≠ thread)

def changed (s : WatchedStore) (thread : Nat) (change : Change) : WatchedStore :=
  { s with
    store := change.store
    underway := s.underway ++ notifyWatchers thread s.watchers change.updates }

def step (s : WatchedStore) : WatchedStep → Option WatchedStore
  | .call thread event => if s.idle thread then some (s.changed thread (s.store.perform event)) else none
  | .queryAndRegister thread now =>
    if s.idle thread then
      let change := s.store.applyLimitsLocked now
      some { s.changed thread change with
        watchers := s.watchers ++ [s.nextWatcherID]
        nextWatcherID := s.nextWatcherID + 1
        views := Function.update s.views s.nextWatcherID (storedIDs change.store.items) }
    else none
  | .unregister watcherID => some { s with watchers := s.watchers.filter (· ≠ watcherID) }
  | .deliver thread =>
    match s.underway.find? (fun n => n.thread = thread) with
    | none => none
    | some n =>
      some { s with
        underway := s.underway.eraseP (fun n => n.thread = thread)
        views := Function.update s.views n.watcherID (follow (s.views n.watcherID) n.update) }

end WatchedStore

end ClippModel.Clipboard

namespace ClippProof.Clipboard

open ClippModel.Persistence ClippModel.Clipboard ClippModel.Clipboard.ClipboardActivityStore

variable {s t : WatchedStore} {l : WatchedStep} {store : ClipboardActivityStore} {items : List ActivityItem} {e : Event}
  {p : ClipboardPayload} {clock : ActivityClock} {view : Finset Nat} {u v : ClipboardActivityUpdate}
  {watchers : List Nat} {thread w : Nat} {n : Notification}

section Calls

theorem storedIDs_perm {left right : List ActivityItem} (perm : left.Perm right) : storedIDs left = storedIDs right :=
  List.toFinset_eq_of_perm _ _ (perm.map _)

theorem storedIDs_cons (item : ActivityItem) (items : List ActivityItem) :
    storedIDs (item :: items) = insert item.header.id (storedIDs items) := List.toFinset_cons

theorem follow_removed (gone : List ActivityItem) (view : Finset Nat) :
    (gone.map (fun item => ClipboardActivityUpdate.removed item.header.id)).foldl follow view = view \ storedIDs gone := by
  induction gone generalizing view with
  | nil => exact (Finset.sdiff_empty).symm
  | cons first rest ih =>
    rw [List.map_cons, List.foldl_cons, ih, storedIDs_cons]
    ext id
    simp only [follow, Finset.mem_sdiff, Finset.mem_erase, Finset.mem_insert, not_or]
    tauto

theorem applyLimits_parts (limits : ActivityLimits) (now : Int) (items : List ActivityItem) :
    ∃ gone, (applyLimits limits now items).2 = gone.map (fun item => .removed item.header.id) ∧
      (gone ++ (applyLimits limits now items).1).Perm items := by
  refine ⟨_, rfl, ?_⟩
  dsimp only [applyLimits]
  generalize counted : (items.filter (fun item => !expired limits now item)).drop
    (surplus limits (items.filter (fun item => !expired limits now item))) = rest
  have kept : rest.take (rest.length - (withinMemory limits rest).length) ++ withinMemory limits rest = rest := by
    conv_rhs => rw [← List.take_append_drop (rest.length - (withinMemory limits rest).length) rest]
    rw [← (List.suffix_iff_eq_drop.mp (withinMemory_suffix limits rest))]
  rw [List.append_assoc, kept, ← counted, List.append_assoc, List.take_append_drop]
  exact List.filter_append_perm _ _

theorem follow_limits (limits : ActivityLimits) (now : Int)
    (distinct : (items.map (fun item => item.header.id)).Nodup) :
    (applyLimits limits now items).2.foldl follow (storedIDs items) = storedIDs (applyLimits limits now items).1 := by
  obtain ⟨gone, updates, parts⟩ := applyLimits_parts limits now items
  rw [updates, follow_removed, ← storedIDs_perm parts]
  have apart := (parts.map (fun item => item.header.id)).nodup_iff.mpr distinct
  rw [List.map_append, List.nodup_append] at apart
  ext id
  simp only [storedIDs, Finset.mem_sdiff, List.mem_toFinset, List.map_append, List.mem_append]
  constructor
  · rintro ⟨inGone | kept, notGone⟩
    · exact absurd inGone notGone
    · exact kept
  · intro kept
    exact ⟨.inr kept, fun inGone => apart.2.2 id inGone id kept rfl⟩

theorem addItem_updates (clock : ActivityClock) (good : WellFormed store) (fresh : ¬ Recorded store p) :
    ∃ update, (store.addItem clock p).updates =
        update :: (applyLimits store.limits clock.limited (entered store clock p)).2 ∧
      follow (storedIDs store.items) update = storedIDs (entered store clock p) ∧
      ((entered store clock p).map (fun item => item.header.id)).Nodup := by
  have stored : p.meta_.formatId ≠ clippFormatNone := fun none => fresh (.inl none)
  cases found : existing store.items p with
  | none =>
    refine ⟨.added store.nextItemID, ?_, ?_, ?_⟩
    · simp only [addItem, entered, stored, if_false, found, place]
    · simp only [entered, found, follow]
      rw [storedIDs_perm (insertItem_perm _ _), storedIDs_cons]
    · simp only [entered, found]
      rw [((insertItem_perm _ _).map _).nodup_iff, List.map_cons, List.nodup_cons]
      refine ⟨fun taken => ?_, good.distinct⟩
      obtain ⟨a, member, same⟩ := List.mem_map.mp taken
      have old := (good.numbered a member).2
      dsimp only at same
      omega
  | some item =>
    have newer : ¬ p.meta_.timestamp ≤ item.payload.meta_.timestamp :=
      fun notNewer => fresh (.inr ⟨item, found, notNewer⟩)
    have ids : ((entered store clock p).map (fun item => item.header.id)).Perm
        (store.items.map (fun item => item.header.id)) := by
      simp only [entered, found]
      exact ((insertItem_perm _ _).map _).trans ((eraseP_perm found).map (fun item => item.header.id))
    refine ⟨.moved item.header.id, ?_, ?_, ids.nodup_iff.mpr good.distinct⟩
    · simp only [addItem, entered, stored, if_false, found, newer, place]
    · exact (List.toFinset_eq_of_perm _ _ ids).symm

theorem follow_removeFirst (good : WellFormed store) (meant : ActivityItem → Bool) :
    (store.removeFirst meant).updates.foldl follow (storedIDs store.items) =
      storedIDs (store.removeFirst meant).store.items := by
  unfold removeFirst
  cases found : store.items.find? meant with
  | none => rfl
  | some item =>
    obtain ⟨isMeant, before, after, split, others⟩ := List.find?_eq_some_iff_append.mp found
    have notMeant : ∀ a ∈ before, ¬ meant a = true := fun a member => by simpa using others a member
    have rest : store.items.eraseP meant = before ++ after := by
      rw [split, List.eraseP_append_right _ notMeant, List.eraseP_cons_of_pos isMeant]
    have perm : store.items.Perm (item :: (before ++ after)) := by
      rw [split]
      exact List.perm_middle
    have distinct := (perm.map (fun item => item.header.id)).nodup_iff.mp good.distinct
    rw [List.map_cons, List.nodup_cons] at distinct
    dsimp only [List.foldl_cons, List.foldl_nil, follow]
    rw [rest, storedIDs_perm perm, storedIDs_cons, Finset.erase_insert]
    rw [storedIDs, List.mem_toFinset]
    exact distinct.1

/-- The updates of a call tell what it did to the items. -/
theorem follow_perform (good : WellFormed store) (e : Event) :
    (store.perform e).updates.foldl follow (storedIDs store.items) = storedIDs (store.perform e).store.items := by
  obtain ⟨call, clock⟩ := e
  cases call with
  | add p =>
    show (store.addItem clock p).updates.foldl follow _ = storedIDs (store.addItem clock p).store.items
    by_cases recorded : Recorded store p
    · have none : (store.addItem clock p).updates = [] := by
        unfold addItem
        split_ifs with empty
        · rfl
        · obtain ⟨item, found, notNewer⟩ := recorded.resolve_left empty
          simp only [found, notNewer, if_true]
      rw [none, addItem_recorded recorded]
      rfl
    · obtain ⟨update, updates, placed, distinct⟩ := addItem_updates clock good recorded
      rw [updates, List.foldl_cons, placed, follow_limits _ _ distinct, (addItem_entered clock recorded).1]
  | remove itemID => exact follow_removeFirst good _
  | removeByEventGuid eventGuid =>
    show (store.removeByEventGuid eventGuid).updates.foldl follow _ =
      storedIDs (store.removeByEventGuid eventGuid).store.items
    unfold removeByEventGuid
    split_ifs
    · rfl
    · exact follow_removeFirst good _
  | clear =>
    show store.clear.updates.foldl follow _ = storedIDs store.clear.store.items
    unfold clear
    split_ifs
    · rfl
    · rfl
  | setLimits limits => exact follow_limits limits _ good.distinct
  | snapshot => exact follow_limits store.limits _ good.distinct

end Calls

section Delivery

/-- Whether two updates must not change places: one puts in what the other takes out. -/
def opposed : ClipboardActivityUpdate → ClipboardActivityUpdate → Bool
  | .added a, .removed b => a = b
  | .removed a, .added b => a = b
  | .added _, .cleared => true
  | .cleared, .added _ => true
  | _, _ => false

theorem follow_comm (apart : opposed u v = false) (view : Finset Nat) :
    follow (follow view u) v = follow (follow view v) u := by
  cases u with
  | added a =>
    cases v with
    | added b => exact Finset.insert_comm b a view
    | removed b =>
      have different : a ≠ b := by simpa [opposed] using apart
      exact Finset.erase_insert_of_ne different
    | cleared => cases apart
    | moved b => rfl
  | removed a =>
    cases v with
    | added b =>
      have different : b ≠ a := fun same => by simp [opposed, same] at apart
      exact (Finset.erase_insert_of_ne different).symm
    | removed b => exact Finset.erase_right_comm
    | cleared => rfl
    | moved b => rfl
  | cleared =>
    cases v with
    | added b => cases apart
    | removed b => exact Finset.erase_empty b
    | cleared => rfl
    | moved b => rfl
  | moved a => rfl

theorem foldl_follow_first {before : List ClipboardActivityUpdate} (apart : ∀ v ∈ before, opposed v u = false)
    (after : List ClipboardActivityUpdate) (view : Finset Nat) :
    (before ++ u :: after).foldl follow view = (before ++ after).foldl follow (follow view u) := by
  induction before generalizing view with
  | nil => rfl
  | cons first rest ih =>
    show (rest ++ u :: after).foldl follow (follow view first) = (rest ++ after).foldl follow (follow (follow view u) first)
    rw [ih (fun v member => apart v (List.mem_cons_of_mem _ member)), follow_comm (apart first List.mem_cons_self)]

def toWatcher (w : Nat) (underway : List Notification) : List ClipboardActivityUpdate :=
  (underway.filter (fun n => n.watcherID = w)).map Notification.update

theorem toWatcher_append (w : Nat) (left right : List Notification) :
    toWatcher w (left ++ right) = toWatcher w left ++ toWatcher w right := by
  rw [toWatcher, List.filter_append, List.map_append]
  rfl

theorem toWatcher_notify (distinct : watchers.Nodup) (member : w ∈ watchers) (thread : Nat)
    (updates : List ClipboardActivityUpdate) : toWatcher w (notifyWatchers thread watchers updates) = updates := by
  induction updates with
  | nil => rfl
  | cons first rest ih =>
    have one : toWatcher w (watchers.map (fun watcherID => { thread, watcherID, update := first })) = [first] := by
      have only : watchers.filter (fun id => id = w) = [w] := by
        rw [List.filter_eq, List.count_eq_one_of_mem distinct member]
        rfl
      rw [toWatcher, List.filter_map, List.map_map]
      show (watchers.filter (fun id => id = w)).map _ = _
      rw [only]
      rfl
    rw [notifyWatchers, List.flatMap_cons, toWatcher_append, one]
    exact congrArg (first :: ·) ih

theorem mem_notify {updates : List ClipboardActivityUpdate} (member : n ∈ notifyWatchers thread watchers updates) :
    n.watcherID ∈ watchers := by
  obtain ⟨update, -, among⟩ := List.mem_flatMap.mp member
  obtain ⟨watcherID, inside, rfl⟩ := List.mem_map.mp among
  exact inside

/-- A notification does not overtake an opposed one of an earlier call to the same watcher. -/
def inOrder (s : WatchedStore) : WatchedStep → Bool
  | .deliver thread =>
    match s.underway.find? (fun n => n.thread = thread) with
    | none => true
    | some n => (s.underway.takeWhile (fun m => m.thread ≠ thread)).all
        (fun m => m.watcherID ≠ n.watcherID || !opposed m.update n.update)
  | _ => true

def InOrder (s : WatchedStore) (l : WatchedStep) : Prop := inOrder s l = true

instance inOrderDecidable (s : WatchedStore) (l : WatchedStep) : Decidable (InOrder s l) :=
  inferInstanceAs (Decidable (inOrder s l = true))

/-- What every watcher will know when it has received what is underway to it. -/
structure Faithful (s : WatchedStore) : Prop where
  good : WellFormed s.store
  distinct : s.watchers.Nodup
  numbered : ∀ w ∈ s.watchers, w < s.nextWatcherID
  addressed : ∀ n ∈ s.underway, n.watcherID < s.nextWatcherID
  follows : ∀ w ∈ s.watchers, (toWatcher w s.underway).foldl follow (s.views w) = storedIDs s.store.items

theorem Faithful.fresh : Faithful {} where
  good := .fresh {}
  distinct := .nil
  numbered _ none := nomatch none
  addressed _ none := nomatch none
  follows _ none := nomatch none

theorem Faithful.changed (f : Faithful s) (thread : Nat) (e : Event) :
    Faithful (s.changed thread (s.store.perform e)) where
  good := f.good.step (perform_changed s.store e)
  distinct := f.distinct
  numbered := f.numbered
  addressed n member := by
    rcases List.mem_append.mp member with before | new
    · exact f.addressed n before
    · exact f.numbered _ (mem_notify new)
  follows w member := by
    show (toWatcher w (s.underway ++ notifyWatchers thread s.watchers _)).foldl follow (s.views w) = _
    rw [toWatcher_append, List.foldl_append, f.follows w member, toWatcher_notify f.distinct member]
    exact follow_perform f.good e

theorem toWatcher_unknown (unknown : ∀ n ∈ s.underway, n.watcherID < w) : toWatcher w s.underway = [] := by
  rw [toWatcher, List.map_eq_nil_iff, List.filter_eq_nil_iff]
  intro n member same
  have below := unknown n member
  have equal : n.watcherID = w := of_decide_eq_true same
  omega

theorem Faithful.registered (f : Faithful s) :
    Faithful { s with
      watchers := s.watchers ++ [s.nextWatcherID]
      nextWatcherID := s.nextWatcherID + 1
      views := Function.update s.views s.nextWatcherID (storedIDs s.store.items) } where
  good := f.good
  distinct := by
    rw [List.nodup_append]
    refine ⟨f.distinct, List.nodup_singleton _, fun w before v last same => ?_⟩
    have below := f.numbered w before
    rw [List.mem_singleton.mp last] at same
    omega
  numbered w member := by
    rcases List.mem_append.mp member with before | last
    · exact Nat.lt_succ_of_lt (f.numbered w before)
    · rw [List.mem_singleton.mp last]
      exact Nat.lt_succ_self _
  addressed n member := Nat.lt_succ_of_lt (f.addressed n member)
  follows w member := by
    show (toWatcher w s.underway).foldl follow (Function.update s.views s.nextWatcherID _ w) = storedIDs s.store.items
    rcases List.mem_append.mp member with before | last
    · have below := f.numbered w before
      have different : w ≠ s.nextWatcherID := by omega
      rw [Function.update_of_ne different]
      exact f.follows w before
    · rw [List.mem_singleton.mp last, Function.update_self, toWatcher_unknown f.addressed]
      rfl

theorem Faithful.delivered {before after : List Notification} (f : Faithful s)
    (split : s.underway = before ++ n :: after)
    (apart : ∀ m ∈ before, m.watcherID = n.watcherID → opposed m.update n.update = false) :
    Faithful { s with
      underway := before ++ after
      views := Function.update s.views n.watcherID (follow (s.views n.watcherID) n.update) } where
  good := f.good
  distinct := f.distinct
  numbered := f.numbered
  addressed m member := by
    apply f.addressed m
    rw [split]
    rcases List.mem_append.mp member with inBefore | inAfter
    · exact List.mem_append_left _ inBefore
    · exact List.mem_append_right _ (List.mem_cons_of_mem _ inAfter)
  follows w member := by
    have known := f.follows w member
    rw [split, toWatcher_append] at known
    show (toWatcher w (before ++ after)).foldl follow
      (Function.update s.views n.watcherID (follow (s.views n.watcherID) n.update) w) = storedIDs s.store.items
    rw [toWatcher_append, ← known]
    by_cases here : n.watcherID = w
    · subst here
      have first : toWatcher n.watcherID (n :: after) = n.update :: toWatcher n.watcherID after := by
        simp [toWatcher]
      rw [Function.update_self, first, foldl_follow_first]
      intro v among
      obtain ⟨m, inside, rfl⟩ := List.mem_map.mp among
      obtain ⟨inBefore, same⟩ := List.mem_filter.mp inside
      exact apart m inBefore (of_decide_eq_true same)
    · have first : toWatcher w (n :: after) = toWatcher w after := by
        rw [toWatcher, List.filter_cons_of_neg (by simpa using here)]
        rfl
      rw [Function.update_of_ne (Ne.symm here), first]

theorem Faithful.step (f : Faithful s) (ordered : InOrder s l) (taken : s.step l = some t) : Faithful t := by
  cases l with
  | call thread event =>
    simp only [WatchedStore.step] at taken
    split_ifs at taken
    cases taken
    exact f.changed thread event
  | queryAndRegister thread now =>
    simp only [WatchedStore.step] at taken
    split_ifs at taken
    cases taken
    exact (f.changed thread { call := .snapshot, clock := { added := now, limited := now } }).registered
  | unregister watcherID =>
    cases taken
    exact { f with
      distinct := f.distinct.filter _
      numbered := fun w member => f.numbered w (List.mem_of_mem_filter member)
      follows := fun w member => f.follows w (List.mem_of_mem_filter member) }
  | deliver thread =>
    cases found : s.underway.find? (fun n => n.thread = thread) with
    | none => simp [WatchedStore.step, found] at taken
    | some n =>
      obtain ⟨here, before, after, split, others⟩ := List.find?_eq_some_iff_append.mp found
      have notHere : ∀ m ∈ before, ¬ decide (m.thread = thread) = true := fun m member => by simpa using others m member
      have rest : s.underway.eraseP (fun n => n.thread = thread) = before ++ after := by
        have same : n.thread = thread := of_decide_eq_true here
        rw [split, List.eraseP_append_right _ notHere]
        simp [same]
      have ahead : s.underway.takeWhile (fun m => m.thread ≠ thread) = before := by
        rw [split, List.takeWhile_append_of_pos (fun m member => by simpa using notHere m member),
          List.takeWhile_cons_of_neg (by simpa using here), List.append_nil]
      simp only [InOrder, inOrder, found, ahead, List.all_eq_true] at ordered
      simp only [WatchedStore.step, found, rest, Option.some.injEq] at taken
      subst taken
      apply f.delivered split
      intro m member same
      simpa [same] using ordered m member

/-- With no opposed notification overtaken, every watcher that has received all of them knows the items of the store. -/
theorem watchers_know_store {steps : List WatchedStep} (path : Path WatchedStore.step InOrder {} steps s)
    (quiet : s.underway = []) : ∀ w ∈ s.watchers, s.views w = storedIDs s.store.items := by
  intro w member
  have f : Faithful s := path.invariant Faithful (fun _ _ _ f ordered taken => f.step ordered taken) .fresh
  have known := f.follows w member
  rwa [quiet] at known

namespace Watching

def text (b : UInt8) : ClipboardPayload where
  meta_ := { ClipboardMessage.zero with formatId := clippFormatUtf8, eventGuid := SealedSnapshot.repeatedByte 16 b }
  encoded := [b]

def call (thread : Nat) (call : Call) : WatchedStep :=
  .call thread { call := call, clock := { added := 0, limited := 0 } }

def started : List WatchedStep :=
  [.queryAndRegister 0 0, call 1 (.add (text 0x61)), .deliver 1, call 1 .clear, call 2 (.add (text 0x62))]

end Watching

open Watching in
theorem watchers_know_cleared_store :
    (lastOf WatchedStore.step {} (started ++ [.deliver 1, .deliver 2])).views 1 =
      storedIDs (lastOf WatchedStore.step {} (started ++ [.deliver 1, .deliver 2])).store.items :=
  watchers_know_store (fitting_to_lastOf (by decide +kernel)) (by decide +kernel) 1 (by decide +kernel)

open Watching in
/-- The notice of the new item overtakes that of the clearing, and the watcher ends with nothing. -/
theorem watcher_loses_item_to_late_clear :
    ¬ ∀ steps s, Path WatchedStore.step (fun _ _ => True) {} steps s → s.underway = [] →
      ∀ w ∈ s.watchers, s.views w = storedIDs s.store.items := by
  intro know
  have path : Path WatchedStore.step (fun _ _ => True) {} (started ++ [.deliver 2, .deliver 1])
      (lastOf WatchedStore.step {} (started ++ [.deliver 2, .deliver 1])) :=
    path_to_lastOf (fun _ _ _ => trivial) (by decide +kernel)
  have same := know _ _ path (by decide +kernel) 1 (by decide +kernel)
  exact absurd same (by decide +kernel)

end Delivery

end ClippProof.Clipboard
