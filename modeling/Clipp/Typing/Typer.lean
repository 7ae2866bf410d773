import Clipp.Typing.Schedule

open Foundation

namespace ClippModel.Typing

open Foundation.Keyboard

structure TypingSession where
  schedule : TypeSchedule := {}
  next : Nat := 0
  pressed : List TypeKeyCode := []
  active : Bool := false
  deriving DecidableEq

/-- `VK_LWIN`, `VK_RWIN`, then Alt, Shift and Ctrl, each with its left and right key. -/
def scrubbedModifiers : List TypeKeyCode :=
  [0x5B, 0x5C, 0x12, 0xA4, 0xA5, 0x10, 0xA0, 0xA1, 0x11, 0xA2, 0xA3]

def ReleaseHeldModifiers (asyncKeyState : TypeKeyCode → Bool) : List TypeKeyEvent :=
  releases (scrubbedModifiers.filter asyncKeyState)

namespace TypingSession

abbrev Played := TypingSession × List TypeKeyEvent

def Start (session : TypingSession) (host : Bool) (asyncKeyState : TypeKeyCode → Bool) (schedule : TypeSchedule) :
    Bool × Played :=
  if session.active ∨ schedule.events = [] ∨ host = false then (false, session, [])
  else
    (true, { schedule := schedule, next := 0, pressed := [], active := true }, ReleaseHeldModifiers asyncKeyState)

def Stop (session : TypingSession) : Played := ({}, releases session.pressed.reverse)

def Cancel (session : TypingSession) : Played := if session.active then session.Stop else (session, [])

/-- A tick of the pacing timer, or nothing where the code would read behind the schedule. -/
def Tick (session : TypingSession) : Option Played :=
  if session.active then
    match session.schedule.events[session.next]? with
    | none => none
    | some event =>
      let advanced := { session with next := session.next + 1, pressed := stackStep session.pressed event }
      if advanced.next ≥ session.schedule.events.length then some (advanced.Stop.1, event :: advanced.Stop.2)
      else some (advanced, [event])
  else some (session, [])

end TypingSession

def ticks : Nat → TypingSession.Played → Option TypingSession.Played
  | 0, played => some played
  | n + 1, played => (ticks n played).bind fun (session, sent) =>
    session.Tick.map fun (session, more) => (session, sent ++ more)

def typedFor (plan : TypePlan) (n : Nat) : Option TypingSession.Played :=
  ticks n (({} : TypingSession).Start true (fun _ => false) (BuildTypeSchedule plan)).2

/-- The releases that follow what was sent are of the held keys, each once. -/
structure LetsGo (sent stopped : List TypeKeyEvent) : Prop where
  free : queue ∅ (sent ++ stopped) = ∅
  releases : ∀ event ∈ stopped, event.down = false
  once : (stopped.map KeyEvent.key).Nodup
  held : ∀ key, key ∈ stopped.map KeyEvent.key ↔ key ∈ queue ∅ sent

end ClippModel.Typing

namespace ClippProof.Typing

open Foundation.Keyboard ClippModel.Typing ClippModel.Typing.TypingSession

variable {held : List TypeKeyCode} {chords : List KeyChord} {chord : KeyChord}

theorem stack_changes (fresh : held.Nodup) (chord : KeyChord) : stack held (changes held chord) = heldFor held chord := by
  rw [changes, stack_append, stack_releases fresh, stack_presses, heldFor]
  congr 1
  apply List.filter_congr
  intro key member
  simp [dropped, member]

/-- The bookkeeping ends where the schedule ends: with nothing in flight. -/
theorem stack_playedFrom (fresh : held.Nodup) (chords : List KeyChord) : stack held (playedFrom held chords) = [] := by
  induction chords generalizing held with
  | nil =>
    rw [playedFrom, stack_releases fresh, List.filter_eq_nil_iff]
    intro key member
    simp [member]
  | cons chord chords ih =>
    rw [playedFrom, stack_append, stack_changes fresh, stack_append, stack_tap]
    exact ih (heldFor_nodup fresh chord)

theorem playedFrom_reaches (fresh : held.Nodup) (front back : List KeyChord) (chord : KeyChord) :
    ∃ before after down, playedFrom held (front ++ chord :: back) = before ++ ⟨chord.key, true⟩ :: after ∧
      stack held before = heldFor down chord ∧ after ≠ [] := by
  induction front generalizing held with
  | nil => exact ⟨changes held chord, _, held, rfl, stack_changes fresh chord, List.cons_ne_nil _ _⟩
  | cons first front ih =>
    obtain ⟨before, after, down, split, stacked, more⟩ := ih (heldFor_nodup fresh first)
    refine ⟨changes held first ++ (tap first.key ++ before), after, down, ?_, ?_, more⟩
    · rw [List.cons_append, playedFrom, split]
      simp only [List.append_assoc]
    · rw [stack_append, stack_changes fresh, stack_append, stack_tap, stacked]

theorem ticks_eq (schedule : TypeSchedule) (n : Nat) (within : n < schedule.events.length) :
    ticks n ({ schedule := schedule, active := true }, []) =
      some ({ schedule := schedule, next := n, pressed := stack [] (schedule.events.take n), active := true },
        schedule.events.take n) := by
  induction n with
  | zero => rfl
  | succ n ih =>
    have here : n < schedule.events.length := Nat.lt_of_succ_lt within
    have taken : schedule.events.take (n + 1) = schedule.events.take n ++ [schedule.events[n]] := by
      rw [List.take_add_one, List.getElem?_eq_getElem here]
      rfl
    rw [ticks, ih here, taken, stack_append]
    simp only [Option.bind_some, Tick, if_true, List.getElem?_eq_getElem here]
    rw [if_neg (by omega)]
    rfl

theorem ticks_done (schedule : TypeSchedule) (some_event : schedule.events ≠ []) (n : Nat)
    (done : schedule.events.length ≤ n) :
    ticks n ({ schedule := schedule, active := true }, []) =
      some ({}, schedule.events ++ releases (stack [] schedule.events).reverse) := by
  induction n, done using Nat.le_induction with
  | base =>
    have positive := List.length_pos_iff.mpr some_event
    obtain ⟨last, count⟩ : ∃ last, schedule.events.length = last + 1 := ⟨schedule.events.length - 1, by omega⟩
    have here : last < schedule.events.length := by omega
    have taken : schedule.events = schedule.events.take last ++ [schedule.events[last]] := by
      have all := List.take_add_one (l := schedule.events) (i := last)
      rw [← count, List.take_length, List.getElem?_eq_getElem here] at all
      exact all
    rw [count, ticks, ticks_eq schedule last here]
    simp only [Option.bind_some, Tick, if_true, List.getElem?_eq_getElem here]
    rw [if_pos (by omega)]
    have stacked : stack [] schedule.events = stackStep (stack [] (schedule.events.take last)) schedule.events[last] := by
      conv_lhs => rw [taken, stack_append]
      rfl
    rw [stacked]
    simp only [Stop, Option.map_some, Option.some.injEq, Prod.mk.injEq, true_and]
    rw [List.append_cons, ← taken]
  | succ n _ ih =>
    rw [ticks, ih]
    simp [Tick]

/-- Where a started plan stands after `n` ticks: on its way, or done with nothing in flight. -/
theorem typedFor_eq (plan : TypePlan) (n : Nat) : ∃ session, typedFor plan n =
    some (session, (BuildTypeSchedule plan).events.take n) ∧
      session.Cancel.2 = releases (stack [] ((BuildTypeSchedule plan).events.take n)).reverse := by
  have empty : stack [] (BuildTypeSchedule plan).events = [] := by
    rw [schedule_events]
    exact stack_playedFrom List.nodup_nil plan.chords
  by_cases idle : (BuildTypeSchedule plan).events = []
  · refine ⟨{}, ?_, ?_⟩
    · have start : ∀ n, ticks n ({}, []) = some ({}, []) := by
        intro n
        induction n with
        | zero => rfl
        | succ n ih =>
          rw [ticks, ih]
          rfl
      rw [typedFor, Start, if_pos (.inr (.inl idle)), idle, List.take_nil]
      exact start n
    · rw [idle, List.take_nil]
      rfl
  · have started : (({} : TypingSession).Start true (fun _ => false) (BuildTypeSchedule plan)).2 =
        ({ schedule := BuildTypeSchedule plan, active := true }, []) := by
      rw [Start, if_neg (by simp [idle])]
      rfl
    by_cases within : n < (BuildTypeSchedule plan).events.length
    · have reached := ticks_eq (BuildTypeSchedule plan) n within
      rw [← started] at reached
      exact ⟨_, reached, rfl⟩
    · have all := List.take_of_length_le (not_lt.mp within)
      refine ⟨{}, ?_, ?_⟩
      · rw [typedFor, started, ticks_done _ idle n (not_lt.mp within), empty, all]
        simp [releases]
      · rw [all, empty]
        rfl

theorem stack_frees (events : List TypeKeyEvent) : queue ∅ (events ++ releases (stack [] events).reverse) = ∅ := by
  have listed : ∀ key ∈ queue ∅ events, key ∈ stack [] events := queue_subset_stack (by simp) events
  rw [queue_append, queue_releases, Finset.sdiff_eq_empty_iff_subset]
  intro key down
  simpa using listed key down

theorem letsGo_of_careful {events : List TypeKeyEvent} {next : Finset TypeKeyCode}
    (played : careful ∅ events = some next) : LetsGo events (releases (stack [] events).reverse) := by
  obtain ⟨once, lists⟩ := stack_of_careful List.nodup_nil List.toFinset_nil played
  constructor
  · exact stack_frees events
  · intro event member
    obtain ⟨key, _, rfl⟩ := List.mem_map.mp member
    rfl
  · rw [releases_keys]
    exact List.nodup_reverse.mpr once
  · intro key
    rw [releases_keys, List.mem_reverse, queue_of_careful played, ← lists, List.mem_toFinset]

/-- A cancelled run leaves no key down. Its stop path releases just the held keys at every cut if and only if the
plan uses no key as its own modifier. -/
theorem cancel_lets_go (plan : TypePlan) :
    (∀ n, ∃ session sent, typedFor plan n = some (session, sent) ∧ queue ∅ (sent ++ session.Cancel.2) = ∅) ∧
      ((∀ n session sent, typedFor plan n = some (session, sent) → LetsGo sent session.Cancel.2) ↔
        ∀ chord ∈ plan.chords, chord.key ∉ chord.modifiers) := by
  constructor
  · intro n
    obtain ⟨session, reached, stopped⟩ := typedFor_eq plan n
    refine ⟨session, _, reached, ?_⟩
    rw [stopped]
    exact stack_frees _
  · constructor
    · intro every chord member itself
      obtain ⟨front, back, split⟩ := List.append_of_mem member
      obtain ⟨before, after, down, played, stacked, more⟩ := playedFrom_reaches List.nodup_nil front back chord
      rw [← split, ← schedule_events] at played
      -- the cut behind the press of the key that is down already
      obtain ⟨session, reached, stopped⟩ := typedFor_eq plan (before.length + 1)
      have cut : (BuildTypeSchedule plan).events.take (before.length + 1) = before ++ [⟨chord.key, true⟩] := by
        rw [played, List.append_cons, List.take_left' (by simp)]
      have once := (every _ _ _ reached).once
      rw [stopped, cut, releases_keys, List.nodup_reverse, stack_append, stacked] at once
      have apart := List.disjoint_of_nodup_append once
      exact apart (mem_heldFor.mpr itself) (List.mem_singleton_self chord.key)
    · intro apart n session sent reached
      obtain ⟨same, here, stopped⟩ := typedFor_eq plan n
      rw [here, Option.some.injEq, Prod.mk.injEq] at reached
      obtain ⟨rfl, rfl⟩ := reached
      have whole : careful ∅ (BuildTypeSchedule plan).events = some ∅ := by
        rw [schedule_events]
        exact careful_playedFrom List.nodup_nil apart
      obtain ⟨next, played⟩ := careful_take whole n
      rw [stopped]
      exact letsGo_of_careful played

theorem cancel_releases_twice : ¬ ∀ (plan : TypePlan) n session sent, typedFor plan n = some (session, sent) →
    LetsGo sent session.Cancel.2 := by
  intro every
  have once := (every { chords := [⟨[0xA0], 0xA0⟩], characterCount := 1 } 2 _ _ rfl).once
  revert once
  decide

end ClippProof.Typing
