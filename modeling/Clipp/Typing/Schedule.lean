import Clipp.Foundation.Keyboard
import Mathlib.Tactic.Common

open Foundation

namespace ClippModel.Typing

open Foundation.Keyboard

abbrev TypeKeyCode := UInt16

abbrev TypeKeyEvent := KeyEvent TypeKeyCode

structure KeyChord where
  modifiers : List TypeKeyCode := []
  key : TypeKeyCode := 0
  deriving DecidableEq

structure TypePlan where
  chords : List KeyChord := []
  characterCount : Int := 0
  enterCount : Int := 0
  deriving DecidableEq

structure TypeSchedule where
  events : List TypeKeyEvent := []
  characterCount : Int := 0
  enterCount : Int := 0
  deriving DecidableEq

structure Playing where
  held : List TypeKeyCode := []
  events : List TypeKeyEvent := []
  deriving DecidableEq

/-- The loop from the newest held modifier down, with so many entries still to look at. -/
def releaseUnwanted (modifiers : List TypeKeyCode) : Nat → Playing → Playing
  | 0, playing => playing
  | i + 1, playing =>
    match playing.held[i]? with
    | none => releaseUnwanted modifiers i playing
    | some key =>
      if key ∈ modifiers then releaseUnwanted modifiers i playing
      else
        releaseUnwanted modifiers i
          { held := playing.held.eraseIdx i, events := playing.events ++ [⟨key, false⟩] }

def pressMissing (playing : Playing) (modifier : TypeKeyCode) : Playing :=
  if modifier ∈ playing.held then playing
  else { held := playing.held ++ [modifier], events := playing.events ++ [⟨modifier, true⟩] }

def playChord (playing : Playing) (chord : KeyChord) : Playing :=
  let released := releaseUnwanted chord.modifiers playing.held.length playing
  let pressed := chord.modifiers.foldl pressMissing released
  { pressed with events := pressed.events ++ [⟨chord.key, true⟩, ⟨chord.key, false⟩] }

def BuildTypeSchedule (plan : TypePlan) : TypeSchedule :=
  let played := plan.chords.foldl playChord {}
  { events := played.events ++ releases played.held.reverse
    characterCount := plan.characterCount
    enterCount := plan.enterCount }

end ClippModel.Typing

namespace ClippProof.Typing

open Foundation.Keyboard ClippModel.Typing

variable {held modifiers : List TypeKeyCode} {events : List TypeKeyEvent} {chord : KeyChord}

def missing : List TypeKeyCode → List TypeKeyCode → List TypeKeyCode
  | _, [] => []
  | held, modifier :: modifiers =>
    if modifier ∈ held then missing held modifiers else modifier :: missing (held ++ [modifier]) modifiers

def dropped (held : List TypeKeyCode) (chord : KeyChord) : List TypeKeyCode :=
  held.filter fun key => key ∉ chord.modifiers

def kept (held : List TypeKeyCode) (chord : KeyChord) : List TypeKeyCode :=
  held.filter fun key => key ∈ chord.modifiers

def added (held : List TypeKeyCode) (chord : KeyChord) : List TypeKeyCode := missing (kept held chord) chord.modifiers

def heldFor (held : List TypeKeyCode) (chord : KeyChord) : List TypeKeyCode := kept held chord ++ added held chord

def changes (held : List TypeKeyCode) (chord : KeyChord) : List TypeKeyEvent :=
  releases (dropped held chord).reverse ++ presses (added held chord)

def playedFrom (held : List TypeKeyCode) : List KeyChord → List TypeKeyEvent
  | [] => releases held.reverse
  | chord :: chords => changes held chord ++ (tap chord.key ++ playedFrom (heldFor held chord) chords)

theorem releaseUnwanted_eq (modifiers front back : List TypeKeyCode) (events : List TypeKeyEvent) :
    releaseUnwanted modifiers front.length ⟨front ++ back, events⟩ =
      ⟨(front.filter fun key => key ∈ modifiers) ++ back,
        events ++ releases (front.filter fun key => key ∉ modifiers).reverse⟩ := by
  induction front using List.reverseRecOn generalizing back events with
  | nil => simp [releaseUnwanted, releases]
  | append_singleton front key ih =>
    rw [List.length_append, List.length_singleton, releaseUnwanted]
    have newest : (front ++ [key] ++ back)[front.length]? = some key := by simp
    rw [newest]
    by_cases wanted : key ∈ modifiers
    · simp only [if_pos wanted, List.append_assoc]
      rw [ih]
      simp [wanted]
    · simp only [if_neg wanted]
      have erased : (front ++ [key] ++ back).eraseIdx front.length = front ++ back := by
        simp [List.eraseIdx_append_of_length_le]
      rw [erased, ih]
      simp [wanted, releases]

theorem pressMissing_eq (held modifiers : List TypeKeyCode) (events : List TypeKeyEvent) :
    modifiers.foldl pressMissing ⟨held, events⟩ =
      ⟨held ++ missing held modifiers, events ++ presses (missing held modifiers)⟩ := by
  induction modifiers generalizing held events with
  | nil => simp [missing, presses]
  | cons modifier modifiers ih =>
    rw [List.foldl_cons, pressMissing, missing]
    by_cases down : modifier ∈ held
    · simp only [if_pos down]
      exact ih held events
    · simp only [if_neg down]
      rw [ih]
      simp [presses]

theorem playChord_eq (held : List TypeKeyCode) (events : List TypeKeyEvent) (chord : KeyChord) :
    playChord ⟨held, events⟩ chord = ⟨heldFor held chord, events ++ (changes held chord ++ tap chord.key)⟩ := by
  have released := releaseUnwanted_eq chord.modifiers held [] events
  simp only [List.append_nil] at released
  simp only [playChord, released, pressMissing_eq]
  simp [heldFor, kept, added, changes, dropped, tap]

theorem playedFrom_eq (held : List TypeKeyCode) (events : List TypeKeyEvent) (chords : List KeyChord) :
    (chords.foldl playChord ⟨held, events⟩).events ++ releases (chords.foldl playChord ⟨held, events⟩).held.reverse =
      events ++ playedFrom held chords := by
  induction chords generalizing held events with
  | nil => rfl
  | cons chord chords ih =>
    rw [List.foldl_cons, playChord_eq, ih, playedFrom]
    simp

theorem schedule_events (plan : TypePlan) : (BuildTypeSchedule plan).events = playedFrom [] plan.chords :=
  playedFrom_eq [] [] plan.chords

theorem mem_missing {key : TypeKeyCode} : key ∈ missing held modifiers ↔ key ∈ modifiers ∧ key ∉ held := by
  induction modifiers generalizing held with
  | nil => simp [missing]
  | cons modifier modifiers ih =>
    rw [missing]
    by_cases down : modifier ∈ held
    · rw [if_pos down, ih, List.mem_cons]
      constructor
      · rintro ⟨wanted, up⟩
        exact ⟨.inr wanted, up⟩
      · rintro ⟨rfl | wanted, up⟩
        · exact absurd down up
        · exact ⟨wanted, up⟩
    · rw [if_neg down, List.mem_cons, ih, List.mem_cons, List.mem_append, List.mem_singleton]
      by_cases same : key = modifier
      · simp [same, down]
      · simp [same]

theorem missing_nodup (held modifiers : List TypeKeyCode) : (missing held modifiers).Nodup := by
  induction modifiers generalizing held with
  | nil => exact List.nodup_nil
  | cons modifier modifiers ih =>
    rw [missing]
    split
    · exact ih held
    · apply List.nodup_cons.mpr
      constructor
      · intro again
        exact (mem_missing.mp again).2 (List.mem_append_right held (List.mem_singleton_self modifier))
      · exact ih _

theorem mem_added {key : TypeKeyCode} : key ∈ added held chord ↔ key ∈ chord.modifiers ∧ key ∉ held := by
  rw [added, mem_missing, kept, List.mem_filter, decide_eq_true_eq]
  constructor
  · rintro ⟨wanted, up⟩
    exact ⟨wanted, fun down => up ⟨down, wanted⟩⟩
  · rintro ⟨wanted, up⟩
    exact ⟨wanted, fun down => up down.1⟩

theorem added_nodup (held : List TypeKeyCode) (chord : KeyChord) : (added held chord).Nodup := missing_nodup _ _

theorem mem_heldFor {key : TypeKeyCode} : key ∈ heldFor held chord ↔ key ∈ chord.modifiers := by
  rw [heldFor, List.mem_append, mem_added, kept, List.mem_filter, decide_eq_true_eq]
  by_cases down : key ∈ held <;> simp [down]

theorem heldFor_toFinset (held : List TypeKeyCode) (chord : KeyChord) :
    (heldFor held chord).toFinset = chord.modifiers.toFinset := by
  ext key
  rw [List.mem_toFinset, List.mem_toFinset, mem_heldFor]

theorem heldFor_nodup (fresh : held.Nodup) (chord : KeyChord) : (heldFor held chord).Nodup := by
  apply (fresh.filter _).append (added_nodup held chord)
  intro key was new
  exact (mem_added.mp new).2 (List.mem_of_mem_filter was)

theorem mem_changes {event : TypeKeyEvent} : event ∈ changes held chord ↔
    if event.down then event.key ∈ chord.modifiers ∧ event.key ∉ held
    else event.key ∈ held ∧ event.key ∉ chord.modifiers := by
  obtain ⟨key, down⟩ := event
  rw [changes, List.mem_append]
  cases down with
  | true => simp [releases, presses, mem_added]
  | false => simp [releases, presses, dropped]

theorem careful_changes (fresh : held.Nodup) (chord : KeyChord) :
    careful held.toFinset (changes held chord) = some chord.modifiers.toFinset := by
  have shorter : (dropped held chord).reverse.Nodup := List.nodup_reverse.mpr (fresh.filter _)
  have released : careful held.toFinset (releases (dropped held chord).reverse) =
      some (held.toFinset \ (dropped held chord).reverse.toFinset) := by
    apply careful_releases shorter
    intro key member
    exact List.mem_toFinset.mpr (List.mem_of_mem_filter (List.mem_reverse.mp member))
  rw [changes, careful_append, released, Option.bind_some, careful_presses (added_nodup held chord)]
  · congr 1
    ext key
    simp only [Finset.mem_union, Finset.mem_sdiff, List.mem_toFinset, List.mem_reverse]
    rw [mem_added, dropped, List.mem_filter, decide_eq_true_eq]
    tauto
  · intro key member
    rw [Finset.mem_sdiff, not_and]
    intro down
    exact absurd (List.mem_toFinset.mp down) (mem_added.mp member).2

theorem careful_playedFrom {chords : List KeyChord} (fresh : held.Nodup)
    (apart : ∀ chord ∈ chords, chord.key ∉ chord.modifiers) :
    careful held.toFinset (playedFrom held chords) = some ∅ := by
  induction chords generalizing held with
  | nil =>
    rw [playedFrom, careful_releases (List.nodup_reverse.mpr fresh)]
    · simp
    · intro key member
      exact List.mem_toFinset.mpr (List.mem_reverse.mp member)
  | cons chord chords ih =>
    have here := apart chord List.mem_cons_self
    rw [playedFrom, careful_append, careful_changes fresh, Option.bind_some, careful_append,
      careful_tap (by rwa [List.mem_toFinset]), Option.bind_some, ← heldFor_toFinset held]
    exact ih (heldFor_nodup fresh chord) (fun other member => apart other (List.mem_cons_of_mem chord member))

end ClippProof.Typing

namespace ClippModel.Typing

open Foundation.Keyboard

namespace TypePlan

def keys (plan : TypePlan) : List TypeKeyCode := plan.chords.map KeyChord.key

/-- No chord's key is a modifier of a chord. -/
def KeysApart (plan : TypePlan) : Prop :=
  ∀ chord ∈ plan.chords, ∀ other ∈ plan.chords, chord.key ∉ other.modifiers

end TypePlan

def typed (keys : List TypeKeyCode) (events : List TypeKeyEvent) : Nat :=
  events.countP fun event => event.down && event.key ∈ keys

/-- What it means that the events type a plan on a keyboard with no key down. -/
structure Types (plan : TypePlan) (events : List TypeKeyEvent) : Prop where
  /-- No key is pressed while held or released while not, and at the end every key is up. -/
  careful : careful ∅ events = some ∅
  /-- Each chord's key goes down and up once, in the plan's order. -/
  taps : events.filter (fun event => event.key ∈ plan.keys) = plan.chords.flatMap fun chord => tap chord.key
  /-- When a chord's key goes down, what is held is what the chord wants held. -/
  heldAt : ∀ before key after, events = before ++ ⟨key, true⟩ :: after → key ∈ plan.keys →
    ∃ chord, plan.chords[typed plan.keys before]? = some chord ∧ chord.key = key ∧
      Keyboard.careful ∅ before = some chord.modifiers.toFinset
  /-- Between two chords that both want a modifier it stays down. -/
  stays : ∀ before key after, events = before ++ ⟨key, false⟩ :: after →
    ∀ n chord following, typed plan.keys before = n + 1 → plan.chords[n]? = some chord →
      plan.chords[n + 1]? = some following → key ∈ chord.modifiers → key ∉ following.modifiers

end ClippModel.Typing

namespace ClippProof.Typing

open Foundation.Keyboard ClippModel.Typing

variable {held keys : List TypeKeyCode} {events before after : List TypeKeyEvent} {chord : KeyChord}
  {chords : List KeyChord} {key : TypeKeyCode}

/-- These are the keys of the chords, and not among their modifiers or what is held. -/
structure Apart (keys held : List TypeKeyCode) (chords : List KeyChord) : Prop where
  fresh : held.Nodup
  heldApart : ∀ key ∈ held, key ∉ keys
  listed : ∀ chord ∈ chords, chord.key ∈ keys
  modifiersApart : ∀ chord ∈ chords, ∀ key ∈ chord.modifiers, key ∉ keys

theorem Apart.rest (apart : Apart keys held (chord :: chords)) : Apart keys (heldFor held chord) chords where
  fresh := heldFor_nodup apart.fresh chord
  heldApart := by
    intro key member
    exact apart.modifiersApart chord List.mem_cons_self key (mem_heldFor.mp member)
  listed := fun other member => apart.listed other (List.mem_cons_of_mem chord member)
  modifiersApart := fun other member => apart.modifiersApart other (List.mem_cons_of_mem chord member)

theorem Apart.own (apart : Apart keys held chords) : ∀ chord ∈ chords, chord.key ∉ chord.modifiers := by
  intro chord member itself
  exact apart.modifiersApart chord member chord.key itself (apart.listed chord member)

theorem Apart.changes (apart : Apart keys held (chord :: chords)) :
    ∀ event ∈ changes held chord, event.key ∉ keys := by
  intro event member
  rw [mem_changes] at member
  split at member
  · exact apart.modifiersApart chord List.mem_cons_self event.key member.1
  · exact apart.heldApart event.key member.1

theorem apart_of_plan {plan : TypePlan} (apart : plan.KeysApart) : Apart plan.keys [] plan.chords where
  fresh := List.nodup_nil
  heldApart := by simp
  listed := fun chord member => List.mem_map_of_mem member
  modifiersApart := by
    intro chord member key wanted listed
    obtain ⟨other, among, rfl⟩ := List.mem_map.mp listed
    exact apart other among chord member wanted

theorem typed_append (keys : List TypeKeyCode) (before after : List TypeKeyEvent) :
    typed keys (before ++ after) = typed keys before + typed keys after := List.countP_append

theorem typed_changes (apart : Apart keys held (chord :: chords)) : typed keys (changes held chord) = 0 := by
  apply List.countP_eq_zero.mpr
  intro event member
  simp [apart.changes event member]

theorem typed_tap (member : key ∈ keys) : typed keys (tap key) = 1 := by
  simp [typed, tap, member]

theorem taps_playedFrom (apart : Apart keys held chords) :
    (playedFrom held chords).filter (fun event => event.key ∈ keys) = chords.flatMap fun chord => tap chord.key := by
  induction chords generalizing held with
  | nil =>
    apply List.filter_eq_nil_iff.mpr
    intro event member
    obtain ⟨key, down, rfl⟩ := List.mem_map.mp member
    simp [apart.heldApart key (List.mem_reverse.mp down)]
  | cons chord chords ih =>
    have none : (changes held chord).filter (fun event => event.key ∈ keys) = [] := by
      apply List.filter_eq_nil_iff.mpr
      intro event member
      simp [apart.changes event member]
    have both : (tap chord.key).filter (fun event => event.key ∈ keys) = tap chord.key := by
      simp [tap, apart.listed chord List.mem_cons_self]
    rw [playedFrom, List.filter_append, List.filter_append, none, both, ih apart.rest]
    rfl

theorem split_playedFrom {event : TypeKeyEvent}
    (split : playedFrom held (chord :: chords) = before ++ event :: after) :
    (event ∈ changes held chord ∧ ∀ other ∈ before, other ∈ changes held chord) ∨
      (event = ⟨chord.key, true⟩ ∧ before = changes held chord) ∨
      (event = ⟨chord.key, false⟩ ∧ before = changes held chord ++ [⟨chord.key, true⟩]) ∨
      ∃ further, before = changes held chord ++ (tap chord.key ++ further) ∧
        playedFrom (heldFor held chord) chords = further ++ event :: after := by
  rcases List.append_eq_append_iff.mp split with ⟨between, rfl, rest⟩ | ⟨between, changed, rest⟩
  · rcases between with _ | ⟨first, _ | ⟨second, further⟩⟩
    · cases rest
      exact .inr (.inl ⟨rfl, List.append_nil _⟩)
    · cases rest
      exact .inr (.inr (.inl ⟨rfl, rfl⟩))
    · simp only [tap, List.cons_append, List.nil_append, List.cons.injEq] at rest
      obtain ⟨rfl, rfl, rest⟩ := rest
      exact .inr (.inr (.inr ⟨further, rfl, rest⟩))
  · cases between with
    | nil =>
      cases rest
      rw [List.append_nil] at changed
      exact .inr (.inl ⟨rfl, changed.symm⟩)
    | cons first between =>
      cases rest
      rw [changed]
      exact .inl ⟨by simp, fun other member => List.mem_append_left _ member⟩

theorem heldAt_playedFrom (apart : Apart keys held chords) (split : playedFrom held chords = before ++ ⟨key, true⟩ :: after)
    (listed : key ∈ keys) : ∃ chord, chords[typed keys before]? = some chord ∧ chord.key = key ∧
      careful held.toFinset before = some chord.modifiers.toFinset := by
  induction chords generalizing held before with
  | nil =>
    have last : (⟨key, true⟩ : TypeKeyEvent) ∈ releases held.reverse := by
      rw [show releases held.reverse = before ++ ⟨key, true⟩ :: after from split]
      simp
    obtain ⟨_, _, wrong⟩ := List.mem_map.mp last
    cases wrong
  | cons chord chords ih =>
    have own : chord.key ∉ chord.modifiers := apart.own chord List.mem_cons_self
    have changed := careful_changes apart.fresh chord
    rcases split_playedFrom split with ⟨change, _⟩ | ⟨pressed, rfl⟩ | ⟨released, _⟩ | ⟨further, rfl, rest⟩
    · exact absurd listed (apart.changes _ change)
    · cases pressed
      refine ⟨chord, ?_, rfl, changed⟩
      rw [typed_changes apart]
      rfl
    · cases released
    · obtain ⟨later, found, same, state⟩ := ih apart.rest rest
      refine ⟨later, ?_, same, ?_⟩
      · rw [typed_append, typed_append, typed_changes apart, typed_tap (apart.listed chord List.mem_cons_self),
          Nat.zero_add, Nat.add_comm, List.getElem?_cons_succ]
        exact found
      · rw [careful_append, changed, Option.bind_some, careful_append, careful_tap (by rwa [List.mem_toFinset]),
          Option.bind_some, ← heldFor_toFinset held]
        exact state

/-- A release between two chords is of a key that they do not both want: `previous` is the chord before these. -/
theorem stays_playedFrom {previous one following : KeyChord} (apart : Apart keys held chords)
    (holds : ∀ key, key ∈ held ↔ key ∈ previous.modifiers)
    (split : playedFrom held chords = before ++ ⟨key, false⟩ :: after)
    (first : (previous :: chords)[typed keys before]? = some one) (second : chords[typed keys before]? = some following)
    (wanted : key ∈ one.modifiers) : key ∉ following.modifiers := by
  induction chords generalizing held before previous with
  | nil => cases second
  | cons chord chords ih =>
    have one_tap := typed_tap (apart.listed chord List.mem_cons_self)
    rcases split_playedFrom split with ⟨change, earlier⟩ | ⟨pressed, _⟩ | ⟨released, rfl⟩ | ⟨further, rfl, rest⟩
    · have none : typed keys before = 0 := by
        apply List.countP_eq_zero.mpr
        intro event member
        simp [apart.changes event (earlier event member)]
      rw [none] at second
      cases second
      exact (mem_changes.mp change).2
    · cases pressed
    · cases released
      have one_press : typed keys [⟨chord.key, true⟩] = 1 := by
        simp [typed, apart.listed chord List.mem_cons_self]
      rw [typed_append, typed_changes apart, one_press] at first
      have same : chord = one := Option.some.inj first
      subst same
      exact absurd wanted (apart.own chord List.mem_cons_self)
    · rw [typed_append, typed_append, typed_changes apart, one_tap, Nat.zero_add, Nat.add_comm] at first second
      exact ih apart.rest (fun _ => mem_heldFor) rest first second

/-- The schedule types the plan. -/
theorem schedule_types (plan : TypePlan) (apart : plan.KeysApart) : Types plan (BuildTypeSchedule plan).events where
  careful := by
    rw [schedule_events]
    exact careful_playedFrom List.nodup_nil (apart_of_plan apart).own
  taps := by
    rw [schedule_events]
    exact taps_playedFrom (apart_of_plan apart)
  heldAt := by
    intro before key after split listed
    rw [schedule_events] at split
    exact heldAt_playedFrom (apart_of_plan apart) split listed
  stays := by
    intro before key after split n chord following count first second wanted
    rw [schedule_events] at split
    have none : ∀ key, key ∈ ([] : List TypeKeyCode) ↔ key ∈ ({} : KeyChord).modifiers := fun _ => Iff.rfl
    apply stays_playedFrom (apart_of_plan apart) none split _ _ wanted
    · rw [count, List.getElem?_cons_succ]
      exact first
    · rw [count]
      exact second

theorem schedule_types_capitals : Types { chords := [⟨[0xA0], 0x41⟩, ⟨[0xA0], 0x42⟩, ⟨[], 0x43⟩] }
    (BuildTypeSchedule { chords := [⟨[0xA0], 0x41⟩, ⟨[0xA0], 0x42⟩, ⟨[], 0x43⟩] }).events := by
  apply schedule_types
  unfold TypePlan.KeysApart
  decide

end ClippProof.Typing
