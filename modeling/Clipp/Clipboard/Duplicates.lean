import Clipp.Clipboard.Receive
import Clipp.Clipboard.Wire

open Foundation

namespace ClippProof.Clipboard

open ClippModel.Persistence ClippModel.Registers ClippModel.Clipboard ClippModel.Clipboard.ClipboardPayload
open ClippModel.Clipboard.ClipboardActivityStore

variable {β : Type} {C : Codec} {render : ClipboardPayload → Option β} {s t u : Receiver β} {a : Arrival}
  {arrivals : List Arrival} {clipboard : Option β} {g : ClipboardHashGuard} {access : ClipboardAccess}
  {p : ClipboardPayload}

/-- A delivery of the same event: nothing is asked of its flags, so that a replay of it counts as well. -/
structure SameEvent (p q : ClipboardPayload) : Prop where
  eventGuid : q.meta_.eventGuid = p.meta_.eventGuid
  timestamp : q.meta_.timestamp = p.meta_.timestamp
  format : q.meta_.formatId = p.meta_.formatId
  compressed : q.meta_.isCompressed = p.meta_.isCompressed
  hash : q.meta_.hashAlg = p.meta_.hashAlg ∧ q.meta_.hashBytes = p.meta_.hashBytes
  content : q.encoded = p.encoded

/-- The devices agree on everything but their registers, which no delivery looks at. -/
structure Alike (s t : Receiver β) : Prop where
  activity : s.activity = t.activity
  guard : s.guard = t.guard
  clipboard : s.clipboard = t.clipboard

theorem Alike.refl (s : Receiver β) : Alike s s := ⟨rfl, rfl, rfl⟩

theorem Alike.trans (left : Alike s t) (right : Alike t u) : Alike s u :=
  ⟨left.activity.trans right.activity, left.guard.trans right.guard, left.clipboard.trans right.clipboard⟩

theorem Alike.step (same : Alike s t) (a : Arrival) :
    Alike (onClipboardReceived C render s a).1 (onClipboardReceived C render t a).1 := by
  obtain ⟨activity, guard, clipboard⟩ := same
  unfold onClipboardReceived
  simp only [activity, guard, clipboard]
  split_ifs
  · exact ⟨activity, guard, clipboard⟩
  · exact ⟨rfl, rfl, rfl⟩
  · exact ⟨rfl, rfl, rfl⟩

theorem Alike.received (same : Alike s t) (arrivals : List Arrival) :
    Alike (received C render s arrivals) (received C render t arrivals) := by
  induction arrivals generalizing s t with
  | nil => exact same
  | cons first rest ih => exact ih (same.step first)

theorem received_append (before after : List Arrival) :
    received C render s (before ++ after) = received C render (received C render s before) after :=
  List.foldl_append

/-- Writing the payload again leaves the clipboard, and the guard, as they are. -/
def Shown (render : ClipboardPayload → Option β) (clipboard : Option β) (g : ClipboardHashGuard)
    (access : ClipboardAccess) (p : ClipboardPayload) : Prop :=
  match access with
  | .unavailable => True
  | .emptied => clipboard = none
  | .taken => clipboard = render p ∧ (render p = none ∨ p.meta_.hashAlg = 0 ∧ g.currentValid = false)

/-- What the delivery brings is here already: its content is the current one, or its event is in the
    store and the clipboard is not to be written, or shows it. -/
def Settled (render : ClipboardPayload → Option β) (s : Receiver β) (a : Arrival) : Prop :=
  isLive a.payload = true ∧ s.guard.isCurrent (handedOver a.payload) = true ∨
    Recorded s.activity (handedOver a.payload) ∧
      (isLive a.payload = true → Shown render s.clipboard s.guard a.access (handedOver a.payload))

theorem rememberCurrent_eq_self (other : g.isCurrent p = false) :
    g.rememberCurrent p = g ↔ p.meta_.hashAlg = 0 ∧ g.currentValid = false := by
  unfold ClipboardHashGuard.rememberCurrent
  split_ifs with unhashed
  · constructor
    · intro same
      exact ⟨unhashed, by rw [← same]⟩
    · rintro ⟨-, invalid⟩
      cases g
      cases invalid
      rfl
  · constructor
    · intro same
      have current : g.isCurrent p = true := by
        rw [← same]
        simp [ClipboardHashGuard.isCurrent, unhashed]
      rw [current] at other
      cases other
    · intro both
      exact absurd both.1 unhashed

theorem setClipboardData_current (current : g.isCurrent p = true) :
    setClipboardData render clipboard g access p true false = (clipboard, g) := by
  simp [setClipboardData, current]

theorem setClipboardData_eq_self (other : g.isCurrent p = false) :
    setClipboardData render clipboard g access p true false = (clipboard, g) ↔
      Shown render clipboard g access p := by
  cases access with
  | unavailable => simp [setClipboardData, other, Shown]
  | emptied => simp [setClipboardData, other, Shown, @eq_comm _ clipboard]
  | taken =>
    cases form : render p with
    | none => simp [setClipboardData, other, Shown, form, @eq_comm _ clipboard]
    | some content =>
      simp [setClipboardData, other, Shown, form, rememberCurrent_eq_self other, @eq_comm _ clipboard]

/-- A delivery changes nothing that later deliveries look at exactly if what it brings is here. -/
theorem received_alike : Alike (onClipboardReceived C render s a).1 s ↔ Settled render s a := by
  unfold onClipboardReceived Settled
  cases live : isLive a.payload with
  | false =>
    simp only [Bool.false_and, Bool.false_eq_true, if_false, false_and, false_or, false_imp_iff, and_true]
    constructor
    · intro same
      exact addItem_eq_self.mp same.activity
    · intro recorded
      exact ⟨addItem_recorded recorded, rfl, rfl⟩
  | true =>
    cases current : s.guard.isCurrent (handedOver a.payload) with
    | true =>
      by_cases empty : (handedOver a.payload).meta_.formatId = clippFormatNone
      · have written : setClipboardData render s.clipboard s.guard a.access (handedOver a.payload) true false =
            (s.clipboard, s.guard) := setClipboardData_current current
        have recorded : Recorded s.activity (handedOver a.payload) := .inl empty
        simp only [isClipboardDataCurrent, current, empty, ne_eq, not_true_eq_false, decide_false,
          if_true, and_self, true_or, iff_true]
        exact ⟨addItem_recorded recorded, congrArg Prod.snd written, congrArg Prod.fst written⟩
      · simp [isClipboardDataCurrent, current, empty, Alike.refl]
    | false =>
      simp only [isClipboardDataCurrent, current, Bool.and_false, Bool.false_eq_true, if_false, if_true,
        and_false, false_or, true_imp_iff]
      constructor
      · intro same
        refine ⟨addItem_eq_self.mp same.activity, (setClipboardData_eq_self current).mp ?_⟩
        exact Prod.ext same.clipboard same.guard
      · rintro ⟨recorded, shown⟩
        have written := (setClipboardData_eq_self current).mpr shown
        exact ⟨addItem_recorded recorded, congrArg Prod.snd written, congrArg Prod.fst written⟩

/-- A re-delivery that meets the condition where it arrives can be left out, whatever was received before,
    in between and after. -/
def DuplicateHarmless (fits : Receiver β → Arrival → Prop) (C : Codec) (render : ClipboardPayload → Option β)
    (start : Receiver β) : Prop :=
  ∀ before between after first again, SameEvent first.payload again.payload →
    fits (received C render start (before ++ first :: between)) again →
    let with_ := received C render start (before ++ first :: between ++ again :: after)
    let without := received C render start (before ++ first :: between ++ after)
    with_.activity.items = without.activity.items ∧ with_.clipboard = without.clipboard

theorem duplicate_delivery_harmless (C : Codec) (render : ClipboardPayload → Option β) (start : Receiver β) :
    DuplicateHarmless (Settled render) C render start := by
  intro before between after first again _ settled
  have same : Alike (received C render (received C render start (before ++ first :: between)) (again :: after))
      (received C render (received C render start (before ++ first :: between)) after) :=
    (received_alike.mpr settled).received after
  simp only [received_append (before ++ first :: between)]
  exact ⟨congrArg ClipboardActivityStore.items same.activity, same.clipboard⟩

namespace Redelivery

def codec : Codec := { runLength with hash128 := fun _ bytes => SealedSnapshot.repeatedByte 16 (bytes.headD 0) }

def text (b : UInt8) (timestamp : UInt64) : ClipboardPayload :=
  ((setUncompressedBytes codec utf8Item [b, 0]).getD utf8Item).stampOrigin
    { originHostId := HostId.zero, originHostName := zeroBytes 128, eventGuid := SealedSnapshot.repeatedByte 16 b
      originSequenceNumber := 0, timestamp := timestamp }

def arrival (payload : ClipboardPayload) : Arrival where
  payload := payload
  clock := { added := 0, limited := 0 }
  access := .taken
  readings := .all 0

def shared : Arrival := arrival ((text 0x61 1).addFlags clpmFlagRelay)
def copied : Arrival := arrival (text 0x62 2)

def asText (payload : ClipboardPayload) : Option Bytes :=
  if isClippTextFormat payload.meta_.formatId then some payload.encoded else none

def fresh : Receiver Bytes where
  activity := {}
  guard := {}
  clipboard := none
  registers := RegisterStore.create HostId.zero 0 8 8

end Redelivery

open Redelivery in
theorem duplicate_of_current_harmless :
    (received codec asText fresh [shared, shared, copied]).clipboard =
      (received codec asText fresh [shared, copied]).clipboard :=
  (duplicate_delivery_harmless codec asText fresh [] [] [copied] shared shared
    ⟨rfl, rfl, rfl, rfl, ⟨rfl, rfl⟩, rfl⟩ (.inl (by decide +kernel))).2

open Redelivery in
/-- The retry of a share whose answer was lost arrives after a newer copy, and takes the clipboard back. -/
theorem late_duplicate_takes_clipboard : ¬ DuplicateHarmless (fun _ _ => True) codec asText fresh := by
  intro harmless
  have same := (harmless [] [copied] [] shared shared ⟨rfl, rfl, rfl, rfl, ⟨rfl, rfl⟩, rfl⟩ trivial).2
  have older : (received codec asText fresh [shared, copied, shared]).clipboard = some [0x61, 0] := by
    decide +kernel
  have newer : (received codec asText fresh [shared, copied]).clipboard = some [0x62, 0] := by decide +kernel
  exact absurd (older.symm.trans (same.trans newer)) (by decide)

end ClippProof.Clipboard
