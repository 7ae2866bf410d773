import Clipp.Clipboard.LiveOrder
import Clipp.Foundation.Machine

open Foundation

namespace ClippModel.Clipboard

open ClippModel.Persistence ClippModel.Clipboard.ClipboardPayload

namespace ClipboardHashGuard

def acceptCurrent (g : ClipboardHashGuard) (payload : ClipboardPayload) : Bool × ClipboardHashGuard :=
  if payload.meta_.hashAlg = 0 then (true, { g with currentValid := false })
  else if g.currentValid ∧ g.currentHashAlg = payload.meta_.hashAlg ∧ g.currentHash = payload.meta_.hashBytes then
    (false, g)
  else
    (true, { currentValid := true, currentHashAlg := payload.meta_.hashAlg, currentHash := payload.meta_.hashBytes })

end ClipboardHashGuard

structure OSContent (γ : Type) where
  form : γ
  clippOrigin : Bool
  deriving DecidableEq

variable {γ : Type}

abbrev FormReader (γ : Type) := γ → Option (UInt32 × Bytes)

def captured (C : Codec) (read : FormReader γ) (form : γ) : Option ClipboardPayload :=
  (read form).bind (fun found => setUncompressedBytes C (blankPayload found.1) found.2)

/-- The part of `ReadClipboardData` that comes before the guard is asked; `failed` stands for a clipboard that does not
    open and for contents that are revoked or malformed while they are read. -/
def readClipboardData (C : Codec) (read : FormReader γ) (clipboard : Option (OSContent γ)) (failed : Bool) :
    Option ClipboardPayload :=
  match clipboard with
  | none => none
  | some content => if failed || content.clippOrigin then none else captured C read content.form

structure EchoState (γ : Type) where
  clipboard : Option (OSContent γ) := none
  guard : ClipboardHashGuard := {}
  reading : Option ClipboardPayload := none
  deriving DecidableEq

/-- A change by another program; the two halves of a capture; an incoming payload; and a write by Clipp, whose marker
    may fail. -/
inductive EchoStep (γ : Type) where
  | change (clipboard : Option (OSContent γ))
  | read (failed : Bool)
  | accept
  | receive (payload : ClipboardPayload)
  | write (payload : ClipboardPayload) (access : ClipboardAccess) (marker markAsClippOriginated forceWrite : Bool)

def marked (render : ClipboardPayload → Option γ) (origin : Bool) (payload : ClipboardPayload) : Option (OSContent γ) :=
  (render payload).map (fun form => { form := form, clippOrigin := origin })

def skipped (g : ClipboardHashGuard) (payload : ClipboardPayload) : Bool :=
  isLive payload && isClipboardDataCurrent g (handedOver payload)

namespace EchoState

def step (C : Codec) (read : FormReader γ) (render : ClipboardPayload → Option γ) (s : EchoState γ) :
    EchoStep γ → Option (EchoState γ)
  | .change clipboard => some { s with clipboard := clipboard }
  | .read failed =>
    match s.reading with
    | none => some { s with reading := readClipboardData C read s.clipboard failed }
    | some _ => none
  | .accept =>
    match s.reading with
    | none => none
    | some payload => some { s with guard := (s.guard.acceptCurrent payload).2, reading := none }
  | .receive _ => some s
  | .write payload access marker markAsClippOriginated forceWrite =>
    let written := setClipboardData (marked render (markAsClippOriginated && marker)) s.clipboard s.guard access
      payload markAsClippOriginated forceWrite
    some { s with clipboard := written.1, guard := written.2 }

end EchoState

end ClippModel.Clipboard

namespace ClippProof.Clipboard

open ClippModel.Persistence ClippModel.Registers ClippModel.Clipboard ClippModel.Clipboard.ClipboardPayload

variable {γ : Type} {C : Codec} {read : FormReader γ} {render : ClipboardPayload → Option γ}
  {g : ClipboardHashGuard} {p q : ClipboardPayload} {clipboard : Option (OSContent γ)}

/-- The clipboard with what has become of it since the guard was set. The guard is `settled` from a capture of what
    still stands there, or a marked write, until another program changes the clipboard, or a write of Clipp's leaves it
    without the mark or empty; and a reading is `fresh` until then. `written` is the payload that Clipp wrote last, as
    long as it stands. -/
structure EchoRun (γ : Type) where
  state : EchoState γ
  settled : Bool
  fresh : Bool
  written : Option ClipboardPayload

def touches (g : ClipboardHashGuard) (access : ClipboardAccess) (p : ClipboardPayload)
    (markAsClippOriginated forceWrite : Bool) : Bool :=
  !(markAsClippOriginated && !forceWrite && g.isCurrent p) && access ≠ .unavailable

namespace EchoRun

def boot : EchoRun γ where
  state := {}
  settled := false
  fresh := false
  written := none

def after (render : ClipboardPayload → Option γ) (s : EchoRun γ) (label : EchoStep γ) (next : EchoState γ) :
    EchoRun γ where
  state := next
  settled :=
    match label with
    | .change _ => false
    | .accept =>
      match s.state.reading with
      | none => s.settled
      | some payload => if (s.state.guard.acceptCurrent payload).1 then s.fresh else s.settled || s.fresh
    | .write payload access _ markAsClippOriginated forceWrite =>
      if touches s.state.guard access payload markAsClippOriginated forceWrite then
        access = .taken && (render payload).isSome && markAsClippOriginated
      else s.settled
    | _ => s.settled
  fresh :=
    match label with
    | .change _ => false
    | .read _ => true
    | .write payload access _ markAsClippOriginated forceWrite =>
      s.fresh && !touches s.state.guard access payload markAsClippOriginated forceWrite
    | _ => s.fresh
  written :=
    match label with
    | .change _ => none
    | .write payload access _ markAsClippOriginated forceWrite =>
      if touches s.state.guard access payload markAsClippOriginated forceWrite then
        if access = .taken && (render payload).isSome then some payload else none
      else s.written
    | _ => s.written

def step (C : Codec) (read : FormReader γ) (render : ClipboardPayload → Option γ) (s : EchoRun γ) (label : EchoStep γ) :
    Option (EchoRun γ) :=
  (s.state.step C read render label).map (s.after render label)

end EchoRun

def SameHash (p q : ClipboardPayload) : Prop :=
  p.meta_.hashAlg = q.meta_.hashAlg ∧ p.meta_.hashBytes = q.meta_.hashBytes

/-- The clipboard holds content with the hash of the payload: a capture of it has that hash, or it is the form of a
    payload with that hash that Clipp wrote there. The hash of a payload is that of its header, which the guard goes by;
    a header is taken to carry the hash of its content, as those that a capture makes do. -/
def Shows (C : Codec) (read : FormReader γ) (render : ClipboardPayload → Option γ) (s : EchoRun γ)
    (p : ClipboardPayload) : Prop :=
  ∃ content q, s.state.clipboard = some content ∧
    (captured C read content.form = some q ∨ s.written = some q ∧ render q = some content.form) ∧ SameHash q p

def EchoesOnly (C : Codec) (read : FormReader γ) (render : ClipboardPayload → Option γ)
    (ok : EchoRun γ → EchoStep γ → Prop) : Prop :=
  ∀ labels s p, Path (EchoRun.step C read render) ok .boot labels s → ok s (.receive p) →
    skipped s.state.guard p = true → Shows C read render s p

/-- No live payload that the guard takes for current comes while the guard is not settled. -/
def GuardSettled (s : EchoRun γ) : EchoStep γ → Prop
  | .receive p => isLive p = true → s.state.guard.isCurrent p = true → s.settled = true
  | _ => True

structure Believes (C : Codec) (read : FormReader γ) (render : ClipboardPayload → Option γ) (s : EchoRun γ) : Prop where
  settled : s.settled = true → ∀ p, s.state.guard.isCurrent p = true → Shows C read render s p
  fresh : s.fresh = true → ∀ q, s.state.reading = some q →
    ∃ content, s.state.clipboard = some content ∧ captured C read content.form = some q

theorem isCurrent_iff : g.isCurrent p = true ↔ p.meta_.hashAlg ≠ 0 ∧ g.currentValid = true ∧
    g.currentHashAlg = p.meta_.hashAlg ∧ g.currentHash = p.meta_.hashBytes := decide_eq_true_iff

theorem sameHash_of_remembered (current : (g.rememberCurrent q).isCurrent p = true) : SameHash q p := by
  unfold ClipboardHashGuard.rememberCurrent at current
  split_ifs at current with unhashed
  · obtain ⟨-, invalid, -⟩ := isCurrent_iff.mp current
    cases invalid
  · exact (isCurrent_iff.mp current).2.2

theorem sameHash_of_accepted (current : (g.acceptCurrent q).2.isCurrent p = true) : SameHash q p := by
  unfold ClipboardHashGuard.acceptCurrent at current
  split_ifs at current with unhashed known
  · obtain ⟨-, invalid, -⟩ := isCurrent_iff.mp current
    cases invalid
  · obtain ⟨-, -, alg, hash⟩ := isCurrent_iff.mp current
    exact ⟨known.2.1.symm.trans alg, known.2.2.symm.trans hash⟩
  · exact (isCurrent_iff.mp current).2.2

theorem guard_of_refused (refused : (g.acceptCurrent q).1 = false) : (g.acceptCurrent q).2 = g := by
  unfold ClipboardHashGuard.acceptCurrent at refused ⊢
  split_ifs at refused ⊢
  rfl

theorem captured_of_read {failed : Bool} (found : readClipboardData C read clipboard failed = some q) :
    ∃ content, clipboard = some content ∧ captured C read content.form = some q := by
  unfold readClipboardData at found
  split at found
  · cases found
  · rename_i content
    split_ifs at found
    exact ⟨content, rfl, found⟩

theorem setClipboardData_untouched {access : ClipboardAccess} {mark force : Bool} {origin : Bool}
    (untouched : touches g access p mark force = false) :
    setClipboardData (marked render origin) clipboard g access p mark force = (clipboard, g) := by
  unfold setClipboardData
  by_cases current : (mark && !force && g.isCurrent p) = true
  · rw [if_pos current]
  · have same : access = .unavailable := by
      simpa only [touches, Bool.eq_false_iff.mpr current, Bool.not_false, Bool.true_and, decide_eq_false_iff_not,
        ne_eq, not_not] using untouched
    rw [if_neg current, same]

theorem setClipboardData_put {access : ClipboardAccess} {force : Bool} {origin : Bool}
    (touched : touches g access p true force = true) (taken : access = .taken) (form : (render p).isSome = true) :
    ∃ content, setClipboardData (marked render origin) clipboard g access p true force =
      (some content, g.rememberCurrent p) ∧ render p = some content.form := by
  obtain ⟨found, rendered⟩ := Option.isSome_iff_exists.mp form
  refine ⟨{ form := found, clippOrigin := origin }, ?_, rendered⟩
  unfold setClipboardData
  have other : ¬ (true && !force && g.isCurrent p) = true := by
    intro current
    rw [touches, current] at touched
    cases touched
  rw [if_neg other, taken]
  simp [marked, rendered]

theorem Believes.accept {s : EchoRun γ} {next : EchoState γ} (believes : Believes C read render s)
    (went : s.state.step C read render .accept = some next) : Believes C read render (s.after render .accept next) := by
  simp only [EchoState.step] at went
  split at went
  · cases went
  · rename_i q reading
    cases went
    refine ⟨fun settled p current => ?_, fun _ q none => by cases none⟩
    have here : s.fresh = true → Shows C read render s p := by
      intro fresh
      obtain ⟨content, standing, found⟩ := believes.fresh fresh q reading
      exact ⟨content, q, standing, .inl found, sameHash_of_accepted current⟩
    simp only [EchoRun.after, reading] at settled
    split_ifs at settled with accepted
    · exact here settled
    · rcases Bool.or_eq_true_iff.mp settled with before | fresh
      · have same := guard_of_refused (Bool.eq_false_iff.mpr accepted)
        dsimp only [EchoRun.after] at current
        rw [same] at current
        exact believes.settled before p current
      · exact here fresh

theorem believes_written {s : EchoRun γ} {next : EchoState γ} {access : ClipboardAccess} {marker mark force : Bool}
    (touched : touches s.state.guard access p mark force = true)
    (went : s.state.step C read render (.write p access marker mark force) = some next) :
    Believes C read render (s.after render (.write p access marker mark force) next) := by
  cases went
  refine ⟨fun settled q current => ?_, fun fresh => ?_⟩
  · simp only [EchoRun.after, touched, if_true, Bool.and_eq_true, decide_eq_true_eq] at settled
    obtain ⟨⟨granted, form⟩, rfl⟩ := settled
    obtain ⟨content, result, rendered⟩ := setClipboardData_put touched granted form
    dsimp only [EchoRun.after] at current
    rw [result] at current
    refine ⟨content, p, congrArg Prod.fst result, .inr ⟨?_, rendered⟩, sameHash_of_remembered current⟩
    have put : (decide (access = .taken) && (render p).isSome) = true := by
      rw [granted, form]
      rfl
    exact (if_pos touched).trans (if_pos put)
  · simp [EchoRun.after, touched] at fresh

theorem Believes.unwritten {s : EchoRun γ} {next : EchoState γ} {access : ClipboardAccess} {marker mark force : Bool}
    (believes : Believes C read render s) (untouched : touches s.state.guard access p mark force = false)
    (went : s.state.step C read render (.write p access marker mark force) = some next) :
    Believes C read render (s.after render (.write p access marker mark force) next) := by
  cases went
  have same : setClipboardData (marked render (mark && marker)) s.state.clipboard s.state.guard access p mark force =
      (s.state.clipboard, s.state.guard) := setClipboardData_untouched untouched
  have idle := Bool.eq_false_iff.mp untouched
  refine ⟨fun settled q current => ?_, fun fresh q reading => ?_⟩
  · have before : s.settled = true := (if_neg idle).symm.trans settled
    have stays : ∀ next, (s.after render (.write p access marker mark force) next).written = s.written :=
      fun _ => if_neg idle
    dsimp only [EchoRun.after] at current
    rw [same] at current
    obtain ⟨content, source, standing, origin, hash⟩ := believes.settled before q current
    have stands := (congrArg Prod.fst same).trans standing
    exact ⟨content, source, stands, origin.imp_right (And.imp_left (stays _).trans), hash⟩
  · dsimp only [EchoRun.after] at fresh ⊢
    rw [same]
    exact believes.fresh (Bool.and_eq_true_iff.mp fresh).1 q reading

theorem Believes.step {s t : EchoRun γ} {label : EchoStep γ} (believes : Believes C read render s)
    (taken : s.step C read render label = some t) : Believes C read render t := by
  obtain ⟨next, went, rfl⟩ := Option.map_eq_some_iff.mp taken
  cases label with
  | change clipboard => exact ⟨nofun, nofun⟩
  | read failed =>
    simp only [EchoState.step] at went
    split at went
    · cases went
      exact ⟨believes.settled, fun _ q found => captured_of_read found⟩
    · cases went
  | accept => exact believes.accept went
  | receive p =>
    cases went
    exact believes
  | write payload access marker mark force =>
    by_cases touched : touches s.state.guard access payload mark force = true
    · exact believes_written touched went
    · exact believes.unwritten (Bool.eq_false_iff.mpr touched) went

/-- As long as no live payload meets a guard that is not settled, no real change is skipped. -/
theorem echo_suppression_sound (C : Codec) (read : FormReader γ) (render : ClipboardPayload → Option γ) :
    EchoesOnly C read render GuardSettled := by
  intro labels s p path settled skip
  have believes : Believes C read render s :=
    path.invariant (Believes C read render) (fun _ _ _ believes _ taken => believes.step taken) ⟨nofun, nofun⟩
  obtain ⟨live, current⟩ := Bool.and_eq_true_iff.mp skip
  have same : s.state.guard.isCurrent p = true := by
    rw [← isCurrent_handedOver]
    exact (Bool.and_eq_true_iff.mp current).2
  exact believes.settled (settled live same) p same

instance guardSettledDecidable (s : EchoRun γ) (label : EchoStep γ) : Decidable (GuardSettled s label) :=
  match label with
  | .receive p => inferInstanceAs (Decidable (isLive p = true → s.state.guard.isCurrent p = true → s.settled = true))
  | .change _ => .isTrue trivial
  | .read _ => .isTrue trivial
  | .accept => .isTrue trivial
  | .write _ _ _ _ _ => .isTrue trivial

namespace Copying

open Redelivery

def textIn (form : Bytes) : Option (UInt32 × Bytes) := if form.isEmpty then none else some (clippFormatUtf8, form)

def textCopied : List (EchoStep Bytes) := [.change (some { form := [0x61, 0], clippOrigin := false }), .read false, .accept]

def filesCopied : List (EchoStep Bytes) := [.change (some { form := [], clippOrigin := false }), .read false]

def seen (labels : List (EchoStep Bytes)) : EchoRun Bytes := lastOf (EchoRun.step codec textIn asText) .boot labels

end Copying

open Redelivery Copying in
theorem echo_of_copied_text : Shows codec textIn asText (seen textCopied) (text 0x61 1) :=
  echo_suppression_sound codec textIn asText textCopied _ _ (fitting_to_lastOf (by decide +kernel)) (by decide +kernel)
    (by decide +kernel)

open Redelivery Copying in
/-- The text that was copied before the files is skipped, and the clipboard keeps the files. -/
theorem text_behind_files_skipped : ¬ EchoesOnly codec textIn asText (fun _ _ => True) := by
  intro echoes
  obtain ⟨content, q, standing, same, -⟩ := echoes (textCopied ++ filesCopied) _ (text 0x61 1)
    (path_to_lastOf (fun _ _ _ => trivial) (by decide +kernel)) trivial (by decide +kernel)
  have files : (seen (textCopied ++ filesCopied)).state.clipboard = some { form := [], clippOrigin := false } := by
    decide +kernel
  have foreign : (seen (textCopied ++ filesCopied)).written = none := by decide +kernel
  cases files.symm.trans standing
  rcases same with unread | ⟨own, -⟩
  · cases unread
  · cases foreign.symm.trans own

end ClippProof.Clipboard
