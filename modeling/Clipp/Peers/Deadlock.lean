import Clipp.Peers.Lock

open Foundation

namespace ClippProof.Peers

open ClippModel.Registers ClippModel.Peers ClippModel.Peers.PeerThreads

variable {π κ : Type} {s next : PeerThreads π κ} {label : PeerLabel π κ} {p q : π} {k : κ} {t : PeerThread}
  {pc : CallPc π}

def Inside : CallPc π → Prop
  | .scanning _ _ | .joining _ _ _ => True
  | _ => False

def Joins (s : PeerThreads π κ) (k : κ) (p : π) : Prop :=
  ∃ removal rest, s.call k = .joining removal p rest

/-- The thread waits for the lock, or will without looking at its stop request once more. -/
def Relaying (t : PeerThread) : Prop :=
  t.pc = .wanting ∨ ∃ frame, t.pc = .handling frame ∧ broadcasts t.connType frame = true

/-- The holder of the lock waits for a thread that waits for the lock. -/
def Deadlocked (s : PeerThreads π κ) : Prop :=
  ∃ k p, s.owner = some (.caller k) ∧ Joins s k p ∧ (s.thread p).pc = .wanting

structure Held (s : PeerThreads π κ) : Prop where
  caller : ∀ k, Inside (s.call k) → s.owner = some (.caller k)
  peer : ∀ p, (s.thread p).pc = .broadcasting → s.owner = some (.peer p)

theorem Joins.inside (joins : Joins s k p) : Inside (s.call k) := by
  obtain ⟨removal, rest, here⟩ := joins
  rw [here]
  trivial

theorem inside_scanning {removal : Removal} {rest : List π} (here : s.call k = .scanning removal rest) :
    Inside (s.call k) := by
  rw [here]
  trivial

theorem Held.only (held : Held s) {j : κ} (inside : Inside (s.call k)) (other : Inside (s.call j)) : j = k := by
  have same := (held.caller j other).symm.trans (held.caller k inside)
  cases same
  rfl

theorem Held.apart (held : Held s) (inside : Inside (s.call k)) : (s.thread p).pc ≠ .broadcasting := by
  intro behind
  cases (held.peer p behind).symm.trans (held.caller k inside)

theorem setThread_thread [DecidableEq π] (s : PeerThreads π κ) (p : π) (t : PeerThread) (q : π) :
    (s.setThread p t).thread q = if q = p then t else s.thread q := Function.update_apply ..

theorem setCall_call [DecidableEq κ] (s : PeerThreads π κ) (k : κ) (pc : CallPc π) (j : κ) :
    (s.setCall k pc).call j = if j = k then pc else s.call j := Function.update_apply ..

theorem setCall_thread [DecidableEq κ] (s : PeerThreads π κ) (k : κ) (pc : CallPc π) :
    (s.setCall k pc).thread = s.thread := rfl

variable [DecidableEq π] [DecidableEq κ]

/-- The steps of the threads, one rule for each way the source goes on. -/
inductive Takes (s : PeerThreads π κ) : PeerLabel π κ → PeerThreads π κ → Prop where
  | add (p : π) (connType : ConnType) (hostID : HostId) (started : Bool) : s.owner = none →
      (s.thread p).pc = .exited → p ∉ s.peers →
      Takes s (.add p connType hostID started)
        { s.setThread p { connType := connType, hostID := hostID, stopRequested := false
                          pc := if started then .looping else .exited } with peers := s.peers ++ [p] }
  | request (k : κ) (removal : Removal) : s.call k = .idle →
      Takes s (.request k removal) (s.setCall k (.waiting removal))
  | acquire (k : κ) (removal : Removal) : s.call k = .waiting removal → s.owner = none →
      Takes s (.acquire k) { s.setCall k (.scanning removal s.peers) with owner := some (.caller k) }
  | stop (k : κ) (silent : Bool) (removal : Removal) (p : π) (rest : List π) :
      s.call k = .scanning removal (p :: rest) → removal.selects silent (s.thread p) = true →
      Takes s (.visit k silent)
        ((s.setThread p { s.thread p with stopRequested := true }).setCall k (.joining removal p rest))
  | pass (k : κ) (silent : Bool) (removal : Removal) (p : π) (rest : List π) :
      s.call k = .scanning removal (p :: rest) → removal.selects silent (s.thread p) = false →
      Takes s (.visit k silent) (s.setCall k (.scanning removal rest))
  | join (k : κ) (removal : Removal) (p : π) (rest : List π) : s.call k = .joining removal p rest →
      (s.thread p).pc = .exited →
      Takes s (.join k) { s.setCall k (.scanning removal rest) with peers := s.peers.erase p }
  | release (k : κ) (removal : Removal) : s.call k = .scanning removal [] →
      Takes s (.release k) { s.setCall k .idle with owner := none }
  | loopTop (p : π) : (s.thread p).pc = .looping →
      Takes s (.loopTop p) (s.setPc p (if (s.thread p).stopRequested then .leaving else .polling))
  | wake (p : π) : (s.thread p).pc = .polling → Takes s (.wake p) (s.setPc p .looping)
  | disconnect (p : π) : (s.thread p).pc = .polling → Takes s (.disconnect p) (s.setPc p .leaving)
  | receive (p : π) (frame : PeerFrame) : (s.thread p).pc = .polling →
      Takes s (.receive p frame) (s.setPc p (.handling frame))
  | handle (p : π) (frame : PeerFrame) : (s.thread p).pc = .handling frame →
      Takes s (.handle p) (s.setPc p (if broadcasts (s.thread p).connType frame then .wanting else .looping))
  | lock (p : π) : (s.thread p).pc = .wanting → s.owner = none →
      Takes s (.lock p) { s.setPc p .broadcasting with owner := some (.peer p) }
  | unlock (p : π) : (s.thread p).pc = .broadcasting →
      Takes s (.unlock p) { s.setPc p .looping with owner := none }
  | finish (p : π) : (s.thread p).pc = .leaving → Takes s (.finish p) (s.setPc p .exited)

theorem step_takes (taken : s.step label = some next) : Takes s label next := by
  cases label with
  | add p connType hostID started =>
    by_cases free : s.owner = none ∧ (s.thread p).pc = .exited ∧ p ∉ s.peers
    · rw [step, if_pos free] at taken
      cases taken
      exact .add p connType hostID started free.1 free.2.1 free.2.2
    · rw [step, if_neg free] at taken
      cases taken
  | request k removal =>
    cases here : s.call k <;> simp only [step, here, reduceCtorEq] at taken
    cases taken
    exact .request k removal here
  | acquire k =>
    cases here : s.call k <;> cases free : s.owner <;> simp only [step, here, free, reduceCtorEq] at taken
    cases taken
    exact .acquire k _ here free
  | visit k silent =>
    cases here : s.call k with
    | scanning removal rest =>
      cases rest with
      | nil => simp only [step, here, reduceCtorEq] at taken
      | cons p rest =>
        simp only [step, here] at taken
        split_ifs at taken with selected
        · cases taken
          exact .stop k silent removal p rest here selected
        · cases taken
          exact .pass k silent removal p rest here (Bool.eq_false_iff.mpr selected)
    | idle => simp only [step, here, reduceCtorEq] at taken
    | waiting => simp only [step, here, reduceCtorEq] at taken
    | joining => simp only [step, here, reduceCtorEq] at taken
  | join k =>
    cases here : s.call k <;> simp only [step, here, reduceCtorEq] at taken
    split_ifs at taken with ended
    cases taken
    exact .join k _ _ _ here ended
  | release k =>
    cases here : s.call k with
    | scanning removal rest =>
      cases rest with
      | nil =>
        simp only [step, here] at taken
        cases taken
        exact .release k removal here
      | cons p rest => simp only [step, here, reduceCtorEq] at taken
    | idle => simp only [step, here, reduceCtorEq] at taken
    | waiting => simp only [step, here, reduceCtorEq] at taken
    | joining => simp only [step, here, reduceCtorEq] at taken
  | loopTop p =>
    cases here : (s.thread p).pc <;> simp only [step, here, reduceCtorEq] at taken
    cases taken
    exact .loopTop p here
  | wake p =>
    cases here : (s.thread p).pc <;> simp only [step, here, reduceCtorEq] at taken
    cases taken
    exact .wake p here
  | disconnect p =>
    cases here : (s.thread p).pc <;> simp only [step, here, reduceCtorEq] at taken
    cases taken
    exact .disconnect p here
  | receive p frame =>
    cases here : (s.thread p).pc <;> simp only [step, here, reduceCtorEq] at taken
    cases taken
    exact .receive p frame here
  | handle p =>
    cases here : (s.thread p).pc <;> simp only [step, here, reduceCtorEq] at taken
    cases taken
    exact .handle p _ here
  | lock p =>
    cases here : (s.thread p).pc <;> cases free : s.owner <;>
      simp only [step, here, free, reduceCtorEq] at taken
    cases taken
    exact .lock p here free
  | unlock p =>
    cases here : (s.thread p).pc <;> simp only [step, here, reduceCtorEq] at taken
    cases taken
    exact .unlock p here
  | finish p =>
    cases here : (s.thread p).pc <;> simp only [step, here, reduceCtorEq] at taken
    cases taken
    exact .finish p here

omit [DecidableEq κ] in
theorem Held.setThread (held : Held s) (quiet : t.pc = .broadcasting → (s.thread p).pc = .broadcasting) :
    Held (s.setThread p t) := by
  refine ⟨held.caller, fun q behind => ?_⟩
  rw [setThread_thread] at behind
  split_ifs at behind with same
  · subst same
    exact held.peer q (quiet behind)
  · exact held.peer q behind

omit [DecidableEq π] in
theorem Held.setCall (held : Held s) (quiet : Inside pc → Inside (s.call k)) : Held (s.setCall k pc) := by
  refine ⟨fun j inside => ?_, held.peer⟩
  rw [setCall_call] at inside
  split_ifs at inside with same
  · subst same
    exact held.caller j (quiet inside)
  · exact held.caller j inside

theorem Held.step (held : Held s) (taken : s.step label = some next) : Held next := by
  cases step_takes taken with
  | add p connType hostID started free ended fresh =>
    have quiet : Held (s.setThread p { connType := connType, hostID := hostID, stopRequested := false
                                       pc := if started then .looping else .exited }) :=
      held.setThread (by cases started <;> simp)
    exact ⟨quiet.caller, quiet.peer⟩
  | request k removal here => exact held.setCall (by simp [Inside])
  | acquire k removal here free =>
    constructor
    · intro j inside
      simp only [setCall_call] at inside
      split_ifs at inside with same
      · rw [same]
      · cases free.symm.trans (held.caller j inside)
    · intro p behind
      cases free.symm.trans (held.peer p behind)
  | stop k silent removal p rest here selected =>
    have stopped : Held (s.setThread p { s.thread p with stopRequested := true }) := held.setThread id
    exact stopped.setCall (fun _ => inside_scanning here)
  | pass k silent removal p rest here selected => exact held.setCall (by simp [Inside, here])
  | join k removal p rest here ended =>
    have scanning : Held (s.setCall k (.scanning removal rest)) := held.setCall (by simp [Inside, here])
    exact ⟨scanning.caller, scanning.peer⟩
  | release k removal here =>
    have inside : Inside (s.call k) := inside_scanning here
    constructor
    · intro j other
      simp only [setCall_call] at other
      split_ifs at other with same
      · exact other.elim
      · exact absurd (held.only inside other) same
    · intro p behind
      exact absurd behind (held.apart inside)
  | loopTop p here => exact held.setThread (by split_ifs <;> simp)
  | wake p here => exact held.setThread (by simp)
  | disconnect p here => exact held.setThread (by simp)
  | receive p frame here => exact held.setThread (by simp)
  | handle p frame here => exact held.setThread (by split_ifs <;> simp)
  | lock p here free =>
    constructor
    · intro j inside
      cases free.symm.trans (held.caller j inside)
    · intro q behind
      simp only [setPc, setThread_thread] at behind
      split_ifs at behind with same
      · rw [same]
      · cases free.symm.trans (held.peer q behind)
  | unlock p here =>
    constructor
    · intro j inside
      exact absurd here (held.apart inside)
    · intro q behind
      simp only [setPc, setThread_thread] at behind
      split_ifs at behind with same
      cases (held.peer p here).symm.trans (held.peer q behind)
      exact absurd rfl same
  | finish p here => exact held.setThread (by simp)

/-- A stop request only comes from a call that joins the thread. -/
def StopsJoined (s : PeerThreads π κ) : Prop :=
  ∀ p, (s.thread p).stopRequested = true → (s.thread p).pc = .exited ∨ ∃ k, Joins s k p

/-- What a thread that is joined may still do does not lead to the lock. -/
def JoinsClear (s : PeerThreads π κ) : Prop :=
  ∀ k p, Joins s k p → (s.thread p).stopRequested = true ∧ ¬ Relaying (s.thread p)

/-- A peer is stopped only while its thread has nothing in hand to broadcast, and a thread whose stop is
    requested takes nothing up that it would broadcast. -/
def StopsFit (s : PeerThreads π κ) : PeerLabel π κ → Prop
  | .visit k silent => ∀ removal p rest, s.call k = .scanning removal (p :: rest) →
      removal.selects silent (s.thread p) = true → ¬ Relaying (s.thread p)
  | .receive p frame => (s.thread p).stopRequested = true → broadcasts (s.thread p).connType frame = false
  | _ => True

omit [DecidableEq π] in
theorem joins_setCall {j : κ} :
    Joins (s.setCall k pc) j p ↔ if j = k then ∃ removal rest, pc = .joining removal p rest else Joins s j p := by
  unfold Joins
  rw [setCall_call]
  split_ifs <;> rfl

omit [DecidableEq π] in
theorem StopsJoined.setCall (stops : StopsJoined s) (kept : ∀ p, Joins s k p → (s.thread p).pc = .exited) :
    StopsJoined (s.setCall k pc) := by
  intro p stopped
  rcases stops p stopped with ended | ⟨j, joins⟩
  · exact .inl ended
  · by_cases same : j = k
    · subst same
      exact .inl (kept p joins)
    · exact .inr ⟨j, joins_setCall.mpr (by rwa [if_neg same])⟩

omit [DecidableEq κ] in
theorem StopsJoined.setThread (stops : StopsJoined s)
    (joined : t.stopRequested = true → t.pc = .exited ∨ ∃ k, Joins s k p) : StopsJoined (s.setThread p t) := by
  intro q stopped
  rw [setThread_thread] at stopped ⊢
  by_cases same : q = p
  · rw [if_pos same] at stopped ⊢
    rw [same]
    exact joined stopped
  · rw [if_neg same] at stopped ⊢
    exact stops q stopped

omit [DecidableEq κ] in
theorem StopsJoined.setPc (stops : StopsJoined s) (running : (s.thread p).pc ≠ .exited) (pc : PeerPc) :
    StopsJoined (s.setPc p pc) :=
  stops.setThread (fun stopped => .inr ((stops p stopped).resolve_left running))

theorem StopsJoined.step (stops : StopsJoined s) (taken : s.step label = some next) : StopsJoined next := by
  have apart : ∀ {k : κ} {p : π}, (∀ removal rest, s.call k ≠ .joining removal p rest) → ¬ Joins s k p :=
    fun other ⟨removal, rest, here⟩ => other removal rest here
  cases step_takes taken with
  | add p connType hostID started free ended fresh => exact stops.setThread (by simp)
  | request k removal here => exact stops.setCall (fun p joins => absurd joins (apart (by simp [here])))
  | acquire k removal here free => exact stops.setCall (fun p joins => absurd joins (apart (by simp [here])))
  | stop k silent removal p rest here selected =>
    intro q stopped
    by_cases same : q = p
    · exact .inr ⟨k, joins_setCall.mpr (by simp [same])⟩
    · rw [setCall_thread, setThread_thread, if_neg same] at stopped ⊢
      rcases stops q stopped with ended | ⟨j, joins⟩
      · exact .inl ended
      · have other : j ≠ k := by
          rintro rfl
          exact apart (by simp [here]) joins
        exact .inr ⟨j, joins_setCall.mpr (by rwa [if_neg other])⟩
  | pass k silent removal p rest here selected =>
    exact stops.setCall (fun p joins => absurd joins (apart (by simp [here])))
  | join k removal p rest here ended =>
    apply stops.setCall
    intro q joins
    obtain ⟨_, _, there⟩ := joins
    cases here.symm.trans there
    exact ended
  | release k removal here => exact stops.setCall (fun p joins => absurd joins (apart (by simp [here])))
  | loopTop p here => exact stops.setPc (by simp [here]) _
  | wake p here => exact stops.setPc (by simp [here]) _
  | disconnect p here => exact stops.setPc (by simp [here]) _
  | receive p frame here => exact stops.setPc (by simp [here]) _
  | handle p frame here => exact stops.setPc (by simp [here]) _
  | lock p here free => exact stops.setPc (by simp [here]) _
  | unlock p here => exact stops.setPc (by simp [here]) _
  | finish p here => exact stops.setPc (by simp [here]) _

omit [DecidableEq π] in
theorem JoinsClear.setCall (clear : JoinsClear s) (quiet : ∀ removal p rest, pc ≠ .joining removal p rest) :
    JoinsClear (s.setCall k pc) := by
  intro j p joins
  rw [joins_setCall] at joins
  split_ifs at joins with same
  · obtain ⟨removal, rest, there⟩ := joins
    exact absurd there (quiet removal p rest)
  · exact clear j p joins

omit [DecidableEq κ] in
theorem JoinsClear.setThread (clear : JoinsClear s)
    (kept : ∀ k, Joins s k p → t.stopRequested = true ∧ ¬ Relaying t) : JoinsClear (s.setThread p t) := by
  intro k q joins
  rw [setThread_thread]
  split_ifs with same
  · subst same
    exact kept k joins
  · exact clear k q joins

omit [DecidableEq κ] in
theorem JoinsClear.setPc {pc : PeerPc} (clear : JoinsClear s)
    (quiet : (s.thread p).stopRequested = true → ¬ Relaying (s.thread p) → ¬ Relaying { s.thread p with pc := pc }) :
    JoinsClear (s.setPc p pc) :=
  clear.setThread (fun k joins => ⟨(clear k p joins).1, quiet (clear k p joins).1 (clear k p joins).2⟩)

theorem JoinsClear.step (clear : JoinsClear s) (held : Held s) (fits : StopsFit s label)
    (taken : s.step label = some next) : JoinsClear next := by
  cases step_takes taken with
  | add p connType hostID started free ended fresh =>
    apply clear.setThread
    intro k joins
    cases free.symm.trans (held.caller k joins.inside)
  | request k removal here => exact clear.setCall (by simp)
  | acquire k removal here free => exact clear.setCall (by simp)
  | stop k silent removal p rest here selected =>
    have quiet : ¬ Relaying (s.thread p) := fits removal p rest here selected
    intro j q joins
    rw [joins_setCall] at joins
    split_ifs at joins with same
    · obtain ⟨removal, rest, there⟩ := joins
      cases there
      rw [setCall_thread, setThread_thread, if_pos rfl]
      exact ⟨rfl, quiet⟩
    · exact absurd (held.only (inside_scanning here) (Joins.inside (s := s) joins)) same
  | pass k silent removal p rest here selected => exact clear.setCall (by simp)
  | join k removal p rest here ended => exact clear.setCall (by simp)
  | release k removal here => exact clear.setCall (by simp)
  | loopTop p here => exact clear.setPc (fun stopped _ => by simp [Relaying, stopped])
  | wake p here => exact clear.setPc (by simp [Relaying])
  | disconnect p here => exact clear.setPc (by simp [Relaying])
  | receive p frame here =>
    apply clear.setPc
    intro stopped _
    simp [Relaying, fits stopped]
  | handle p frame here =>
    apply clear.setPc
    intro _ quiet
    have local_ : broadcasts (s.thread p).connType frame ≠ true := fun goes => quiet (.inr ⟨frame, here, goes⟩)
    simp [Relaying, local_]
  | lock p here free => exact clear.setPc (by simp [Relaying])
  | unlock p here => exact clear.setPc (by simp [Relaying])
  | finish p here => exact clear.setPc (by simp [Relaying])

/-- Once the two wait for each other nothing ends it: no step of any thread leaves the deadlock. -/
theorem Deadlocked.step (dead : Deadlocked s) (held : Held s) (taken : s.step label = some next) :
    Deadlocked next := by
  obtain ⟨k, p, owned, joins, wants⟩ := dead
  have call : ∀ j, Inside (s.call j) → j = k := fun j inside => held.only joins.inside inside
  have elsewhere : ∀ q t, (s.thread q).pc ≠ .wanting → Deadlocked (s.setThread q t) := by
    intro q t other
    have apart : p ≠ q := by
      rintro rfl
      exact other wants
    exact ⟨k, p, owned, joins, by rw [setThread_thread, if_neg apart, wants]⟩
  obtain ⟨removal, rest, there⟩ := joins
  cases step_takes taken with
  | add p connType hostID started free ended fresh => cases free.symm.trans owned
  | request j _ here =>
    have other : ¬ k = j := by
      rintro rfl
      cases here.symm.trans there
    exact ⟨k, p, owned, joins_setCall.mpr (by rw [if_neg other]; exact ⟨removal, rest, there⟩), wants⟩
  | acquire j _ here free => cases free.symm.trans owned
  | stop j silent _ _ _ here selected =>
    cases call j (inside_scanning here)
    cases here.symm.trans there
  | pass j silent _ _ _ here selected =>
    cases call j (inside_scanning here)
    cases here.symm.trans there
  | join j _ _ _ here ended =>
    cases call j (by rw [here]; trivial)
    cases here.symm.trans there
    cases wants.symm.trans ended
  | release j _ here =>
    cases call j (inside_scanning here)
    cases here.symm.trans there
  | loopTop q here => exact elsewhere q _ (by simp [here])
  | wake q here => exact elsewhere q _ (by simp [here])
  | disconnect q here => exact elsewhere q _ (by simp [here])
  | receive q frame here => exact elsewhere q _ (by simp [here])
  | handle q frame here => exact elsewhere q _ (by simp [here])
  | lock q here free => cases free.symm.trans owned
  | unlock q here => exact absurd here (held.apart (by rw [there]; trivial))
  | finish q here => exact elsewhere q _ (by simp [here])

theorem relaying_deadlocks (held : Held s) (joins : Joins s k p) (relaying : Relaying (s.thread p)) :
    ∃ labels last, Path step (fun _ _ => True) s labels last ∧ Deadlocked last := by
  have owned := held.caller k joins.inside
  rcases relaying with wants | ⟨frame, here, goes⟩
  · exact ⟨[], s, .nil s, k, p, owned, joins, wants⟩
  · have taken : s.step (.handle p) = some (s.setPc p .wanting) := by simp [step, here, goes]
    refine ⟨[.handle p], _, .single trivial taken, k, p, owned, joins, ?_⟩
    rw [setPc, setThread_thread, if_pos rfl]

/-- The condition leaves nothing out: after a step that fails it the deadlock can be reached. -/
theorem unfit_step_deadlocks (held : Held s) (stops : StopsJoined s) (taken : s.step label = some next)
    (unfit : ¬ StopsFit s label) :
    ∃ labels last, Path step (fun _ _ => True) next labels last ∧ Deadlocked last := by
  have after := held.step taken
  cases step_takes taken with
  | stop k silent removal p rest here selected =>
    have relaying : Relaying (s.thread p) := by
      by_contra quiet
      apply unfit
      intro _ _ _ there _
      cases here.symm.trans there
      exact quiet
    apply relaying_deadlocks (k := k) (p := p) after (joins_setCall.mpr (by simp))
    rw [setCall_thread, setThread_thread, if_pos rfl]
    exact relaying
  | pass k silent removal p rest here selected =>
    refine absurd (fun _ _ _ there selects _ => ?_) unfit
    cases here.symm.trans there
    cases selected.symm.trans selects
  | receive p frame here =>
    obtain ⟨stopped, goes⟩ := Classical.not_imp.mp unfit
    obtain ⟨k, joins⟩ := (stops p stopped).resolve_left (by simp [here])
    refine relaying_deadlocks (k := k) (p := p) after joins (.inr ⟨frame, ?_⟩)
    rw [setPc, setThread_thread, if_pos rfl]
    exact ⟨rfl, Bool.not_eq_false _ ▸ goes⟩
  | _ => exact absurd trivial unfit

omit [DecidableEq π] [DecidableEq κ] in
theorem held_boot : Held (boot : PeerThreads π κ) := by
  constructor
  · intro k inside
    exact inside.elim
  · intro p behind
    cases behind

omit [DecidableEq π] [DecidableEq κ] in
theorem stopsJoined_boot : StopsJoined (boot : PeerThreads π κ) := by
  intro p stopped
  cases stopped

omit [DecidableEq π] [DecidableEq κ] in
theorem joinsClear_boot : JoinsClear (boot : PeerThreads π κ) := by
  rintro k p ⟨removal, rest, there⟩
  cases there

/-- In no run whose steps meet the condition does the holder of the lock join a thread that waits for it. -/
def NeverDeadlocks (π κ : Type) [DecidableEq π] [DecidableEq κ] (fits : PeerThreads π κ → PeerLabel π κ → Prop) :
    Prop := ∀ labels s, Path step fits boot labels s → ¬ Deadlocked s

theorem peer_manager_never_deadlocks (π κ : Type) [DecidableEq π] [DecidableEq κ] :
    NeverDeadlocks π κ StopsFit := by
  rintro labels s path ⟨k, p, -, joins, wants⟩
  have both : Held s ∧ JoinsClear s :=
    path.invariant (fun s => Held s ∧ JoinsClear s)
      (fun _ _ _ inv fits taken => ⟨inv.1.step taken, inv.2.step inv.1 fits taken⟩) ⟨held_boot, joinsClear_boot⟩
  exact (both.2 k p joins).2 (.inl wants)

theorem unfit_run_deadlocks {ok : PeerThreads π κ → PeerLabel π κ → Prop} {labels : List (PeerLabel π κ)}
    (path : Path step ok boot labels s) (taken : s.step label = some next) (unfit : ¬ StopsFit s label) :
    ∃ more last, Path step (fun _ _ => True) next more last ∧ Deadlocked last := by
  have both : Held s ∧ StopsJoined s :=
    path.invariant (fun s => Held s ∧ StopsJoined s)
      (fun _ _ _ inv _ taken => ⟨inv.1.step taken, inv.2.step taken⟩) ⟨held_boot, stopsJoined_boot⟩
  exact unfit_step_deadlocks both.1 both.2 taken unfit

namespace OneRelay

def booted : PeerThreads Unit Unit := boot

def connected : List (PeerLabel Unit Unit) := [.add () .incoming HostId.zero true, .loopTop ()]

def clearing : List (PeerLabel Unit Unit) := [.request () .clear, .acquire ()]

def polled : PeerThreads Unit Unit := lastOf step booted (connected ++ clearing)
def stopped : PeerThreads Unit Unit := lastOf step polled [.visit () false]
def cleared : PeerThreads Unit Unit := lastOf step stopped [.wake (), .loopTop (), .finish (), .join (), .release ()]

/-- The item is in hand when the lock is taken, and its broadcast wants the lock while it is held. -/
def hung : List (PeerLabel Unit Unit) :=
  connected ++ [.receive () (.clip true)] ++ clearing ++ [.visit () false, .handle ()]

end OneRelay

open OneRelay in
theorem quiet_peer_cleared : ¬ Deadlocked cleared := by
  have opened : Path step StopsFit booted (connected ++ clearing) polled :=
    path_to_lastOf (by simp [connected, clearing, StopsFit]) (by decide +kernel)
  have idle : (polled.thread ()).pc = .polling := by decide +kernel
  have quiet : StopsFit polled (.visit () false) := by
    intro _ p _ _ _
    simp [Relaying, idle]
  have stopping : Path step StopsFit polled [.visit () false] stopped := step_to_lastOf quiet (by decide +kernel)
  have ending : Path step StopsFit stopped [.wake (), .loopTop (), .finish (), .join (), .release ()] cleared :=
    path_to_lastOf (by simp [StopsFit]) (by decide +kernel)
  exact peer_manager_never_deadlocks Unit Unit _ cleared ((opened.append stopping).append ending)

open OneRelay in
/-- Clearing the peers while one of them relays an item. -/
theorem clear_deadlocks_with_relay : ¬ NeverDeadlocks Unit Unit (fun _ _ => True) := by
  intro never
  have run : Path step (fun _ _ => True) booted hung (lastOf step booted hung) :=
    path_to_lastOf (fun _ _ _ => trivial) (by decide +kernel)
  refine never hung _ run ⟨(), (), ?_, ⟨.clear, [], ?_⟩, ?_⟩
  · decide +kernel
  · decide +kernel
  · decide +kernel

end ClippProof.Peers
