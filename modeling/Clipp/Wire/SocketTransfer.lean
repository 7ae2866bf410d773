import Clipp.Foundation.Deadline
import Clipp.Wire.Framing

open Foundation

namespace ClippModel.Wire.SocketIo

/-- Times are nanoseconds of the steady clock, timeouts are milliseconds. -/
structure SocketIoContext where
  wakeValid : Bool
  ioIdleTimeout : Int
  absoluteDeadline : Option Int

def nanosecondsPerMillisecond : Int := 1000000

inductive SelectOutcome where
  | error
  | timedOut
  | marked (wake socket : Bool)
  deriving DecidableEq

inductive SocketWaitResult where
  | ready
  | woken
  | timedOut
  | failed
  deriving DecidableEq

inductive SocketError where
  | wouldBlock
  | interrupted
  | other
  deriving DecidableEq

/-- One turn of a transfer's loop, as its surroundings make it: the stop flag, the clock at the check of the
    limits, `select` for the timeout it is given, and then either how many bytes the socket has or takes,
    or an error, with the clock behind the call. -/
structure Turn where
  stopRequested : Bool
  now : Int
  select : Int → SelectOutcome
  call : Except SocketError Nat
  after : Int

/-- `moved` are the bytes received or sent so far, `movedAt` is when the last of them were, or the start. -/
structure Transfer where
  total : Int
  moved : Bytes
  idleDeadline : Int
  movedAt : Int
  deriving DecidableEq

structure Progress where
  transfer : Transfer
  result : Option Bool
  deriving DecidableEq

def waitForSocket (io : SocketIoContext) : SelectOutcome → SocketWaitResult
  | .error => .failed
  | .timedOut => .timedOut
  | .marked wake socket => if io.wakeValid ∧ wake then .woken else if socket then .ready else .failed

def effectiveDeadline (ioIdleTimeout idleDeadline : Int) (absoluteDeadline : Option Int) : Option Int :=
  match absoluteDeadline, if 0 < ioIdleTimeout then some idleDeadline else none with
  | some absolute, none => some absolute
  | some absolute, some relative => if absolute < relative then some absolute else some relative
  | none, relative => relative

/-- Nothing if a limit has passed. A wait of zero is one without a timeout. -/
def getSocketWaitTimeout (ioIdleTimeout idleDeadline : Int) (absoluteDeadline : Option Int) (now : Int) : Option Int :=
  match effectiveDeadline ioIdleTimeout idleDeadline absoluteDeadline with
  | none => some 0
  | some deadline =>
    if deadline ≤ now then none
    else
      let waitTimeout := (deadline - now) / nanosecondsPerMillisecond
      some (if waitTimeout ≤ 0 then 1 else waitTimeout)

def advance (io : SocketIoContext) (data : Bytes) (asked : Int) (t : Transfer) (offered : Nat) (after : Int) :
    Progress :=
  let bytes := (data.drop t.total.toNat).take (min offered asked.toNat)
  if 0 < bytes.length then
    { transfer :=
        { total := t.total + bytes.length
          moved := t.moved ++ bytes
          idleDeadline :=
            if 0 < io.ioIdleTimeout then after + io.ioIdleTimeout * nanosecondsPerMillisecond else t.idleDeadline
          movedAt := after }
      result := none }
  else { transfer := t, result := some false }

/-- One turn of either loop. `request` is what a call is asked for when so many bytes are left. -/
def turnOnce (io : SocketIoContext) (data : Bytes) (length : Int) (request : Int → Int) (t : Transfer) (turn : Turn) :
    Progress :=
  if turn.stopRequested then { transfer := t, result := some false }
  else
    match getSocketWaitTimeout io.ioIdleTimeout t.idleDeadline io.absoluteDeadline turn.now with
    | none => { transfer := t, result := some false }
    | some waitTimeout =>
      match waitForSocket io (turn.select waitTimeout) with
      | .failed | .timedOut => { transfer := t, result := some false }
      | .woken => { transfer := t, result := none }
      | .ready =>
        match turn.call with
        | .ok offered => advance io data (request (length - t.total)) t offered turn.after
        | .error .wouldBlock | .error .interrupted => { transfer := t, result := none }
        | .error .other => { transfer := t, result := some false }

def transferAll (io : SocketIoContext) (data : Bytes) (length : Int) (request : Int → Int) :
    Transfer → List Turn → Progress
  | t, [] => { transfer := t, result := if t.total < length then none else some true }
  | t, turn :: turns =>
    if t.total < length then
      let next := turnOnce io data length request t turn
      if next.result = none then transferAll io data length request next.transfer turns else next
    else { transfer := t, result := some true }

def startAt (io : SocketIoContext) (start : Int) : Transfer where
  total := 0
  moved := []
  idleDeadline := start + io.ioIdleTimeout * nanosecondsPerMillisecond
  movedAt := start

/-- `incoming` is what the other side sends, in its order, up to its close. -/
def recvAll (io : SocketIoContext) (start : Int) (incoming : Bytes) (length : Int) (turns : List Turn) : Progress :=
  transferAll io incoming length id (startAt io start) turns

def sendChunk : Int := 64 * 1024

def sendAll (io : SocketIoContext) (start : Int) (buffer : Bytes) (turns : List Turn) : Progress :=
  transferAll io buffer buffer.length (fun left => min left sendChunk) (startAt io start) turns

end ClippModel.Wire.SocketIo

namespace ClippProof.Wire.SocketIo

open ClippModel.Wire ClippModel.Wire.SocketIo

variable {io : SocketIoContext} {data buffer : Bytes} {length : Int} {request : Int → Int} {t : Transfer} {turn : Turn}
  {turns more : List Turn} {start now waitTimeout : Int}

def Limited (io : SocketIoContext) : Prop := 0 < io.ioIdleTimeout ∨ io.absoluteDeadline.isSome = true

def Passed (io : SocketIoContext) (t : Transfer) (now : Int) : Prop :=
  (0 < io.ioIdleTimeout ∧ t.idleDeadline ≤ now) ∨ ∃ deadline, io.absoluteDeadline = some deadline ∧ deadline ≤ now

def Expired (io : SocketIoContext) (t : Transfer) (now : Int) : Prop :=
  (0 < io.ioIdleTimeout ∧ t.movedAt + io.ioIdleTimeout * nanosecondsPerMillisecond ≤ now) ∨
    ∃ deadline, io.absoluteDeadline = some deadline ∧ deadline ≤ now

structure EndsWithin (io : SocketIoContext) (t : Transfer) (now waitTimeout : Int) : Prop where
  positive : 0 < waitTimeout
  idle : 0 < io.ioIdleTimeout →
    waitTimeout = 1 ∨ now + waitTimeout * nanosecondsPerMillisecond ≤ t.idleDeadline
  absolute : ∀ deadline, io.absoluteDeadline = some deadline →
    waitTimeout = 1 ∨ now + waitTimeout * nanosecondsPerMillisecond ≤ deadline

theorem effectiveDeadline_none (unset : effectiveDeadline io.ioIdleTimeout t.idleDeadline io.absoluteDeadline = none) :
    ¬ Limited io := by
  unfold effectiveDeadline at unset
  unfold Limited
  cases absolute : io.absoluteDeadline with
  | none =>
    rw [absolute] at unset
    by_cases idle : 0 < io.ioIdleTimeout
    · simp [idle] at unset
    · simp [idle]
  | some deadline =>
    rw [absolute] at unset
    split_ifs at unset
    · simp only at unset
      split_ifs at unset

theorem effectiveDeadline_some {deadline : Int}
    (set : effectiveDeadline io.ioIdleTimeout t.idleDeadline io.absoluteDeadline = some deadline) :
    (∀ now, Passed io t now ↔ deadline ≤ now) ∧ (0 < io.ioIdleTimeout → deadline ≤ t.idleDeadline) ∧
      ∀ absolute, io.absoluteDeadline = some absolute → deadline ≤ absolute := by
  unfold effectiveDeadline at set
  unfold Passed
  cases absolute : io.absoluteDeadline with
  | none =>
    rw [absolute] at set
    by_cases idle : 0 < io.ioIdleTimeout
    · simp only [idle, if_true, Option.some.injEq] at set
      simp [idle, set]
    · simp [idle] at set
  | some limit =>
    rw [absolute] at set
    by_cases idle : 0 < io.ioIdleTimeout
    · simp only [idle, if_true] at set
      simp only [idle, true_and, Option.some.injEq, exists_eq_left', forall_const, forall_eq']
      split_ifs at set
      · obtain rfl := Option.some.inj set
        exact ⟨fun now => by omega, by omega, le_rfl⟩
      · obtain rfl := Option.some.inj set
        exact ⟨fun now => by omega, le_rfl, by omega⟩
    · simp only [idle, if_false, Option.some.injEq] at set
      simp [idle, set]

theorem getSocketWaitTimeout_none :
    getSocketWaitTimeout io.ioIdleTimeout t.idleDeadline io.absoluteDeadline now = none ↔ Passed io t now := by
  unfold getSocketWaitTimeout
  cases set : effectiveDeadline io.ioIdleTimeout t.idleDeadline io.absoluteDeadline with
  | none =>
    apply iff_of_false
    · simp
    · rintro (⟨idle, -⟩ | ⟨deadline, absolute, -⟩)
      · exact effectiveDeadline_none set (.inl idle)
      · exact effectiveDeadline_none set (.inr (by rw [absolute]; rfl))
  | some deadline =>
    rw [(effectiveDeadline_some set).1]
    by_cases late : deadline ≤ now
    · simp [late]
    · simp [late]

theorem getSocketWaitTimeout_endsWithin (limited : Limited io)
    (waits : getSocketWaitTimeout io.ioIdleTimeout t.idleDeadline io.absoluteDeadline now = some waitTimeout) :
    EndsWithin io t now waitTimeout := by
  unfold getSocketWaitTimeout at waits
  cases set : effectiveDeadline io.ioIdleTimeout t.idleDeadline io.absoluteDeadline with
  | none => exact absurd limited (effectiveDeadline_none set)
  | some deadline =>
    obtain ⟨-, idle, absolute⟩ := effectiveDeadline_some set
    rw [set] at waits
    simp only at waits
    split_ifs at waits with late short
    · obtain rfl := Option.some.inj waits
      exact ⟨by decide, fun _ => .inl rfl, fun _ _ => .inl rfl⟩
    · obtain rfl := Option.some.inj waits
      have floor : (deadline - now) / nanosecondsPerMillisecond * nanosecondsPerMillisecond ≤ deadline - now :=
        Int.ediv_mul_le _ (by decide)
      refine ⟨not_le.mp short, fun given => .inr ?_, fun other given => .inr ?_⟩
      · have sooner := idle given
        omega
      · have sooner := absolute other given
        omega

structure Sound (io : SocketIoContext) (data : Bytes) (length : Int) (t : Transfer) : Prop where
  counted : t.total = t.moved.length
  inOrder : t.moved <+: data
  within : t.moved.length ≤ length.toNat
  idle : 0 < io.ioIdleTimeout → t.idleDeadline = t.movedAt + io.ioIdleTimeout * nanosecondsPerMillisecond

inductive TurnOutcome (io : SocketIoContext) (data : Bytes) (length : Int) (t : Transfer) (turn : Turn) :
    Progress → Prop where
  | gaveUp : TurnOutcome io data length t turn { transfer := t, result := some false }
  | waited (inTime : ¬ Passed io t turn.now) : TurnOutcome io data length t turn { transfer := t, result := none }
  | moved (inTime : ¬ Passed io t turn.now) (next : Transfer) (more : t.moved.length < next.moved.length)
      (sound : Sound io data length t → Sound io data length next) :
      TurnOutcome io data length t turn { transfer := next, result := none }

theorem advance_outcome {offered : Nat} (inTime : ¬ Passed io t turn.now) (least : t.total < length)
    (fits : request (length - t.total) ≤ length - t.total) :
    TurnOutcome io data length t turn (advance io data (request (length - t.total)) t offered turn.after) := by
  unfold advance
  dsimp only
  by_cases some : 0 < ((data.drop t.total.toNat).take (min offered (request (length - t.total)).toNat)).length
  · rw [if_pos some]
    refine .moved inTime _ ?_ fun sound => ⟨?_, ?_, ?_, ?_⟩
    · simp only [List.length_append]
      omega
    · simp only [sound.counted, List.length_append]
      push_cast
      ring
    · obtain ⟨rest, rfl⟩ := sound.inOrder
      simp only [sound.counted, Int.toNat_natCast, List.drop_left, List.prefix_append_right_inj]
      exact List.take_prefix _ _
    · have counted := sound.counted
      simp only [List.length_append, List.length_take]
      omega
    · intro given
      exact if_pos given
  · rw [if_neg some]
    exact .gaveUp

theorem turnOnce_outcome (least : t.total < length)
    (fits : request (length - t.total) ≤ length - t.total) :
    TurnOutcome io data length t turn (turnOnce io data length request t turn) := by
  unfold turnOnce
  by_cases stopped : turn.stopRequested = true
  · rw [if_pos stopped]
    exact .gaveUp
  rw [if_neg stopped]
  cases waits : getSocketWaitTimeout io.ioIdleTimeout t.idleDeadline io.absoluteDeadline turn.now with
  | none => exact .gaveUp
  | some waitTimeout =>
    have inTime : ¬ Passed io t turn.now := by
      rw [← getSocketWaitTimeout_none, waits]
      simp
    dsimp only
    cases waitForSocket io (turn.select waitTimeout) with
    | failed | timedOut => exact .gaveUp
    | woken => exact .waited inTime
    | ready =>
      cases turn.call with
      | ok offered => exact advance_outcome inTime least fits
      | error kind =>
        cases kind with
        | wouldBlock | interrupted => exact .waited inTime
        | other => exact .gaveUp

def Fits (request : Int → Int) : Prop := ∀ left, request left ≤ left

theorem transferAll_append (io : SocketIoContext) (data : Bytes) (length : Int) (request : Int → Int) (t : Transfer)
    (turns more : List Turn) :
    transferAll io data length request t (turns ++ more) =
      if (transferAll io data length request t turns).result = none then
        transferAll io data length request (transferAll io data length request t turns).transfer more
      else transferAll io data length request t turns := by
  induction turns generalizing t with
  | nil =>
    rw [List.nil_append, transferAll]
    by_cases least : t.total < length
    · simp [least]
    · simp only [least, if_false, reduceCtorEq]
      cases more with
      | nil => rw [transferAll, if_neg least]
      | cons turn more => rw [transferAll, if_neg least]
  | cons turn turns ih =>
    rw [List.cons_append, transferAll, transferAll]
    by_cases least : t.total < length
    · rw [if_pos least, if_pos least]
      dsimp only
      by_cases onward : (turnOnce io data length request t turn).result = none
      · rw [if_pos onward, if_pos onward]
        exact ih _
      · rw [if_neg onward, if_neg onward, if_neg onward]
    · rw [if_neg least, if_neg least, if_neg (by simp)]

theorem transferAll_sound (fits : Fits request) (sound : Sound io data length t) (turns : List Turn) :
    Sound io data length (transferAll io data length request t turns).transfer ∧
      ((transferAll io data length request t turns).result = some true ↔
        (transferAll io data length request t turns).transfer.moved.length = length.toNat) := by
  induction turns generalizing t with
  | nil =>
    have counted := sound.counted
    have within := sound.within
    rw [transferAll]
    refine ⟨sound, ?_⟩
    split_ifs with least
    · simp only [false_iff]
      omega
    · simp only [true_iff]
      omega
  | cons turn turns ih =>
    have counted := sound.counted
    have within := sound.within
    rw [transferAll]
    by_cases least : t.total < length
    · rw [if_pos least]
      have outcome : TurnOutcome io data length t turn (turnOnce io data length request t turn) :=
        turnOnce_outcome least (fits _)
      generalize turnOnce io data length request t turn = next at outcome
      cases outcome with
      | gaveUp =>
        rw [if_neg (by simp)]
        refine ⟨sound, ?_⟩
        simp only [Option.some.injEq, Bool.false_eq_true, false_iff]
        omega
      | waited => exact ih sound
      | moved _ next _ kept => exact ih (kept sound)
    · rw [if_neg least]
      refine ⟨sound, ?_⟩
      simp only [true_iff]
      omega

theorem startAt_sound (io : SocketIoContext) (data : Bytes) (length start : Int) :
    Sound io data length (startAt io start) :=
  ⟨rfl, List.nil_prefix, Nat.zero_le _, fun _ => rfl⟩

theorem passed_iff (sound : Sound io data length t) : Passed io t now ↔ Expired io t now := by
  unfold Passed Expired
  apply or_congr_left
  apply and_congr_right
  intro given
  rw [sound.idle given]

theorem least_of_none (t : Transfer) (onward : (transferAll io data length request t []).result = none) :
    t.total < length := by
  by_contra done
  rw [transferAll, if_neg done] at onward
  cases onward

theorem running_least (onward : (transferAll io data length request t turns).result = none) :
    (transferAll io data length request t turns).transfer.total < length := by
  have again := transferAll_append io data length request t turns []
  rw [List.append_nil, if_pos onward] at again
  rw [again] at onward
  exact least_of_none _ onward

theorem one_more (onward : (transferAll io data length request t turns).result = none) :
    transferAll io data length request t (turns ++ [turn]) =
      let next := turnOnce io data length request (transferAll io data length request t turns).transfer turn
      if next.result = none then transferAll io data length request next.transfer [] else next := by
  rw [transferAll_append, if_pos onward, transferAll, if_pos (running_least onward)]

/-- What every transfer keeps to, over all its surroundings. -/
structure ExactAndBounded (io : SocketIoContext) (data : Bytes) (length : Int) (run : Int → List Turn → Progress) :
    Prop where
  inOrder : ∀ start turns, (run start turns).transfer.moved <+: data
  exact : ∀ start turns, (run start turns).result = some true ↔
    (run start turns).transfer.moved.length = length.toNat
  givesUp : ∀ start turns turn, (run start turns).result = none → Expired io (run start turns).transfer turn.now →
    run start (turns ++ [turn]) = { transfer := (run start turns).transfer, result := some false }
  keepsLimits : ∀ start turns turn, (run start turns).result = none →
    (run start (turns ++ [turn])).transfer.moved = (run start turns).transfer.moved →
    (run start (turns ++ [turn])).transfer = (run start turns).transfer
  waits : Limited io → ∀ start turns now waitTimeout, (run start turns).result = none →
    getSocketWaitTimeout io.ioIdleTimeout (run start turns).transfer.idleDeadline io.absoluteDeadline now =
      some waitTimeout → EndsWithin io (run start turns).transfer now waitTimeout
  ends : Limited io → ∀ start (turns : Nat → Turn), (∀ m n, m ≤ n → (turns m).now ≤ (turns n).now) →
    (∀ time, ∃ n, time ≤ (turns n).now) → ∃ n, (run start ((List.range n).map turns)).result ≠ none

theorem turn_outcome (fits : Fits request) (turn : Turn)
    (onward : (transferAll io data length request t turns).result = none) :
    TurnOutcome io data length (transferAll io data length request t turns).transfer turn
      (turnOnce io data length request (transferAll io data length request t turns).transfer turn) :=
  turnOnce_outcome (running_least onward) (fits _)

theorem one_more_expired (fits : Fits request) (sound : Sound io data length t)
    (onward : (transferAll io data length request t turns).result = none)
    (expired : Expired io (transferAll io data length request t turns).transfer turn.now) :
    transferAll io data length request t (turns ++ [turn]) =
      { transfer := (transferAll io data length request t turns).transfer, result := some false } := by
  have passed := (passed_iff (transferAll_sound fits sound turns).1).mpr expired
  have outcome := turn_outcome fits turn onward
  rw [one_more onward]
  generalize turnOnce io data length request (transferAll io data length request t turns).transfer turn = next at outcome
  cases outcome with
  | gaveUp => rfl
  | waited inTime => exact absurd passed inTime
  | moved inTime => exact absurd passed inTime

theorem one_more_moves (fits : Fits request) (turn : Turn)
    (onward : (transferAll io data length request t turns).result = none) :
    (transferAll io data length request t (turns ++ [turn])).transfer =
        (transferAll io data length request t turns).transfer ∨
      (transferAll io data length request t turns).transfer.moved.length <
        (transferAll io data length request t (turns ++ [turn])).transfer.moved.length := by
  have outcome := turn_outcome fits turn onward
  rw [one_more onward]
  generalize turnOnce io data length request (transferAll io data length request t turns).transfer turn = next at outcome
  cases outcome with
  | gaveUp => exact .inl rfl
  | waited => exact .inl rfl
  | moved _ next more => exact .inr more

/-- The bytes bound the turns that move any, and between those a limit stands still while the clock goes on. -/
theorem transferAll_ends (fits : Fits request) (sound : Sound io data length t) (limited : Limited io)
    (turns : Nat → Turn) (clock : ∀ m n, m ≤ n → (turns m).now ≤ (turns n).now)
    (passes : ∀ time, ∃ n, time ≤ (turns n).now) :
    ∃ n, (transferAll io data length request t ((List.range n).map turns)).result ≠ none := by
  by_contra never
  have onward : ∀ n, (transferAll io data length request t ((List.range n).map turns)).result = none := by
    intro n
    by_contra ended
    exact never ⟨n, ended⟩
  have extend : ∀ n, (List.range (n + 1)).map turns = (List.range n).map turns ++ [turns n] := by
    intro n
    rw [List.range_succ, List.map_append, List.map_singleton]
  have inTime : ∀ n,
      ¬ Expired io (transferAll io data length request t ((List.range n).map turns)).transfer (turns n).now := by
    intro n expired
    have gaveUp := onward (n + 1)
    rw [extend, one_more_expired fits sound (onward n) expired] at gaveUp
    cases gaveUp
  rcases limited with idle | absolute
  · have moves := fun n => one_more_moves fits (turns n) (onward n)
    have bounded : ∀ n, (transferAll io data length request t ((List.range n).map turns)).transfer.moved.length ≤
        length.toNat := fun n => (transferAll_sound fits sound _).1.within
    have grows : Monotone fun n =>
        (transferAll io data length request t ((List.range n).map turns)).transfer.moved.length := by
      apply monotone_nat_of_le_succ
      intro n
      rw [extend]
      rcases moves n with same | more
      · rw [same]
      · exact more.le
    obtain ⟨n, late⟩ : ∃ n, (transferAll io data length request t ((List.range n).map turns)).transfer.movedAt +
        io.ioIdleTimeout * nanosecondsPerMillisecond ≤ (turns n).now := by
      refine deadline_reached bounded grows (fun n still => ?_) clock passes
      rw [extend] at still ⊢
      rcases moves n with same | more
      · rw [same]
      · omega
    exact inTime n (.inl ⟨idle, late⟩)
  · obtain ⟨deadline, given⟩ := Option.isSome_iff_exists.mp absolute
    obtain ⟨n, late⟩ := passes deadline
    exact inTime n (.inr ⟨deadline, given, late⟩)

theorem exactAndBounded (io : SocketIoContext) (data : Bytes) (length : Int) (fits : Fits request) :
    ExactAndBounded io data length (fun start turns => transferAll io data length request (startAt io start) turns) := by
  have sound := startAt_sound io data length
  constructor
  · intro start turns
    exact (transferAll_sound fits (sound start) turns).1.inOrder
  · intro start turns
    exact (transferAll_sound fits (sound start) turns).2
  · intro start turns turn onward expired
    exact one_more_expired fits (sound start) onward expired
  · intro start turns turn onward still
    rcases one_more_moves fits turn onward with same | more
    · exact same
    · rw [still] at more
      exact absurd more (lt_irrefl _)
  · intro limited start turns now waitTimeout onward waits
    exact getSocketWaitTimeout_endsWithin limited waits
  · intro limited start turns clock passes
    exact transferAll_ends fits (sound start) limited turns clock passes

theorem sendAll_refines {sent : Bool} (start : Int) (turns : List Turn) (written : Bytes)
    (ended : (sendAll io start buffer turns).result = some sent) :
    Framing.sendAll
        (fun _ _ => if sent then none else some (sendAll io start buffer turns).transfer.moved.length) written buffer =
      (sent, written ++ (sendAll io start buffer turns).transfer.moved) := by
  have fits : Fits fun left => min left sendChunk := fun _ => min_le_left _ _
  obtain ⟨sound, exact⟩ := transferAll_sound fits (startAt_sound io buffer buffer.length start) turns
  change (sendAll io start buffer turns).result = some true ↔ _ at exact
  have front : (sendAll io start buffer turns).transfer.moved =
      buffer.take (sendAll io start buffer turns).transfer.moved.length := List.prefix_iff_eq_take.mp sound.inOrder
  cases sent with
  | true =>
    have whole : (sendAll io start buffer turns).transfer.moved = buffer :=
      sound.inOrder.eq_of_length (exact.mp ended)
    simp [Framing.sendAll, whole]
  | false =>
    rw [ended] at exact
    have within := sound.within
    have short : (sendAll io start buffer turns).transfer.moved.length < buffer.length := by
      apply lt_of_le_of_ne within
      intro all
      exact absurd (exact.mpr all) (by simp)
    simp only [Framing.sendAll, Bool.false_eq_true, if_false, if_pos short]
    rw [← front]

theorem recvAll_refines (start : Int) (turns : List Turn)
    (received : (recvAll io start data length turns).result = some true) :
    (Framing.recvAll [data] length.toNat).map Prod.fst = some (recvAll io start data length turns).transfer.moved := by
  have fits : Fits id := fun _ => le_rfl
  obtain ⟨sound, exact⟩ := transferAll_sound fits (startAt_sound io data length start) turns
  have all : (recvAll io start data length turns).transfer.moved.length = length.toNat := exact.mp received
  have front : (recvAll io start data length turns).transfer.moved = data.take length.toNat := by
    rw [← all]
    exact List.prefix_iff_eq_take.mp sound.inOrder
  rw [front, List.length_take] at all
  rw [front]
  cases size : length.toNat with
  | zero => simp [Framing.recvAll]
  | succ n =>
    rw [size] at all
    rw [Framing.recvAll]
    by_cases last : data.length ≤ n + 1
    · have same : n + 1 - data.length = 0 := by omega
      have taken : data.take (n + 1) = data := List.take_of_length_le last
      simp [last, same, taken, Framing.recvAll]
    · simp [last]

/-- Either transfer is exact, gives up at the first check behind a limit and ends, whatever its surroundings do. -/
theorem socket_transfers_exact (io : SocketIoContext) (incoming buffer : Bytes) (length : Int) :
    ExactAndBounded io incoming length (fun start turns => recvAll io start incoming length turns) ∧
      ExactAndBounded io buffer buffer.length (fun start turns => sendAll io start buffer turns) :=
  ⟨exactAndBounded io incoming length fun _ => le_rfl,
    exactAndBounded io buffer buffer.length fun _ => min_le_left _ _⟩

end ClippProof.Wire.SocketIo
