import Clipp.Foundation.ByteReader
import Mathlib.Tactic.SplitIfs

namespace Foundation

structure Cursor where
  buffer : Bytes
  position : Nat
  remaining : Nat
  deriving DecidableEq

inductive ScanStop where
  | malformed
  | readOutside
  deriving DecidableEq

/-- A computation on a cursor; an access outside the buffer is told from a refusal. -/
abbrev Scan (α : Type) := StateT Cursor (Except ScanStop) α

namespace Cursor

def atStart (buffer : Bytes) : Cursor := { buffer := buffer, position := 0, remaining := buffer.length }

def Sound (c : Cursor) : Prop := c.position + c.remaining = c.buffer.length

def rest (c : Cursor) : Bytes := c.buffer.drop c.position

theorem sound_atStart (buffer : Bytes) : (atStart buffer).Sound := Nat.zero_add _

theorem Sound.rest_length {c : Cursor} (sound : c.Sound) : c.rest.length = c.remaining := by
  have total : c.position + c.remaining = c.buffer.length := sound
  rw [rest, List.length_drop]
  omega

end Cursor

namespace Scan

variable {α β : Type}

def need (n : Nat) : Scan Unit := fun c => if c.remaining < n then .error .malformed else .ok ((), c)

def check (p : Prop) [Decidable p] : Scan Unit := fun c => if p then .ok ((), c) else .error .malformed

def peek (offset : Nat) : Scan UInt8 := fun c =>
  match c.buffer[c.position + offset]? with
  | some b => .ok (b, c)
  | none => .error .readOutside

def copy (n : Nat) : Scan Bytes := fun c =>
  if c.position + n ≤ c.buffer.length then .ok ((c.buffer.drop c.position).take n, c) else .error .readOutside

def advance (n : Nat) : Scan Unit := fun c =>
  .ok ((), { c with position := c.position + n, remaining := c.remaining - n })

def times : Nat → Scan α → Scan (List α)
  | 0, _ => pure []
  | n + 1, s => do
    let head ← s
    let rest ← times n s
    return head :: rest

def whole (s : Scan α) (buffer : Bytes) : Except ScanStop α :=
  match s (.atStart buffer) with
  | .error stop => .error stop
  | .ok (a, c) => if c.remaining ≠ 0 then .error .malformed else .ok a

/-- The scan reads what the reader reads of the bytes behind the pointer, and stays inside the buffer. -/
def Follows (s : Scan α) (r : Reader α) : Prop :=
  ∀ c : Cursor, c.Sound → match r c.rest with
    | none => s c = .error .malformed
    | some (a, left) => ∃ next : Cursor, s c = .ok (a, next) ∧ next.Sound ∧ next.rest = left

theorem Follows.refused {s : Scan α} {r : Reader α} (follows : Follows s r) {c : Cursor} (sound : c.Sound)
    (none_read : r c.rest = none) : s c = .error .malformed := by
  have here := follows c sound
  rw [none_read] at here
  exact here

theorem Follows.taken {s : Scan α} {r : Reader α} (follows : Follows s r) {c : Cursor} (sound : c.Sound) {a : α}
    {left : Bytes} (read : r c.rest = some (a, left)) :
    ∃ next : Cursor, s c = .ok (a, next) ∧ next.Sound ∧ next.rest = left := by
  have here := follows c sound
  rw [read] at here
  exact here

theorem bind_ok {s : Scan α} {f : α → Scan β} {c next : Cursor} {a : α} (ran : s c = .ok (a, next)) :
    (s >>= f) c = f a next := by
  change (s c >>= fun p => f p.1 p.2) = _
  rw [ran]
  rfl

theorem bind_error {s : Scan α} {f : α → Scan β} {c : Cursor} {stop : ScanStop} (ran : s c = .error stop) :
    (s >>= f) c = .error stop := by
  change (s c >>= fun p => f p.1 p.2) = _
  rw [ran]
  rfl

theorem Follows.pure (a : α) : Follows (pure a) (pure a) := fun c sound => ⟨c, rfl, sound, rfl⟩

theorem Follows.bind {s : Scan α} {r : Reader α} {f : α → Scan β} {g : α → Reader β} (first : Follows s r)
    (second : ∀ a, Follows (f a) (g a)) : Follows (s >>= f) (r >>= g) := by
  intro c sound
  have shape : (r >>= g) c.rest = (r c.rest).bind fun p => g p.1 p.2 := rfl
  rw [shape]
  cases read : r c.rest with
  | none => exact bind_error (first.refused sound read)
  | some p =>
    obtain ⟨next, ran, nextSound, rest⟩ := first.taken sound read
    rw [Option.bind_some, bind_ok ran, ← rest]
    exact second p.1 next nextSound

theorem Follows.check (p : Prop) [Decidable p] : Follows (Scan.check p) (Reader.check p) := by
  intro c sound
  unfold Scan.check Reader.check
  split_ifs
  · exact ⟨c, rfl, sound, rfl⟩
  · rfl

theorem Follows.times {s : Scan α} {r : Reader α} (n : Nat) (each : Follows s r) :
    Follows (Scan.times n s) (Reader.times n r) := by
  induction n with
  | zero => exact .pure []
  | succ n ih => exact .bind each fun _ => .bind ih fun _ => .pure _

theorem Follows.field {n : Nat} {view : Bytes → α} {look : Scan α}
    (looks : ∀ c : Cursor, c.Sound → n ≤ c.remaining → look c = .ok (view (c.rest.take n), c)) :
    Follows (do
        need n
        let a ← look
        advance n
        return a)
      (do
        let field ← Reader.bytes n
        return view field) := by
  intro c sound
  have size := sound.rest_length
  have total : c.position + c.remaining = c.buffer.length := sound
  by_cases short : c.remaining < n
  · have none_read : Reader.bytes n c.rest = none := by
      unfold Reader.bytes
      rw [if_pos (by omega)]
    have shape : (do let field ← Reader.bytes n; return view field : Reader α) c.rest = none := by
      change (Reader.bytes n c.rest).bind _ = none
      rw [none_read, Option.bind_none]
    rw [shape]
    exact bind_error (if_pos short)
  · have read : Reader.bytes n c.rest = some (c.rest.take n, c.rest.drop n) := by
      unfold Reader.bytes
      rw [if_neg (by omega)]
    have shape : (do let field ← Reader.bytes n; return view field : Reader α) c.rest =
        some (view (c.rest.take n), c.rest.drop n) := by
      change (Reader.bytes n c.rest).bind _ = _
      rw [read, Option.bind_some]
      rfl
    rw [shape]
    refine ⟨{ c with position := c.position + n, remaining := c.remaining - n }, ?_, ?_, ?_⟩
    · rw [bind_ok (if_neg short), bind_ok (looks c sound (not_lt.mp short))]
      rfl
    · change c.position + n + (c.remaining - n) = c.buffer.length
      omega
    · exact (List.drop_drop ..).symm ▸ rfl

theorem looks_copy {n : Nat} (c : Cursor) (sound : c.Sound) (enough : n ≤ c.remaining) :
    copy n c = .ok (c.rest.take n, c) := by
  have total : c.position + c.remaining = c.buffer.length := sound
  unfold copy
  rw [if_pos (by omega)]
  rfl

/-- The scan of a whole buffer never leaves it, and returns what the reader does. -/
theorem Follows.whole {s : Scan α} {r : Reader α} (follows : Follows s r) (buffer : Bytes) :
    Scan.whole s buffer = match Reader.whole r buffer with
      | some a => .ok a
      | none => .error .malformed := by
  have sound := Cursor.sound_atStart buffer
  unfold Scan.whole Reader.whole
  cases read : r buffer with
  | none => rw [follows.refused sound read]
  | some p =>
    obtain ⟨a, left⟩ := p
    obtain ⟨next, ran, nextSound, rest⟩ := follows.taken sound read
    have size := nextSound.rest_length
    rw [ran]
    dsimp only
    cases left with
    | nil =>
      rw [rest] at size
      rw [if_neg (by simp [← size])]
    | cons b more =>
      rw [rest] at size
      rw [if_pos (by simp [← size])]

/-- What an encoding and its decoder owe each other for the values within some limits. -/
structure Faithful (encode : α → Bytes) (decode : Bytes → Except ScanStop α) (within : α → Prop) : Prop where
  roundTrip : ∀ a, within a → decode (encode a) = .ok a
  shortened : ∀ a, within a → ∀ taken missing, encode a = taken ++ missing → missing ≠ [] →
    decode taken = .error .malformed
  extended : ∀ a, within a → ∀ extra, extra ≠ [] → decode (encode a ++ extra) = .error .malformed
  bounded : ∀ body a, decode body = .ok a → within a
  inside : ∀ body, decode body ≠ .error .readOutside

theorem Follows.faithful {s : Scan α} {r : Reader α} {encode : α → Bytes} {within : α → Prop} (follows : Follows s r)
    (extending : Reader.Extends r) (reads : ∀ a, within a → Reader.Reads r (encode a) a)
    (bounds : ∀ body a, Reader.whole r body = some a → within a) : Faithful encode (Scan.whole s) within where
  roundTrip a fits := by rw [follows.whole, (reads a fits).whole]
  shortened a fits taken missing parts short := by
    rw [follows.whole, (reads a fits).shortened extending parts short]
  extended a fits extra more := by rw [follows.whole, (reads a fits).extended more]
  bounded body a decoded := by
    rw [follows.whole] at decoded
    cases read : Reader.whole r body with
    | none =>
      rw [read] at decoded
      cases decoded
    | some b =>
      rw [read] at decoded
      cases decoded
      exact bounds body a read
  inside body stop := by
    rw [follows.whole] at stop
    cases read : Reader.whole r body with
    | none =>
      rw [read] at stop
      cases stop
    | some b =>
      rw [read] at stop
      cases stop

end Scan

end Foundation
