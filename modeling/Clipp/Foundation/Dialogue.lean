import Mathlib.Data.List.Basic
import Mathlib.Data.List.Infix
import Mathlib.Data.List.Flatten
import Mathlib.Data.List.Forall2

namespace Foundation

inductive Act (α τ ρ : Type) where
  | send (message : α) (next : Bool → τ)
  | receive (next : Option α → τ)
  | leave (result : ρ)

structure Party (α τ ρ : Type) where
  start : τ
  act : τ → Act α τ ρ

variable {α ε τ ρ : Type}

/-- A state of the party, with what has gone out and what has come in on the way to it. A message that does not fit
    never goes out; one whose sending failed may have. -/
inductive Party.Talk (P : Party α τ ρ) (fits : α → Prop) : List α → List α → τ → Prop where
  | start : Talk P fits [] [] P.start
  | send {pushed heard : List α} {state : τ} {message : α} {next : Bool → τ} (sent : Bool) (out : List α) :
      Talk P fits pushed heard state → P.act state = .send message next → (sent = true → out = [message]) →
      (out = [] ∨ out = [message] ∧ fits message) → Talk P fits (pushed ++ out) heard (next sent)
  | receive {pushed heard : List α} {state : τ} {next : Option α → τ} (got : Option α) :
      Talk P fits pushed heard state → P.act state = .receive next →
      Talk P fits pushed (heard ++ got.toList) (next got)

/-- What a serial responder has sent: a greeting, then its replies to what it has read, some of it lost. -/
def Responded (greets : α → Prop) (reply : ε → List α) (log : List ε) (sent : List α) : Prop :=
  ∃ greeting : List α, (∀ message ∈ greeting, greets message) ∧ sent.Sublist (greeting ++ log.flatMap reply)

section Responding

variable {greets : α → Prop} {reply : ε → List α} {log : List ε} {sent : List α}

theorem Responded.nil : Responded greets reply ([] : List ε) [] :=
  ⟨[], fun _ member => absurd member List.not_mem_nil, .slnil⟩

theorem Responded.greeted {greeting out : List α} (each : ∀ message ∈ greeting, greets message)
    (some : out.Sublist greeting) : Responded greets reply ([] : List ε) out :=
  ⟨greeting, each, by simpa using some⟩

theorem Responded.replied {out : List α} (responded : Responded greets reply log sent) (e : ε)
    (some : out.Sublist (reply e)) : Responded greets reply (log ++ [e]) (sent ++ out) := by
  obtain ⟨greeting, each, inside⟩ := responded
  refine ⟨greeting, each, ?_⟩
  rw [List.flatMap_append, ← List.append_assoc, List.flatMap_singleton]
  exact inside.append some

theorem Responded.source {message : α} (responded : Responded greets reply log sent) (member : message ∈ sent)
    (other : ¬ greets message) : ∃ e ∈ log, message ∈ reply e := by
  obtain ⟨greeting, each, inside⟩ := responded
  rcases List.mem_append.mp (inside.subset member) with greeted | replied
  · exact absurd (each message greeted) other
  · exact List.mem_flatMap.mp replied

end Responding

section Settling

variable {greets : α → Prop} {reply : ε → List α} {message : ε → α} {asks answers : α → Bool}
  {log : List ε} {pushed heard sent : List α}

/-- Only a question is answered, and it is answered once. -/
structure Answering (greets : α → Prop) (reply : ε → List α) (message : ε → α) (asks answers : α → Bool)
    (log : List ε) : Prop where
  greeting : ∀ m, greets m → answers m = false
  once : ∀ e ∈ log, ((reply e).filter answers).length ≤ 1
  asked : ∀ e ∈ log, asks (message e) = false → (reply e).filter answers = []

theorem answers_length (answering : Answering greets reply message asks answers log) :
    ((log.flatMap reply).filter answers).length ≤ ((log.map message).filter asks).length := by
  induction log with
  | nil => exact le_rfl
  | cons e log ih =>
    have rest := ih ⟨answering.greeting, fun f member => answering.once f (List.mem_cons_of_mem e member),
      fun f member => answering.asked f (List.mem_cons_of_mem e member)⟩
    rw [List.flatMap_cons, List.filter_append, List.length_append, List.map_cons, List.filter_cons]
    cases asked : asks (message e) with
    | true =>
      have once := answering.once e List.mem_cons_self
      simp only [if_true, List.length_cons]
      omega
    | false =>
      rw [answering.asked e List.mem_cons_self asked]
      simpa using rest

/-- Once every question has its answer, all of them were read, and the answers are those to them, in order. -/
theorem settled (answering : Answering greets reply message asks answers log)
    (responded : Responded greets reply log sent)
    (read : log.map message <+: pushed) (came : heard <+: sent)
    (enough : (pushed.filter asks).length ≤ (heard.filter answers).length) :
    (log.map message).filter asks = pushed.filter asks ∧
      heard.filter answers = (log.flatMap reply).filter answers := by
  obtain ⟨greeting, each, inside⟩ := responded
  have silent : greeting.filter answers = [] :=
    List.filter_eq_nil_iff.mpr fun m member => by simp [answering.greeting m (each m member)]
  have within : (heard.filter answers).Sublist ((log.flatMap reply).filter answers) := by
    have all := (came.sublist.trans inside).filter answers
    rwa [List.filter_append, silent, List.nil_append] at all
  have taken : (log.map message).filter asks <+: pushed.filter asks := read.filter asks
  have most := answers_length answering
  have less := within.length_le
  have few := taken.length_le
  exact ⟨taken.eq_of_length (by omega), within.eq_of_length (by omega)⟩

/-- If there are as many answers as questions, each question got one of its own. -/
theorem paired (answering : Answering greets reply message asks answers log)
    (enough : ((log.map message).filter asks).length ≤ ((log.flatMap reply).filter answers).length) :
    List.Forall₂ (fun e answer => (reply e).filter answers = [answer]) (log.filter fun e => asks (message e))
      ((log.flatMap reply).filter answers) := by
  induction log with
  | nil => exact .nil
  | cons e log ih =>
    have rest : Answering greets reply message asks answers log :=
      ⟨answering.greeting, fun f member => answering.once f (List.mem_cons_of_mem e member),
        fun f member => answering.asked f (List.mem_cons_of_mem e member)⟩
    have most := answers_length rest
    rw [List.flatMap_cons, List.filter_append, List.length_append, List.map_cons, List.filter_cons] at enough
    rw [List.flatMap_cons, List.filter_append, List.filter_cons]
    cases asked : asks (message e) with
    | true =>
      have once := answering.once e List.mem_cons_self
      simp only [asked, if_true, List.length_cons] at enough
      obtain ⟨answer, one⟩ := List.length_eq_one_iff.mp (show ((reply e).filter answers).length = 1 by omega)
      rw [one, if_pos rfl, List.singleton_append]
      exact .cons one (ih rest (by omega))
    | false =>
      have silent := answering.asked e List.mem_cons_self asked
      simp only [asked, silent, List.length_nil, Nat.zero_add, Bool.false_eq_true, if_false] at enough
      rw [silent, List.nil_append, if_neg Bool.false_ne_true]
      exact ih rest enough

theorem read_through {consumed front back : List α} {mark : α} (read : consumed <+: front ++ mark :: back)
    (reached : ∃ m ∈ consumed, asks m = true) (clear : ∀ m ∈ front, asks m = false) :
    front ++ [mark] <+: consumed := by
  obtain ⟨m, member, asked⟩ := reached
  have whole : front ++ [mark] <+: front ++ mark :: back := ⟨back, List.append_cons front mark back |>.symm⟩
  rcases Nat.lt_or_ge front.length consumed.length with long | short
  · exact List.prefix_of_prefix_length_le whole read (by simp; omega)
  · have inside : consumed <+: front := List.prefix_of_prefix_length_le read (List.prefix_append _ _) short
    rw [clear m (inside.subset member)] at asked
    exact absurd asked Bool.false_ne_true

theorem prefix_eq_of_asks {part front : List α} {last : α} (inside : part <+: front ++ [last])
    (asked : asks last = true)
    (enough : ((front ++ [last]).filter asks).length ≤ (part.filter asks).length) : part = front ++ [last] := by
  rcases Nat.lt_or_ge front.length part.length with long | short
  · apply inside.eq_of_length_le
    rw [List.length_append, List.length_singleton]
    omega
  · have less := ((List.prefix_of_prefix_length_le inside (List.prefix_append _ _) short).filter asks).length_le
    rw [List.filter_append, List.filter_singleton, asked, List.length_append] at enough
    simp at enough
    omega

end Settling

end Foundation
