import Clipp.Cli.VerbsAnswered

open Foundation

namespace ClippProof.Cli

open ClippModel.Cli ClippModel.Clipboard ClippModel.Gateway ClippModel.Peers ClippModel.Peers.OneShot
  ClippModel.Registers ClippModel.Registers.RegisterStore ClippModel.Wire ClippModel.Wire.CryptoChannel
  ClippModel.Wire.Handshake ClippModel.Wire.Peer ClippModel.Wire.RegisterWire ClippProof.Gateway
  ClippProof.Peers ClippProof.Peers.OneShot ClippProof.Registers ClippProof.Wire ClippProof.Wire.Handshake

variable {κ σ U : Type} {N : Sodium κ σ} {caller : Caller} {events : List (MeshEvent U)} {pattern : Bytes}
  {ask : Bytes → Bytes} {answer : Bytes → Bytes → Verdict Bool} {I : Interview SweepStage Swept}
  {exchanges : List (Exchanged SweepStage)} {known : SweepStage} {e : Served U}

section Transcripts

/-- Where the names of a sweep come from: it is given one, or matches its pattern with a listing. -/
inductive Named (pattern : Bytes) : List (Exchanged SweepStage) → List Bytes → Prop where
  | given : hasWildcard pattern = false → isValidRegisterName pattern = true → Named pattern [] [pattern]
  | matched {x : Exchanged SweepStage} {entries : List RegisterListEntry} : hasWildcard pattern = true →
      x.question.frames = [tagRLST] → onList x.answer = .answered entries →
      Named pattern [x] (globTargets pattern entries)

end Transcripts

section Gateways

variable {needs : UInt8} {m : Mesh κ σ U (InterviewStage SweepStage Swept) Swept} {r : Finished Swept}
  {targets : List (Bytes × Bool)}

inductive Sought (pattern : Bytes) : List (Served U) → List Bytes → Prop where
  | given : hasWildcard pattern = false → isValidRegisterName pattern = true → Sought pattern [] [pattern]
  | matched {e : Served U} {frame : Bytes} {entries : List RegisterListEntry} : hasWildcard pattern = true →
      e.frame = tagRLST → e.replies.filter isAnswer = [frame] → onList frame = .answered entries →
      Sought pattern [e] (globTargets pattern entries)

def swept (pattern : Bytes) (targets : List (Bytes × Bool)) : Swept where
  absent := targets.any fun target => !target.2 && !hasWildcard pattern
  noMatch := targets.isEmpty

theorem globTargets_entry {entries : List RegisterListEntry} {name : Bytes} (member : name ∈ globTargets pattern entries) :
    ∃ entry ∈ entries, entry.name = name ∧ name ≠ [] := by
  obtain ⟨entry, inside, rfl⟩ := List.mem_map.mp member
  obtain ⟨listed, chosen⟩ := List.mem_filter.mp inside
  rw [Bool.and_eq_true, Bool.not_eq_true', List.isEmpty_eq_false_iff] at chosen
  exact ⟨entry, listed, rfl, chosen.1⟩

theorem globTargets_short {frame name : Bytes} {entries : List RegisterListEntry}
    (listed : onList frame = .answered entries) (member : name ∈ globTargets pattern entries) :
    name.length ≤ kMaxNameLen := by
  obtain ⟨entry, inside, rfl, -⟩ := globTargets_entry member
  rw [onList] at listed
  split_ifs at listed
  cases decoded : tryDecodeList (frame.drop 4) with
  | none => simp only [decoded, reduceCtorEq] at listed
  | some opened =>
    simp only [decoded, Verdict.answered.injEq] at listed
    subst listed
    exact ((list_bounded (Reader.whole_eq_some.mp decoded)).2 entry inside).1

theorem Named.short {front : List (Exchanged SweepStage)} {names : List Bytes} {name : Bytes}
    (named : Named pattern front names) (member : name ∈ names) : name.length ≤ kMaxNameLen := by
  cases named with
  | given plain valid =>
    rw [List.mem_singleton.mp member]
    exact validName_length valid
  | matched wild frames listed => exact globTargets_short listed member

/-- So many were counted at a gateway, and each of them is a frame of its own that it took, of which this holds. -/
def CountedAt (caller : Caller) (needs : UInt8) (m : Mesh κ σ U (InterviewStage SweepStage Swept) Swept)
    (I : Interview SweepStage Swept) (holds : Served U → Bytes → Prop) (counted : Nat) : Prop :=
  counted = 0 ∨ ∃ peer session log acts, caller.takes peer = true ∧
    GatewayAt caller (I.verb needs) m peer session log ∧ List.Sublist acts log ∧ acts.length = counted ∧
    ∀ e ∈ acts, ∃ target, holds e target

theorem CountedAt.imp {I : Interview SweepStage Swept} {holds further : Served U → Bytes → Prop} {n : Nat}
    (counted : CountedAt caller needs m I holds n) (each : ∀ e target, holds e target → further e target) :
    CountedAt caller needs m I further n := by
  apply counted.imp_right
  rintro ⟨peer, session, log, acts, takes, gateway, inside, length, all⟩
  exact ⟨peer, session, log, acts, takes, gateway, inside, length,
    fun e member => (all e member).imp fun target => each e target⟩

end Gateways

section Removal

variable {pattern : Bytes} {m : Mesh κ σ U (InterviewStage SweepStage Swept) Swept} {r : Finished Swept}
  {listing : List (Served U)} {names : List Bytes} {name : Bytes} {host : HostId}

theorem Sought.short (sought : Sought pattern listing names) (member : name ∈ names) : name.length ≤ kMaxNameLen := by
  cases sought with
  | given plain valid =>
    rw [List.mem_singleton.mp member]
    exact validName_length valid
  | matched wild frame answered listed => exact globTargets_short listed member

theorem Sought.valid (sought : Sought pattern listing names) (fit : ∀ e ∈ listing, WireFit e.serving.registers)
    (member : name ∈ names) : isValidRegisterName name = true := by
  cases sought with
  | given plain valid =>
    rw [List.mem_singleton.mp member]
    exact valid
  | @matched e frame entries wild asked answered listed =>
    have here := fit e (List.mem_singleton_self e)
    obtain rfl := Verdict.answered.inj ((asked_list here asked answered).symm.trans listed)
    obtain ⟨entry, inside, rfl, named⟩ := globTargets_entry member
    obtain ⟨q, resident, rfl⟩ := List.mem_map.mp inside
    have found := KeyedMap.find_self (List.mem_filter.mp (List.mem_of_mem_take resident)).1
    exact (here q.name q found named).1

end Removal

section Touch

variable {m : Mesh κ σ U (InterviewStage SweepStage Swept) Swept} {r : Finished Swept} {name : Bytes}

end Touch

end ClippProof.Cli
