import Clipp.Cli.GatewayVerbs
import Clipp.Gateway.Listing
import Clipp.Gateway.PutAgreement
import Clipp.Peers.RelayPayloads
import Clipp.Registers.LocalWrites

open Foundation

namespace ClippProof.Cli

open ClippModel.Cli ClippModel.Clipboard ClippModel.Gateway ClippModel.Peers ClippModel.Peers.OneShot
  ClippModel.Registers ClippModel.Registers.RegisterStore ClippModel.Wire ClippModel.Wire.CryptoChannel
  ClippModel.Wire.Peer ClippModel.Wire.RegisterWire ClippProof.Gateway ClippProof.Registers ClippProof.Wire

variable {U μ : Type} {e : Served U} {name answer : Bytes} {rec : RegisterRecord} {s : RegisterStore}

/-- The store holds what the wire can carry. -/
def WireFit (s : RegisterStore) : Prop := ∀ name r, s.records.find name = some r → RegisterFits r

theorem wireFit_run (localHost : HostId) (floor : Hlc) (steps : List GatewayStep) :
    WireFit (gatewayRun (defaultStore localHost floor) steps) :=
  ((residents_create _ localHost _ _ kMaxValueLen floor).run registerFits_closed steps).resident

theorem WireFit.names (fit : WireFit s) : NamesFit s := by
  intro name r found
  by_cases nameless : r.name = []
  · rw [nameless]
    exact Nat.zero_le _
  · exact validName_length (fit name r found nameless).1

theorem WireFit.caps (fit : WireFit s) (valid : isValidRegisterName name = true)
    (found : s.records.find name = some rec) : WithinCaps rec := by
  have key : rec.name = name := KeyedMap.find_key found
  have named : rec.name ≠ [] := by
    rw [key]
    exact validName_ne_nil valid
  exact ⟨validName_length (fit name rec found named).1, (fit name rec found named).2⟩

section Frames

theorem tagged_take {tag body : Bytes} (four : tag.length = 4) : (tag ++ body).take 4 = tag := by
  rw [← four, List.take_left]

theorem tagged_drop {tag body : Bytes} (four : tag.length = 4) : (tag ++ body).drop 4 = body := by
  rw [← four, List.drop_left]

theorem long_of_tag {frame tag : Bytes} (tagged : frame.take 4 = tag) (four : tag.length = 4) :
    ¬ frame.length < 4 := by
  have size := congrArg List.length tagged
  rw [List.length_take, four] at size
  omega

theorem sole_answer {frames : List Bytes} (few : frames.length ≤ 1) (one : frames.filter isAnswer = [answer]) :
    frames = [answer] := by
  have inside : answer ∈ frames := by
    have member : answer ∈ frames.filter isAnswer := by
      rw [one]
      exact List.mem_singleton_self answer
    exact List.mem_of_mem_filter member
  cases frames with
  | nil => cases inside
  | cons head rest =>
    obtain rfl : rest = [] := List.length_eq_zero_iff.mp (by rw [List.length_cons] at few; omega)
    rw [List.mem_singleton.mp inside]

theorem replies_of_register {tag : Bytes} (tagged : e.frame.take 4 = tag) (listed : tag ∈ [tagREGW, tagRGET, tagRLST]) :
    e.replies = (handleRegisterFrame e.serving true e.frame).getD [] := by
  have here : e.frame.take 4 ∈ [tagREGW, tagRGET, tagRLST] := tagged ▸ listed
  have long : ¬ e.frame.length < 4 := by
    rcases List.mem_cons.mp here with same | rest
    · exact long_of_tag same rfl
    · rcases List.mem_cons.mp rest with same | last
      · exact long_of_tag same rfl
      · exact long_of_tag (List.mem_singleton.mp last) rfl
  have other : ∀ tag ∈ [tagPING, tagCLIP, tagEOSY, tagCDEL, tagRCNT, tagNMAP], e.frame.take 4 ≠ tag := by
    intro tag member same
    rw [same] at here
    clear same
    revert tag
    decide
  rw [Served.replies, Served.handling, handleIncoming, if_neg long, if_neg (other _ (by decide)),
    if_neg (other _ (by decide)), if_neg (other _ (by decide)), if_neg (other _ (by decide)),
    if_neg (other _ (by decide)), if_neg (other _ (by decide)), registerReply]
  cases handleRegisterFrame e.serving true e.frame <;> rfl

theorem answered_register {tag : Bytes} (tagged : e.frame.take 4 = tag)
    (listed : tag ∈ [tagREGW, tagRGET, tagRLST]) (one : e.replies.filter isAnswer = [answer]) :
    handleRegisterFrame e.serving true e.frame = some [answer] := by
  have few : e.replies.length ≤ 1 := by
    apply replies_le_one
    rw [tagged]
    clear tagged
    revert tag
    decide
  have sole := sole_answer few one
  rw [replies_of_register tagged listed] at sole
  cases handled : handleRegisterFrame e.serving true e.frame with
  | none => rw [handled] at sole; cases sole
  | some frames => rw [handled] at sole; exact congrArg some sole

theorem daemon_of_handled {frame : Bytes} {frames : List Bytes} {d : Serving U}
    (handled : handleRegisterFrame d true frame = some frames) : d.registersDaemon = true := by
  rw [handleRegisterFrame] at handled
  by_contra absent
  simp [absent] at handled

end Frames

section Record

theorem encodeName_small (short : name.length ≤ kMaxNameLen) : u32Sized (encodeName name) = encodeName name := by
  apply u32Sized_eq
  rw [kMaxNameLen] at short
  simp only [encodeName, List.length_append, List.length_singleton, bigEndian_length]
  omega

def recordReply : Option RegisterRecord → Bytes
  | none => tagNONE
  | some rec => tagREGW ++ u32Sized (encodeRecord rec 0)

theorem rgetReply_valid {d : Serving U} (valid : isValidRegisterName name = true) :
    rgetReply d (encodeName name) = recordReply (d.registers.read d.clock name).result := by
  rw [rgetReply, tryDecodeName_encodeName (validName_length valid)]
  simp only [valid, Bool.not_true, Bool.false_eq_true, if_false]
  cases (d.registers.read d.clock name).result <;> rfl

theorem onRecord_none : onRecord name tagNONE = .answered none := by
  rw [onRecord, if_neg (by decide), onTag, if_pos (by decide)]

theorem onRecord_some (caps : WithinCaps rec) (named : rec.name = name) :
    onRecord name (tagREGW ++ u32Sized (encodeRecord rec 0)) = .answered (some rec) := by
  rw [onRecord, if_pos (tagged_take rfl), tagged_drop rfl, encoded_u32 caps, tryDecodeRecord_encodeRecord caps]
  simp only [named, ne_eq, not_true_eq_false, if_false]

theorem asked_record (valid : isValidRegisterName name = true) (fit : WireFit e.serving.registers)
    (frame : e.frame = tagRGET ++ u32Sized (encodeName name)) (one : e.replies.filter isAnswer = [answer]) :
    onRecord name answer = .answered (e.serving.registers.read e.serving.clock name).result := by
  have tagged : e.frame.take 4 = tagRGET := by rw [frame, tagged_take rfl]
  have handled := answered_register tagged (by decide) one
  have daemon := daemon_of_handled handled
  rw [handleRegisterFrame, tagged, daemon, frame, tagged_drop rfl, encodeName_small (validName_length valid),
    if_neg (by decide), if_neg (by decide), if_neg (by decide), if_neg (by decide), if_pos rfl,
    Option.some.injEq, List.singleton_inj, rgetReply_valid valid] at handled
  rcases read_cases e.serving.registers e.serving.clock name with ⟨missed, -, -⟩ | ⟨r, live, -, equal⟩
  · rw [missed] at handled ⊢
    rw [← handled]
    exact onRecord_none
  · rw [equal] at handled ⊢
    have caps := fit.caps valid (unexpired_eq_some.mp live).1
    rw [← handled]
    have named : r.name = name := unexpired_name live
    exact onRecord_some caps named

end Record

section List

theorem asked_list (fit : WireFit e.serving.registers) (frame : e.frame = tagRLST)
    (one : e.replies.filter isAnswer = [answer]) : onList answer = .answered
      (((liveRecords e.serving.registers e.serving.clock).take kMaxDigestEntries).map
        fun r => shipped (listEntry e.serving.names r)) := by
  have tagged : e.frame.take 4 = tagRLST := by rw [frame]; rfl
  have handled := answered_register tagged (by decide) one
  have daemon := daemon_of_handled handled
  rw [handleRegisterFrame, tagged, daemon, if_neg (by decide), if_neg (by decide), if_neg (by decide),
    if_neg (by decide), if_neg (by decide), if_neg (by decide), if_pos rfl, Option.some.injEq,
    List.singleton_inj] at handled
  have size : (listResponse e.serving.names e.serving.registers e.serving.clock).length ≤ 3 + 1024 * 495 :=
    listResponse_length fit.names
  rw [← handled, onList, if_pos (tagged_take rfl), tagged_drop rfl, u32Sized_eq (by omega), decoded_response fit.names]

end List

section Recent

def newestText (e : Served U) : Option ClipboardPayload :=
  (e.serving.activity.itemsSince (List.replicate 16 0) 1).getLast?.filter fun payload =>
    !payload.encoded.isEmpty ∧ payload.meta_.formatId = clippFormatUtf8

theorem rcntReply_newest (e : Served U) :
    rcntReply e.serving.activity = (newestText e).elim tagNONE clipboardFrame := by
  rw [rcntReply, newestText]
  cases (e.serving.activity.itemsSince (List.replicate 16 0) 1).getLast? with
  | none => rfl
  | some payload =>
    by_cases servable : !payload.encoded.isEmpty ∧ payload.meta_.formatId = clippFormatUtf8
    · simp [Option.filter, servable]
    · simp only [Option.filter, servable, if_false, decide_false, Bool.false_eq_true]
      rfl

theorem asked_recent {C : Codec} {windows : Bool} {bytes : Bytes} (frame : e.frame = tagRCNT)
    (one : e.replies.filter isAnswer = [answer]) (told : onRecent C windows answer = .answered (some bytes)) :
    ∃ payload, newestText e = some payload ∧ recentBytes C windows payload = some bytes := by
  have replies : e.replies = [rcntReply e.serving.activity] := by
    rw [Served.replies, Served.handling, handleIncoming, frame]
    rfl
  have sole := sole_answer (by rw [replies]; exact le_rfl) one
  rw [replies, rcntReply_newest, List.singleton_inj] at sole
  cases newest : newestText e with
  | none =>
    rw [newest] at sole
    rw [← sole] at told
    have missing : onRecent C windows tagNONE = .answered none := by
      rw [onRecent, if_neg (by decide), onTag, if_pos (by decide)]
    cases missing.symm.trans told
  | some payload =>
    rw [newest, Option.elim_some] at sole
    rw [← sole, onRecent, if_pos (ClippProof.Clipboard.clipboardFrame_tag payload)] at told
    cases opened : ClipboardWire.tryDecodeClipboardFrame (clipboardFrame payload) with
    | none => simp only [opened, reduceCtorEq] at told
    | some q =>
      have whole : dispatched (clipboardFrame payload) = some q := by
        rw [dispatched, if_pos (ClippProof.Clipboard.clipboardFrame_tag payload), opened]
      obtain rfl := ClippProof.Peers.OneShot.dispatched_own whole
      simp only [opened] at told
      split_ifs at told
      · simp at told
      · cases made : recentBytes C windows q with
        | none => simp [made] at told
        | some text =>
          simp only [made, Verdict.answered.injEq, Option.some.injEq] at told
          exact ⟨q, rfl, told ▸ made⟩

end Recent

section Write

/-- What a relayed write leaves: the store, the acknowledgement, and what goes out to the mesh. -/
def relayed (d : Serving U) (rec : RegisterRecord) : Handled :=
  let wrote := relayWrite d.registers d.clock rec
  if wrote.1 then
    let stored := wrote.2.2.getForBroadcast d.rebroadcast rec.name
    { store := stored.store, reply := some wrote.2.1, broadcast := stored.result.map (fun r => encodeRecord r 0) }
  else { store := wrote.2.2, reply := some wrote.2.1, broadcast := none }

/-- What the gateway did with a frame of the tag of a write. -/
def takenWrite (e : Served U) : Handled :=
  handleRegw e.serving.registers e.serving.clock e.serving.rebroadcast (e.frame.drop 4)

def stamped (e : Served U) (rec : RegisterRecord) : RegisterRecord :=
  writtenRecord rec.name rec.value rec.flags rec.originHostId (e.serving.registers.clock.now e.serving.clock.mint).1

/-- The time to live of the record is not over when it is handed on. -/
def Lasts (e : Served U) (rec : RegisterRecord) : Prop :=
  isExpired (stamped e rec) e.serving.rebroadcast e.serving.registers.ttlMs = false

/-- The write went in: the gateway has the record, and the mesh gets it. -/
def Accepted (e : Served U) (rec : RegisterRecord) : Prop :=
  (takenWrite e).store.records.find rec.name = some (stamped e rec) ∧
    (takenWrite e).broadcast = some (encodeRecord (stamped e rec) 0)

/-- The write left the store as it was, but for what had expired. -/
def Rejected (e : Served U) : Prop :=
  Dropped e.serving.clock.expiry e.serving.registers (takenWrite e).store ∧ (takenWrite e).broadcast = none

theorem relayWrite_value {t : Readings} (value : rec.isTombstone = false) : relayWrite s t rec =
    (decide (verdict s t rec.name rec.value = .ok),
      if verdict s t rec.name rec.value = .ok then tagROKW else tagRERR,
      settle s t rec.name rec.value rec.flags rec.originHostId (verdict s t rec.name rec.value)) := by
  rw [relayWrite, value, upsertWithFlags_eq]
  simp only [Bool.false_eq_true, if_false]
  split_ifs with accepted
  · rw [decide_eq_true accepted]
  · rw [decide_eq_false accepted]

theorem written_value (value : rec.isTombstone = false) (wrote : takenWrite e = relayed e.serving rec)
    (reply : answer = (relayWrite e.serving.registers e.serving.clock rec).2.1) :
    (answer = tagROKW ∧ (Accepted e rec ↔ Lasts e rec)) ∨ (answer = tagRERR ∧ Rejected e) := by
  rw [relayWrite_value value] at reply
  by_cases accepted : verdict e.serving.registers e.serving.clock rec.name rec.value = .ok
  · left
    rw [if_pos accepted] at reply
    refine ⟨reply, ?_⟩
    let settled := settle e.serving.registers e.serving.clock rec.name rec.value rec.flags rec.originHostId .ok
    have resident : settled.records.find rec.name = some (stamped e rec) :=
      install_find_self (r := stamped e rec) _
    have handed := getForBroadcast_result settled e.serving.rebroadcast rec.name
    rw [Accepted, wrote, relayed, relayWrite_value value]
    simp only [accepted, decide_true, if_true]
    change (settled.getForBroadcast e.serving.rebroadcast rec.name).store.records.find rec.name = _ ∧
      (settled.getForBroadcast e.serving.rebroadcast rec.name).result.map _ = _ ↔ _
    rw [handed]
    constructor
    · rintro ⟨-, broadcast⟩
      obtain ⟨r, alive, -⟩ := Option.map_eq_some_iff.mp broadcast
      obtain ⟨found, lasts⟩ := unexpired_eq_some.mp alive
      obtain rfl := Option.some.inj (resident.symm.trans found)
      exact lasts
    · intro lasts
      have alive : unexpired settled e.serving.rebroadcast rec.name = some (stamped e rec) :=
        unexpired_eq_some.mpr ⟨resident, lasts⟩
      refine ⟨(getForBroadcast_dropped settled e.serving.rebroadcast rec.name).find_of_unexpired alive, ?_⟩
      rw [alive, Option.map_some]
  · right
    rw [if_neg accepted] at reply
    refine ⟨reply, ?_⟩
    rw [Rejected, wrote, relayed, relayWrite_value value]
    simp only [accepted, decide_false, Bool.false_eq_true, if_false]
    exact ⟨settle_dropped accepted, trivial⟩

end Write

end ClippProof.Cli
