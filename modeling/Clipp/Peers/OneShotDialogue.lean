import Clipp.Peers.OneShotSteps

open Foundation

namespace ClippProof.Peers.OneShot

open ClippModel.Keys ClippModel.Peers ClippModel.Peers.OneShot ClippModel.Registers ClippModel.Wire
  ClippModel.Wire.Framing ClippModel.Wire.Handshake ClippProof.Wire.Handshake

structure Visit (τ : Type) where
  peer : DiscoveredPeer
  session : Nat
  state : τ

variable {κ σ U τ ρ : Type} {N : Sodium κ σ} {w : World κ σ} {s s' c : Session κ σ} {caller : Caller} {V : Verb τ ρ}
  {m next : Mesh κ σ U τ ρ} {a : Attempt τ} {v : Visit τ} {visits : List (Visit τ)} {r : Finished ρ}
  {log : List (Served U)} {k : Nat}

def Greets (message : Bytes) : Prop := message.take 4 = tagSYNC ∨ message.take 4 = tagRSYN

/-- A receive loop has read, answered and not left before its last frame. -/
structure Looping (log : List (Served U)) (s : Session κ σ) : Prop where
  server : s.role = .server
  past : ¬ Waits s
  read : heard s = kHandshakeDoneTag :: log.map Served.frame
  replied : Responded Greets Served.replies log (spoken s)
  stayed : ∀ e ∈ log.dropLast, e.handling ≠ .leave
  going : isOpen s.stage = true → ∀ e ∈ log, e.handling ≠ .leave

structure Speaks (loop : Option (List (Served U))) (s : Session κ σ) : Prop where
  early : Waits s → spoken s = [] ∧ heard s = []
  mute : s.role = .server → loop = none → spoken s = []
  ready : s.role = .server → loop = none → s.stage = .established → heard s = [kHandshakeDoneTag]
  looping : ∀ log ∈ loop, Looping log s

def Proceeds (V : Verb τ ρ) (a : Attempt τ) (c : Session κ σ) : Prop :=
  match a.phase with
  | .connecting => c.stage = .established → spoken c = [kHandshakeDoneTag] ∧ heard c = []
  | .exchanging state => isOpen c.stage = true ∧ admits V.needs a.peer c = true ∧
      ∃ pushed, V.exchange.Talk Fits pushed (heard c) state ∧ spoken c = kHandshakeDoneTag :: pushed

structure Calling (caller : Caller) (V : Verb τ ρ) (w : World κ σ) (a : Attempt τ) : Prop where
  takes : caller.takes a.peer = true
  session : ∃ c, w[a.session]? = some c ∧ c.role = .client ∧ c.root = caller.root ∧ Proceeds V a c

structure Concluded (caller : Caller) (V : Verb τ ρ) (v : Visit τ) (c : Session κ σ) : Prop where
  client : c.role = .client
  root : c.root = caller.root
  past : c.stage = .closed
  admitted : admits V.needs v.peer c = true
  talk : ∃ pushed, V.exchange.Talk Fits pushed (heard c) v.state ∧ spoken c = kHandshakeDoneTag :: pushed

structure Ended (caller : Caller) (V : Verb τ ρ) (w : World κ σ) (v : Visit τ) : Prop where
  takes : caller.takes v.peer = true
  session : ∃ c, w[v.session]? = some c ∧ Concluded caller V v c

/-- The exchanges of the verb so far: what was counted comes of them, and the result of the last. -/
structure Tally (caller : Caller) (V : Verb τ ρ) (m : Mesh κ σ U τ ρ) (visits : List (Visit τ)) : Prop where
  each : ∀ v ∈ visits, Ended caller V m.world v
  counted : m.counted = (visits.map fun v => V.counts v.state).sum
  last : ∀ r ∈ m.result, ∃ before state, visits = before ++ [{ peer := r.peer, session := r.session, state := state }] ∧
    V.exchange.act state = .leave (some r.value)

structure Sane (N : Sodium κ σ) (caller : Caller) (V : Verb τ ρ) (m : Mesh κ σ U τ ρ) : Prop where
  sound : Sound N m.world
  speaks : ∀ k s, m.world[k]? = some s → Speaks (m.loops k) s
  beyond : ∀ k, m.world.length ≤ k → m.loops k = none
  calling : ∀ a ∈ m.trying, Calling caller V m.world a
  tally : ∃ visits, Tally caller V m visits
  idle : m.result.isSome = true → m.trying = none

structure Alike (s s' : Session κ σ) : Prop where
  role : s'.role = s.role
  root : s'.root = s.root
  stage : s'.stage = s.stage
  remote : s'.remotePlaintext = s.remotePlaintext
  spoken : spoken s' = spoken s
  heard : heard s' = heard s

theorem Alike.refl (s : Session κ σ) : Alike s s := ⟨rfl, rfl, rfl, rfl, rfl, rfl⟩

section Keeping

theorem alike_of_open (opened : isOpen s.stage = true) (closed : s.stage = .closed) : Alike s s' := by
  rw [closed] at opened
  exact absurd opened Bool.false_ne_true

theorem Alike.waits (alike : Alike s s') : Waits s' ↔ Waits s := by rw [Waits, Waits, alike.stage]

theorem Alike.admits (alike : Alike s s') (needs : UInt8) (peer : DiscoveredPeer) :
    admits needs peer s' = admits needs peer s := by
  simp only [ClippModel.Peers.OneShot.admits, alike.remote]

theorem Alike.looping (alike : Alike s s') (looping : Looping log s) : Looping log s' where
  server := alike.role.trans looping.server
  past waits := looping.past (alike.waits.mp waits)
  read := alike.heard.trans looping.read
  replied := alike.spoken ▸ looping.replied
  stayed := looping.stayed
  going opened := looping.going (alike.stage ▸ opened)

theorem Alike.speaks {loop : Option (List (Served U))} (alike : Alike s s') (speaks : Speaks loop s) :
    Speaks loop s' where
  early waits := by
    rw [alike.spoken, alike.heard]
    exact speaks.early (alike.waits.mp waits)
  mute server silent := alike.spoken.trans (speaks.mute (alike.role.symm.trans server) silent)
  ready server silent here := alike.heard.trans
    (speaks.ready (alike.role.symm.trans server) silent (alike.stage.symm.trans here))
  looping log member := alike.looping (speaks.looping log member)

theorem Alike.proceeds (alike : Alike s s') (proceeds : Proceeds V a s) : Proceeds V a s' := by
  unfold Proceeds at proceeds ⊢
  rw [alike.stage, alike.spoken, alike.heard, alike.admits]
  exact proceeds

theorem Alike.concluded (alike : Alike s s') (concluded : Concluded caller V v s) : Concluded caller V v s' where
  client := alike.role.trans concluded.client
  root := alike.root.trans concluded.root
  past := alike.stage.trans concluded.past
  admitted := (alike.admits _ _).trans concluded.admitted
  talk := by
    rw [alike.spoken, alike.heard]
    exact concluded.talk

theorem Calling.set (calling : Calling caller V w a) (here : w[k]? = some s)
    (grows : Grows s s') (keeps : a.session = k → s.role = .client → Proceeds V a s → Proceeds V a s') :
    Calling caller V (w.set k s') a := by
  obtain ⟨takes, c, there, client, root, proceeds⟩ := calling
  refine ⟨takes, ?_⟩
  by_cases same : a.session = k
  · have further := keeps same
    subst same
    obtain rfl := Option.some.inj (there.symm.trans here)
    have inside : a.session < w.length := (List.getElem?_eq_some_iff.mp here).1
    exact ⟨s', by simp [inside], grows.role.trans client, grows.root.trans root, further client proceeds⟩
  · exact ⟨c, by rw [List.getElem?_set_ne (Ne.symm same), there], client, root, proceeds⟩

theorem Ended.set (ended : Ended caller V w v) (here : w[k]? = some s) (keeps : s.stage = .closed → Alike s s') :
    Ended caller V (w.set k s') v := by
  obtain ⟨takes, c, there, concluded⟩ := ended
  refine ⟨takes, ?_⟩
  by_cases same : v.session = k
  · subst same
    obtain rfl := Option.some.inj (there.symm.trans here)
    have inside : v.session < w.length := (List.getElem?_eq_some_iff.mp here).1
    exact ⟨s', by simp [inside], (keeps concluded.past).concluded concluded⟩
  · exact ⟨c, by rw [List.getElem?_set_ne (Ne.symm same), there], concluded⟩

theorem Calling.append (calling : Calling caller V w a) (more : World κ σ) : Calling caller V (w ++ more) a := by
  obtain ⟨takes, c, there, rest⟩ := calling
  exact ⟨takes, c, by rw [List.getElem?_append_left (List.getElem?_eq_some_iff.mp there).1, there], rest⟩

theorem Ended.append (ended : Ended caller V w v) (more : World κ σ) : Ended caller V (w ++ more) v := by
  obtain ⟨takes, c, there, rest⟩ := ended
  exact ⟨takes, c, by rw [List.getElem?_append_left (List.getElem?_eq_some_iff.mp there).1, there], rest⟩

theorem Tally.keep (tally : Tally caller V m visits)
    (each : ∀ v, Ended caller V m.world v → Ended caller V next.world v) (counted : next.counted = m.counted)
    (result : next.result = m.result) : Tally caller V next visits where
  each v member := each v (tally.each v member)
  counted := counted.trans tally.counted
  last r member := tally.last r (result ▸ member)

theorem Sane.tallied (sane : Sane N caller V m) (here : m.world[k]? = some s) (keeps : s.stage = .closed → Alike s s')
    (world : next.world = m.world.set k s') (counted : next.counted = m.counted) (result : next.result = m.result) :
    ∃ visits, Tally caller V next visits :=
  sane.tally.imp fun _ tally => tally.keep (fun _ ended => world ▸ ended.set here keeps) counted result

theorem Sane.set (sane : Sane N caller V m) (here : m.world[k]? = some s) (moves : Advances N m.world s s')
    (staged : Staged N s') (speaks : Speaks (next.loops k) s')
    (world : next.world = m.world.set k s') (loops : ∀ i, i ≠ k → next.loops i = m.loops i)
    (calling : ∀ a ∈ next.trying, Calling caller V next.world a) (tally : ∃ visits, Tally caller V next visits)
    (idle : next.result.isSome = true → next.trying = none) : Sane N caller V next where
  sound := by
    rw [world]
    exact sane.sound.set here moves staged
  speaks i t found := by
    rw [world] at found
    rcases set_cases found with ⟨rfl, rfl⟩ | ⟨away, old⟩
    · exact speaks
    · rw [loops i away]
      exact sane.speaks i t old
  beyond i far := by
    rw [world, List.length_set] at far
    have away : i ≠ k := by
      have inside := (List.getElem?_eq_some_iff.mp here).1
      omega
    rw [loops i away]
    exact sane.beyond i far
  calling := calling
  tally := tally
  idle := idle

theorem Sane.append (sane : Sane N caller V m) (sound : Sound N (m.world ++ [s'])) (speaks : Speaks (U := U) none s')
    (world : next.world = m.world ++ [s']) (loops : next.loops = m.loops)
    (calling : ∀ a ∈ next.trying, Calling caller V next.world a) (counted : next.counted = m.counted)
    (result : next.result = m.result) (idle : next.result.isSome = true → next.trying = none) :
    Sane N caller V next where
  sound := by
    rw [world]
    exact sound
  speaks i t found := by
    rw [world] at found
    rw [loops]
    by_cases inside : i < m.world.length
    · rw [List.getElem?_append_left inside] at found
      exact sane.speaks i t found
    · have far := Nat.le_of_not_lt inside
      rw [List.getElem?_append_right far] at found
      obtain ⟨zero, single⟩ := List.getElem?_eq_some_iff.mp found
      obtain rfl : s' = t := by simpa using single
      rw [sane.beyond i far]
      exact speaks
  beyond i far := by
    rw [world, List.length_append] at far
    rw [loops]
    exact sane.beyond i (by omega)
  calling := calling
  tally := sane.tally.imp fun _ tally => tally.keep (fun _ ended => world ▸ ended.append [s']) counted result
  idle := idle

end Keeping

section Elsewhere

variable {t : Turn} {frame : Framing.Frame} {link : Link}

theorem Sane.grows (sane : Sane N caller V m) (here : m.world[k]? = some s) (moves : Advances N m.world s s') :
    Grows s s' := ((sane.sound.each s (List.mem_of_getElem? here)).1.moves moves).2.1

theorem Sane.turn (sane : Sane N caller V m) (here : m.world[k]? = some s) (moves : Advances N m.world s s')
    (staged : Staged N s') (speaks : Speaks (m.loops k) s') (keeps : s.stage = .closed → Alike s s')
    (proceeds : ∀ a ∈ m.trying, a.session = k → s.role = .client → Proceeds V a s → Proceeds V a s') :
    Sane N caller V { m with world := m.world.set k s' } :=
  sane.set here moves staged speaks rfl (fun _ _ => rfl)
    (fun a member => (sane.calling a member).set here (sane.grows here moves) (proceeds a member))
    (sane.tallied here keeps rfl rfl rfl) sane.idle

theorem Sane.unlooped (sane : Sane N caller V m) (here : m.world[k]? = some s) (client : s.role = .client) :
    m.loops k = none := by
  cases looped : m.loops k with
  | none => rfl
  | some log =>
    have server := ((sane.speaks k s here).looping log looped).server
    exact absurd (client.symm.trans server) (by decide)

theorem Sane.join (sane : Sane N caller V m) (sound : Sound N (m.world ++ [s']))
    (speaks : Speaks (U := U) none s') : Sane N caller V { m with world := m.world ++ [s'] } :=
  sane.append sound speaks rfl rfl (fun a member => (sane.calling a member).append [s']) rfl rfl sane.idle

theorem speaks_of_begins {role : Role} (begins : Begins role s) (same : s.role = role) : Speaks (U := U) none s :=
  ⟨begins.waiting, fun server _ => begins.server (same.symm.trans server),
    fun server _ => begins.listening (same.symm.trans server), fun _ member => absurd member (Option.not_mem_none _)⟩

theorem clientStart_role (N : Sodium κ σ) (t : Turn) (root : NetworkKey) (keys : NetworkKeys) (localHostId : HostId)
    (name : Bytes) : (Session.clientStart N t root keys localHostId name).role = .client ∧
      (Session.clientStart N t root keys localHostId name).root = root := by
  simp only [Session.clientStart]
  split <;> rename_i result <;> obtain ⟨-, rfl⟩ := Prod.mk.inj result <;> exact ⟨rfl, rfl⟩

theorem Speaks.client (client : s.role = .client) (past : ¬ Waits s) : Speaks (U := U) none s :=
  ⟨fun waits => absurd waits past, fun server => absurd (client.symm.trans server) (by decide),
    fun server => absurd (client.symm.trans server) (by decide), fun _ member => absurd member (Option.not_mem_none _)⟩

theorem advance_past (N : Sodium κ σ) (t : Turn) (past : ¬ Waits s) : s.advance N t = s := by
  rw [Session.advance]
  cases here : s.stage with
  | established => rfl
  | closed => rfl
  | reply _ => exact absurd ⟨by simp [here], by simp [here]⟩ past
  | serverHeader _ => exact absurd ⟨by simp [here], by simp [here]⟩ past
  | hello => exact absurd ⟨by simp [here], by simp [here]⟩ past
  | clientHeader _ => exact absurd ⟨by simp [here], by simp [here]⟩ past
  | handshakeDone => exact absurd ⟨by simp [here], by simp [here]⟩ past

theorem Sane.deliver (sane : Sane N caller V m) (here : m.world[k]? = some s) (chunk : Bytes) :
    Sane N caller V { m with world := m.world.set k (s.deliver chunk) } := by
  have alike : Alike s (s.deliver chunk) := ⟨rfl, rfl, rfl, rfl, rfl, rfl⟩
  have moves : Advances N m.world s (s.deliver chunk) := Advances.quiet .refl s.stage _ s.written
  have staged := (sane.sound.each s (List.mem_of_getElem? here)).2
  exact sane.turn here moves staged (alike.speaks (sane.speaks k s here)) (fun _ => alike)
    fun _ _ _ _ proceeds => alike.proceeds proceeds

theorem Sane.advance (sane : Sane N caller V m) (here : m.world[k]? = some s)
    (genuine : GenuineAt N m.world t s s.stage) :
    Sane N caller V { m with world := m.world.set k (s.advance N t) } := by
  have before := sane.speaks k s here
  have staged := (sane.sound.each s (List.mem_of_getElem? here)).2
  obtain ⟨moves, further⟩ := advance_moves staged genuine
  have grows := sane.grows here moves
  by_cases waits : Waits s
  · obtain ⟨said, listened⟩ := before.early waits
    have begins := advance_begins (t := t) staged waits said listened
    have unlooped : m.loops k = none := by
      cases looped : m.loops k with
      | none => rfl
      | some log => exact absurd waits (before.looping log looped).past
    have speaks : Speaks (m.loops k) (s.advance N t) := by
      rw [unlooped]
      exact speaks_of_begins begins grows.role
    apply sane.turn here moves further speaks fun closed => absurd closed waits.2
    intro a _ _ client proceeds
    unfold Proceeds at proceeds ⊢
    cases phase : a.phase with
    | connecting =>
      simp only [phase] at proceeds ⊢
      exact begins.client client
    | exchanging state =>
      simp only [phase] at proceeds
      exact absurd waits (fun waits => waits.1 (opened_stage proceeds.1))
  · rw [advance_past N t waits]
    exact sane.turn here .refl staged before (fun _ => .refl s) fun _ _ _ _ proceeds => proceeds

theorem Sane.other (sane : Sane N caller V m) (here : m.world[k]? = some s) (moves : Advances N m.world s s')
    (staged : Staged N s') (client : s.role = .client) (opened : isOpen s.stage = true) (past : ¬ Waits s')
    (away : ∀ a ∈ m.trying, a.session ≠ k) : Sane N caller V { m with world := m.world.set k s' } := by
  have grows := sane.grows here moves
  have speaks : Speaks (m.loops k) s' := by
    rw [sane.unlooped here client]
    exact .client (grows.role.trans client) past
  apply sane.turn here moves staged speaks
  · intro closed
    rw [closed] at opened
    exact absurd opened Bool.false_ne_true
  · exact fun a member same => absurd same (away a member)

theorem Sane.elsewhere {event : Event} {world : World κ σ} (sane : Sane N caller V m)
    (genuine : Genuine N m.world event) (others : m.Others event) (taken : World.step N m.world event = some world) :
    Sane N caller V { m with world := world } := by
  have sound := sane.sound.step genuine taken
  cases event with
  | dial root localHostId name t =>
    obtain ⟨keys, derived, rfl⟩ := Option.map_eq_some_iff.mp taken
    exact sane.join sound (speaks_of_begins (clientStart_begins root keys localHostId name)
      (clientStart_role N t root keys localHostId name).1)
  | accept root =>
    obtain ⟨keys, derived, rfl⟩ := Option.map_eq_some_iff.mp taken
    have begins : Begins .server (Session.opened (σ := σ) .server root keys (.hello : Stage κ)) :=
      .silent rfl rfl (unfinished rfl)
    exact sane.join sound (speaks_of_begins begins rfl)
  | deliver k chunk =>
    obtain ⟨s, s', here, went, rfl⟩ := go_cases taken
    obtain rfl := Option.some.inj went
    exact sane.deliver here chunk
  | advance k t =>
    obtain ⟨s, s', here, went, rfl⟩ := go_cases taken
    obtain rfl := Option.some.inj went
    exact sane.advance here (genuine s here)
  | send k frame link =>
    obtain ⟨s, s', here, went, rfl⟩ := go_cases taken
    obtain ⟨client, opened, away⟩ := others s here
    split_ifs at went
    obtain rfl := Option.some.inj went
    have stage := sendFrame_stage N link frame.tag4 frame.bodyA frame.bodyB s
    have here' := stage.trans (opened_stage opened)
    exact sane.other here (sendFrame_moves N m.world link frame.tag4 frame.bodyA frame.bodyB s).1
      (finished_staged (.inl here')) client opened (fun waits => waits.1 here') away
  | receive k =>
    obtain ⟨s, s', here, went, rfl⟩ := go_cases taken
    obtain ⟨client, opened, away⟩ := others s here
    split_ifs at went
    obtain rfl := Option.some.inj went
    obtain ⟨moves, staged⟩ := receive_moves (genuine s here) (.inl (opened_stage opened))
    have past : ¬ Waits (s.receive N) := by
      obtain ⟨rx, inbox, after, -⟩ := recvFrame_heard N s
      rw [Session.receive]
      split <;> rename_i result <;> rw [result] at after <;> subst after
      · exact fun waits => waits.2 rfl
      · exact fun waits => waits.1 (opened_stage opened)
    exact sane.other here moves staged client opened past away

end Elsewhere

section Calls

variable {link : Link} {peer : DiscoveredPeer} {connected : Option Turn}

theorem Sane.matched (sane : Sane N caller V m) : Sane N caller V { m with filterMatched := true } :=
  ⟨sane.sound, sane.speaks, sane.beyond, sane.calling,
    sane.tally.imp fun _ tally => tally.keep (fun _ ended => ended) rfl rfl, sane.idle⟩

theorem Sane.tries (sane : Sane N caller V m) (trying : Option (Attempt τ)) (result : m.result = none)
    (calling : ∀ a ∈ trying, Calling caller V m.world a) : Sane N caller V { m with trying := trying } where
  sound := sane.sound
  speaks := sane.speaks
  beyond := sane.beyond
  calling := calling
  tally := sane.tally.imp fun _ tally => tally.keep (fun _ ended => ended) rfl rfl
  idle has := by
    rw [result] at has
    exact absurd has Bool.false_ne_true

theorem Sane.found (sane : Sane N caller V m) (fresh : ∀ t ∈ connected, FreshKey N m.world t.secretKey)
    (taken : m.found N caller peer connected = some next) : Sane N caller V next := by
  unfold Mesh.found at taken
  split_ifs at taken with busy skipped
  · obtain rfl := Option.some.inj taken
    exact sane
  · have takes : caller.takes peer = true := by simpa using skipped
    have free : m.result = none := by
      cases result : m.result with
      | none => rfl
      | some r => simp [result] at busy
    split at taken
    · rename_i t keys derived
      obtain rfl := Option.some.inj taken
      obtain ⟨role, root⟩ := clientStart_role N t caller.root keys caller.localHostId caller.localHostName
      obtain ⟨stage, moved, staged⟩ :=
        clientStart_moves (w := m.world) caller.root keys caller.localHostId caller.localHostName (fresh t rfl)
      have begins := clientStart_begins (N := N) (t := t) caller.root keys caller.localHostId caller.localHostName
      have sound := sane.sound.append (opened_grounded .client stage derived) moved staged rfl
      refine sane.append sound (speaks_of_begins begins role) rfl rfl ?_ rfl rfl fun has => by simp [free] at has
      intro a same
      obtain rfl := Option.some.inj same
      refine ⟨takes, _, List.getElem?_concat_length, role, root, ?_⟩
      exact begins.client rfl
    · obtain rfl := Option.some.inj taken
      exact sane.matched

theorem Sane.goesOn (sane : Sane N caller V m) (trying : a ∈ m.trying) (here : m.world[a.session]? = some s)
    (opened : isOpen s.stage = true) (moves : Advances N m.world s s') (stays : isOpen s'.stage = true)
    (phase : Phase τ) (proceeds : Proceeds V { a with phase := phase } s') :
    Sane N caller V { m with world := m.world.set a.session s', trying := some { a with phase := phase } } := by
  obtain ⟨takes, c, there, client, root, -⟩ := sane.calling a trying
  obtain rfl := Option.some.inj (here.symm.trans there)
  have grows := sane.grows here moves
  have inside : a.session < m.world.length := (List.getElem?_eq_some_iff.mp here).1
  have speaks : Speaks (m.loops a.session) s' := by
    rw [sane.unlooped here client]
    exact .client (grows.role.trans client) fun waits => waits.1 (opened_stage stays)
  refine sane.set here moves (finished_staged (.inl (opened_stage stays))) speaks rfl (fun _ _ => rfl)
    (fun b member => ?_) (sane.tallied here (alike_of_open opened) rfl rfl rfl) (fun has => ?_)
  · obtain rfl := Option.some.inj member
    exact ⟨takes, s', by simp [inside], grows.role.trans client, grows.root.trans root, proceeds⟩
  · exact absurd ((sane.idle has).symm.trans trying) (Option.some_ne_none a).symm

theorem Sane.hangsUp (sane : Sane N caller V m) (trying : a ∈ m.trying) (here : m.world[a.session]? = some s)
    (world : next.world = m.world.set a.session s.close) (loops : next.loops = m.loops) (idle : next.trying = none)
    (tally : ∃ visits, Tally caller V next visits) : Sane N caller V next := by
  obtain ⟨takes, c, there, client, root, -⟩ := sane.calling a trying
  obtain rfl := Option.some.inj (here.symm.trans there)
  have speaks : Speaks (next.loops a.session) s.close := by
    rw [loops, sane.unlooped here client]
    exact .client client fun waits => waits.2 rfl
  refine sane.set here (Advances.close .refl) trivial speaks world (fun _ _ => by rw [loops])
    (fun _ member => ?_) tally fun _ => idle
  rw [idle] at member
  exact absurd member (Option.not_mem_none _)

theorem Sane.visited (sane : Sane N caller V m) (trying : a ∈ m.trying) (here : m.world[a.session]? = some s)
    (opened : isOpen s.stage = true) {state : τ} {result : Option ρ}
    (concluded : Concluded caller V { peer := a.peer, session := a.session, state := state } s.close)
    (act : V.exchange.act state = .leave result) :
    Sane N caller V { m with
      world := m.world.set a.session s.close
      counted := m.counted + V.counts state
      trying := none
      result := result.map fun value => { peer := a.peer, session := a.session, value := value } } := by
  obtain ⟨visits, tally⟩ := sane.tally
  have inside : a.session < m.world.length := (List.getElem?_eq_some_iff.mp here).1
  refine sane.hangsUp trying here rfl rfl rfl
    ⟨visits ++ [{ peer := a.peer, session := a.session, state := state }], fun v member => ?_, ?_, fun r member => ?_⟩
  · rcases List.mem_append.mp member with earlier | last
    · exact (tally.each v earlier).set here (alike_of_open opened)
    · obtain rfl := List.mem_singleton.mp last
      exact ⟨(sane.calling a trying).takes, s.close, by simp [inside], concluded⟩
  · rw [List.map_append, List.sum_append, ← tally.counted]
    rfl
  · obtain ⟨value, same, rfl⟩ := Option.map_eq_some_iff.mp member
    exact ⟨visits, state, rfl, by rw [act, same]⟩

theorem Sane.proceed (sane : Sane N caller V m)
    (genuine : ∀ a ∈ m.trying, ∀ s ∈ m.world[a.session]?, StreamGenuine N m.world s)
    (taken : m.proceed N V link = some next) : Sane N caller V next := by
  obtain ⟨a, trying, taken⟩ := Option.bind_eq_some_iff.mp taken
  obtain ⟨s, here, taken⟩ := Option.bind_eq_some_iff.mp taken
  obtain ⟨takes, c, there, client, root, proceeds⟩ := sane.calling a trying
  obtain rfl := Option.some.inj (here.symm.trans there)
  have free : m.result = none := by
    cases result : m.result with
    | none => rfl
    | some r => exact absurd ((sane.idle (by rw [result]; rfl)).symm.trans trying) (Option.some_ne_none a).symm
  unfold Proceeds at proceeds
  cases phase : a.phase with
  | connecting =>
    simp only [phase] at taken proceeds
    cases stage : s.stage with
    | closed =>
      simp only [stage, Option.some.injEq] at taken
      subst taken
      exact sane.tries none free fun _ member => absurd member (Option.not_mem_none _)
    | established =>
      obtain ⟨said, listened⟩ := proceeds stage
      have opened : isOpen s.stage = true := by rw [stage]; rfl
      simp only [stage] at taken
      split_ifs at taken with admitted <;> obtain rfl := Option.some.inj taken
      · apply sane.tries _ free
        intro b same
        obtain rfl := Option.some.inj same
        refine ⟨takes, s, here, client, root, opened, admitted, [], ?_, said⟩
        rw [listened]
        exact .start
      · exact sane.hangsUp trying here rfl rfl rfl (sane.tallied here (alike_of_open opened) rfl rfl rfl)
    | _ => simp only [stage, reduceCtorEq] at taken
  | exchanging state =>
    simp only [phase] at taken proceeds
    obtain ⟨opened, admitted, pushed, talk, said⟩ := proceeds
    cases act : V.exchange.act state with
    | send message then_ =>
      obtain ⟨tx, written, out, after, spoke, sent, sealed⟩ := sendFrame_spoken N link message s
      have moves := (sendFrame_moves N m.world link (message.take 4) (message.drop 4) [] s).1
      rw [after] at moves
      simp only [act, after, Option.some.injEq] at taken
      subst taken
      apply sane.goesOn trying here opened moves opened
      refine ⟨opened, admitted, pushed ++ out, .send _ out talk act sent sealed, ?_⟩
      rw [← List.cons_append, ← said]
      exact spoke
    | receive then_ =>
      obtain ⟨rx, inbox, after, got⟩ := recvFrame_heard N s
      have moves := (recvFrame_moves (genuine a trying s here)).1
      rw [after] at moves
      simp only [act, after, Option.some.injEq] at taken
      subst taken
      apply sane.goesOn trying here opened moves opened
      refine ⟨opened, admitted, pushed, ?_, said⟩
      have listened : heard { s with rxState := rx, inbox := inbox } = heard s ++ (s.recvFrame N).1.toList := got
      rw [listened]
      exact .receive _ talk act
    | leave result =>
      simp only [act, Option.some.injEq] at taken
      subst taken
      exact sane.visited trying here opened ⟨client, root, rfl, admitted, pushed, talk, said⟩ act

end Calls

section Gateways

variable {j : Nat} {d : Serving U} {link : Link}

theorem syncRequest_greets (firstIncoming : Bool) :
    ∀ message ∈ syncRequest .incoming firstIncoming, Greets message := by
  intro message member
  rw [syncRequest] at member
  split_ifs at member
  · obtain rfl := List.mem_singleton.mp member
    exact .inl rfl
  · exact absurd member List.not_mem_nil

theorem rsynRequest_greets (d : Serving U) : ∀ message ∈ rsynRequest d, Greets message := by
  intro message member
  rw [rsynRequest] at member
  split_ifs at member
  · obtain rfl := List.mem_singleton.mp member
    exact .inr rfl
  · exact absurd member List.not_mem_nil

theorem Sane.gateway (sane : Sane N caller V m) (here : m.world[j]? = some s) (opened : isOpen s.stage = true)
    (server : s.role = .server) (moves : Advances N m.world s s')
    (settled : s'.stage = .established ∨ s'.stage = .closed) (loop : Option (List (Served U))) (speaks : Speaks loop s') :
    Sane N caller V { m with world := m.world.set j s', loops := Function.update m.loops j loop } := by
  have grows := sane.grows here moves
  have now : Speaks (Function.update m.loops j loop j) s' := by
    rw [Function.update_self]
    exact speaks
  refine sane.set here moves (finished_staged settled) now rfl (fun i away => Function.update_of_ne away _ _)
    (fun a member => ?_) (sane.tallied here (alike_of_open opened) rfl rfl rfl) sane.idle
  exact (sane.calling a member).set here grows fun _ client => absurd (client.symm.trans server) (by decide)

theorem Looping.speaks (looping : Looping log s) : Speaks (some log) s where
  early waits := absurd waits looping.past
  mute _ none := absurd none (Option.some_ne_none log)
  ready _ none := absurd none (Option.some_ne_none log)
  looping _ same := Option.some.inj same ▸ looping

theorem Looping.begins (server : s.role = .server) (opened : isOpen s.stage = true)
    (listened : heard s = [kHandshakeDoneTag]) {greeting : List Bytes} (each : ∀ message ∈ greeting, Greets message)
    (part : (spoken s).Sublist greeting) : Looping ([] : List (Served U)) s where
  server := server
  past waits := waits.1 (opened_stage opened)
  read := listened
  replied := .greeted each part
  stayed _ member := absurd member List.not_mem_nil
  going _ _ member := absurd member List.not_mem_nil

theorem Sane.greet {firstIncoming : Bool} {syncLink rsynLink : Link} (sane : Sane N caller V m)
    (taken : m.greet N j d firstIncoming syncLink rsynLink = some next) : Sane N caller V next := by
  obtain ⟨s, here, taken⟩ := Option.bind_eq_some_iff.mp taken
  split_ifs at taken with begins
  obtain rfl := Option.some.inj taken
  obtain ⟨server, opened, silent⟩ := begins
  rw [Option.isNone_iff_eq_none] at silent
  have before := sane.speaks j s here
  have moves := (sendMessages_moves N m.world syncLink (syncRequest .incoming firstIncoming) s).trans
    (sendMessages_moves N m.world rsynLink (rsynRequest d) _)
  obtain ⟨tx, written, out, after, spoke, part⟩ :=
    sendMessages_spoken N syncLink (syncRequest .incoming firstIncoming) s
  rw [after] at moves
  obtain ⟨tx', written', more, after', spoke', part'⟩ :=
    sendMessages_spoken N rsynLink (rsynRequest d) { s with txState := tx, written := written }
  rw [after'] at moves
  simp only [after, after']
  have said : tx'.elim [] Strand.messages = out ++ more := by
    have early : spoken { s with txState := tx, written := written } = out := by
      rw [spoken, spoke, before.mute server silent, List.nil_append]
    rw [spoke', early]
  have each : ∀ message ∈ syncRequest .incoming firstIncoming ++ rsynRequest d, Greets message := by
    intro message member
    rcases List.mem_append.mp member with first | second
    · exact syncRequest_greets firstIncoming message first
    · exact rsynRequest_greets d message second
  have sublist : (spoken { s with txState := tx', written := written' }).Sublist
      (syncRequest .incoming firstIncoming ++ rsynRequest d) := by
    rw [spoken, said]
    exact part.append part'
  have looping := Looping.begins (U := U) (s := { s with txState := tx', written := written' }) server opened
    (before.ready server silent (opened_stage opened)) each sublist
  exact sane.gateway here opened server moves (.inl (opened_stage opened)) _ looping.speaks

theorem Looping.takes (before : Looping log s) (s' : Session κ σ) (opened : isOpen s.stage = true) (e : Served U)
    {out : List Bytes} (role : s'.role = s.role)
    (stage : s'.stage = .established ∧ e.handling ≠ .leave ∨ s'.stage = .closed)
    (listened : heard s' = heard s ++ [e.frame]) (spoke : spoken s' = spoken s ++ out)
    (part : out.Sublist e.replies) : Looping (log ++ [e]) s' where
  server := role.trans before.server
  past waits := stage.elim (fun stays => waits.1 stays.1) waits.2
  read := by
    rw [listened, before.read, List.map_append]
    rfl
  replied := by
    rw [spoke]
    exact before.replied.replied e part
  stayed := by
    rw [List.dropLast_concat]
    exact before.going opened
  going open' f member := by
    rcases List.mem_append.mp member with earlier | last
    · exact before.going opened f earlier
    · obtain rfl := List.mem_singleton.mp last
      rcases stage with ⟨-, minded⟩ | closed
      · exact minded
      · rw [closed] at open'
        exact absurd open' Bool.false_ne_true

theorem Sane.serve (sane : Sane N caller V m) (genuine : ∀ s ∈ m.world[j]?, StreamGenuine N m.world s)
    (taken : m.serve N j d link = some next) : Sane N caller V next := by
  obtain ⟨s, here, taken⟩ := Option.bind_eq_some_iff.mp taken
  obtain ⟨log, looped, taken⟩ := Option.bind_eq_some_iff.mp taken
  split_ifs at taken with opened
  have before := (sane.speaks j s here).looping log looped
  obtain ⟨rx, inbox, after, got⟩ := recvFrame_heard N s
  have moves := (recvFrame_moves (genuine s here)).1
  split at taken <;> rename_i result <;> rw [result] at after moves got <;> subst after
  · obtain rfl := Option.some.inj taken
    have quiet : heard { s with rxState := rx, inbox := inbox }.close = heard s := got.trans (List.append_nil _)
    have looping : Looping log { s with rxState := rx, inbox := inbox }.close :=
      ⟨before.server, fun waits => waits.2 rfl, quiet.trans before.read, before.replied, before.stayed,
        fun opened => absurd opened Bool.false_ne_true⟩
    apply sane.turn here moves.close trivial (by rw [looped]; exact looping.speaks)
    · intro closed
      rw [closed] at opened
      exact absurd opened Bool.false_ne_true
    · exact fun _ _ _ client => absurd (client.symm.trans before.server) (by decide)
  · rename_i frame
    have listened : ∀ s' : Session κ σ, s'.rxState = rx → heard s' = heard s ++ [frame] := by
      intro s' same
      rw [heard, same]
      exact got
    split at taken
    · rename_i leaves
      obtain rfl := Option.some.inj taken
      have looping := before.takes { s with rxState := rx, inbox := inbox }.close opened
        { serving := d, frame := frame } rfl (.inr rfl) (listened _ rfl) (List.append_nil _).symm (List.nil_sublist _)
      exact sane.gateway here opened before.server moves.close (.inr rfl) _ looping.speaks
    · rename_i frames checked replies
      have minded : ({ serving := d, frame := frame } : Served U).handling ≠ .leave := by
        rw [Served.handling, replies]
        exact Handling.noConfusion
      obtain ⟨tx, written, out, after, spoke, part⟩ :=
        sendMessages_spoken N link frames { s with rxState := rx, inbox := inbox }
      have further : Advances N m.world s _ := moves.trans (sendMessages_moves N m.world link frames _)
      have answers : out.Sublist ({ serving := d, frame := frame } : Served U).replies := by
        rw [Served.replies, Served.handling, replies]
        exact part
      have said : tx.elim [] Strand.messages = spoken s ++ out := spoke
      have here' := opened_stage opened
      split at taken <;> rename_i sent <;> rw [sent] at after further <;> subst after <;>
        obtain rfl := Option.some.inj taken
      · have looping := before.takes
          { s with rxState := rx, inbox := inbox, txState := tx, written := written } opened
          { serving := d, frame := frame } rfl (.inl ⟨here', minded⟩) (listened _ rfl) said answers
        exact sane.gateway here opened before.server further (.inl here') _ looping.speaks
      · cases checked with
        | true =>
          have looping := before.takes
            ({ s with rxState := rx, inbox := inbox, txState := tx, written := written } : Session κ σ).close
            opened { serving := d, frame := frame } rfl (.inr rfl) (listened _ rfl) said answers
          exact sane.gateway here opened before.server (Advances.close further) (.inr rfl) _ looping.speaks
        | false =>
          have looping := before.takes
            { s with rxState := rx, inbox := inbox, txState := tx, written := written } opened
            { serving := d, frame := frame } rfl (.inl ⟨here', minded⟩) (listened _ rfl) said answers
          exact sane.gateway here opened before.server further (.inl here') _ looping.speaks

end Gateways

section Runs

variable {events : List (MeshEvent U)} {world : World κ σ} {i j : Nat}

theorem Sane.step {event : MeshEvent U} (sane : Sane N caller V m) (honest : Honest N m event)
    (taken : Mesh.step N caller V m event = some next) : Sane N caller V next := by
  cases event with
  | found peer connected => exact sane.found honest taken
  | proceed link => exact sane.proceed honest taken
  | greet j d firstIncoming syncLink rsynLink => exact sane.greet taken
  | serve j d link => exact sane.serve honest taken
  | elsewhere event =>
    obtain ⟨world, went, rfl⟩ := Option.map_eq_some_iff.mp taken
    exact sane.elsewhere honest.1 honest.2 went

theorem Sane.empty (N : Sodium κ σ) (caller : Caller) (V : Verb τ ρ) : Sane N caller V (Mesh.empty (U := U)) where
  sound := ⟨fun _ _ _ _ found => absurd found (by simp [Mesh.empty]), fun _ member => absurd member List.not_mem_nil⟩
  speaks _ _ found := absurd found (by simp [Mesh.empty])
  beyond _ _ := rfl
  calling _ member := absurd member (Option.not_mem_none _)
  tally := ⟨[], fun _ member => absurd member List.not_mem_nil, rfl, fun _ member => absurd member (Option.not_mem_none _)⟩
  idle _ := rfl

/-- A mesh that honest events led to from nothing. -/
abbrev Ran (N : Sodium κ σ) (caller : Caller) (V : Verb τ ρ) (events : List (MeshEvent U))
    (m : Mesh κ σ U τ ρ) : Prop :=
  Path (Mesh.step N caller V) (Honest N) Mesh.empty events m

theorem Ran.sane (ran : Ran N caller V events m) : Sane N caller V m :=
  Path.invariant (Sane N caller V) (fun _ _ _ sane honest taken => sane.step honest taken) ran (.empty N caller V)

/-- A client that has opened a frame speaks with one server, and each has heard what the other said first. -/
theorem heard_pairs (ideal : N.kx.Ideal) (sound : Sound N world) (apart : NoCollision world)
    (here : world[i]? = some c) (client : c.role = .client) (listened : heard c ≠ []) :
    ∃ (j : Nat) (s : Session κ σ), world[j]? = some s ∧ Paired c s ∧ heard c <+: spoken s ∧ heard s <+: spoken c := by
  obtain ⟨rx, hearing⟩ : ∃ rx, c.rxState = some rx := by
    cases hearing : c.rxState with
    | none => exact absurd (by rw [heard, hearing]; rfl) listened
    | some rx => exact ⟨rx, rfl⟩
  rw [heard_some hearing] at listened ⊢
  rcases (sound.each c (List.mem_of_getElem? here)).1.heard rx hearing with silent | ⟨s, member, tx, sending, follows⟩
  · exact absurd silent listened
  obtain ⟨j, there⟩ := List.mem_iff_getElem?.mp member
  obtain ⟨different, seen, shown⟩ := other_end ideal sound here there hearing sending follows.key
  have server : s.role = .server := by
    rcases roles_apart different with ⟨-, other⟩ | ⟨server, -⟩
    · exact absurd (client.symm.trans other) (by decide)
    · exact server
  have pair := paired_of_plaintexts ideal sound apart here there client server shown seen
  refine ⟨j, s, there, pair, ?_, ?_⟩
  · rw [spoken_some sending]
    exact follows.messages
  · cases theirs : s.rxState with
    | none =>
      rw [heard, theirs]
      exact List.nil_prefix
    | some rx' =>
      rw [heard_some theirs]
      rcases pair.serverHeard rx' theirs with silent | ⟨tx', sending', follows'⟩
      · rw [silent]
        exact List.nil_prefix
      · rw [spoken_some sending']
        exact follows'.messages

/-- The gateway at the other end of a session: of the group of the caller, the device that was discovered, and capable
    of what the verb needs. -/
def GatewayAt (caller : Caller) (V : Verb τ ρ) (m : Mesh κ σ U τ ρ) (peer : DiscoveredPeer) (session : Nat)
    (log : List (Served U)) : Prop :=
  ∃ (j : Nat) (s c : Session κ σ), m.world[j]? = some s ∧ m.world[session]? = some c ∧ Paired c s ∧
    s.root = caller.root ∧ (∃ q ∈ s.localPlaintext, q.hostId = peer.hostId ∧ caps0 q.caps &&& V.needs ≠ 0) ∧
    m.loops j = some log

/-- The gateway at the other end of the connection a result came over. -/
def GatewayOf (caller : Caller) (V : Verb τ ρ) (m : Mesh κ σ U τ ρ) (r : Finished ρ) (log : List (Served U)) : Prop :=
  GatewayAt caller V m r.peer r.session log

/-- What the receive loop of the gateway has read and answered, against what the exchange pushed and got. -/
structure Behind (caller : Caller) (V : Verb τ ρ) (m : Mesh κ σ U τ ρ) (v : Visit τ) (pushed got : List Bytes)
    (log : List (Served U)) : Prop where
  gateway : GatewayAt caller V m v.peer v.session log
  read : log.map Served.frame <+: pushed
  answered : ∃ sent, got <+: sent ∧ Responded Greets Served.replies log sent
  stayed : ∀ e ∈ log.dropLast, e.handling ≠ .leave

/-- Whatever an exchange got, it got from the gateway the verb looked for. -/
theorem Ran.visit (ideal : N.kx.Ideal) (ran : Ran N caller V events m) (apart : NoCollision m.world)
    (ended : Ended caller V m.world v) : ∃ pushed got, V.exchange.Talk Fits pushed got v.state ∧
      (got ≠ [] → ∃ log, Behind caller V m v pushed got log) := by
  have sane := ran.sane
  obtain ⟨takes, c, here, concluded⟩ := ended
  obtain ⟨pushed, talk, said⟩ := concluded.talk
  refine ⟨pushed, heard c, talk, fun listened => ?_⟩
  obtain ⟨j, s, there, pair, answers, read⟩ :=
    heard_pairs ideal sane.sound apart here concluded.client listened
  have speaks := sane.speaks j s there
  cases looped : m.loops j with
  | none =>
    have mute := speaks.mute pair.server looped
    rw [mute] at answers
    exact absurd (List.prefix_nil.mp answers) listened
  | some log =>
    have looping := speaks.looping log looped
    rw [looping.read, said] at read
    refine ⟨log, ⟨j, s, c, there, here, pair, pair.root.symm.trans concluded.root, ?_, looped⟩,
      (List.prefix_cons_inj _).mp read, ⟨spoken s, answers, looping.replied⟩, looping.stayed⟩
    obtain ⟨q, offered, learned⟩ := pair.seen
    have admitted := concluded.admitted
    simp only [admits, learned, Option.map_some, copyRemoteIdentity, decide_eq_true_eq] at admitted
    exact ⟨q, offered, admitted⟩

theorem Ran.behind (ideal : N.kx.Ideal) (ran : Ran N caller V events m) (apart : NoCollision m.world)
    (done : r ∈ m.result) : caller.takes r.peer = true ∧ ∃ visits pushed got state,
      Tally caller V m (visits ++ [{ peer := r.peer, session := r.session, state := state }]) ∧
      V.exchange.Talk Fits pushed got state ∧ V.exchange.act state = .leave (some r.value) ∧
      (got ≠ [] → ∃ log, Behind caller V m { peer := r.peer, session := r.session, state := state } pushed got log) := by
  obtain ⟨_, tally⟩ := ran.sane.tally
  obtain ⟨visits, state, rfl, leaves⟩ := tally.last r done
  have ended := tally.each _ (List.mem_append_right _ (List.mem_singleton_self _))
  obtain ⟨pushed, got, talk, behind⟩ := ran.visit ideal apart ended
  exact ⟨ended.takes, visits, pushed, got, state, tally, talk, leaves, behind⟩

end Runs

section Logs

variable {events : List (MeshEvent U)} {peer : DiscoveredPeer} {connected : Option Turn} {link : Link} {j : Nat}

theorem found_loops (taken : m.found N caller peer connected = some next) : next.loops = m.loops := by
  unfold Mesh.found at taken
  split_ifs at taken
  · obtain rfl := Option.some.inj taken
    rfl
  · split at taken <;> (obtain rfl := Option.some.inj taken; rfl)

theorem proceed_loops (taken : m.proceed N V link = some next) : next.loops = m.loops := by
  obtain ⟨a, -, taken⟩ := Option.bind_eq_some_iff.mp taken
  obtain ⟨s, -, taken⟩ := Option.bind_eq_some_iff.mp taken
  split at taken
  · split at taken
    · obtain rfl := Option.some.inj taken
      rfl
    · split_ifs at taken <;> (obtain rfl := Option.some.inj taken; rfl)
    · cases taken
  · split at taken <;> (obtain rfl := Option.some.inj taken; rfl)

theorem serve_loops {d : Serving U} (taken : m.serve N j d link = some next) :
    next.loops = m.loops ∨ ∃ log frame, m.loops j = some log ∧
      next.loops = Function.update m.loops j (some (log ++ [{ serving := d, frame := frame }])) := by
  obtain ⟨s, -, taken⟩ := Option.bind_eq_some_iff.mp taken
  obtain ⟨log, looped, taken⟩ := Option.bind_eq_some_iff.mp taken
  split_ifs at taken
  split at taken
  · obtain rfl := Option.some.inj taken
    exact .inl rfl
  · rename_i frame s' _
    right
    refine ⟨log, frame, looped, ?_⟩
    split at taken
    · obtain rfl := Option.some.inj taken
      rfl
    · split at taken <;> (obtain rfl := Option.some.inj taken; rfl)

theorem step_served {event : MeshEvent U} {e : Served U} (taken : Mesh.step N caller V m event = some next)
    (member : e ∈ (next.loops j).getD []) :
    e ∈ (m.loops j).getD [] ∨ ∃ link, event = .serve j e.serving link := by
  cases event with
  | found peer connected =>
    rw [found_loops taken] at member
    exact .inl member
  | proceed link =>
    rw [proceed_loops taken] at member
    exact .inl member
  | greet k d firstIncoming syncLink rsynLink =>
    obtain ⟨s, -, taken⟩ := Option.bind_eq_some_iff.mp taken
    split_ifs at taken
    obtain rfl := Option.some.inj taken
    by_cases here : j = k
    · subst here
      simp only [Function.update_self, Option.getD_some] at member
      cases member
    · simp only [Function.update_of_ne here] at member
      exact .inl member
  | serve k d link =>
    rcases serve_loops taken with same | ⟨log, frame, looped, loops⟩
    · rw [same] at member
      exact .inl member
    · rw [loops] at member
      by_cases here : j = k
      · subst here
        rw [Function.update_self, Option.getD_some] at member
        rcases List.mem_append.mp member with earlier | last
        · left
          rwa [looped]
        · right
          obtain rfl := List.mem_singleton.mp last
          exact ⟨link, rfl⟩
      · rw [Function.update_of_ne here] at member
        exact .inl member
  | elsewhere event =>
    obtain ⟨world, -, rfl⟩ := Option.map_eq_some_iff.mp taken
    exact .inl member

theorem Ran.served {e : Served U} {log : List (Served U)} (ran : Ran N caller V events m)
    (here : m.loops j = some log) (member : e ∈ log) : ∃ link, MeshEvent.serve j e.serving link ∈ events := by
  have all : ∀ first : Mesh κ σ U τ ρ, Path (Mesh.step N caller V) (Honest N) first events m →
      e ∈ (m.loops j).getD [] → e ∈ (first.loops j).getD [] ∨ ∃ link, MeshEvent.serve j e.serving link ∈ events := by
    intro first path
    clear ran here
    induction path with
    | nil => exact .inl
    | cons allowed taken _ ih =>
      intro last
      rcases ih last with earlier | ⟨link, member⟩
      · rcases step_served taken earlier with before | ⟨link, rfl⟩
        · exact .inl before
        · exact .inr ⟨link, List.mem_cons_self⟩
      · exact .inr ⟨link, List.mem_cons_of_mem _ member⟩
  rcases all Mesh.empty ran (by rw [here]; exact member) with before | served
  · cases before
  · exact served

end Logs

section Samples

open ClippProof.Keys.TwoThreads

variable [DecidableEq κ]

instance othersDecidable (m : Mesh κ σ U τ ρ) : (event : Event) → Decidable (m.Others event)
  | .send k _ _ | .receive k => inferInstanceAs (Decidable
      (∀ s ∈ m.world[k]?, s.role = .client ∧ isOpen s.stage ∧ ∀ a ∈ m.trying, a.session ≠ k))
  | .dial _ _ _ _ | .accept _ | .deliver _ _ | .advance _ _ => inferInstanceAs (Decidable True)

instance honestDecidable (N : Sodium κ σ) (m : Mesh κ σ U τ ρ) : (event : MeshEvent U) → Decidable (Honest N m event)
  | .found _ connected => inferInstanceAs (Decidable (∀ t ∈ connected, FreshKey N m.world t.secretKey))
  | .proceed _ =>
    inferInstanceAs (Decidable (∀ a ∈ m.trying, ∀ s ∈ m.world[a.session]?, StreamGenuine N m.world s))
  | .greet _ _ _ _ _ => inferInstanceAs (Decidable True)
  | .serve j _ _ => inferInstanceAs (Decidable (∀ s ∈ m.world[j]?, StreamGenuine N m.world s))
  | .elsewhere event => inferInstanceAs (Decidable (Genuine N m.world event ∧ m.Others event))

def den : DiscoveredPeer := { deviceName := ascii "den", ip := ascii "10.0.0.2", hostId := desktop, port := 51234 }

def lapCalls : Caller where
  root := oldKey
  localHostId := laptop
  localHostName := ascii "lap"
  hostFilter := ascii "DEN"

def inClear (message : Bytes) (n : UInt8) : Bytes :=
  framed (message ++ List.replicate CryptoChannel.secretstreamABytes n)

def meeting : List (MeshEvent UInt32) :=
  .found den (some (turnOf 3 laptop)) :: ([.accept oldKey,
    .deliver 1 (laptopFrame 3), .advance 1 (turnOf 4 desktop),
    .deliver 0 (desktopFrame 4), .advance 0 (turnOf 3 laptop),
    .deliver 1 (List.replicate 24 3), .advance 1 (turnOf 4 desktop), .deliver 0 (List.replicate 24 4),
    .advance 0 (turnOf 3 laptop), .deliver 1 (inClear kHandshakeDoneTag 0), .advance 1 (turnOf 4 desktop)].map
      MeshEvent.elsewhere) ++ [.proceed fun _ _ => none]

def asks (message : Bytes) (n : UInt8) (d : Serving UInt32) : List (MeshEvent UInt32) :=
  [.proceed fun _ _ => none,
   .elsewhere (.deliver 1 (inClear message n)), .serve 1 d fun _ _ => none]

def hears (message : Bytes) (n : UInt8) : List (MeshEvent UInt32) :=
  [.elsewhere (.deliver 0 (inClear message n)), .proceed fun _ _ => none]

/-- Events a verb runs over honestly, every connection of one group, to a result of which `view` is `value`, with so
    many counted. -/
structure SampleRun {α : Type} [DecidableEq α] (V : Verb τ ρ) (view : ρ → α) (value : α) (counted : Nat) where
  events : List (MeshEvent UInt32)
  sound : (runFitting (Mesh.step plainSodium lapCalls V) (Honest plainSodium) Mesh.empty events).any (fun m =>
    decide (∀ s ∈ m.world, s.root = lapCalls.root ∧ s.keys = exampleKeys) &&
      (decide (m.result.map (fun r => view r.value) = some value) && decide (m.counted = counted))) = true

theorem SampleRun.ended {α : Type} [DecidableEq α] {V : Verb τ ρ} {view : ρ → α} {value : α} {counted : Nat}
    (sample : SampleRun V view value counted) : ∃ m r, Ran plainSodium lapCalls V sample.events m ∧
      NoCollision m.world ∧ r ∈ m.result ∧ view r.value = value ∧ m.counted = counted := by
  obtain ⟨m, ran, checked⟩ := path_of_any sample.sound
  rw [Bool.and_eq_true, Bool.and_eq_true, decide_eq_true_iff, decide_eq_true_iff, decide_eq_true_iff] at checked
  obtain ⟨r, done, shown⟩ := Option.map_eq_some_iff.mp checked.2.1
  exact ⟨m, r, ran, noCollision_of_one checked.1 (by decide), done, shown, checked.2.2⟩

end Samples

end ClippProof.Peers.OneShot
