import Clipp.Wire.HandshakeSteps

open Foundation

namespace ClippProof.Wire.Handshake

open ClippModel.Keys ClippModel.Wire ClippModel.Wire.Framing ClippModel.Wire.Handshake

variable {κ σ : Type} {N : Sodium κ σ} {w w' : World κ σ} {s s' : Session κ σ} {p : HandshakePlaintext}
  {keys : SessionKeys κ}

/-- What no step takes back. -/
structure Grows (s s' : Session κ σ) : Prop where
  role : s'.role = s.role
  keys : s'.keys = s.keys
  root : s'.root = s.root
  localPlaintext : ∀ p ∈ s.localPlaintext, p ∈ s'.localPlaintext
  txState : ∀ a ∈ s.txState, ∃ b ∈ s'.txState, a.Follows b

theorem Grows.same (role : s'.role = s.role) (keys : s'.keys = s.keys) (root : s'.root = s.root)
    (offer : s'.localPlaintext = s.localPlaintext) (tx : s'.txState = s.txState) : Grows s s' :=
  ⟨role, keys, root, fun _ held => offer.symm ▸ held, fun a held => ⟨a, tx.symm ▸ held, .refl a⟩⟩

theorem Grows.refl (s : Session κ σ) : Grows s s := .same rfl rfl rfl rfl rfl

theorem Grows.trans {mid : Session κ σ} (left : Grows s mid) (right : Grows mid s') : Grows s s' where
  role := right.role.trans left.role
  keys := right.keys.trans left.keys
  root := right.root.trans left.root
  localPlaintext p held := right.localPlaintext p (left.localPlaintext p held)
  txState a held := by
    obtain ⟨b, between, first⟩ := left.txState a held
    obtain ⟨c, after, second⟩ := right.txState b between
    exact ⟨c, after, first.trans second⟩

theorem Grows.sealKey (grows : Grows s s') : s'.sealKey = s.sealKey := by
  rw [Session.sealKey, Session.sealKey, grows.role, grows.keys]

/-- What a session has, it has from the others. -/
structure Grounded (N : Sodium κ σ) (w : World κ σ) (s : Session κ σ) : Prop where
  keys : getKeys N s.root = some s.keys
  minted : ∀ p ∈ s.localPlaintext, ∃ secret, p.ephemeralPk = N.kx.publicKey secret
  learned : ∀ p ∈ s.remotePlaintext, Offered w s.openKey p
  sending : ∀ a ∈ s.txState, ∃ keys, Computed N s keys ∧ a.key = keys.tx
  hearing : ∀ a ∈ s.rxState, ∃ keys, Computed N s keys ∧ a.key = keys.rx
  heard : ∀ a ∈ s.rxState, a.messages = [] ∨ Streamed w a
  authenticated : s.authenticated = true → s.txState ≠ none ∧
    ∃ a ∈ s.rxState, s.role = .server → [kHandshakeDoneTag] <+: a.messages

def OwnKey (w : World κ σ) (s s' : Session κ σ) : Prop :=
  ∀ p ∈ s'.localPlaintext, p ∈ s.localPlaintext ∨ ∀ t ∈ w, ∀ q ∈ t.localPlaintext, q.ephemeralPk ≠ p.ephemeralPk

theorem Grounded.unauthenticated (grounded : Grounded N w s) (early : s.txState = none) : s.authenticated ≠ true :=
  fun done => (grounded.authenticated done).1 early

theorem Grounded.move (grounded : Grounded N w s) (move : Move N w s s') :
    Grounded N w s' ∧ Grows s s' ∧ OwnKey w s s' := by
  have kept : OwnKey w s s := fun _ held => .inl held
  cases move with
  | quiet stage inbox written =>
    exact ⟨⟨grounded.keys, grounded.minted, grounded.learned, grounded.sending, grounded.hearing, grounded.heard,
      grounded.authenticated⟩, .same rfl rfl rfl rfl rfl, kept⟩
  | @offer p first early deaf unused =>
    have nothing := grounded.unauthenticated early
    refine ⟨⟨grounded.keys, ?_, grounded.learned, ?_, ?_, grounded.heard, fun done => absurd done nothing⟩,
      ⟨rfl, rfl, rfl, ?_, fun a held => ⟨a, held, .refl a⟩⟩, ?_⟩
    · intro q same
      obtain rfl := Option.some.inj same
      exact unused.1
    · intro a held
      simp [early] at held
    · intro a held
      simp [deaf] at held
    · intro q held
      simp [first] at held
    · intro q same
      obtain rfl := Option.some.inj same
      exact .inr unused.2
  | @learn p early deaf offered =>
    have nothing := grounded.unauthenticated early
    refine ⟨⟨grounded.keys, grounded.minted, ?_, ?_, ?_, grounded.heard, fun done => absurd done nothing⟩,
      .same rfl rfl rfl rfl rfl, kept⟩
    · intro q same
      obtain rfl := Option.some.inj same
      exact offered
    · intro a held
      simp [early] at held
    · intro a held
      simp [deaf] at held
  | @startTx keys header state first computed =>
    have nothing := grounded.unauthenticated first
    refine ⟨⟨grounded.keys, grounded.minted, grounded.learned, ?_, grounded.hearing, grounded.heard,
      fun done => absurd done nothing⟩, ⟨rfl, rfl, rfl, fun _ held => held, ?_⟩, kept⟩
    · intro a same
      obtain rfl := Option.some.inj same
      exact ⟨keys, computed, rfl⟩
    · intro a held
      simp [first] at held
  | @startRx keys header state first computed =>
    refine ⟨⟨grounded.keys, grounded.minted, grounded.learned, grounded.sending, ?_, ?_, ?_⟩,
      .same rfl rfl rfl rfl rfl, kept⟩
    · intro a same
      obtain rfl := Option.some.inj same
      exact ⟨keys, computed, rfl⟩
    · intro a same
      obtain rfl := Option.some.inj same
      exact .inl rfl
    · intro done
      obtain ⟨-, a, held, -⟩ := grounded.authenticated done
      simp [first] at held
  | @push tx state messages under =>
    refine ⟨⟨grounded.keys, grounded.minted, grounded.learned, ?_, grounded.hearing, grounded.heard, ?_⟩,
      ⟨rfl, rfl, rfl, fun _ held => held, ?_⟩, kept⟩
    · intro a same
      obtain rfl := Option.some.inj same
      exact grounded.sending tx under
    · intro done
      exact ⟨Option.some_ne_none _, (grounded.authenticated done).2⟩
    · intro a held
      obtain rfl := Option.some.inj (held.symm.trans under)
      exact ⟨_, rfl, rfl, rfl, List.prefix_append _ _⟩
  | @pull rx state message under streamed =>
    obtain ⟨keys, computed, key⟩ := grounded.hearing rx under
    refine ⟨⟨grounded.keys, grounded.minted, grounded.learned, grounded.sending, ?_, ?_, ?_⟩,
      .same rfl rfl rfl rfl rfl, kept⟩
    · intro a same
      obtain rfl := Option.some.inj same
      exact ⟨keys, computed, key⟩
    · intro a same
      obtain rfl := Option.some.inj same
      obtain ⟨-, -, theirs, learned, -⟩ := computed
      exact .inr (streamed ⟨theirs, learned, grounded.learned theirs learned⟩)
    · intro done
      obtain ⟨sending, a, held, front⟩ := grounded.authenticated done
      obtain rfl := Option.some.inj (held.symm.trans under)
      exact ⟨sending, _, rfl, fun server => (front server).trans (List.prefix_append _ _)⟩
  | @finish tx rx sending hearing done =>
    refine ⟨⟨grounded.keys, grounded.minted, grounded.learned, grounded.sending, grounded.hearing, grounded.heard, ?_⟩,
      .same rfl rfl rfl rfl rfl, kept⟩
    intro
    exact ⟨fun none => Option.some_ne_none tx (sending.symm.trans none), rx, hearing, done⟩

theorem Grounded.moves (grounded : Grounded N w s) (moves : Advances N w s s') :
    Grounded N w s' ∧ Grows s s' ∧ OwnKey w s s' := by
  induction moves with
  | refl => exact ⟨grounded, .refl s, fun _ held => .inl held⟩
  | tail _ move ih =>
    obtain ⟨before, grows, own⟩ := ih
    obtain ⟨after, further, last⟩ := before.move move
    refine ⟨after, grows.trans further, fun p held => ?_⟩
    rcases last p held with earlier | unused
    · exact own p earlier
    · exact .inr unused

def Onward (w w' : World κ σ) : Prop := ∀ t ∈ w, ∃ t' ∈ w', Grows t t'

theorem Offered.onward {key : NetworkKey} (offered : Offered w key p) (onward : Onward w w') : Offered w' key p := by
  obtain ⟨t, member, sealing, held⟩ := offered
  obtain ⟨t', further, grows⟩ := onward t member
  exact ⟨t', further, grows.sealKey.trans sealing, grows.localPlaintext p held⟩

theorem Streamed.onward {rx : Strand κ σ} (streamed : Streamed w rx) (onward : Onward w w') : Streamed w' rx := by
  obtain ⟨t, member, tx, under, follows⟩ := streamed
  obtain ⟨t', further, grows⟩ := onward t member
  obtain ⟨tx', under', beyond⟩ := grows.txState tx under
  exact ⟨t', further, tx', under', follows.trans beyond⟩

theorem Grounded.onward (grounded : Grounded N w s) (onward : Onward w w') : Grounded N w' s where
  keys := grounded.keys
  minted := grounded.minted
  learned p held := (grounded.learned p held).onward onward
  sending := grounded.sending
  hearing := grounded.hearing
  heard a held := (grounded.heard a held).imp_right fun streamed => streamed.onward onward
  authenticated := grounded.authenticated

def Distinct (w : World κ σ) : Prop := ∀ (i j : Nat) (c d : Session κ σ), w[i]? = some c → w[j]? = some d →
  ∀ p ∈ c.localPlaintext, ∀ q ∈ d.localPlaintext, p.ephemeralPk = q.ephemeralPk → i = j

structure Sound (N : Sodium κ σ) (w : World κ σ) : Prop where
  distinct : Distinct w
  each : ∀ s ∈ w, Grounded N w s ∧ Staged N s

section Worlds

variable {k : Nat}

theorem set_cases {i : Nat} {c : Session κ σ} (found : (w.set k s')[i]? = some c) :
    (i = k ∧ c = s') ∨ (i ≠ k ∧ w[i]? = some c) := by
  rw [List.getElem?_set] at found
  split_ifs at found with here inside
  · exact .inl ⟨here.symm, (Option.some.inj found).symm⟩
  · exact .inr ⟨fun same => here same.symm, found⟩

theorem onward_set (here : w[k]? = some s) (grows : Grows s s') : Onward w (w.set k s') := by
  intro t member
  obtain ⟨i, found⟩ := List.mem_iff_getElem?.mp member
  by_cases same : i = k
  · subst same
    obtain rfl := Option.some.inj (found.symm.trans here)
    have inside : i < w.length := (List.getElem?_eq_some_iff.mp here).1
    exact ⟨s', List.mem_of_getElem? (i := i) (by simp [inside]), grows⟩
  · exact ⟨t, List.mem_of_getElem? (i := i) (by rw [List.getElem?_set_ne fun eq => same eq.symm, found]), .refl t⟩

theorem onward_append (w more : World κ σ) : Onward w (w ++ more) :=
  fun t member => ⟨t, List.mem_append_left _ member, .refl t⟩

theorem Sound.set (sound : Sound N w) (here : w[k]? = some s) (moves : Advances N w s s') (staged : Staged N s') :
    Sound N (w.set k s') := by
  have old := List.mem_of_getElem? here
  obtain ⟨grounded, grows, own⟩ := (sound.each s old).1.moves moves
  have onward := onward_set here grows
  constructor
  · -- What is new about the one session is nobody's, what is old was there before.
    have against : ∀ i c, i ≠ k → w[i]? = some c → ∀ p ∈ s'.localPlaintext, ∀ q ∈ c.localPlaintext,
        p.ephemeralPk ≠ q.ephemeralPk := by
      intro i c other found p mine q theirs same
      rcases own p mine with before | unused
      · exact other (sound.distinct i k c s found here q theirs p before same.symm)
      · exact unused c (List.mem_of_getElem? found) q theirs same.symm
    intro i j c d first second p mine q theirs same
    rcases set_cases first with ⟨rfl, rfl⟩ | ⟨away, old⟩ <;> rcases set_cases second with ⟨rfl, rfl⟩ | ⟨apart, older⟩
    · rfl
    · exact absurd same (against j d apart older p mine q theirs)
    · exact absurd same.symm (against i c away old q theirs p mine)
    · exact sound.distinct i j c d old older p mine q theirs same
  · intro t member
    obtain ⟨i, found⟩ := List.mem_iff_getElem?.mp member
    rcases set_cases found with ⟨-, rfl⟩ | ⟨-, found⟩
    · exact ⟨grounded.onward onward, staged⟩
    · obtain ⟨before, waiting⟩ := sound.each t (List.mem_of_getElem? found)
      exact ⟨before.onward onward, waiting⟩

theorem Sound.append (sound : Sound N w) (grounded : Grounded N w s) (moves : Advances N w s s') (staged : Staged N s')
    (empty : s.localPlaintext = none) : Sound N (w ++ [s']) := by
  obtain ⟨after, -, own⟩ := grounded.moves moves
  have onward := onward_append w [s']
  have placed : ∀ i c, (w ++ [s'])[i]? = some c → (i = w.length ∧ c = s') ∨ (i ≠ w.length ∧ w[i]? = some c) := by
    intro i c found
    rw [List.getElem?_append] at found
    split_ifs at found with inside
    · exact .inr ⟨Nat.ne_of_lt inside, found⟩
    · obtain ⟨zero, single⟩ := List.getElem?_eq_some_iff.mp found
      exact .inl ⟨by rw [List.length_singleton] at zero; omega, by simpa using single.symm⟩
  constructor
  · have against : ∀ c ∈ w, ∀ p ∈ s'.localPlaintext, ∀ q ∈ c.localPlaintext, q.ephemeralPk ≠ p.ephemeralPk := by
      intro c member p mine q theirs
      rcases own p mine with before | unused
      · simp [empty] at before
      · exact unused c member q theirs
    intro i j c d first second p mine q theirs same
    rcases placed i c first with ⟨rfl, rfl⟩ | ⟨away, old⟩ <;> rcases placed j d second with ⟨rfl, rfl⟩ | ⟨apart, older⟩
    · rfl
    · exact absurd same.symm (against d (List.mem_of_getElem? older) p mine q theirs)
    · exact absurd same (against c (List.mem_of_getElem? old) q theirs p mine)
    · exact sound.distinct i j c d old older p mine q theirs same
  · intro t member
    rcases List.mem_append.mp member with old | new
    · obtain ⟨before, waiting⟩ := sound.each t old
      exact ⟨before.onward onward, waiting⟩
    · obtain rfl := List.mem_singleton.mp new
      exact ⟨after.onward onward, staged⟩

theorem opened_grounded {root : NetworkKey} {keys : NetworkKeys} (role : Role) (stage : Stage κ)
    (derived : getKeys N root = some keys) : Grounded N w (Session.opened role root keys stage) where
  keys := derived
  minted p missing := absurd missing (Option.not_mem_none p)
  learned p missing := absurd missing (Option.not_mem_none p)
  sending a missing := absurd missing (Option.not_mem_none a)
  hearing a missing := absurd missing (Option.not_mem_none a)
  heard a missing := absurd missing (Option.not_mem_none a)
  authenticated done := absurd done Bool.false_ne_true

theorem go_cases {f : Session κ σ → Option (Session κ σ)} (taken : w.go k f = some w') :
    ∃ s s', w[k]? = some s ∧ f s = some s' ∧ w' = w.set k s' := by
  obtain ⟨s, here, taken⟩ := Option.bind_eq_some_iff.mp taken
  obtain ⟨s', went, same⟩ := Option.bind_eq_some_iff.mp taken
  exact ⟨s, s', here, went, (Option.some.inj same).symm⟩

end Worlds

section Steps

theorem finished_stage (grounded : Grounded N w s) (staged : Staged N s) (done : s.authenticated = true) :
    s.stage = .established ∨ s.stage = .closed := by
  obtain ⟨sending, rx, hearing, front⟩ := grounded.authenticated done
  rw [Staged] at staged
  cases here : s.stage with
  | reply clientKeys =>
    rw [here] at staged
    exact absurd staged.2.1 sending
  | serverHeader keys =>
    rw [here] at staged
    exact absurd (hearing.symm.trans staged.2.2.2) (Option.some_ne_none rx)
  | hello =>
    rw [here] at staged
    exact absurd staged.2.2.1 sending
  | clientHeader keys =>
    rw [here] at staged
    exact absurd staged.2.2.1 sending
  | handshakeDone =>
    rw [here] at staged
    obtain ⟨server, -, again, same, silent⟩ := staged
    obtain rfl := Option.some.inj (hearing.symm.trans same)
    rw [silent] at front
    exact absurd (front server) (by simp)
  | established => exact .inl rfl
  | closed => exact .inr rfl

theorem finished_staged (waits : s.stage = .established ∨ s.stage = .closed) : Staged N s := by
  rw [Staged]
  rcases waits with here | here <;> rw [here] <;> trivial

theorem sendFrame_stage (N : Sodium κ σ) (link : Link) (tag4 bodyA bodyB : Bytes) (s : Session κ σ) :
    (s.sendFrame N link tag4 bodyA bodyB).2.stage = s.stage := by
  rw [Session.sendFrame]
  cases s.txState <;> rfl

theorem receive_moves (genuine : StreamGenuine N w s) (waits : s.stage = .established ∨ s.stage = .closed) :
    Advances N w s (s.receive N) ∧ Staged N (s.receive N) := by
  obtain ⟨moved, got⟩ := recvFrame_moves genuine
  rw [Session.receive]
  split <;> rename_i result <;> rw [result] at moved got
  · exact ⟨moved.close, trivial⟩
  · obtain ⟨rx, state, inbox, -, rfl⟩ := got _ rfl
    exact ⟨moved, finished_staged waits⟩

theorem Sound.step {event : Event} (sound : Sound N w) (genuine : Genuine N w event)
    (taken : World.step N w event = some w') : Sound N w' := by
  cases event with
  | dial root localHostId name t =>
    obtain ⟨keys, derived, rfl⟩ := Option.map_eq_some_iff.mp taken
    obtain ⟨stage, moved, staged⟩ := clientStart_moves (w := w) root keys localHostId name genuine
    exact sound.append (opened_grounded .client stage derived) moved staged rfl
  | accept root =>
    obtain ⟨keys, derived, rfl⟩ := Option.map_eq_some_iff.mp taken
    exact sound.append (opened_grounded .server .hello derived) .refl ⟨rfl, rfl, rfl, rfl⟩ rfl
  | deliver k chunk =>
    obtain ⟨s, s', here, went, rfl⟩ := go_cases taken
    obtain rfl := Option.some.inj went
    have staged := (sound.each s (List.mem_of_getElem? here)).2
    exact sound.set here (Advances.quiet .refl s.stage _ s.written) staged
  | advance k t =>
    obtain ⟨s, s', here, went, rfl⟩ := go_cases taken
    obtain rfl := Option.some.inj went
    obtain ⟨moved, staged⟩ := advance_moves (sound.each s (List.mem_of_getElem? here)).2 (genuine s here)
    exact sound.set here moved staged
  | send k frame link =>
    obtain ⟨s, s', here, went, rfl⟩ := go_cases taken
    obtain ⟨grounded, staged⟩ := sound.each s (List.mem_of_getElem? here)
    split_ifs at went with done
    obtain rfl := Option.some.inj went
    have waits := finished_stage grounded staged done
    rw [← sendFrame_stage N link frame.tag4 frame.bodyA frame.bodyB] at waits
    exact sound.set here (sendFrame_moves N w link frame.tag4 frame.bodyA frame.bodyB s).1 (finished_staged waits)
  | receive k =>
    obtain ⟨s, s', here, went, rfl⟩ := go_cases taken
    obtain ⟨grounded, staged⟩ := sound.each s (List.mem_of_getElem? here)
    split_ifs at went with done
    obtain rfl := Option.some.inj went
    obtain ⟨moved, staged⟩ := receive_moves (genuine s here) (finished_stage grounded staged done)
    exact sound.set here moved staged

/-- A world that events led to from nothing, with key pairs that were new and no forgery. -/
abbrev Reached (N : Sodium κ σ) (events : List Event) (w : World κ σ) : Prop :=
  Path (World.step N) (Genuine N) [] events w

theorem Reached.sound {events : List Event} (reached : Reached N events w) : Sound N w :=
  Path.invariant (Sound N) (fun _ _ _ sound genuine taken => sound.step genuine taken) reached
    ⟨fun _ _ _ _ found => absurd found (by simp), fun _ member => absurd member List.not_mem_nil⟩

end Steps

section Runs

open ClippModel.Peers ClippModel.Persistence ClippModel.Registers ClippProof.Keys.TwoThreads

variable [DecidableEq κ]

instance freshKeyDecidable (N : Sodium κ σ) (w : World κ σ) (secretKey : Bytes) : Decidable (FreshKey N w secretKey) :=
  inferInstanceAs (Decidable (∀ t ∈ w, ∀ p ∈ t.localPlaintext, p.ephemeralPk ≠ N.kx.publicKey secretKey))

instance boxGenuineDecidable (N : Sodium κ σ) (w : World κ σ) (s : Session κ σ) : Decidable (BoxGenuine N w s) :=
  inferInstanceAs (Decidable (∀ taken ∈ recvAll s.inbox handshakeFrameBytes, ∀ plain ∈ boxPlain N s.openKey taken.1,
    ∃ t ∈ w, t.sealKey = s.openKey ∧ ∃ p ∈ t.localPlaintext, p.bytes = plain))

instance streamGenuineDecidable (N : Sodium κ σ) (w : World κ σ) (s : Session κ σ) : Decidable (StreamGenuine N w s) :=
  inferInstanceAs (Decidable (∀ rx ∈ s.rxState, ∀ remote ∈ s.remotePlaintext,
    (∃ t ∈ w, ∃ p ∈ t.localPlaintext, p.ephemeralPk = remote.ephemeralPk) →
    ∀ taken ∈ Framing.recvFrame N.secretstream.toSecretStream rx.state s.inbox,
      ∃ t ∈ w, ∃ tx ∈ t.txState, tx.key = rx.key ∧ tx.header = rx.header ∧ rx.messages ++ [taken.1] <+: tx.messages))

instance genuineAtDecidable (N : Sodium κ σ) (w : World κ σ) (t : Turn) (s : Session κ σ) :
    (stage : Stage κ) → Decidable (GenuineAt N w t s stage)
  | .reply _ => inferInstanceAs (Decidable (BoxGenuine N w s))
  | .hello => inferInstanceAs (Decidable (BoxGenuine N w s ∧ FreshKey N w t.secretKey))
  | .handshakeDone => inferInstanceAs (Decidable (StreamGenuine N w s))
  | .serverHeader _ | .clientHeader _ | .established | .closed => inferInstanceAs (Decidable True)

instance genuineDecidable (N : Sodium κ σ) (w : World κ σ) (event : Event) : Decidable (Genuine N w event) :=
  match event with
  | .dial _ _ _ t => inferInstanceAs (Decidable (FreshKey N w t.secretKey))
  | .advance k t => inferInstanceAs (Decidable (∀ s ∈ w[k]?, GenuineAt N w t s s.stage))
  | .receive k => inferInstanceAs (Decidable (∀ s ∈ w[k]?, StreamGenuine N w s))
  | .accept _ | .deliver _ _ | .send _ _ _ => inferInstanceAs (Decidable True)

def padded (secretKey : Bytes) : PublicKey :=
  ⟨(secretKey ++ List.replicate 32 0).take 32, by
    rw [List.length_take, List.length_append, List.length_replicate]
    exact min_eq_left (Nat.le_add_left _ _)⟩

/-- Boxes and streams in the clear behind marks of their keys and places. -/
def plainSodium : Sodium (PublicKey × PublicKey × Direction) Nat where
  deriveKeyFromRoot := maskedKey
  secretbox := Aead.keyTagged secretboxMacBytes
  kx := KeyExchange.named padded
  secretstream := KeyedStream.counted _ CryptoChannel.secretstreamABytes

def laptop : HostId := ⟨List.replicate 16 11, rfl⟩

def desktop : HostId := ⟨List.replicate 16 12, rfl⟩

def turnOf (n : UInt8) (hostId : HostId) : Turn where
  link := fun _ _ => none
  secretKey := [n]
  nonce := SealedSnapshot.repeatedByte _ n
  header := SealedSnapshot.repeatedByte _ n
  build := { servesNetmap := true, registersDaemon := true, osType := 5 }
  hostId := some hostId
  device := hostDevice (some (ascii "den"))
  expired := false

def exampleKeys : NetworkKeys := ⟨oldKey, ⟨List.replicate 32 0, rfl⟩⟩

def laptopFrame (n : UInt8) : Bytes :=
  sealHandshakeFrame plainSodium (turnOf n laptop).nonce
    (fillHandshakePlaintext (padded [n]) laptop (localCaps (turnOf n laptop).build) 5 (ascii "lap"))
    exampleKeys.clientToServer

def desktopFrame (n : UInt8) : Bytes :=
  sealHandshakeFrame plainSodium (turnOf n desktop).nonce
    (fillHandshakePlaintext (padded [n]) desktop (localCaps (turnOf n desktop).build) 5 (ascii "den"))
    exampleKeys.serverToClient

/-- Events of one network after which the session `i` has authenticated, and `met` is whether another has read the
    frame it sent. -/
structure SampleWorld (i : Nat) (role : Role) (met : Bool) where
  events : List Event
  sound : (runFitting (World.step plainSodium) (Genuine plainSodium) [] events).any (fun w =>
    decide (∀ s ∈ w, s.root = oldKey ∧ s.keys = exampleKeys) && w[i]?.any fun c =>
      decide (c.role = role ∧ c.authenticated = true) && w.any (fun s => s.remotePlaintext = c.localPlaintext) == met) =
        true

def undisturbed : SampleWorld 1 .server true where
  events := [.dial oldKey laptop (ascii "lap") (turnOf 3 laptop), .accept oldKey,
    .deliver 1 (laptopFrame 3), .advance 1 (turnOf 4 desktop),
    .deliver 0 (desktopFrame 4), .advance 0 (turnOf 3 laptop),
    .deliver 1 (List.replicate 24 3), .advance 1 (turnOf 4 desktop), .deliver 0 (List.replicate 24 4),
    .advance 0 (turnOf 3 laptop), .deliver 1 (framed (ascii "DONE" ++ List.replicate 17 0)),
    .advance 1 (turnOf 4 desktop)]
  sound := by decide +kernel

/-- The network answers a second call with the reply to the first and a header of its own. -/
def replayed : SampleWorld 2 .client false where
  events := [.dial oldKey laptop (ascii "lap") (turnOf 3 laptop), .accept oldKey,
    .deliver 1 (laptopFrame 3), .advance 1 (turnOf 4 desktop), .dial oldKey laptop (ascii "lap") (turnOf 5 laptop),
    .deliver 2 (desktopFrame 4), .advance 2 (turnOf 5 laptop), .deliver 2 (List.replicate 24 9),
    .advance 2 (turnOf 5 laptop)]
  sound := by decide +kernel

end Runs

section Agreement

open ClippProof.Keys.TwoThreads

variable {c t : Session κ σ} {i j : Nat} {q : HandshakePlaintext} {events : List Event}

def roleKey (keys : NetworkKeys) : Role → NetworkKey
  | .client => keys.clientToServer
  | .server => keys.serverToClient

/-- The subkeys in use tell their network and their role. -/
def NoCollision (w : World κ σ) : Prop := ∀ s ∈ w, ∀ t ∈ w, ∀ role role',
  roleKey s.keys role = roleKey t.keys role' → s.root = t.root ∧ role = role'

theorem noCollision_of_one {root : NetworkKey} {keys : NetworkKeys} (one : ∀ s ∈ w, s.root = root ∧ s.keys = keys)
    (apart : keys.clientToServer ≠ keys.serverToClient) : NoCollision w := by
  intro s first t second role role' same
  rw [(one s first).2, (one t second).2] at same
  refine ⟨(one s first).1.trans (one t second).1.symm, ?_⟩
  cases role <;> cases role'
  · rfl
  · exact absurd same apart
  · exact absurd same.symm apart
  · rfl

/-- The two ends of one connection: each has what the other sealed, they share the network and both session keys,
    and what either has opened is what the other sealed first. -/
structure Paired (c s : Session κ σ) : Prop where
  client : c.role = .client
  server : s.role = .server
  root : c.root = s.root
  shown : ∃ p ∈ c.localPlaintext, s.remotePlaintext = some p
  seen : ∃ q ∈ s.localPlaintext, c.remotePlaintext = some q
  toServer : ∀ tx ∈ c.txState, ∀ rx ∈ s.rxState, tx.key = rx.key
  toClient : ∀ tx ∈ s.txState, ∀ rx ∈ c.rxState, tx.key = rx.key
  serverHeard : ∀ rx ∈ s.rxState, rx.messages = [] ∨ ∃ tx ∈ c.txState, rx.Follows tx
  clientHeard : ∀ rx ∈ c.rxState, rx.messages = [] ∨ ∃ tx ∈ s.txState, rx.Follows tx

theorem sole_owner (sound : Sound N w) (here : w[i]? = some t) (held : p ∈ t.localPlaintext) {u : Session κ σ}
    (member : u ∈ w) (theirs : q ∈ u.localPlaintext) (same : q.ephemeralPk = p.ephemeralPk) : u = t ∧ q = p := by
  obtain ⟨j, found⟩ := List.mem_iff_getElem?.mp member
  obtain rfl := sound.distinct i j t u here found p held q theirs same.symm
  obtain rfl := Option.some.inj (here.symm.trans found)
  exact ⟨rfl, Option.some.inj (theirs.symm.trans held)⟩

theorem computed_derives (computed : Computed N s keys) : ∃ mine ∈ s.localPlaintext, ∃ theirs ∈ s.remotePlaintext,
    match s.role with
    | .client => N.kx.Derives keys.tx .toServer mine.ephemeralPk theirs.ephemeralPk ∧
        N.kx.Derives keys.rx .toClient mine.ephemeralPk theirs.ephemeralPk
    | .server => N.kx.Derives keys.tx .toClient theirs.ephemeralPk mine.ephemeralPk ∧
        N.kx.Derives keys.rx .toServer theirs.ephemeralPk mine.ephemeralPk := by
  obtain ⟨mine, held, theirs, learned, secret, -, derived⟩ := computed
  refine ⟨mine, held, theirs, learned, ?_⟩
  cases role : s.role with
  | client =>
    rw [role] at derived
    exact ⟨.clientTx derived, .clientRx derived⟩
  | server =>
    rw [role] at derived
    exact ⟨.serverTx derived, .serverRx derived⟩

/-- Whoever sends under the key somebody listens with is its other end. -/
theorem other_end (ideal : N.kx.Ideal) (sound : Sound N w) (here : w[j]? = some s) (there : w[i]? = some t)
    {rx tx : Strand κ σ} (hearing : rx ∈ s.rxState) (sending : tx ∈ t.txState) (key : tx.key = rx.key) :
    t.role ≠ s.role ∧ (∃ p ∈ t.localPlaintext, s.remotePlaintext = some p) ∧
      ∃ q ∈ s.localPlaintext, t.remotePlaintext = some q := by
  have listener := (sound.each s (List.mem_of_getElem? here)).1
  have speaker := (sound.each t (List.mem_of_getElem? there)).1
  obtain ⟨heard, computed, under⟩ := listener.hearing rx hearing
  obtain ⟨spoken, computed', under'⟩ := speaker.sending tx sending
  obtain ⟨mine, held, theirs, learned, derived⟩ := computed_derives computed
  obtain ⟨own, kept, other, known, derived'⟩ := computed_derives computed'
  rw [under, under'] at key
  have ends : t.role ≠ s.role ∧ own.ephemeralPk = theirs.ephemeralPk ∧ mine.ephemeralPk = other.ephemeralPk := by
    cases first : s.role <;> cases second : t.role <;> rw [first] at derived <;> rw [second, key] at derived'
    · exact absurd (ideal.separates derived'.1 derived.2).1 (by decide)
    · obtain ⟨-, left, right⟩ := ideal.separates derived'.1 derived.2
      exact ⟨by decide, right, left.symm⟩
    · obtain ⟨-, left, right⟩ := ideal.separates derived'.1 derived.2
      exact ⟨by decide, left, right.symm⟩
    · exact absurd (ideal.separates derived'.1 derived.2).1 (by decide)
  obtain ⟨u, member, -, offered⟩ := listener.learned theirs learned
  obtain ⟨v, member', -, offered'⟩ := speaker.learned other known
  obtain ⟨-, rfl⟩ := sole_owner sound there kept member offered ends.2.1.symm
  obtain ⟨-, rfl⟩ := sole_owner sound here held member' offered' ends.2.2.symm
  exact ⟨ends.1, ⟨theirs, kept, learned⟩, ⟨other, held, known⟩⟩

theorem roles_apart (different : t.role ≠ s.role) : (t.role = .client ∧ s.role = .server) ∨
    (t.role = .server ∧ s.role = .client) := by
  cases first : t.role <;> cases second : s.role <;> simp_all

theorem heard_from (ideal : N.kx.Ideal) (sound : Sound N w) (here : w[j]? = some s) (there : w[i]? = some t)
    (shown : ∃ p ∈ t.localPlaintext, s.remotePlaintext = some p) :
    ∀ rx ∈ s.rxState, rx.messages = [] ∨ ∃ tx ∈ t.txState, rx.Follows tx := by
  intro rx hearing
  rcases (sound.each s (List.mem_of_getElem? here)).1.heard rx hearing with silent | ⟨u, member, tx, sending, follows⟩
  · exact .inl silent
  · obtain ⟨k, found⟩ := List.mem_iff_getElem?.mp member
    obtain ⟨-, ⟨q, held, known⟩, -⟩ := other_end ideal sound here found hearing sending follows.key
    obtain ⟨p, mine, learned⟩ := shown
    obtain rfl := Option.some.inj (known.symm.trans learned)
    obtain ⟨rfl, -⟩ := sole_owner sound there mine member held rfl
    exact .inr ⟨tx, sending, follows⟩

theorem paired_of_plaintexts (ideal : N.kx.Ideal) (sound : Sound N w) (apart : NoCollision w) (there : w[i]? = some c)
    (here : w[j]? = some s) (client : c.role = .client) (server : s.role = .server)
    (shown : ∃ p ∈ c.localPlaintext, s.remotePlaintext = some p)
    (seen : ∃ q ∈ s.localPlaintext, c.remotePlaintext = some q) : Paired c s := by
  have calling := sound.each c (List.mem_of_getElem? there)
  have answering := sound.each s (List.mem_of_getElem? here)
  obtain ⟨p, held, learned⟩ := shown
  obtain ⟨q, kept, known⟩ := seen
  obtain ⟨a, mintedA⟩ := calling.1.minted p held
  obtain ⟨b, mintedB⟩ := answering.1.minted q kept
  have swapped : ∀ keysC keysS, Computed N c keysC → Computed N s keysS → keysS = keysC.swap := by
    intro keysC keysS ⟨mine, own, theirs, got, secret, drawn, derived⟩
      ⟨mine', own', theirs', got', secret', drawn', derived'⟩
    obtain rfl := Option.some.inj (own.symm.trans held)
    obtain rfl := Option.some.inj (own'.symm.trans kept)
    obtain rfl := Option.some.inj (got.symm.trans known)
    obtain rfl := Option.some.inj (got'.symm.trans learned)
    rw [client] at derived
    rw [server] at derived'
    obtain ⟨keys, first, second⟩ := ideal.agrees secret secret'
    rw [← drawn, ← drawn'] at first second
    obtain rfl := Option.some.inj (first.symm.trans derived)
    exact Option.some.inj (derived'.symm.trans second)
  refine ⟨client, server, ?_, ⟨p, held, learned⟩, ⟨q, kept, known⟩, ?_, ?_, ?_, ?_⟩
  · obtain ⟨u, member, key, offered⟩ := answering.1.learned p learned
    obtain ⟨rfl, -⟩ := sole_owner sound there held member offered rfl
    rw [Session.sealKey, client, Session.openKey, server] at key
    exact (apart u member s (List.mem_of_getElem? here) .client .client key).1
  · intro tx sending rx hearing
    obtain ⟨keysC, computed, under⟩ := calling.1.sending tx sending
    obtain ⟨keysS, computed', under'⟩ := answering.1.hearing rx hearing
    rw [under, under', swapped keysC keysS computed computed']
    rfl
  · intro tx sending rx hearing
    obtain ⟨keysS, computed', under'⟩ := answering.1.sending tx sending
    obtain ⟨keysC, computed, under⟩ := calling.1.hearing rx hearing
    rw [under, under', swapped keysC keysS computed computed']
    rfl
  · exact heard_from ideal sound here there ⟨p, held, learned⟩
  · exact heard_from ideal sound there here ⟨q, kept, known⟩

/-- A server whose handshake returned true speaks with one client, that client with no other server, and the two
    agree on all there is to agree on. -/
theorem server_handshake_agrees (ideal : N.kx.Ideal) (reached : Reached N events w) (apart : NoCollision w)
    (here : w[j]? = some s) (server : s.role = .server) (done : s.authenticated = true) :
    ∃ (i : Nat) (c : Session κ σ), w[i]? = some c ∧ Paired c s ∧
      (∃ tx ∈ c.txState, [kHandshakeDoneTag] <+: tx.messages) ∧
      ∀ (i' j' : Nat) (c' s' : Session κ σ), w[i']? = some c' → w[j']? = some s' → Paired c' s' →
        (i' = i ↔ j' = j) := by
  have sound := reached.sound
  have grounded := (sound.each s (List.mem_of_getElem? here)).1
  obtain ⟨-, rx, hearing, front⟩ := grounded.authenticated done
  have spoken : rx.messages ≠ [] := by
    intro silent
    have impossible := front server
    rw [silent] at impossible
    simp at impossible
  rcases grounded.heard rx hearing with silent | ⟨c, member, tx, sending, follows⟩
  · exact absurd silent spoken
  obtain ⟨i, there⟩ := List.mem_iff_getElem?.mp member
  obtain ⟨different, shown, seen⟩ := other_end ideal sound here there hearing sending follows.key
  have client : c.role = .client := by
    rcases roles_apart different with ⟨client, -⟩ | ⟨-, other⟩
    · exact client
    · exact absurd (server.symm.trans other) (by decide)
  refine ⟨i, c, there, paired_of_plaintexts ideal sound apart there here client server shown seen,
    ⟨tx, sending, (front server).trans follows.messages⟩, ?_⟩
  intro i' j' c' s' there' here' pair
  obtain ⟨p, held, learned⟩ := shown
  obtain ⟨q, kept, known⟩ := seen
  obtain ⟨p', held', learned'⟩ := pair.shown
  obtain ⟨q', kept', known'⟩ := pair.seen
  constructor
  · intro same
    subst same
    obtain rfl := Option.some.inj (there.symm.trans there')
    obtain rfl := Option.some.inj (known.symm.trans known')
    exact sound.distinct j' j s' s here' here q kept' q kept rfl
  · intro same
    subst same
    obtain rfl := Option.some.inj (here.symm.trans here')
    obtain rfl := Option.some.inj (learned.symm.trans learned')
    exact sound.distinct i' i c' c there' there p held' p held rfl

theorem SampleWorld.there {role : Role} {met : Bool} (sample : SampleWorld i role met) :
    ∃ (w : World (PublicKey × PublicKey × Direction) Nat) (c : Session (PublicKey × PublicKey × Direction) Nat),
      Reached plainSodium sample.events w ∧ NoCollision w ∧ w[i]? = some c ∧ c.role = role ∧ c.authenticated = true ∧
        ((∃ s ∈ w, s.remotePlaintext = c.localPlaintext) ↔ met = true) := by
  obtain ⟨w, ran, checked⟩ := path_of_any sample.sound
  rw [Bool.and_eq_true, decide_eq_true_iff] at checked
  obtain ⟨c, here, shown⟩ := (Option.any_eq_true _ _).mp checked.2
  rw [Bool.and_eq_true, decide_eq_true_iff, beq_iff_eq] at shown
  obtain ⟨⟨kind, done⟩, seen⟩ := shown
  refine ⟨w, c, ran, noCollision_of_one checked.1 (by decide), here, kind, done, ?_⟩
  rw [← seen, List.any_eq_true]
  simp only [decide_eq_true_iff]

theorem undisturbed_server_agrees : ∃ (w : World _ Nat) (i : Nat) (c s : Session _ Nat),
    Reached plainSodium undisturbed.events w ∧ w[i]? = some c ∧ w[1]? = some s ∧ Paired c s := by
  obtain ⟨w, s, reached, apart, here, server, done, -⟩ := undisturbed.there
  obtain ⟨i, c, found, pair, -⟩ :=
    server_handshake_agrees (KeyExchange.named_ideal padded) reached apart here server done
  exact ⟨w, i, c, s, reached, found, here, pair⟩

/-- A client whose handshake returned true may have been shown the reply to another; then it never hears anything. -/
theorem client_handshake_agrees (ideal : N.kx.Ideal) (reached : Reached N events w) (apart : NoCollision w)
    (there : w[i]? = some c) (client : c.role = .client) (done : c.authenticated = true) :
    ∃ (j : Nat) (s : Session κ σ), w[j]? = some s ∧ s.role = .server ∧ s.root = c.root ∧
      (∃ q ∈ s.localPlaintext, c.remotePlaintext = some q) ∧
      (∀ (j' : Nat) (s' : Session κ σ), w[j']? = some s' → (∃ q ∈ s'.localPlaintext, c.remotePlaintext = some q) →
        j' = j) ∧
      (Paired c s ↔ s.remotePlaintext = c.localPlaintext) ∧
      (¬ Paired c s → ∀ rx ∈ c.rxState, rx.messages = []) := by
  have sound := reached.sound
  have grounded := (sound.each c (List.mem_of_getElem? there)).1
  obtain ⟨-, rx, hearing, -⟩ := grounded.authenticated done
  obtain ⟨-, ⟨p, held, q, known, -⟩, -⟩ := grounded.hearing rx hearing
  obtain ⟨s, member, key, kept⟩ := grounded.learned q known
  obtain ⟨j, here⟩ := List.mem_iff_getElem?.mp member
  have sole : ∀ (j' : Nat) (s' : Session κ σ), w[j']? = some s' →
      (∃ q ∈ s'.localPlaintext, c.remotePlaintext = some q) → j' = j := by
    intro j' s' found ⟨q', kept', known'⟩
    obtain rfl := Option.some.inj (known.symm.trans known')
    exact sound.distinct j' j s' s found here q kept' q kept rfl
  rw [Session.openKey, client] at key
  have own : s.sealKey = roleKey s.keys s.role := by
    cases role : s.role <;> simp only [Session.sealKey, role, roleKey]
  have same : s.root = c.root ∧ s.role = .server :=
    apart s member c (List.mem_of_getElem? there) s.role .server (own.symm.trans key)
  have pairs : s.remotePlaintext = c.localPlaintext → Paired c s := fun shown =>
    paired_of_plaintexts ideal sound apart there here client same.2 ⟨p, held, shown.trans held⟩ ⟨q, kept, known⟩
  refine ⟨j, s, here, same.2, same.1, ⟨q, kept, known⟩, sole, ⟨fun pair => ?_, pairs⟩, fun unpaired rx hearing => ?_⟩
  · obtain ⟨p', held', learned'⟩ := pair.shown
    exact learned'.trans held'.symm
  · rcases grounded.heard rx hearing with silent | ⟨t, found, tx, sending, follows⟩
    · exact silent
    obtain ⟨k, place⟩ := List.mem_iff_getElem?.mp found
    obtain ⟨-, ⟨q', kept', known'⟩, p', held', learned'⟩ :=
      other_end ideal sound there place hearing sending follows.key
    obtain rfl := sole k t place ⟨q', kept', known'⟩
    obtain rfl := Option.some.inj (here.symm.trans place)
    exact absurd (pairs (learned'.trans held'.symm)) unpaired

theorem replayed_client_unpaired : ∃ (w : World _ Nat) (c : Session _ Nat),
    Reached plainSodium replayed.events w ∧ w[2]? = some c ∧ c.authenticated = true ∧
      ∃ (j : Nat) (s : Session _ Nat), w[j]? = some s ∧ (∃ q ∈ s.localPlaintext, c.remotePlaintext = some q) ∧
        ¬ Paired c s ∧ ∀ rx ∈ c.rxState, rx.messages = [] := by
  obtain ⟨w, c, reached, apart, here, client, returned, unmet⟩ := replayed.there
  obtain ⟨j, s, found, -, -, seen, -, iff, silent⟩ :=
    client_handshake_agrees (KeyExchange.named_ideal padded) reached apart here client returned
  have unpaired : ¬ Paired c s := fun pair =>
    Bool.false_ne_true (unmet.mp ⟨s, List.mem_of_getElem? found, iff.mp pair⟩)
  exact ⟨w, c, reached, here, returned, j, s, found, seen, unpaired, silent unpaired⟩

end Agreement

end ClippProof.Wire.Handshake
