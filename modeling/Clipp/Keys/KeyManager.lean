import Mathlib.Logic.Function.Basic
import Clipp.Foundation.ByteOrder
import Clipp.Foundation.Machine

open Foundation

namespace ClippModel.Keys

def networkKeySize : Nat := 32

abbrev NetworkKey : Type := { bytes : Bytes // bytes.length = networkKeySize }

inductive KeyRole where
  | tcpHandshakeClientToServer
  | tcpHandshakeServerToClient
  | mdns
  | fingerprint
  | registerStorage
  | clipboardStorage
  | shareInbox
deriving DecidableEq

def kKeyRoles : List KeyRole :=
  [.tcpHandshakeClientToServer, .tcpHandshakeServerToClient, .mdns, .fingerprint, .registerStorage,
   .clipboardStorage, .shareInbox]

abbrev KeyCache : Type := KeyRole → NetworkKey

/-- Fails where one of the subkeys cannot be derived. -/
def calculateKeyCache (deriveKeyFromRoot : NetworkKey → KeyRole → Option NetworkKey) (root : NetworkKey) :
    Option KeyCache :=
  if kKeyRoles.all (fun role => (deriveKeyFromRoot root role).isSome) then
    some (fun role => (deriveKeyFromRoot root role).getD root)
  else none

/-- A value beside the number of the change of the root key it comes from. -/
structure Dated (α : Type) where
  value : α
  version : Nat
deriving DecidableEq

/-- What one thread is about to do. `since` is the last change that had been made when its `GetKey` began, and
    a call without a role is `LoadRootNetworkKey` by itself. -/
inductive Call where
  | idle
  | checking (role : KeyRole) (since : Nat)
  | loading (role : Option (KeyRole × Nat))
  | reading (role : Option (KeyRole × Nat))
  | caching (role : Option (KeyRole × Nat)) (root : Dated NetworkKey)
  | fetching (role : KeyRole) (since : Nat)
  | writing (key : NetworkKey)
  | replacing (root : Dated NetworkKey)
  | clearing

structure Served where
  since : Nat
  key : Dated NetworkKey

/-- `changes` numbers the changes of the root key, and `settled` is the last one that has returned. -/
structure KeyManager (ι : Type) where
  stored : Dated Bytes
  cache : Option (Dated KeyCache)
  changes : Nat
  settled : Nat
  calls : ι → Call
  served : List Served

inductive KeyStep (ι : Type) where
  | getKey (thread : ι) (role : KeyRole)
  | loadRootNetworkKey (thread : ι)
  | setNetworkKey (thread : ι) (key : NetworkKey)
  | clearNetworkKey (thread : ι)
  | run (thread : ι) (written : Bool)

namespace KeyManager

variable {ι : Type} [DecidableEq ι]

def boot (stored : Bytes) : KeyManager ι where
  stored := { value := stored, version := 0 }
  cache := none
  changes := 0
  settled := 0
  calls _ := .idle
  served := []

def setCall (s : KeyManager ι) (thread : ι) (call : Call) : KeyManager ι :=
  { s with calls := Function.update s.calls thread call }

def serve (s : KeyManager ι) (thread : ι) (role : KeyRole) (since : Nat) (cache : Dated KeyCache) : KeyManager ι :=
  { s.setCall thread .idle with
    served := { since := since, key := { value := cache.value role, version := cache.version } } :: s.served }

def loaded : Option (KeyRole × Nat) → Call
  | some (role, since) => .fetching role since
  | none => .idle

def cacheDerivedKeysFromRoot (deriveKeyFromRoot : NetworkKey → KeyRole → Option NetworkKey) (s : KeyManager ι)
    (root : Dated NetworkKey) : KeyManager ι × Bool :=
  match calculateKeyCache deriveKeyFromRoot root.value with
  | some derivedKeys => ({ s with cache := some { value := derivedKeys, version := root.version } }, true)
  | none => ({ s with cache := none }, false)

/-- Nothing stored and a blob of another size are no keys. -/
def rootKey (stored : Dated Bytes) : Option (Dated NetworkKey) :=
  if size : stored.value.length = networkKeySize then
    some { value := ⟨stored.value, size⟩, version := stored.version }
  else none

/-- The next region of a thread that holds the mutex, with the storage it reads or writes inside. -/
def runRegion (deriveKeyFromRoot : NetworkKey → KeyRole → Option NetworkKey) (s : KeyManager ι) (thread : ι)
    (written : Bool) : Option (KeyManager ι) :=
  match s.calls thread with
  | .idle => none
  | .checking role since =>
    match s.cache with
    | some cache => some (s.serve thread role since cache)
    | none => some (s.setCall thread (.loading (some (role, since))))
  | .loading role => some (s.setCall thread (if s.cache.isSome then loaded role else .reading role))
  | .reading role =>
    match rootKey s.stored with
    | some root => some (s.setCall thread (.caching role root))
    | none => some (s.setCall thread .idle)
  | .caching role root =>
    match s.cacheDerivedKeysFromRoot deriveKeyFromRoot root with
    | (s, true) => some (s.setCall thread (loaded role))
    | (s, false) => some (s.setCall thread .idle)
  | .fetching role since =>
    match s.cache with
    | some cache => some (s.serve thread role since cache)
    | none => some (s.setCall thread .idle)
  | .writing key =>
    if written then
      let version := s.changes + 1
      some { s.setCall thread (.replacing { value := key, version := version }) with
             stored := { value := key.val, version := version }, changes := version }
    else some (s.setCall thread .idle)
  | .replacing root =>
    let (s, _) := s.cacheDerivedKeysFromRoot deriveKeyFromRoot root
    some { s.setCall thread .idle with settled := max s.settled root.version }
  | .clearing =>
    let version := s.changes + 1
    some { s.setCall thread .idle with
           cache := none, changes := version, settled := max s.settled version
           stored := if written then { value := [], version := version } else s.stored }

/-- A thread has one call at a time. -/
def beginCall (s : KeyManager ι) (thread : ι) (call : Call) : Option (KeyManager ι) :=
  match s.calls thread with
  | .idle => some (s.setCall thread call)
  | _ => none

def step (deriveKeyFromRoot : NetworkKey → KeyRole → Option NetworkKey) (s : KeyManager ι) :
    KeyStep ι → Option (KeyManager ι)
  | .getKey thread role => s.beginCall thread (.checking role s.settled)
  | .loadRootNetworkKey thread => s.beginCall thread (.loading none)
  | .setNetworkKey thread key => s.beginCall thread (.writing key)
  | .clearNetworkKey thread => s.beginCall thread .clearing
  | .run thread written => s.runRegion deriveKeyFromRoot thread written

end KeyManager

end ClippModel.Keys

namespace ClippProof.Keys

open ClippModel.Keys ClippModel.Keys.KeyManager

variable {ι : Type} [DecidableEq ι] {deriveKeyFromRoot : NetworkKey → KeyRole → Option NetworkKey}
  {s next : KeyManager ι} {thread : ι} {call : Call}

/-- No `GetKey` that began after a change had returned was given a subkey of an older root. -/
def Current (s : KeyManager ι) : Prop := ∀ served ∈ s.served, served.since ≤ served.key.version

def rootInHand : Call → Option (Dated NetworkKey)
  | .caching _ root | .replacing root => some root
  | _ => none

/-- Subkeys are cached only if their root is not older than the last change that has returned. -/
def CachingFits (deriveKeyFromRoot : NetworkKey → KeyRole → Option NetworkKey) (s : KeyManager ι) :
    KeyStep ι → Prop
  | .run thread _ => ∀ root ∈ rootInHand (s.calls thread),
      (calculateKeyCache deriveKeyFromRoot root.value).isSome = true → s.settled ≤ root.version
  | .getKey _ _ | .loadRootNetworkKey _ | .setNetworkKey _ _ | .clearNetworkKey _ => True

instance cachingFitsDecidable (deriveKeyFromRoot : NetworkKey → KeyRole → Option NetworkKey) (s : KeyManager ι) :
    ∀ event, Decidable (CachingFits deriveKeyFromRoot s event)
  | .run thread _ => inferInstanceAs (Decidable (∀ root ∈ rootInHand (s.calls thread), _ → _))
  | .getKey _ _ | .loadRootNetworkKey _ | .setNetworkKey _ _ | .clearNetworkKey _ => isTrue trivial

def sinceOf : Call → Option Nat
  | .checking _ since | .fetching _ since => some since
  | .loading role | .reading role | .caching role _ => role.map Prod.snd
  | _ => none

structure Fresh (s : KeyManager ι) : Prop where
  cached : ∀ cache ∈ s.cache, s.settled ≤ cache.version
  begun : ∀ thread, ∀ since ∈ sinceOf (s.calls thread), since ≤ s.settled
  current : Current s

omit [DecidableEq ι] in
theorem fresh_boot (stored : Bytes) : Fresh (KeyManager.boot stored : KeyManager ι) where
  cached _ member := nomatch member
  begun _ _ member := nomatch member
  current _ member := nomatch member

theorem Fresh.put {after : KeyManager ι} (fresh : Fresh s) (call : Call)
    (calls : after.calls = Function.update s.calls thread call) (rises : s.settled ≤ after.settled)
    (start : ∀ since ∈ sinceOf call, since ≤ s.settled)
    (cached : ∀ cache ∈ after.cache, after.settled ≤ cache.version) (current : Current after) : Fresh after := by
  refine ⟨cached, fun other since member => ?_, current⟩
  rw [calls] at member
  by_cases same : other = thread
  · rw [same, Function.update_self] at member
    exact (start since member).trans rises
  · rw [Function.update_of_ne same] at member
    exact (fresh.begun other since member).trans rises

theorem Fresh.setCall (fresh : Fresh s) (start : ∀ since ∈ sinceOf call, since ≤ s.settled) :
    Fresh (s.setCall thread call) := fresh.put call rfl le_rfl start fresh.cached fresh.current

theorem Fresh.idle (fresh : Fresh s) : Fresh (s.setCall thread .idle) := fresh.setCall nofun

theorem Fresh.serve {role : KeyRole} {since : Nat} {cache : Dated KeyCache} (fresh : Fresh s)
    (start : since ≤ s.settled) (valid : s.cache = some cache) : Fresh (s.serve thread role since cache) := by
  refine fresh.put .idle rfl le_rfl nofun fresh.cached (fun served member => ?_)
  rcases List.mem_cons.mp member with rfl | member
  · exact start.trans (fresh.cached cache valid)
  · exact fresh.current served member

theorem sinceOf_loaded (role : Option (KeyRole × Nat)) : sinceOf (loaded role) = role.map Prod.snd := by
  cases role <;> rfl

omit [DecidableEq ι] in
theorem cacheDerivedKeys_cases (deriveKeyFromRoot : NetworkKey → KeyRole → Option NetworkKey) (s : KeyManager ι)
    (root : Dated NetworkKey) :
    (∃ keys, calculateKeyCache deriveKeyFromRoot root.value = some keys ∧
      s.cacheDerivedKeysFromRoot deriveKeyFromRoot root =
        ({ s with cache := some { value := keys, version := root.version } }, true)) ∨
    s.cacheDerivedKeysFromRoot deriveKeyFromRoot root = ({ s with cache := none }, false) := by
  unfold cacheDerivedKeysFromRoot
  cases calculateKeyCache deriveKeyFromRoot root.value with
  | some keys => exact .inl ⟨keys, rfl, rfl⟩
  | none => exact .inr rfl

theorem Fresh.runRegion {written : Bool} (fresh : Fresh s)
    (fits : CachingFits deriveKeyFromRoot s (.run thread written))
    (taken : s.runRegion deriveKeyFromRoot thread written = some next) : Fresh next := by
  have start := fresh.begun thread
  unfold KeyManager.runRegion at taken
  cases call : s.calls thread with
  | idle => simp [call] at taken
  | checking role since =>
    rw [call] at start
    cases valid : s.cache with
    | some cache =>
      simp only [call, valid, Option.some.injEq] at taken
      exact taken ▸ fresh.serve (start since rfl) valid
    | none =>
      simp only [call, valid, Option.some.injEq] at taken
      exact taken ▸ fresh.setCall start
  | loading role =>
    rw [call] at start
    simp only [call, Option.some.injEq] at taken
    rw [← taken]
    split_ifs with valid
    · exact fresh.setCall (sinceOf_loaded role ▸ start)
    · exact fresh.setCall start
  | reading role =>
    rw [call] at start
    cases read : rootKey s.stored with
    | some root =>
      simp only [call, read, Option.some.injEq] at taken
      exact taken ▸ fresh.setCall start
    | none =>
      simp only [call, read, Option.some.injEq] at taken
      exact taken ▸ fresh.idle
  | caching role root =>
    rw [call] at start
    rcases cacheDerivedKeys_cases deriveKeyFromRoot s root with ⟨keys, derived, cached⟩ | cached
    · have recent := fits root (by rw [call]; rfl) (by rw [derived]; rfl)
      simp only [call, cached, Option.some.injEq] at taken
      rw [← taken]
      refine fresh.put (loaded role) rfl le_rfl (sinceOf_loaded role ▸ start) (fun cache member => ?_) fresh.current
      cases member
      exact recent
    · simp only [call, cached, Option.some.injEq] at taken
      rw [← taken]
      exact fresh.put .idle rfl le_rfl nofun nofun fresh.current
  | fetching role since =>
    rw [call] at start
    cases valid : s.cache with
    | some cache =>
      simp only [call, valid, Option.some.injEq] at taken
      exact taken ▸ fresh.serve (start since rfl) valid
    | none =>
      simp only [call, valid, Option.some.injEq] at taken
      exact taken ▸ fresh.idle
  | writing key =>
    simp only [call] at taken
    split_ifs at taken with done
    · cases taken
      exact fresh.put (.replacing _) rfl le_rfl nofun fresh.cached fresh.current
    · cases taken
      exact fresh.idle
  | replacing root =>
    rcases cacheDerivedKeys_cases deriveKeyFromRoot s root with ⟨keys, derived, cached⟩ | cached
    · have recent := fits root (by rw [call]; rfl) (by rw [derived]; rfl)
      simp only [call, cached, Option.some.injEq] at taken
      rw [← taken]
      refine fresh.put .idle rfl (le_max_left _ _) nofun (fun cache member => ?_) fresh.current
      cases member
      exact max_le recent le_rfl
    · simp only [call, cached, Option.some.injEq] at taken
      rw [← taken]
      exact fresh.put .idle rfl (le_max_left _ _) nofun nofun fresh.current
  | clearing =>
    simp only [call, Option.some.injEq] at taken
    rw [← taken]
    exact fresh.put .idle rfl (le_max_left _ _) nofun nofun fresh.current

theorem Fresh.beginCall (fresh : Fresh s) (taken : s.beginCall thread call = some next)
    (start : ∀ since ∈ sinceOf call, since ≤ s.settled) : Fresh next := by
  unfold KeyManager.beginCall at taken
  cases idle : s.calls thread <;> simp only [idle] at taken
  case idle =>
    cases taken
    exact fresh.setCall start
  all_goals cases taken

theorem Fresh.step {event : KeyStep ι} (fresh : Fresh s) (fits : CachingFits deriveKeyFromRoot s event)
    (taken : s.step deriveKeyFromRoot event = some next) : Fresh next := by
  cases event with
  | getKey thread role => exact fresh.beginCall taken (fun _ same => by cases same; exact le_rfl)
  | loadRootNetworkKey thread => exact fresh.beginCall taken nofun
  | setNetworkKey thread key => exact fresh.beginCall taken nofun
  | clearNetworkKey thread => exact fresh.beginCall taken nofun
  | run thread written => exact fresh.runRegion fits taken

theorem stale_cache_serves {cache : Dated KeyCache} (idle : s.calls thread = .idle) (cached : s.cache = some cache)
    (stale : cache.version < s.settled) :
    ∃ events last, Path (step deriveKeyFromRoot) (fun _ _ => True) s events last ∧ ¬ Current last := by
  let asking := s.setCall thread (.checking .fingerprint s.settled)
  have asks : s.step deriveKeyFromRoot (.getKey thread .fingerprint) = some asking := by
    simp only [step, beginCall, idle, asking]
  have here : asking.calls thread = .checking .fingerprint s.settled := Function.update_self _ _ _
  have there : asking.cache = some cache := cached
  have serves : asking.step deriveKeyFromRoot (.run thread true) =
      some (asking.serve thread .fingerprint s.settled cache) := by
    simp only [step, runRegion, here, there]
  refine ⟨_, _, .cons trivial asks (.single trivial serves), fun current => ?_⟩
  exact absurd (current _ List.mem_cons_self) (not_le.mpr stale)

/-- The condition leaves nothing out: subkeys that are cached against it reach a later `GetKey`. -/
theorem unfit_caching_serves_stale {event : KeyStep ι} (taken : s.step deriveKeyFromRoot event = some next)
    (unfit : ¬ CachingFits deriveKeyFromRoot s event) :
    ∃ events last, Path (step deriveKeyFromRoot) (fun _ _ => True) next events last ∧ ¬ Current last := by
  cases event with
  | run thread written =>
    simp only [CachingFits, not_forall, not_le] at unfit
    obtain ⟨root, held, derives, older⟩ := unfit
    obtain ⟨keys, derived⟩ := Option.isSome_iff_exists.mp derives
    have cached : s.cacheDerivedKeysFromRoot deriveKeyFromRoot root =
        ({ s with cache := some { value := keys, version := root.version } }, true) := by
      rw [cacheDerivedKeysFromRoot, derived]
    simp only [step, runRegion] at taken
    cases call : s.calls thread with
    | caching role _ =>
      rw [call] at held
      cases held
      simp only [call, cached, Option.some.injEq] at taken
      rw [← taken]
      let after := { s with cache := some { value := keys, version := root.version } }.setCall thread (loaded role)
      have now : after.calls thread = loaded role := Function.update_self _ _ _
      rcases role with _ | ⟨role, since⟩
      · exact stale_cache_serves now rfl older
      · -- This `GetKey` itself has still to fetch its subkey.
        let fetched := after.serve thread role since { value := keys, version := root.version }
        have fetches : after.step deriveKeyFromRoot (.run thread true) = some fetched := by
          have valid : after.cache = some { value := keys, version := root.version } := rfl
          simp only [step, runRegion, now, loaded, valid, fetched]
        have idle : fetched.calls thread = .idle := Function.update_self _ _ _
        have serves : ∃ later last, Path (step deriveKeyFromRoot) (fun _ _ => True) fetched later last ∧
            ¬ Current last := stale_cache_serves idle rfl older
        obtain ⟨later, last, path, stale⟩ := serves
        exact ⟨_, last, .cons trivial fetches path, stale⟩
    | replacing _ =>
      rw [call] at held
      cases held
      simp only [call, cached, Option.some.injEq] at taken
      rw [← taken]
      exact stale_cache_serves (Function.update_self _ _ _) rfl (older.trans_le (le_max_left _ _))
    | _ => simp [call, rootInHand] at held
  | _ => exact absurd trivial unfit

theorem run_fresh {stored : Bytes} {events : List (KeyStep ι)}
    (path : Path (step deriveKeyFromRoot) (CachingFits deriveKeyFromRoot) (KeyManager.boot stored) events s) :
    Fresh s :=
  path.invariant Fresh (fun _ _ _ fresh fits taken => fresh.step fits taken) (fresh_boot stored)

/-- Up to the first caching that fails the condition no stale subkey is served, and after it one can be. -/
theorem no_stale_subkey (deriveKeyFromRoot : NetworkKey → KeyRole → Option NetworkKey) (stored : Bytes)
    (events : List (KeyStep ι)) (s : KeyManager ι)
    (path : Path (step deriveKeyFromRoot) (CachingFits deriveKeyFromRoot) (KeyManager.boot stored) events s) :
    Current s ∧ ∀ event next, s.step deriveKeyFromRoot event = some next →
      (CachingFits deriveKeyFromRoot s event → Current next) ∧
      (¬ CachingFits deriveKeyFromRoot s event →
        ∃ later last, Path (step deriveKeyFromRoot) (fun _ _ => True) next later last ∧ ¬ Current last) := by
  have fresh := run_fresh path
  refine ⟨fresh.current, fun event next taken => ⟨fun fits => ?_, fun unfit => ?_⟩⟩
  · exact (fresh.step fits taken).current
  · exact unfit_caching_serves_stale taken unfit

namespace TwoThreads

inductive Thread where
  | reader
  | changer
deriving DecidableEq

def maskedKey (root : NetworkKey) (role : KeyRole) : Option NetworkKey :=
  some ⟨root.val.map (· ^^^ UInt8.ofNat (kKeyRoles.idxOf role)), by rw [List.length_map, root.property]⟩

def oldKey : NetworkKey := ⟨List.replicate 32 1, rfl⟩

def newKey : NetworkKey := ⟨List.replicate 32 2, rfl⟩

def loadedBefore : List (KeyStep Thread) :=
  [.getKey .reader .mdns, .run .reader true, .run .reader true, .run .reader true, .run .reader true,
   .run .reader true, .setNetworkKey .changer newKey, .run .changer true, .run .changer true,
   .getKey .reader .mdns, .run .reader true]

/-- The key is replaced between the reader's read of the storage and its caching. -/
def loadedAcross : List (KeyStep Thread) :=
  [.getKey .reader .mdns, .run .reader true, .run .reader true, .run .reader true,
   .setNetworkKey .changer newKey, .run .changer true, .run .changer true,
   .run .reader true, .run .reader true, .getKey .reader .mdns, .run .reader true]

end TwoThreads

open TwoThreads in
theorem key_loaded_before_change_current : Current (lastOf (step maskedKey) (KeyManager.boot oldKey.val) loadedBefore) :=
  (no_stale_subkey maskedKey oldKey.val loadedBefore _ (fitting_to_lastOf (by decide +kernel))).1

open TwoThreads in
/-- The second `GetKey` of the reader began after the change had returned and is given a subkey of the old key. -/
theorem key_loaded_across_change_stale :
    ¬ ∀ (events : List (KeyStep Thread)) (s : KeyManager Thread),
      Path (step maskedKey) (fun _ _ => True) (KeyManager.boot oldKey.val) events s → Current s := by
  intro always
  have run : Path (step maskedKey) (fun _ _ => True) (KeyManager.boot oldKey.val) loadedAcross
      (lastOf (step maskedKey) (KeyManager.boot oldKey.val) loadedAcross) :=
    path_to_lastOf (fun _ _ _ => trivial) (by decide +kernel)
  have served : ((lastOf (step maskedKey) (KeyManager.boot oldKey.val) loadedAcross).served.map
      (fun served => (served.since, served.key.version))) = [(1, 0), (0, 0)] := by decide +kernel
  have current := always loadedAcross _ run
  obtain ⟨stale, member, equal⟩ := List.mem_map.mp (served ▸ List.mem_cons_self : ((1, 0) : Nat × Nat) ∈ _)
  have late : stale.since ≤ stale.key.version := current stale member
  rw [(Prod.mk.inj equal).1, (Prod.mk.inj equal).2] at late
  exact absurd late (by decide)

end ClippProof.Keys
