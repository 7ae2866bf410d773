import Clipp.Keys.KeyDerivation
import Clipp.Keys.KeyManager
import Clipp.Settings.NetworkKey

open Foundation

namespace ClippModel.Keys

open ClippModel.Settings

inductive KeyPlatform where
  | windows
  | macos
  | ios
  | linux
  deriving DecidableEq

/-- What the platform and the cryptography answer, the same before and after a command. -/
structure KeyEnvironment where
  platform : KeyPlatform
  normalization : Bytes → Option Bytes
  deriveKeyFromRoot : NetworkKey → KeyRole → Option NetworkKey
  formatKeyHash : NetworkKey → String
  cryptUnprotectData : Bytes → Option Bytes
  migrationWorks : Bool
  /-- The status of reading the keychain, where it does not depend on the item. -/
  keychainStatus : Int
  secErrorMessage : Int → Option String
  vendServerActive : Bool
  requestNetworkKeyOverSocket : Except String NetworkKey

structure KeySetOutcomes where
  nameWritten : Bool
  pwhash : Bytes → Option NetworkKey
  cryptProtectData : NetworkKey → Option Bytes
  itemDeleted : Bool
  payloadCreated : Bool
  addStatus : Int
  blankingWorks : Bool
  writingWorks : Bool

/-- The group's name, stored and in memory, the two places of the root key, and the subkeys of this process. -/
structure KeyStores where
  storedName : Option Bytes
  networkName : Bytes
  settings : BinaryValues
  keychain : Option Bytes
  cache : Option KeyCache

def errSecSuccess : Int := 0
def errSecItemNotFound : Int := -25300
def errSecInteractionNotAllowed : Int := -25308

def formatSecurityError (env : KeyEnvironment) (context : String) (status : Int) : String :=
  context ++ " (OSStatus " ++ toString status ++ ((env.secErrorMessage status).elim "" (": " ++ ·)) ++ ")"

namespace KeyStores

variable (env : KeyEnvironment) (stores : KeyStores)

def cacheDerivedKeysFromRoot (rootNetworkKey : NetworkKey) : Except String Unit × KeyStores :=
  match calculateKeyCache env.deriveKeyFromRoot rootNetworkKey with
  | some derivedKeys => (.ok (), { stores with cache := some derivedKeys })
  | none => (.error "Failed to derive network subkey", { stores with cache := none })

def copyNetworkKeyData : Except Int Bytes :=
  if env.keychainStatus = errSecSuccess then stores.keychain.elim (.error errSecItemNotFound) .ok
  else .error env.keychainStatus

def rootOfBlob (wrongSize : String) (blob : Bytes) : Except String NetworkKey :=
  if size : blob.length = networkKeySize then .ok ⟨blob, size⟩ else .error wrongSize

/-- The part of the load that goes to the platform's store, which may migrate the key from its legacy name. -/
def readRootNetworkKey : Except String NetworkKey × KeyStores :=
  match env.platform with
  | .windows =>
    match getNetworkKey .absent stores.settings env.migrationWorks with
    | (none, settings) => (.error "Failed to read encrypted key from settings", { stores with settings := settings })
    | (some encryptedBuffer, settings) =>
      ((env.cryptUnprotectData encryptedBuffer).elim (.error "") (rootOfBlob "Decrypted key size was not 32 bytes"),
        { stores with settings := settings })
  | .linux =>
    match getNetworkKey .present stores.settings env.migrationWorks with
    | (value, settings) =>
      let keyBlob := value.getD []
      (if keyBlob = [] then .error "" else rootOfBlob "Stored key size was not 32 bytes" keyBlob,
        { stores with settings := settings })
  | .macos =>
    match copyNetworkKeyData env stores with
    | .ok plainData => (rootOfBlob "Decrypted key size was not 32 bytes" plainData, stores)
    | .error status =>
      if status = errSecItemNotFound then (.error "", stores)
      -- The process that serves the socket does not ask itself.
      else if env.vendServerActive then (.error "the login keychain is unavailable in this session", stores)
      else match env.requestNetworkKeyOverSocket with
        | .ok rootNetworkKey => (.ok rootNetworkKey, stores)
        | .error socketError =>
          (.error ("the login keychain is unavailable in this session" ++
            if socketError = "" then "" else "; " ++ socketError), stores)
  | .ios =>
    match copyNetworkKeyData env stores with
    | .ok plainData => (rootOfBlob "Decrypted key size was not 32 bytes" plainData, stores)
    | .error status => (.error (formatSecurityError env "Failed to read network key from keychain" status), stores)

def loadRootNetworkKey : Except String Unit × KeyStores :=
  if stores.cache.isSome then (.ok (), stores)
  else match readRootNetworkKey env stores with
    | (.error errorMessage, stores) => (.error errorMessage, stores)
    | (.ok rootNetworkKey, stores) => stores.cacheDerivedKeysFromRoot env rootNetworkKey

def getKey (role : KeyRole) : Except String NetworkKey × KeyStores :=
  match stores.cache with
  | some cachedKeys => (.ok (cachedKeys role), stores)
  | none =>
    match loadRootNetworkKey env stores with
    | (.error errorMessage, stores) => (.error errorMessage, stores)
    | (.ok (), stores) =>
      match stores.cache with
      | some cachedKeys => (.ok (cachedKeys role), stores)
      | none => (.error "Network key cache was not populated", stores)

def storeKeyBlob (backend : EmptyValue) (outcomes : KeySetOutcomes) (networkKey : NetworkKey) (keyBlob : Bytes) :
    Except String Unit × KeyStores :=
  match setNetworkKey backend stores.settings keyBlob outcomes.blankingWorks outcomes.writingWorks with
  | (false, settings) => (.error "Failed to write network key to settings", { stores with settings := settings })
  | (true, settings) => cacheDerivedKeysFromRoot env { stores with settings := settings } networkKey

/-- On Apple's systems the old item goes first, whether or not its deletion works. -/
def storeKeychainItem (outcomes : KeySetOutcomes) (networkKey : NetworkKey) : Except String Unit × KeyStores :=
  let deleted := { stores with keychain := if outcomes.itemDeleted then none else stores.keychain }
  if outcomes.payloadCreated = false then (.error "Failed to create keychain payload", deleted)
  else if outcomes.addStatus ≠ errSecSuccess then
    (.error (formatSecurityError env "Failed to store network key in keychain" outcomes.addStatus ++
      if outcomes.addStatus = errSecInteractionNotAllowed then
        ". The login keychain is locked or unavailable in this session; unlock it and retry." else ""), deleted)
  else cacheDerivedKeysFromRoot env { deleted with keychain := some networkKey.val } networkKey

def SetNetworkKey (outcomes : KeySetOutcomes) (networkKey : NetworkKey) : Except String Unit × KeyStores :=
  match env.platform with
  | .windows =>
    match outcomes.cryptProtectData networkKey with
    -- Nobody has written a message for this one.
    | none => (.error "", stores)
    | some keyBlob => storeKeyBlob env stores .absent outcomes networkKey keyBlob
  | .macos | .ios => storeKeychainItem env stores outcomes networkKey
  | .linux => storeKeyBlob env stores .present outcomes networkKey networkKey.val

def set_networkName (nameWritten : Bool) (value : Bytes) : Bool × KeyStores :=
  if nameWritten then (true, { stores with storedName := some value, networkName := value }) else (false, stores)

end KeyStores

structure KeySetInput where
  interactive : Bool
  nameOverride : Option Bytes
  typedName : Bytes
  secret : Bytes

def KeySetInput.networkName (input : KeySetInput) : Bytes := input.nameOverride.getD input.typedName

structure KeySetResult where
  exitCode : Nat
  outLines : List String
  errLines : List String
  stores : KeyStores

def keySetFailed (stores : KeyStores) (line : String) : KeySetResult :=
  { exitCode := 1, outLines := [], errLines := [line], stores := stores }

def getNetworkFingerprintHash (env : KeyEnvironment) (networkKey : NetworkKey) : String :=
  (calculateKeyCache env.deriveKeyFromRoot networkKey).elim "" fun keyCache => env.formatKeyHash (keyCache .fingerprint)

def RunKeySet (env : KeyEnvironment) (outcomes : KeySetOutcomes) (input : KeySetInput) (stores : KeyStores) :
    KeySetResult :=
  if input.interactive = false then
    keySetFailed stores "`key set` needs an interactive console to read the passphrase."
  else if input.networkName = [] then keySetFailed stores "No group name provided."
  else if input.secret = [] then keySetFailed stores "No passphrase provided."
  else match stores.set_networkName outcomes.nameWritten input.networkName with
    | (false, stores) => keySetFailed stores "Failed to store group name."
    | (true, stores) =>
      match outcomes.pwhash (buildKeyDerivationInput env.normalization input.networkName input.secret) with
      | none => keySetFailed stores "Failed to derive group key from passphrase."
      | some networkKey =>
        match stores.SetNetworkKey env outcomes networkKey with
        | (.error errorMessage, stores) =>
          keySetFailed stores ("Failed to store group key." ++ if errorMessage = "" then "" else " " ++ errorMessage)
        | (.ok (), stores) =>
          { exitCode := 0, outLines := ["fingerprint: " ++ getNetworkFingerprintHash env networkKey],
            errLines := ["Group key saved."], stores := stores }

end ClippModel.Keys

namespace ClippModel.Keys

open ClippModel.Settings

namespace KeyStores

def subkeys (env : KeyEnvironment) (stores : KeyStores) (role : KeyRole) : Option NetworkKey :=
  (stores.getKey env role).1.toOption

def named (stores : KeyStores) (name : Bytes) : KeyStores :=
  { stores with storedName := some name, networkName := name }

/-- Nothing that was stored or is served has changed. -/
structure Unchanged (env : KeyEnvironment) (before after : KeyStores) : Prop where
  storedName : after.storedName = before.storedName
  networkName : after.networkName = before.networkName
  settings : after.settings = before.settings
  keychain : after.keychain = before.keychain
  served : ∀ role, after.subkeys env role = before.subkeys env role

/-- For each role the subkey served before, or none where this process had no subkeys cached. -/
def ServedOrNone (env : KeyEnvironment) (before after : KeyStores) : Prop :=
  ∀ role, after.subkeys env role = before.subkeys env role ∨ (before.cache = none ∧ after.subkeys env role = none)

def Holds (env : KeyEnvironment) (outcomes : KeySetOutcomes) (networkKey : NetworkKey) (after : KeyStores) : Prop :=
  match env.platform with
  | .windows => after.settings .networkKey = outcomes.cryptProtectData networkKey
  | .macos | .ios => after.keychain = some networkKey.val
  | .linux => after.settings .networkKey = some networkKey.val

/-- What was stored can be read again: the blob unwraps, or the keychain is within reach. -/
def ReadsBack (env : KeyEnvironment) (outcomes : KeySetOutcomes) (networkKey : NetworkKey) : Prop :=
  match env.platform with
  | .windows => ∃ keyBlob, keyBlob ≠ [] ∧ outcomes.cryptProtectData networkKey = some keyBlob ∧
      env.cryptUnprotectData keyBlob = some networkKey.val
  | .macos | .ios => env.keychainStatus = errSecSuccess
  | .linux => True

end KeyStores

/-- What a key that could not be set leaves, by the step that failed. -/
inductive SetKeyFailed (env : KeyEnvironment) (outcomes : KeySetOutcomes) (networkKey : NetworkKey)
    (before after : KeyStores) : Prop where
  | wrapping (platform : env.platform = .windows) (unwrapped : outcomes.cryptProtectData networkKey = none)
      (kept : after = before)
  | keychain (refused : outcomes.payloadCreated = false ∨ outcomes.addStatus ≠ errSecSuccess)
      (rest : after = { before with keychain := after.keychain })
      (item : after.keychain = before.keychain ∨ after.keychain = none) (served : before.ServedOrNone env after)
  | settings (unwritten : outcomes.writingWorks = false) (rest : after = { before with settings := after.settings })
      (current : after.settings .networkKey = before.settings .networkKey)
      (legacy : after.settings .legacyEncryptedNetworkKey = before.settings .legacyEncryptedNetworkKey ∨
        after.settings .legacyEncryptedNetworkKey = some [])
      (served : before.ServedOrNone env after)
  | subkeys (underived : calculateKeyCache env.deriveKeyFromRoot networkKey = none)
      (storedName : after.storedName = before.storedName) (networkName : after.networkName = before.networkName)
      (stored : after.Holds env outcomes networkKey)
      (served : KeyStores.ReadsBack env outcomes networkKey → ∀ role, after.subkeys env role = none)

/-- What a failed command leaves: nothing new, or the new name and what the step that failed leaves of the key. -/
inductive KeySetFailed (env : KeyEnvironment) (outcomes : KeySetOutcomes) (input : KeySetInput)
    (before after : KeyStores) : Prop where
  | unnamed (refused : input.interactive = false ∨ input.networkName = [] ∨ input.secret = [] ∨
      outcomes.nameWritten = false)
      (kept : after = before)
  | underived
      (noKey : outcomes.pwhash (buildKeyDerivationInput env.normalization input.networkName input.secret) = none)
      (named : after = before.named input.networkName)
      (served : ∀ role, after.subkeys env role = before.subkeys env role)
  | unset (networkKey : NetworkKey)
      (derived : outcomes.pwhash (buildKeyDerivationInput env.normalization input.networkName input.secret) =
        some networkKey)
      (served : ∀ role, (before.named input.networkName).subkeys env role = before.subkeys env role)
      (failed : SetKeyFailed env outcomes networkKey (before.named input.networkName) after)

end ClippModel.Keys

namespace ClippProof.Keys

open ClippModel.Settings ClippModel.Keys ClippModel.Keys.KeyStores ClippProof.Settings

variable {env : KeyEnvironment} {outcomes : KeySetOutcomes} {networkKey : NetworkKey} {before after : KeyStores}

def keyOfBlob (blob : Bytes) : Option NetworkKey :=
  if size : blob.length = networkKeySize then some ⟨blob, size⟩ else none

def storedRoot (env : KeyEnvironment) (settings : BinaryValues) (keychain : Option Bytes) : Option NetworkKey :=
  match env.platform with
  | .windows => ((getNetworkKey .absent settings env.migrationWorks).1.bind env.cryptUnprotectData).bind keyOfBlob
  | .linux => (getNetworkKey .present settings env.migrationWorks).1.bind keyOfBlob
  | .macos =>
    if env.keychainStatus = errSecSuccess then keychain.bind keyOfBlob
    else if env.keychainStatus = errSecItemNotFound ∨ env.vendServerActive then none
    else env.requestNetworkKeyOverSocket.toOption
  | .ios => if env.keychainStatus = errSecSuccess then keychain.bind keyOfBlob else none

theorem rootOfBlob_eq (wrongSize : String) (blob : Bytes) : (rootOfBlob wrongSize blob).toOption = keyOfBlob blob := by
  unfold rootOfBlob keyOfBlob
  split <;> rfl

theorem reached_root {stores : KeyStores} {wrongSize : String} {refused : Int → Except String NetworkKey × KeyStores}
    (reached : env.keychainStatus = errSecSuccess) (missing : (refused errSecItemNotFound).1.toOption = none) :
    (match copyNetworkKeyData env stores with
      | .ok plainData => (rootOfBlob wrongSize plainData, stores)
      | .error status => refused status).1.toOption = stores.keychain.bind keyOfBlob := by
  rw [copyNetworkKeyData, if_pos reached]
  cases stores.keychain with
  | none => exact missing
  | some plain => exact rootOfBlob_eq wrongSize plain

theorem readRoot_eq (env : KeyEnvironment) (stores : KeyStores) :
    (readRootNetworkKey env stores).1.toOption = storedRoot env stores.settings stores.keychain := by
  unfold readRootNetworkKey storedRoot
  cases env.platform with
  | windows =>
    simp only
    rcases getNetworkKey .absent stores.settings env.migrationWorks with ⟨_ | encrypted, settings⟩
    · rfl
    · simp only [Option.bind_some]
      cases env.cryptUnprotectData encrypted with
      | none => rfl
      | some plain => exact rootOfBlob_eq _ plain
  | linux =>
    simp only
    rcases getNetworkKey .present stores.settings env.migrationWorks with ⟨_ | blob, settings⟩
    · rfl
    · simp only [Option.getD_some, Option.bind_some]
      split_ifs with empty
      · rw [empty]
        rfl
      · exact rootOfBlob_eq _ blob
  | macos =>
    by_cases reached : env.keychainStatus = errSecSuccess
    · simp only [if_pos reached]
      apply reached_root reached
      rfl
    · simp only [copyNetworkKeyData, if_neg reached]
      by_cases missing : env.keychainStatus = errSecItemNotFound
      · simp only [if_pos missing, if_pos (Or.inl missing)]
        rfl
      · by_cases active : env.vendServerActive
        · simp only [if_neg missing, if_pos active, if_pos (Or.inr active)]
          rfl
        · simp only [if_neg missing, if_neg active, if_neg (not_or.mpr ⟨missing, active⟩)]
          cases env.requestNetworkKeyOverSocket <;> rfl
  | ios =>
    by_cases reached : env.keychainStatus = errSecSuccess
    · simp only [if_pos reached]
      apply reached_root reached
      rfl
    · simp only [copyNetworkKeyData, if_neg reached]
      rfl

theorem subkeys_eq (env : KeyEnvironment) (stores : KeyStores) (role : KeyRole) : stores.subkeys env role =
    match stores.cache with
    | some cachedKeys => some (cachedKeys role)
    | none =>
      ((storedRoot env stores.settings stores.keychain).bind (calculateKeyCache env.deriveKeyFromRoot)).map (· role) := by
  rw [subkeys, getKey]
  cases cached : stores.cache with
  | some cachedKeys => rfl
  | none =>
    rw [← readRoot_eq, loadRootNetworkKey, cached, if_neg (by decide)]
    rcases readRootNetworkKey env stores with ⟨error | root, reached⟩
    · rfl
    · simp only [cacheDerivedKeysFromRoot, Except.toOption, Option.bind_some]
      cases calculateKeyCache env.deriveKeyFromRoot root <;> rfl

theorem subkeys_congr (cache : after.cache = before.cache)
    (root : storedRoot env after.settings after.keychain = storedRoot env before.settings before.keychain)
    (role : KeyRole) : after.subkeys env role = before.subkeys env role := by
  rw [subkeys_eq, subkeys_eq, cache, root]

theorem subkeys_none (uncached : after.cache = none) (root : storedRoot env after.settings after.keychain = none)
    (role : KeyRole) : after.subkeys env role = none := by
  rw [subkeys_eq, uncached, root]
  rfl

theorem servedOrNone_of_root (cache : after.cache = before.cache)
    (root : storedRoot env after.settings after.keychain = storedRoot env before.settings before.keychain ∨
      storedRoot env after.settings after.keychain = none) : before.ServedOrNone env after := by
  intro role
  cases cached : before.cache with
  | some cachedKeys =>
    left
    rw [subkeys_eq, subkeys_eq, cache, cached]
  | none =>
    rcases root with same | nothing
    · exact .inl (subkeys_congr cache same role)
    · exact .inr ⟨rfl, subkeys_none (cache.trans cached) nothing role⟩

theorem keyOfBlob_key (networkKey : NetworkKey) : keyOfBlob networkKey.val = some networkKey := by
  rw [keyOfBlob, dif_pos networkKey.property]

theorem root_of_deleted (platform : env.platform = .macos ∨ env.platform = .ios) (settings : BinaryValues)
    (keychain : Option Bytes) (deleted : Bool) :
    storedRoot env settings (if deleted then none else keychain) = storedRoot env settings keychain ∨
      storedRoot env settings (if deleted then none else keychain) = none := by
  cases deleted with
  | false => exact .inl rfl
  | true =>
    rcases platform with macos | ios
    · by_cases reached : env.keychainStatus = errSecSuccess
      · right
        simp only [storedRoot, macos, if_pos reached]
        rfl
      · left
        simp only [storedRoot, macos, if_neg reached]
    · right
      simp only [storedRoot, ios]
      split <;> rfl

theorem root_of_blanked {backend : EmptyValue} (platform : env.platform = .windows ∧ backend = .absent ∨
      env.platform = .linux ∧ backend = .present) (settings : BinaryValues) (keychain : Option Bytes) :
    storedRoot env (Function.update settings .legacyEncryptedNetworkKey (some [])) keychain =
        storedRoot env settings keychain ∨
      storedRoot env (Function.update settings .legacyEncryptedNetworkKey (some [])) keychain = none := by
  have answer := blanked_answer backend settings env.migrationWorks
  rcases platform with ⟨windows, rfl⟩ | ⟨linux, rfl⟩
  · simp only [storedRoot, windows]
    rcases answer with same | empty
    · exact .inl (by rw [same])
    · right
      rw [empty]
      rfl
  · simp only [storedRoot, linux]
    rcases answer with same | empty
    · exact .inl (by rw [same])
    · right
      rw [empty]
      rfl

theorem named_subkeys (env : KeyEnvironment) (before : KeyStores) (name : Bytes) (role : KeyRole) :
    (before.named name).subkeys env role = before.subkeys env role := by
  apply subkeys_congr
  · rfl
  · rfl

theorem unserved (uncached : after.cache = none) (underived : calculateKeyCache env.deriveKeyFromRoot networkKey = none)
    (root : storedRoot env after.settings after.keychain = some networkKey) (role : KeyRole) :
    after.subkeys env role = none := by
  rw [subkeys_eq, uncached, root]
  simp only [Option.bind_some, underived, Option.map_none]

theorem root_read_back {backend : EmptyValue} {settings : BinaryValues} {blob : Bytes} (given : blob ≠ [])
    (stored : settings .networkKey = some blob) (migrationWorks : Bool) :
    (getNetworkKey backend settings migrationWorks).1 = some blob := by
  rw [getNetworkKey_found (read_value stored (fun empty => given empty.1))]

theorem key_nonempty (networkKey : NetworkKey) : networkKey.val ≠ [] := by
  intro empty
  have width := networkKey.property
  rw [empty] at width
  cases width

theorem root_of_holds (stored : after.Holds env outcomes networkKey) (readable : ReadsBack env outcomes networkKey) :
    storedRoot env after.settings after.keychain = some networkKey := by
  unfold Holds at stored
  unfold ReadsBack at readable
  unfold storedRoot
  cases platform : env.platform with
  | windows =>
    simp only [platform] at stored readable ⊢
    obtain ⟨keyBlob, given, wrapped, unwraps⟩ := readable
    rw [root_read_back given (stored.trans wrapped), Option.bind_some, unwraps, Option.bind_some, keyOfBlob_key]
  | macos =>
    simp only [platform] at stored readable ⊢
    rw [if_pos readable, stored, Option.bind_some, keyOfBlob_key]
  | ios =>
    simp only [platform] at stored readable ⊢
    rw [if_pos readable, stored, Option.bind_some, keyOfBlob_key]
  | linux =>
    simp only [platform] at stored ⊢
    rw [root_read_back (key_nonempty networkKey) stored, Option.bind_some, keyOfBlob_key]

theorem cacheDerivedKeys_failed {stores : KeyStores} {errorMessage : String}
    (storedName : stores.storedName = before.storedName) (networkName : stores.networkName = before.networkName)
    (stored : stores.Holds env outcomes networkKey)
    (failed : stores.cacheDerivedKeysFromRoot env networkKey = (.error errorMessage, after)) :
    SetKeyFailed env outcomes networkKey before after := by
  unfold cacheDerivedKeysFromRoot at failed
  cases derived : calculateKeyCache env.deriveKeyFromRoot networkKey with
  | none =>
    rw [derived] at failed
    obtain rfl := (Prod.mk.inj failed).2
    apply SetKeyFailed.subkeys derived
    · exact storedName
    · exact networkName
    · exact stored
    · intro readable
      exact unserved rfl derived (root_of_holds stored readable)
  | some keys =>
    rw [derived] at failed
    cases (Prod.mk.inj failed).1

theorem unwritten_failed {backend : EmptyValue} (works : outcomes.writingWorks = false) (keyBlob : Bytes)
    (kind : env.platform = .windows ∧ backend = .absent ∨ env.platform = .linux ∧ backend = .present) :
    SetKeyFailed env outcomes networkKey before { before with
      settings := (setNetworkKey backend before.settings keyBlob outcomes.blankingWorks false).2 } := by
  have apart : NetworkKeyName.networkKey ≠ .legacyEncryptedNetworkKey := by decide
  rcases unwritten_set backend before.settings keyBlob outcomes.blankingWorks with same | blanked
  · rw [same]
    exact .settings works rfl rfl (.inl rfl) (servedOrNone_of_root rfl (.inl rfl))
  · rw [blanked]
    apply SetKeyFailed.settings works
    · rfl
    · exact Function.update_of_ne apart (some []) before.settings
    · right
      exact Function.update_self NetworkKeyName.legacyEncryptedNetworkKey (some []) before.settings
    · exact servedOrNone_of_root rfl (root_of_blanked kind _ _)

theorem storeKeyBlob_failed {backend : EmptyValue} {keyBlob : Bytes} {errorMessage : String}
    (platform : env.platform = .windows ∧ backend = .absent ∧ outcomes.cryptProtectData networkKey = some keyBlob ∨
      env.platform = .linux ∧ backend = .present ∧ keyBlob = networkKey.val)
    (failed : before.storeKeyBlob env backend outcomes networkKey keyBlob = (.error errorMessage, after)) :
    SetKeyFailed env outcomes networkKey before after := by
  have pair : setNetworkKey backend before.settings keyBlob outcomes.blankingWorks outcomes.writingWorks =
      (outcomes.writingWorks,
        (setNetworkKey backend before.settings keyBlob outcomes.blankingWorks outcomes.writingWorks).2) :=
    Prod.ext (setNetworkKey_result _ _ _ _ _) rfl
  rw [storeKeyBlob, pair] at failed
  cases works : outcomes.writingWorks with
  | false =>
    have kind : env.platform = .windows ∧ backend = .absent ∨ env.platform = .linux ∧ backend = .present :=
      platform.imp (fun windows => ⟨windows.1, windows.2.1⟩) (fun linux => ⟨linux.1, linux.2.1⟩)
    rw [works] at failed
    obtain rfl := (Prod.mk.inj failed).2
    exact unwritten_failed works keyBlob kind
  | true =>
    rw [works] at failed
    have current := set_current backend before.settings keyBlob outcomes.blankingWorks
    apply cacheDerivedKeys_failed _ _ _ failed
    · rfl
    · rfl
    · rcases platform with ⟨windows, _, wrapped⟩ | ⟨linux, _, rfl⟩
      · simp only [Holds, windows, wrapped, current]
      · simp only [Holds, linux, current]

theorem storeKeychainItem_failed {errorMessage : String} (platform : env.platform = .macos ∨ env.platform = .ios)
    (failed : before.storeKeychainItem env outcomes networkKey = (.error errorMessage, after)) :
    SetKeyFailed env outcomes networkKey before after := by
  unfold storeKeychainItem at failed
  have root := root_of_deleted platform before.settings before.keychain outcomes.itemDeleted
  have item : (if outcomes.itemDeleted then none else before.keychain) = before.keychain ∨
      (if outcomes.itemDeleted then none else before.keychain) = none := by
    cases outcomes.itemDeleted with
    | false => exact .inl rfl
    | true => exact .inr rfl
  -- From here on it does not matter which of the two the keychain holds.
  generalize (if outcomes.itemDeleted then none else before.keychain) = keychain at failed root item
  have refused (step : outcomes.payloadCreated = false ∨ outcomes.addStatus ≠ errSecSuccess) :
      SetKeyFailed env outcomes networkKey before { before with keychain := keychain } :=
    .keychain step rfl item (servedOrNone_of_root rfl root)
  by_cases payload : outcomes.payloadCreated = false
  · simp only [if_pos payload] at failed
    obtain rfl := (Prod.mk.inj failed).2
    exact refused (.inl payload)
  by_cases added : outcomes.addStatus ≠ errSecSuccess
  · simp only [if_neg payload, if_pos added] at failed
    obtain rfl := (Prod.mk.inj failed).2
    exact refused (.inr added)
  · simp only [if_neg payload, if_neg added] at failed
    apply cacheDerivedKeys_failed _ _ _ failed
    · rfl
    · rfl
    · rcases platform with macos | ios
      · simp only [Holds, macos]
      · simp only [Holds, ios]

theorem setNetworkKey_failed {errorMessage : String}
    (failed : before.SetNetworkKey env outcomes networkKey = (.error errorMessage, after)) :
    SetKeyFailed env outcomes networkKey before after := by
  unfold SetNetworkKey at failed
  cases platform : env.platform with
  | windows =>
    rw [platform] at failed
    cases wrapped : outcomes.cryptProtectData networkKey with
    | none =>
      rw [wrapped] at failed
      exact .wrapping platform wrapped (Prod.mk.inj failed).2.symm
    | some keyBlob =>
      rw [wrapped] at failed
      exact storeKeyBlob_failed (.inl ⟨platform, rfl, wrapped⟩) failed
  | macos =>
    rw [platform] at failed
    exact storeKeychainItem_failed (.inl platform) failed
  | ios =>
    rw [platform] at failed
    exact storeKeychainItem_failed (.inr platform) failed
  | linux =>
    rw [platform] at failed
    exact storeKeyBlob_failed (.inr ⟨platform, rfl, rfl⟩) failed

/-- What a reported failure leaves, of a key that is set and of the command that sets one. -/
theorem failed_key_set_leaves (env : KeyEnvironment) (outcomes : KeySetOutcomes) (before : KeyStores) :
    (∀ networkKey errorMessage after, before.SetNetworkKey env outcomes networkKey = (.error errorMessage, after) →
      SetKeyFailed env outcomes networkKey before after) ∧
    ∀ input, (RunKeySet env outcomes input before).exitCode ≠ 0 →
      KeySetFailed env outcomes input before (RunKeySet env outcomes input before).stores := by
  constructor
  · intro networkKey errorMessage after failed
    exact setNetworkKey_failed failed
  · intro input failed
    unfold RunKeySet at failed ⊢
    by_cases deaf : input.interactive = false
    · rw [if_pos deaf]
      exact .unnamed (.inl deaf) rfl
    by_cases unnamed : input.networkName = []
    · rw [if_neg deaf, if_pos unnamed]
      exact .unnamed (.inr (.inl unnamed)) rfl
    by_cases unsaid : input.secret = []
    · rw [if_neg deaf, if_neg unnamed, if_pos unsaid]
      exact .unnamed (.inr (.inr (.inl unsaid))) rfl
    rw [if_neg deaf, if_neg unnamed, if_neg unsaid] at failed ⊢
    cases written : outcomes.nameWritten with
    | false => exact .unnamed (.inr (.inr (.inr written))) rfl
    | true =>
      rw [written] at failed
      have step : before.set_networkName true input.networkName = (true, before.named input.networkName) := rfl
      rw [step] at failed ⊢
      simp only at failed ⊢
      cases derived : outcomes.pwhash (buildKeyDerivationInput env.normalization input.networkName input.secret) with
      | none => exact .underived derived rfl (named_subkeys env before input.networkName)
      | some networkKey =>
        rw [derived] at failed
        simp only at failed ⊢
        rcases set : (before.named input.networkName).SetNetworkKey env outcomes networkKey with
          ⟨errorMessage | done, after⟩
        · exact .unset networkKey derived (named_subkeys env before input.networkName) (setNetworkKey_failed set)
        · rw [set] at failed
          exact absurd rfl failed

def exampleEnvironment : KeyEnvironment where
  platform := .linux
  normalization := some
  deriveKeyFromRoot root _ := some root
  formatKeyHash _ := ""
  cryptUnprotectData := some
  migrationWorks := true
  keychainStatus := errSecSuccess
  secErrorMessage _ := none
  vendServerActive := false
  requestNetworkKeyOverSocket := .error ""

def exampleOutcomes : KeySetOutcomes where
  nameWritten := true
  pwhash _ := none
  cryptProtectData key := some key.val
  itemDeleted := true
  payloadCreated := true
  addStatus := errSecSuccess
  blankingWorks := true
  writingWorks := true

def exampleInput : KeySetInput := { interactive := true, nameOverride := none, typedName := [0x62], secret := [0x73] }

def exampleKey : NetworkKey := ⟨List.replicate 32 7, by decide⟩

def exampleStores : KeyStores where
  storedName := some [0x61]
  networkName := [0x61]
  settings name := if name = .legacyEncryptedNetworkKey then some exampleKey.val else none
  keychain := some exampleKey.val
  cache := none

theorem failed_key_set_leaves_name : KeySetFailed exampleEnvironment exampleOutcomes exampleInput exampleStores
    (RunKeySet exampleEnvironment exampleOutcomes exampleInput exampleStores).stores :=
  (failed_key_set_leaves exampleEnvironment exampleOutcomes exampleStores).2 exampleInput (by decide)

/-- A passphrase from which no key could be derived leaves the new name with the old key; a keychain that refuses
the new item has lost the old one; settings that refuse the new key may have lost a key under the legacy name; and
a key without subkeys stays stored. -/
theorem key_set_not_atomic :
    (¬ ∀ env outcomes input before, (RunKeySet env outcomes input before).exitCode ≠ 0 →
      before.Unchanged env (RunKeySet env outcomes input before).stores) ∧
    (¬ ∀ env outcomes networkKey (before after : KeyStores) errorMessage,
      env.platform = .macos → before.SetNetworkKey env outcomes networkKey = (.error errorMessage, after) →
        after.keychain = before.keychain) ∧
    (¬ ∀ env outcomes networkKey (before after : KeyStores) errorMessage, outcomes.writingWorks = false →
      before.SetNetworkKey env outcomes networkKey = (.error errorMessage, after) →
        after.subkeys env .mdns = before.subkeys env .mdns) ∧
    ¬ ∀ env outcomes networkKey (before after : KeyStores) errorMessage, outcomes.writingWorks = true →
      before.SetNetworkKey env outcomes networkKey = (.error errorMessage, after) →
        after.settings .networkKey = before.settings .networkKey := by
  constructor
  · intro atomic
    have kept := (atomic exampleEnvironment exampleOutcomes exampleInput exampleStores (by decide)).networkName
    exact absurd kept (by decide)
  constructor
  · intro kept
    have item := kept { exampleEnvironment with platform := .macos }
      { exampleOutcomes with addStatus := errSecInteractionNotAllowed } exampleKey exampleStores _ _ rfl rfl
    exact absurd item (by decide)
  constructor
  · intro kept
    have served := kept exampleEnvironment { exampleOutcomes with writingWorks := false } exampleKey exampleStores
      _ _ rfl rfl
    exact absurd served (by decide +kernel)
  · intro kept
    have stored := kept { exampleEnvironment with deriveKeyFromRoot := fun _ _ => none } exampleOutcomes exampleKey
      exampleStores _ _ rfl rfl
    exact absurd stored (by decide)

end ClippProof.Keys
