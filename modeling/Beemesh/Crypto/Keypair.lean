import Beemesh.Basic
import Beemesh.Lib.Run
import Mathlib.Logic.Function.Basic

/-!
# The keypairs of a process

A process has a signing keypair and a KEM keypair, each to be had in two ways: from
`ensure_keypair_on_disk` or `ensure_kem_keypair_on_disk`, and from the keypair manager. The first
keep an ephemeral pair in a once cell and a persistent one in two files; the manager has a cache of
its own for ephemeral pairs. Here any number of calls take their steps in any order. Each step is
one access to what the calls share, and a step that can fail is told whether it does.

## Main definitions

* `KeypairConfig`, `KeypairType`, `Accessor`: what there is to ask for
* `KeyStore`, `KeyPc`, `keyStep`: what the calls share, where a call stands and the step it takes
* `KeyState`, `KeyAction`, `interleaveKeys`: the calls of a process
* `OneIdentity`: the calls for a keypair that succeed give one pair
* `Undisturbed`: no call looks for a pair while another one makes it, and all look in one place

## Main results

* `keyStep_holds`: what a step keeps of its own call
* `agreed_interleaveKeys`: what an undisturbed step keeps of all calls
* `one_identity`: undisturbed calls give one pair
-/

namespace Beemesh

/-! ## Configuration -/

inductive KeypairMode
  | persistent
  | ephemeral
  deriving DecidableEq

/-- `KeypairConfig`. The directory of the files is fixed with it. -/
structure KeypairConfig where
  signingMode : KeypairMode
  kemMode : KeypairMode

inductive KeypairType
  | signing
  | kem
  deriving DecidableEq

/-- The mode that the functions of a type read. -/
def KeypairConfig.mode (config : KeypairConfig) : KeypairType → KeypairMode
  | .signing => config.signingMode
  | .kem => config.kemMode

/-- `default_storage_mode`: for KEM keypairs, too, it is the signing mode. -/
def KeypairConfig.defaultStorageMode (config : KeypairConfig) : KeypairMode := config.signingMode

/-- The two ways to a keypair: `ensure_keypair_on_disk` or `ensure_kem_keypair_on_disk`, and
`get_default_signing_keypair` or `get_default_kem_keypair`. -/
inductive Accessor
  | onDisk
  | manager
  deriving DecidableEq

/-- A public and a private key. -/
abbrev Keypair := Bytes × Bytes

/-! ## One call -/

/-- What the calls for one type of keypair share. -/
structure KeyStore where
  /-- `EPHEMERAL_SIGNING` or `EPHEMERAL_KEM`. -/
  cell : Option Keypair := none
  /-- `EPHEMERAL_SIGNING_KEYPAIR` or `EPHEMERAL_KEM_KEYPAIR`. -/
  cache : Option Keypair := none
  pubFile : Option Bytes := none
  privFile : Option Bytes := none

/-- A failure outside the calls. A write that fails has written some bytes already. -/
inductive Fault
  | pqcInit (message : String)
  | generate (message : String)
  | io (message : String) (written : ℕ)

def Fault.message : Fault → String
  | pqcInit message => message
  | generate message => message
  | io message _ => message

def Fault.written : Fault → ℕ
  | io _ written => written
  | _ => 0

/-- Where a call stands: the step it takes next. -/
inductive KeyPc
  | start
  /-- `get_ephemeral_signing_keypair`, under its lock from start to end. -/
  | lockCache
  | getCell
  | generateCell
  | setCell (pair : Keypair)
  | keyDir
  | pubExists
  | privExists
  | readPub
  | readPriv (pub : Bytes)
  | generateFiles
  -- `fs::write` truncates a file and then fills it.
  | createPub (pair : Keypair)
  | writePub (pair : Keypair)
  | createPriv (pair : Keypair)
  | writePriv (pair : Keypair)
  | setPermissions (pair : Keypair)
  | done (result : Except String Keypair)

/-- A call in flight. -/
structure KeyCall where
  keypairType : KeypairType
  accessor : Accessor
  pc : KeyPc

/-- The error of a call, from a failure on disk or in the once cell. -/
def loadingError (k : KeypairType) (accessor : Accessor) (message : String) : String :=
  match accessor, k with
  | .onDisk, _ => message
  | .manager, .signing => "Keypair loading failed: signing keypair: " ++ message
  | .manager, .kem => "Keypair loading failed: KEM keypair: " ++ message

/-- The error of the manager when it makes an ephemeral pair. -/
def cacheError : KeypairType → Fault → String
  | .signing, fault => "Keypair generation failed: ephemeral signing keypair: " ++ fault.message
  | .kem, .pqcInit message => "PQC initialization failed: " ++ message
  | .kem, fault => "Keypair generation failed: KEM keypair generation: " ++ fault.message

section Step

variable (config : KeypairConfig) (keys : KeypairType → ℕ → Keypair) (k : KeypairType)
  (accessor : Accessor)

/-- The first step of `ensure_keypair_on_disk` for a type. -/
def ensureStart : KeyPc :=
  match config.mode k with
  | .ephemeral => .getCell
  | .persistent => .keyDir

/-- The first step of a call. -/
def startPc : KeyPc :=
  match accessor, config.defaultStorageMode with
  | .manager, .ephemeral => .lockCache
  | _, _ => ensureStart config k

/-- The step of a call for a keypair of type `k`: what the calls share, the number of pairs made so
far and where the call stands. The pair that is made next is `keys k count`. -/
def keyStep (store : KeyStore) (count : ℕ) (fault : Option Fault) (pc : KeyPc) :
    KeyStore × ℕ × KeyPc :=
  let fail (message : String) : KeyPc := .done (.error (loadingError k accessor message))
  match pc with
  | .start => (store, count, startPc config k accessor)
  | .lockCache =>
    match store.cache, fault with
    | some pair, _ => (store, count, .done (.ok pair))
    | none, some fault => (store, count, .done (.error (cacheError k fault)))
    | none, none =>
      ({ store with cache := some (keys k count) }, count + 1, .done (.ok (keys k count)))
  | .getCell =>
    match store.cell with
    | some pair => (store, count, .done (.ok pair))
    | none => (store, count, .generateCell)
  | .generateCell =>
    match fault with
    | some fault => (store, count, fail fault.message)
    | none => (store, count + 1, .setCell (keys k count))
  -- A cell that was set in the meantime stays, and the call returns its own pair.
  | .setCell pair => ({ store with cell := store.cell <|> some pair }, count, .done (.ok pair))
  | .keyDir =>
    match fault with
    | some fault => (store, count, fail fault.message)
    | none => (store, count, .pubExists)
  -- A file that cannot be looked at does not exist.
  | .pubExists =>
    (store, count, if store.pubFile.isSome ∧ fault.isNone then .privExists else .generateFiles)
  | .privExists =>
    (store, count, if store.privFile.isSome ∧ fault.isNone then .readPub else .generateFiles)
  | .readPub =>
    match store.pubFile, fault with
    | some pub, none => (store, count, .readPriv pub)
    | _, some fault => (store, count, fail fault.message)
    | none, none => (store, count, fail "No such file or directory (os error 2)")
  | .readPriv pub =>
    match store.privFile, fault with
    | some priv, none => (store, count, .done (.ok (pub, priv)))
    | _, some fault => (store, count, fail fault.message)
    | none, none => (store, count, fail "No such file or directory (os error 2)")
  | .generateFiles =>
    match fault with
    | some fault => (store, count, fail fault.message)
    | none => (store, count + 1, .createPub (keys k count))
  | .createPub pair =>
    match fault with
    | some fault => (store, count, fail fault.message)
    | none => ({ store with pubFile := some [] }, count, .writePub pair)
  | .writePub pair =>
    match fault with
    | some fault =>
      ({ store with pubFile := some (pair.1.take fault.written) }, count, fail fault.message)
    | none => ({ store with pubFile := some pair.1 }, count, .createPriv pair)
  | .createPriv pair =>
    match fault with
    | some fault => (store, count, fail fault.message)
    | none => ({ store with privFile := some [] }, count, .writePriv pair)
  | .writePriv pair =>
    match fault with
    | some fault =>
      ({ store with privFile := some (pair.2.take fault.written) }, count, fail fault.message)
    | none => ({ store with privFile := some pair.2 }, count, .setPermissions pair)
  | .setPermissions pair =>
    match fault with
    | some fault => (store, count, fail fault.message)
    | none => (store, count, .done (.ok pair))
  | .done result => (store, count, .done result)

end Step

/-! ## Calls in flight -/

/-- The calls of a process and what they share. -/
structure KeyState where
  stores : KeypairType → KeyStore
  generated : ℕ
  calls : List KeyCall

/-- A call starts, or call `i` takes its next step. -/
inductive KeyAction
  | spawn (k : KeypairType) (accessor : Accessor)
  | step (i : ℕ) (fault : Option Fault)

/-- A process that has made no keypair yet, and finds none on disk. -/
def freshKeys : KeyState := ⟨fun _ => {}, 0, []⟩

def interleaveKeys (config : KeypairConfig) (keys : KeypairType → ℕ → Keypair) (s : KeyState) :
    KeyAction → KeyState
  | .spawn k accessor => { s with calls := s.calls ++ [⟨k, accessor, .start⟩] }
  | .step i fault =>
    match s.calls[i]? with
    | none => s
    | some c =>
      let (store, count, pc) :=
        keyStep config keys c.keypairType c.accessor (s.stores c.keypairType) s.generated fault c.pc
      { stores := Function.update s.stores c.keypairType store
        generated := count
        calls := s.calls.set i { c with pc := pc } }

/-- The calls for a keypair that have succeeded have returned one pair. -/
def OneIdentity (s : KeyState) : Prop :=
  ∀ c ∈ s.calls, ∀ c' ∈ s.calls, c.keypairType = c'.keypairType →
    ∀ pair pair', c.pc = .done (.ok pair) → c'.pc = .done (.ok pair') → pair = pair'

/-! ## Undisturbed calls -/

/-- Where a keypair is kept. -/
inductive KeySource
  | cell
  | cache
  | files
  deriving DecidableEq

/-- Where a call looks for its keypair. -/
def keySource (config : KeypairConfig) (k : KeypairType) (accessor : Accessor) : KeySource :=
  match accessor, config.defaultStorageMode with
  | .manager, .ephemeral => .cache
  | _, _ => match config.mode k with
    | .ephemeral => .cell
    | .persistent => .files

/-- The pair that is kept there. -/
def KeyStore.published (store : KeyStore) : KeySource → Option Keypair
  | .cell => store.cell
  | .cache => store.cache
  | .files => store.pubFile.bind fun pub => store.privFile.map fun priv => (pub, priv)

namespace KeyPc

/-- The call is about to see whether there is a pair. -/
def looks : KeyPc → Bool
  | .getCell | .pubExists | .privExists => true
  | _ => false

/-- The call makes a pair, since it has seen none. -/
def generating : KeyPc → Bool
  | .generateCell | .setCell _ | .generateFiles | .createPub _ | .writePub _ | .createPriv _
  | .writePriv _ => true
  | _ => false

/-- The call has found a pair, or has made one. -/
def relies : KeyPc → Bool
  | .readPub | .readPriv _ | .setPermissions _ | .done (.ok _) => true
  | _ => false

end KeyPc

/-- A call starts only where all calls for this keypair look in one place. It looks only while no
other call makes the pair, and it sees the files when both are there. -/
def Undisturbed (config : KeypairConfig) (s : KeyState) : KeyAction → Prop
  | .spawn k accessor => ∀ c ∈ s.calls, c.keypairType = k →
      keySource config k c.accessor = keySource config k accessor
  | .step i fault => ∀ c ∈ s.calls[i]?, c.pc.looks = true →
      (∀ j < s.calls.length, j ≠ i → ∀ c' ∈ s.calls[j]?, c'.keypairType = c.keypairType →
        c'.pc.generating = false) ∧
      (fault.isNone ∨ (s.stores c.keypairType).published .files = none)

instance (config : KeypairConfig) (s : KeyState) : ∀ a, Decidable (Undisturbed config s a)
  | .spawn k accessor => inferInstanceAs (Decidable (∀ c ∈ s.calls, c.keypairType = k →
      keySource config k c.accessor = keySource config k accessor))
  | .step i fault => inferInstanceAs (Decidable (∀ c ∈ s.calls[i]?, c.pc.looks = true →
      (∀ j < s.calls.length, j ≠ i → ∀ c' ∈ s.calls[j]?, c'.keypairType = c.keypairType →
        c'.pc.generating = false) ∧
      (fault.isNone ∨ (s.stores c.keypairType).published .files = none)))

/-- What a call knows of the store, from where it stands. -/
def KeyPc.Holds (source : KeySource) (store : KeyStore) : KeyPc → Prop
  | .start => True
  | .lockCache => source = .cache
  | .getCell => source = .cell
  | .generateCell | .setCell _ => source = .cell ∧ store.cell = none
  | .keyDir | .pubExists => source = .files
  | .privExists => source = .files ∧ store.pubFile.isSome
  | .readPub => source = .files ∧ store.pubFile.isSome ∧ store.privFile.isSome
  | .readPriv pub => source = .files ∧ store.pubFile = some pub ∧ store.privFile.isSome
  | .generateFiles | .createPub _ | .writePub _ => source = .files
  | .createPriv pair | .writePriv pair => source = .files ∧ store.pubFile = some pair.1
  | .setPermissions pair =>
    source = .files ∧ store.pubFile = some pair.1 ∧ store.privFile = some pair.2
  | .done (.ok pair) => store.published source = some pair
  | .done (.error _) => True

namespace KeyPc

variable {source : KeySource} {store store' : KeyStore} {pc : KeyPc}

/-- A call that relies on a pair can: it is there. -/
theorem Holds.published (h : pc.Holds source store) (hrelies : pc.relies = true) :
    store.published source ≠ none := by
  cases pc with
  | readPub =>
    obtain ⟨rfl, hpub, hpriv⟩ := h
    obtain ⟨pub, hpub⟩ := Option.isSome_iff_exists.mp hpub
    obtain ⟨priv, hpriv⟩ := Option.isSome_iff_exists.mp hpriv
    simp [KeyStore.published, hpub, hpriv]
  | readPriv pub =>
    obtain ⟨rfl, hpub, hpriv⟩ := h
    obtain ⟨priv, hpriv⟩ := Option.isSome_iff_exists.mp hpriv
    simp [KeyStore.published, hpub, hpriv]
  | setPermissions pair =>
    obtain ⟨rfl, hpub, hpriv⟩ := h
    simp [KeyStore.published, hpub, hpriv]
  | done result =>
    cases result with
    | error e => exact nomatch hrelies
    | ok pair =>
      have h : store.published source = some pair := h
      simp [h]
  | _ => exact nomatch hrelies

/-- A pair is made for a cell or for files, never for a cache. -/
theorem Holds.source_ne_cache (h : pc.Holds source store) (hgenerating : pc.generating = true) :
    source ≠ .cache := by
  rintro rfl
  cases pc with
  | generateCell | setCell pair | createPriv pair | writePriv pair => exact nomatch h.1
  | generateFiles | createPub pair | writePub pair => exact nomatch h
  | _ => exact nomatch hgenerating

/-- A call that neither makes a pair nor relies on one does not notice changes, as long as no file
goes away. -/
theorem Holds.frame (h : pc.Holds source store) (hgenerating : pc.generating = false)
    (hrelies : pc.relies = false) (hpub : store.pubFile.isSome → store'.pubFile.isSome) :
    pc.Holds source store' := by
  cases pc with
  | privExists => exact ⟨h.1, hpub h.2⟩
  | start | lockCache | getCell | keyDir | pubExists => exact h
  | done result =>
    cases result with
    | error e => trivial
    | ok pair => exact nomatch hrelies
  | generateCell | setCell pair | generateFiles | createPub pair | writePub pair
  | createPriv pair | writePriv pair => exact nomatch hgenerating
  | readPub | readPriv pub | setPermissions pair => exact nomatch hrelies

end KeyPc

/-! ## One step -/

section KeyStep

variable {config : KeypairConfig} {keys : KeypairType → ℕ → Keypair} {k : KeypairType}
  {accessor : Accessor} {store : KeyStore} {count : ℕ} {fault : Option Fault} {pc : KeyPc}

/-- A call starts at the place where it looks. -/
theorem startPc_holds (config : KeypairConfig) (k : KeypairType) (accessor : Accessor)
    (store : KeyStore) :
    (startPc config k accessor).Holds (keySource config k accessor) store := by
  unfold startPc keySource
  split
  · rfl
  · unfold ensureStart
    cases config.mode k with
    | ephemeral => rfl
    | persistent => rfl

/-- **A step of a call** leaves it where what it knows holds. -/
theorem keyStep_holds (h : pc.Holds (keySource config k accessor) store) :
    let out := keyStep config keys k accessor store count fault pc
    out.2.2.Holds (keySource config k accessor) out.1 := by
  cases pc with
  | start => exact startPc_holds config k accessor store
  | lockCache =>
    have hsource : keySource config k accessor = .cache := h
    cases hcache : store.cache with
    | some pair =>
      simp only [keyStep, hcache, KeyPc.Holds, hsource]
      exact hcache
    | none => cases fault with
      | some fault => simp only [keyStep, hcache, KeyPc.Holds]
      | none =>
        simp only [keyStep, hcache, KeyPc.Holds, hsource]
        rfl
  | getCell =>
    have hsource : keySource config k accessor = .cell := h
    cases hcell : store.cell with
    | some pair =>
      simp only [keyStep, hcell, KeyPc.Holds, hsource]
      exact hcell
    | none =>
      simp only [keyStep, hcell]
      exact ⟨hsource, hcell⟩
  | generateCell => cases fault with
    | some fault => trivial
    | none => exact h
  | setCell pair =>
    obtain ⟨hsource, hcell⟩ := h
    simp only [keyStep, hcell, KeyPc.Holds, hsource]
    rfl
  | keyDir => cases fault with
    | some fault => trivial
    | none => exact h
  | pubExists =>
    simp only [keyStep]
    split_ifs with hexists
    · exact ⟨h, hexists.1⟩
    · exact h
  | privExists =>
    simp only [keyStep]
    split_ifs with hexists
    · exact ⟨h.1, h.2, hexists.1⟩
    · exact h.1
  | readPub =>
    obtain ⟨hsource, hpub, hpriv⟩ := h
    obtain ⟨pub, hpub⟩ := Option.isSome_iff_exists.mp hpub
    cases fault with
    | some fault => simp only [keyStep, hpub, KeyPc.Holds]
    | none =>
      simp only [keyStep, hpub]
      exact ⟨hsource, hpub, hpriv⟩
  | readPriv pub =>
    obtain ⟨hsource, hpub, hpriv⟩ := h
    obtain ⟨priv, hpriv⟩ := Option.isSome_iff_exists.mp hpriv
    cases fault with
    | some fault => simp only [keyStep, hpriv, KeyPc.Holds]
    | none => simp [keyStep, hpriv, KeyPc.Holds, hsource, KeyStore.published, hpub]
  | generateFiles => cases fault with
    | some fault => trivial
    | none => exact h
  | createPub pair => cases fault with
    | some fault => trivial
    | none => exact h
  | writePub pair => cases fault with
    | some fault => trivial
    | none => exact ⟨h, rfl⟩
  | createPriv pair => cases fault with
    | some fault => trivial
    | none => exact h
  | writePriv pair => cases fault with
    | some fault => trivial
    | none => exact ⟨h.1, h.2, rfl⟩
  | setPermissions pair => cases fault with
    | some fault => trivial
    | none =>
      obtain ⟨hsource, hpub, hpriv⟩ := h
      simp [keyStep, KeyPc.Holds, hsource, KeyStore.published, hpub, hpriv]
  | done result => exact h

/-- A step changes the store only where a call makes a pair. -/
theorem keyStep_store :
    (keyStep config keys k accessor store count fault pc).1 = store ∨ pc.generating = true ∨
      pc = .lockCache ∧ store.cache = none := by
  cases pc with
  | lockCache =>
    simp only [keyStep]
    split
    · exact .inl rfl
    · exact .inl rfl
    · exact .inr (.inr ⟨trivial, ‹store.cache = none›⟩)
  | getCell =>
    simp only [keyStep]
    split
    · exact .inl rfl
    · exact .inl rfl
  | readPub | readPriv pub =>
    simp only [keyStep]
    split
    · exact .inl rfl
    · exact .inl rfl
    · exact .inl rfl
  | keyDir | setPermissions pair => cases fault with
    | some fault => exact .inl rfl
    | none => exact .inl rfl
  | start | pubExists | privExists | done result => exact .inl rfl
  | generateCell | setCell pair | generateFiles | createPub pair | writePub pair
  | createPriv pair | writePriv pair => exact .inr (.inl rfl)

/-- No step takes the public key file away. -/
theorem keyStep_pubFile (hpub : store.pubFile.isSome) :
    (keyStep config keys k accessor store count fault pc).1.pubFile.isSome := by
  have hcases : (keyStep config keys k accessor store count fault pc).1 = store ∨
      pc.generating = true ∨ pc = .lockCache ∧ store.cache = none := keyStep_store
  rcases hcases with hstore | hgenerating | ⟨rfl, hcache⟩
  · rw [hstore]
    exact hpub
  · cases pc with
    | generateCell | generateFiles | createPriv pair | writePriv pair => cases fault with
      | some fault => exact hpub
      | none => exact hpub
    | createPub pair => cases fault with
      | some fault => exact hpub
      | none => rfl
    | writePub pair => cases fault with
      | some fault => rfl
      | none => rfl
    | setCell pair => exact hpub
    | _ => exact nomatch hgenerating
  · cases fault with
    | some fault => simpa only [keyStep, hcache] using hpub
    | none => simpa only [keyStep, hcache] using hpub

/-- A call comes to make a pair when it has looked and there is none. -/
theorem keyStep_generating (h : pc.Holds (keySource config k accessor) store)
    (hfault : pc.looks = true → fault.isNone ∨ store.published .files = none)
    (hgenerating : (keyStep config keys k accessor store count fault pc).2.2.generating = true) :
    pc.generating = true ∨
      pc.looks = true ∧ store.published (keySource config k accessor) = none := by
  cases pc with
  | start =>
    simp only [keyStep, startPc, ensureStart] at hgenerating
    split at hgenerating
    · exact nomatch hgenerating
    · split at hgenerating
      · exact nomatch hgenerating
      · exact nomatch hgenerating
  | lockCache =>
    simp only [keyStep] at hgenerating
    split at hgenerating
    · exact nomatch hgenerating
    · exact nomatch hgenerating
    · exact nomatch hgenerating
  | getCell =>
    have hsource : keySource config k accessor = .cell := h
    cases hcell : store.cell with
    | some pair =>
      simp only [keyStep, hcell] at hgenerating
      exact nomatch hgenerating
    | none => exact .inr ⟨rfl, by rw [hsource]; exact hcell⟩
  | pubExists =>
    have hsource : keySource config k accessor = .files := h
    refine .inr ⟨rfl, ?_⟩
    rw [hsource]
    rcases hfault rfl with hnone | hnone
    · cases hpub : store.pubFile with
      | none => rw [KeyStore.published, hpub, Option.bind_none]
      | some pub =>
        rw [keyStep, if_pos ⟨by rw [hpub]; rfl, hnone⟩] at hgenerating
        exact nomatch hgenerating
    · exact hnone
  | privExists =>
    obtain ⟨hsource, -⟩ := h
    refine .inr ⟨rfl, ?_⟩
    rw [hsource]
    rcases hfault rfl with hnone | hnone
    · cases hpriv : store.privFile with
      | none => simp [KeyStore.published, hpriv]
      | some priv =>
        rw [keyStep, if_pos ⟨by rw [hpriv]; rfl, hnone⟩] at hgenerating
        exact nomatch hgenerating
    · exact hnone
  | readPub | readPriv pub =>
    simp only [keyStep] at hgenerating
    split at hgenerating
    · exact nomatch hgenerating
    · exact nomatch hgenerating
    · exact nomatch hgenerating
  | keyDir | setPermissions pair => cases fault with
    | some fault => exact nomatch hgenerating
    | none => exact nomatch hgenerating
  | done result => exact .inl hgenerating
  | generateCell | setCell pair | generateFiles | createPub pair | writePub pair
  | createPriv pair | writePriv pair => exact .inl rfl

/-- A call comes to rely on a pair when it has made it or has looked for it. -/
theorem keyStep_relies
    (hrelies : (keyStep config keys k accessor store count fault pc).2.2.relies = true) :
    pc.relies = true ∨ pc.generating = true ∨ pc.looks = true ∨ pc = .lockCache := by
  cases pc with
  | start =>
    simp only [keyStep, startPc, ensureStart] at hrelies
    split at hrelies
    · exact nomatch hrelies
    · split at hrelies
      · exact nomatch hrelies
      · exact nomatch hrelies
  | keyDir => cases fault with
    | some fault => exact nomatch hrelies
    | none => exact nomatch hrelies
  | readPub | readPriv pub | setPermissions pair => exact .inl rfl
  | done result => exact .inl hrelies
  | lockCache => exact .inr (.inr (.inr rfl))
  | getCell | pubExists | privExists => exact .inr (.inr (.inl rfl))
  | generateCell | setCell pair | generateFiles | createPub pair | writePub pair
  | createPriv pair | writePriv pair => exact .inr (.inl rfl)

end KeyStep

/-! ## All calls -/

/-- What undisturbed calls keep: those for one keypair look in one place, each knows what it has
seen there, and while one of them makes a pair no other makes or relies on one. -/
structure Agreed (config : KeypairConfig) (s : KeyState) : Prop where
  source {i j : ℕ} {c c' : KeyCall} (hi : s.calls[i]? = some c) (hj : s.calls[j]? = some c')
    (hk : c'.keypairType = c.keypairType) :
    keySource config c.keypairType c'.accessor = keySource config c.keypairType c.accessor
  holds {i : ℕ} {c : KeyCall} (hi : s.calls[i]? = some c) :
    c.pc.Holds (keySource config c.keypairType c.accessor) (s.stores c.keypairType)
  alone {i j : ℕ} {c c' : KeyCall} (hi : s.calls[i]? = some c) (hj : s.calls[j]? = some c')
    (hne : j ≠ i) (hk : c'.keypairType = c.keypairType) (hgenerating : c.pc.generating = true) :
    c'.pc.generating = false ∧ c'.pc.relies = false

theorem agreed_freshKeys (config : KeypairConfig) : Agreed config freshKeys where
  source hi := nomatch hi
  holds hi := nomatch hi
  alone hi := nomatch hi

/-- The pairs that the calls of an agreed state return are the published one. -/
theorem Agreed.oneIdentity {config : KeypairConfig} {s : KeyState} (h : Agreed config s) :
    OneIdentity s := by
  intro c hc c' hc' hk pair pair' hpair hpair'
  obtain ⟨i, hi⟩ := List.mem_iff_getElem?.mp hc
  obtain ⟨j, hj⟩ := List.mem_iff_getElem?.mp hc'
  have hpublished : (s.stores c.keypairType).published
      (keySource config c.keypairType c.accessor) = some pair := by
    have hholds := h.holds hi
    rwa [hpair] at hholds
  have hpublished' : (s.stores c.keypairType).published
      (keySource config c.keypairType c.accessor) = some pair' := by
    have hholds := h.holds hj
    rwa [hpair', ← hk, h.source hi hj hk.symm] at hholds
  exact Option.some.inj (hpublished.symm.trans hpublished')

section Step

variable {config : KeypairConfig} {keys : KeypairType → ℕ → Keypair} {s : KeyState}

/-- The state after call `i` has taken its step. -/
theorem interleaveKeys_step {i : ℕ} {c : KeyCall} (hi : s.calls[i]? = some c)
    (fault : Option Fault) :
    let out := keyStep config keys c.keypairType c.accessor (s.stores c.keypairType) s.generated
      fault c.pc
    interleaveKeys config keys s (.step i fault) =
      ⟨Function.update s.stores c.keypairType out.1, out.2.1,
        s.calls.set i { c with pc := out.2.2 }⟩ := by
  simp only [interleaveKeys, hi]

/-- A call that starts looks where the others do. -/
theorem agreed_spawn (h : Agreed config s) {k : KeypairType} {accessor : Accessor}
    (hguard : Undisturbed config s (.spawn k accessor)) :
    Agreed config (interleaveKeys config keys s (.spawn k accessor)) := by
  -- A call of the new list is one of the old list, or the one that starts.
  have hcalls {i : ℕ} {c : KeyCall}
      (hi : (s.calls ++ [⟨k, accessor, .start⟩])[i]? = some c) :
      s.calls[i]? = some c ∨ c = ⟨k, accessor, .start⟩ := by
    rw [List.getElem?_append] at hi
    split_ifs at hi
    · exact .inl hi
    · refine .inr ?_
      rw [List.getElem?_singleton] at hi
      split_ifs at hi
      exact (Option.some.inj hi).symm
  refine ⟨fun {i j c c'} hi hj hk => ?_, fun {i c} hi => ?_,
    fun {i j c c'} hi hj hne hk hgenerating => ?_⟩
  · rcases hcalls hi with hi | rfl
    · rcases hcalls hj with hj | rfl
      · exact h.source hi hj hk
      · have hsource := hguard c (List.mem_of_getElem? hi) hk.symm
        rw [← hk]
        exact hsource.symm
    · rcases hcalls hj with hj | rfl
      · exact hguard c' (List.mem_of_getElem? hj) hk
      · rfl
  · rcases hcalls hi with hi | rfl
    · exact h.holds hi
    · trivial
  · rcases hcalls hi with hi | rfl
    · rcases hcalls hj with hj | rfl
      · exact h.alone hi hj hne hk hgenerating
      · exact ⟨rfl, rfl⟩
    · exact nomatch hgenerating

/-- A call that is about to lock the cache looks there. -/
theorem Agreed.source_of_lockCache (h : Agreed config s) {i : ℕ} {c : KeyCall}
    (hi : s.calls[i]? = some c) (hlock : c.pc = .lockCache) :
    keySource config c.keypairType c.accessor = .cache := by
  have hholds := h.holds hi
  rwa [hlock] at hholds

/-- While a step changes the store, no other call makes a pair or relies on one. -/
theorem Agreed.alone_of_writes (h : Agreed config s) {i j : ℕ} {c c' : KeyCall}
    (hi : s.calls[i]? = some c) (hj : s.calls[j]? = some c') (hne : j ≠ i)
    (hk : c'.keypairType = c.keypairType)
    (hwrites : c.pc.generating = true ∨
      c.pc = .lockCache ∧ (s.stores c.keypairType).cache = none) :
    c'.pc.generating = false ∧ c'.pc.relies = false := by
  rcases hwrites with hgenerating | ⟨hlock, hcache⟩
  · exact h.alone hi hj hne hk hgenerating
  · have hholds' := h.holds hj
    rw [hk, h.source hi hj hk, h.source_of_lockCache hi hlock] at hholds'
    constructor
    · rw [← Bool.not_eq_true]
      exact fun hgenerating => hholds'.source_ne_cache hgenerating rfl
    · rw [← Bool.not_eq_true]
      exact fun hrelies => hholds'.published hrelies hcache

/-- No other call makes a pair for this keypair when a call looks. -/
theorem Undisturbed.others {i j : ℕ} {fault : Option Fault} {c c' : KeyCall}
    (hguard : Undisturbed config s (.step i fault)) (hi : s.calls[i]? = some c)
    (hj : s.calls[j]? = some c') (hne : j ≠ i) (hk : c'.keypairType = c.keypairType)
    (hlooks : c.pc.looks = true) : c'.pc.generating = false :=
  (hguard c hi hlooks).1 j (List.getElem?_eq_some_iff.mp hj).1 hne c' hj hk

/-- A call that looks sees the files when both are there. -/
theorem Undisturbed.sees {i : ℕ} {fault : Option Fault} {c : KeyCall}
    (hguard : Undisturbed config s (.step i fault)) (hi : s.calls[i]? = some c)
    (hlooks : c.pc.looks = true) :
    fault.isNone ∨ (s.stores c.keypairType).published .files = none :=
  (hguard c hi hlooks).2

/-- What the step of call `i` leaves of the others. -/
theorem Agreed.holds_other (h : Agreed config s) {i j : ℕ} {c c' : KeyCall} (fault : Option Fault)
    (hi : s.calls[i]? = some c) (hj : s.calls[j]? = some c') (hne : j ≠ i) :
    let out := keyStep config keys c.keypairType c.accessor (s.stores c.keypairType) s.generated
      fault c.pc
    c'.pc.Holds (keySource config c'.keypairType c'.accessor)
      (Function.update s.stores c.keypairType out.1 c'.keypairType) := by
  intro out
  have hholds := h.holds hj
  by_cases hk : c'.keypairType = c.keypairType
  · rw [hk, Function.update_self]
    rw [hk] at hholds
    have hstore : out.1 = s.stores c.keypairType ∨ c.pc.generating = true ∨
        c.pc = .lockCache ∧ (s.stores c.keypairType).cache = none := keyStep_store
    rcases hstore with hstore | hwrites
    · rwa [hstore]
    · obtain ⟨hgenerating, hrelies⟩ := h.alone_of_writes hi hj hne hk hwrites
      exact hholds.frame hgenerating hrelies keyStep_pubFile
  · rwa [Function.update_of_ne hk]

/-- A call that comes to make a pair is the only one to do so, and none relies on one. -/
theorem Agreed.alone_of_step (h : Agreed config s) {i j : ℕ} {c c' : KeyCall}
    {fault : Option Fault} (hguard : Undisturbed config s (.step i fault))
    (hi : s.calls[i]? = some c) (hj : s.calls[j]? = some c') (hne : j ≠ i)
    (hk : c'.keypairType = c.keypairType)
    (hgenerating : (keyStep config keys c.keypairType c.accessor (s.stores c.keypairType)
      s.generated fault c.pc).2.2.generating = true) :
    c'.pc.generating = false ∧ c'.pc.relies = false := by
  rcases keyStep_generating (h.holds hi) (hguard.sees hi) hgenerating with
    hgenerating | ⟨hlooks, hnone⟩
  · exact h.alone hi hj hne hk hgenerating
  · refine ⟨hguard.others hi hj hne hk hlooks, ?_⟩
    have hholds := h.holds hj
    rw [hk, h.source hi hj hk] at hholds
    rw [← Bool.not_eq_true]
    exact fun hrelies => hholds.published hrelies hnone

/-- A call does not come to make or rely on a pair while another one makes it. -/
theorem Agreed.step_of_alone (h : Agreed config s) {i j : ℕ} {c c' : KeyCall}
    {fault : Option Fault} (hguard : Undisturbed config s (.step i fault))
    (hi : s.calls[i]? = some c) (hj : s.calls[j]? = some c') (hne : j ≠ i)
    (hk : c'.keypairType = c.keypairType) (hgenerating : c'.pc.generating = true) :
    let out := keyStep config keys c.keypairType c.accessor (s.stores c.keypairType) s.generated
      fault c.pc
    out.2.2.generating = false ∧ out.2.2.relies = false := by
  intro out
  obtain ⟨hidle, hfree⟩ := h.alone hj hi hne.symm hk.symm hgenerating
  have hblind : c.pc.looks ≠ true := fun hlooks =>
    nomatch hgenerating.symm.trans (hguard.others hi hj hne hk hlooks)
  constructor
  · rw [← Bool.not_eq_true]
    intro hout
    rcases keyStep_generating (h.holds hi) (hguard.sees hi) hout with hc | ⟨hlooks, -⟩
    · exact nomatch hidle.symm.trans hc
    · exact hblind hlooks
  · rw [← Bool.not_eq_true]
    intro hout
    rcases keyStep_relies hout with hc | hc | hlooks | hlock
    · exact nomatch hfree.symm.trans hc
    · exact nomatch hidle.symm.trans hc
    · exact hblind hlooks
    · have hholds := h.holds hj
      rw [hk, h.source hi hj hk] at hholds
      exact hholds.source_ne_cache hgenerating (h.source_of_lockCache hi hlock)

/-- A step of a call that looks only while no other makes a pair. -/
theorem agreed_step (h : Agreed config s) {i : ℕ} {fault : Option Fault}
    (hguard : Undisturbed config s (.step i fault)) :
    Agreed config (interleaveKeys config keys s (.step i fault)) := by
  cases hi : s.calls[i]? with
  | none =>
    have hsame : interleaveKeys config keys s (.step i fault) = s := by
      simp only [interleaveKeys, hi]
    rwa [hsame]
  | some c =>
    rw [interleaveKeys_step hi]
    -- A call of the new list is the one that has taken its step, or another one as it was.
    have hcalls {pc : KeyPc} {j : ℕ} {c' : KeyCall}
        (hj : (s.calls.set i { c with pc := pc })[j]? = some c') :
        (j = i ∧ c' = { c with pc := pc }) ∨ (j ≠ i ∧ s.calls[j]? = some c') := by
      rw [List.getElem?_set] at hj
      split_ifs at hj with hij hlt
      · exact .inl ⟨hij.symm, (Option.some.inj hj).symm⟩
      · exact .inr ⟨fun hji => hij hji.symm, hj⟩
    refine ⟨fun {j l c' d} hj hl hk => ?_, fun {j c'} hj => ?_,
      fun {j l c' d} hj hl hne hk hgenerating => ?_⟩
    · rcases hcalls hj with ⟨rfl, rfl⟩ | ⟨hji, hold⟩
      · rcases hcalls hl with ⟨rfl, rfl⟩ | ⟨hli, hold'⟩
        · rfl
        · have hsource := h.source hi hold' hk
          exact hsource
      · rcases hcalls hl with ⟨rfl, rfl⟩ | ⟨hli, hold'⟩
        · have hsource := h.source hold hi hk
          exact hsource
        · exact h.source hold hold' hk
    · rcases hcalls hj with ⟨rfl, rfl⟩ | ⟨hji, hold⟩
      · dsimp only
        rw [Function.update_self]
        exact keyStep_holds (h.holds hi)
      · exact h.holds_other fault hi hold hji
    · rcases hcalls hj with ⟨rfl, rfl⟩ | ⟨hji, hold⟩
      · rcases hcalls hl with ⟨rfl, rfl⟩ | ⟨hli, hold'⟩
        · exact absurd rfl hne
        · exact h.alone_of_step hguard hi hold' hli hk hgenerating
      · rcases hcalls hl with ⟨rfl, rfl⟩ | ⟨hli, hold'⟩
        · exact h.step_of_alone hguard hi hold hji hk.symm hgenerating
        · exact h.alone hold hold' hne hk hgenerating

/-- **An undisturbed step** keeps the calls agreed. -/
theorem agreed_interleaveKeys (s : KeyState) (a : KeyAction) (hguard : Undisturbed config s a)
    (h : Agreed config s) : Agreed config (interleaveKeys config keys s a) := by
  cases a with
  | spawn k accessor => exact agreed_spawn h hguard
  | step i fault => exact agreed_step h hguard

end Step

/-- **One identity**: in every interleaving whose steps are undisturbed, the calls for a keypair
that succeed return one pair. -/
theorem one_identity (config : KeypairConfig) (keys : KeypairType → ℕ → Keypair)
    (acts : List KeyAction)
    (hguard : Run.Guarded (interleaveKeys config keys) (Undisturbed config) freshKeys acts) :
    OneIdentity (Run.run (interleaveKeys config keys) freshKeys acts) :=
  (hguard.invariant agreed_interleaveKeys (agreed_freshKeys config)).oneIdentity

/-! ## A run of each kind -/

/-- Keypairs that are all different. -/
def sampleKeys (_ : KeypairType) (n : ℕ) : Keypair :=
  (List.replicate (n + 1) 1, List.replicate (n + 1) 2)

theorem sampleKeys_injective (k : KeypairType) : Function.Injective (sampleKeys k) := by
  intro n n' h
  have hlength : n + 1 = n' + 1 := by simpa [sampleKeys] using congrArg (·.1.length) h
  omega

/-- Call `i` takes `n` steps, none of which fails. -/
def steps (i n : ℕ) : List KeyAction := List.replicate n (.step i none)

/-- A call makes the signing keypair on disk, and the manager finds it there. -/
theorem one_identity_reference :
    let acts := .spawn .signing .onDisk :: steps 0 9 ++ .spawn .signing .manager :: steps 1 6
    let s := Run.run (interleaveKeys ⟨.persistent, .persistent⟩ sampleKeys) freshKeys acts
    s.calls.map KeyCall.pc =
        [.done (.ok (sampleKeys .signing 0)), .done (.ok (sampleKeys .signing 0))] ∧
      OneIdentity s :=
  ⟨rfl, one_identity _ sampleKeys _ (by decide)⟩

/-- In an ephemeral process the manager does not know of the pair that is there, and a process that
finds no files makes two pairs in two calls that overlap, of which a third call reads the halves. -/
theorem two_identities :
    let ephemeral := Run.run (interleaveKeys ⟨.ephemeral, .ephemeral⟩ sampleKeys) freshKeys
      (.spawn .signing .onDisk :: steps 0 4 ++ .spawn .signing .manager :: steps 1 2)
    let persistent := Run.run (interleaveKeys ⟨.persistent, .persistent⟩ sampleKeys) freshKeys
      (.spawn .signing .onDisk :: .spawn .signing .onDisk :: .spawn .signing .onDisk ::
        steps 0 3 ++ steps 1 3 ++ steps 0 3 ++ steps 1 6 ++ steps 0 3 ++ steps 2 6)
    Function.Injective (sampleKeys .signing) ∧
      ephemeral.calls.map KeyCall.pc =
        [.done (.ok (sampleKeys .signing 0)), .done (.ok (sampleKeys .signing 1))] ∧
      ¬ OneIdentity ephemeral ∧
      persistent.calls.map KeyCall.pc =
        [.done (.ok (sampleKeys .signing 0)), .done (.ok (sampleKeys .signing 1)),
          .done (.ok ((sampleKeys .signing 1).1, (sampleKeys .signing 0).2))] ∧
      ¬ OneIdentity persistent := by
  intro ephemeral persistent
  have hne : sampleKeys .signing 0 ≠ sampleKeys .signing 1 := by decide
  refine ⟨sampleKeys_injective .signing, rfl, fun h => hne ?_, rfl, fun h => hne ?_⟩
  · exact h _ (.head _) _ (.tail _ (.head _)) rfl _ _ rfl rfl
  · exact h _ (.head _) _ (.tail _ (.head _)) rfl _ _ rfl rfl

end Beemesh
