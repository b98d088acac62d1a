import KeyRack.Core.Registry
import KeyRack.Core.Resolver
import KeyRack.Core.Routing
import KeyRack.Lib.Mutex
import KeyRack.Lib.Process

/-!
# Lazy provisioner

Resolves an attribute map to a chain of identifiers and makes sure that every key
of it exists, from the root down. Calls that miss the same key at the same time
coalesce: the first one leads and enters the key in the in-flight map, the others
wait for its result. A call may be dropped wherever it waits; a leader's entry is
then removed by the guard it holds, if the map's lock happens to be free.
-/
namespace KeyRack

open Fallible Process Function

structure ProvisionConfig where
  defaultKeySpec : KeySpec
  defaultKeyUsage : KeyUsage
  resolver : ResolverConfig

/-- The full chain from leaf to root, and which of its keys were created. -/
structure ProvisionResult where
  chain : List Lid
  created : List Lid
  existed : List Lid

structure LazyProvisioner where
  rules : RuleRegistry
  config : ProvisionConfig
  router : ProviderRouter

inductive KeyProvisionOutcome where
  | created
  | existed
  deriving DecidableEq

/-! ### Calls -/

/-- What a call becomes when it looks into the in-flight map. -/
inductive Role where
  | leader
  | waiter (channel : Nat)
  deriving DecidableEq

/-- What a receiver gets from a channel: the leader's result, or that the sender is
    gone. -/
inductive Notice where
  | sent (result : Except KeyRackError Unit)
  | closed
  deriving DecidableEq

inductive ProvisionCall where
  | getKey (lid : Lid)
  | createKey (record : KeyRecord)
  | now
  | resolve (name : ProviderRef)
  -- the provider is not told for which key
  | generateKey (lid : Lid) (entry : ProviderEntry) (keySpec : KeySpec)
  -- the first poll of `inflight.lock()`, and the wait for it
  | requestLock
  | awaitLock
  -- look the key up in the map, enter it if it is not there, and unlock
  | enter (lid : Lid)
  -- remove the key from the map, send the result, disarm the guard, and unlock
  | finish (lid : Lid) (result : Except KeyRackError Unit)
  | recv (channel : Nat)

namespace ProvisionCall

@[reducible] def Reply : ProvisionCall → Type
  | .getKey _ => Except KeyRackError KeyRecord
  | .createKey _ => Except KeyRackError Unit
  | .now => DateTime
  | .resolve _ => Except KeyRackError ProviderEntry
  | .generateKey _ _ _ => Except KeyRackError KeyHandle
  | .requestLock => Unit
  | .awaitLock => Unit
  | .enter _ => Role
  | .finish _ _ => Unit
  | .recv _ => Notice

end ProvisionCall

abbrev Provision : Type → Type := ExceptT KeyRackError (Prog ProvisionCall ProvisionCall.Reply)

abbrev Provision.call (c : ProvisionCall) : Provision c.Reply := observe c

/-! ### The program -/

def lockInflight : Provision Unit := do
  Provision.call .requestLock
  Provision.call .awaitLock

/-- The record of a newly provisioned key. -/
def provisionedRecord (config : ProvisionConfig) (lid : Lid) (parentLid : Option Lid)
    (keySpec : KeySpec) (identityTags : FlatAttrs) (providerName : ProviderRef)
    (entry : ProviderEntry) (keyHandle : KeyHandle) (now : DateTime) : KeyRecord where
  lid
  canonicalizationVersion := config.resolver.canonicalizationVersion
  parentLid
  occVersion := 1
  currentKeyVersion := 1
  state := .enabled
  wasCompromised := false
  keyUsage := config.defaultKeyUsage
  keySpec
  origin := .keyRack
  providerClass := entry.providerClass
  providerRef := some providerName
  exportability := .nonExportable
  firstExportedAt := none
  ownerPrincipalId := none
  identityTags
  userTags := .empty
  createdAt := now
  updatedAt := now
  scheduledDeletionAt := none
  description := "auto-provisioned by lazy resolver"
  keyVersions := [⟨1, .providerResident keyHandle (some providerName), now, true⟩]

namespace LazyProvisioner

variable [UnicodeNormalization] (provisioner : LazyProvisioner)

/-- The specification that the matching rule asks for, or the default. -/
def keySpecFor (attrs : FlatAttrs) : KeySpec :=
  ((provisioner.rules.matchRule attrs).bind (·.rule.keySpec)).getD
    provisioner.config.defaultKeySpec

/-- The tags of a flat map, entry by entry through a typed attribute set. -/
def identityTagsFor (attrs : FlatAttrs) : Except KeyRackError FlatAttrs :=
  let identityAttrs := attrs.entries.foldl (fun set (key, value) => set.insertString key value) .new
  mapErr (IdentityTags.fromAttributeSet identityAttrs) .invalidIdentity

def doProvision (lid : Lid) (parentLid : Option Lid) (attrs : FlatAttrs) :
    Provision KeyProvisionOutcome := do
  -- another task may have created the key before this one became the leader
  match ← Provision.call (.getKey lid) with
  | .ok _ => return .existed
  | .error (.keyNotFound _) =>
    let keySpec := provisioner.keySpecFor attrs
    let now ← Provision.call .now
    let identityTags ← liftM (identityTagsFor attrs)
    let providerName := provisioner.router.select identityTags
    let resolved ← Provision.call (.resolve providerName)
    let entry ← liftM (mapErr resolved KeyRackError.providerRoutingFailed)
    let generated ← Provision.call (.generateKey lid entry keySpec)
    let keyHandle ← liftM generated
    let record := provisionedRecord provisioner.config lid parentLid keySpec identityTags
      providerName entry keyHandle now
    match ← Provision.call (.createKey record) with
    | .ok () => return .created
    | .error _ =>
      match ← Provision.call (.getKey lid) with
      | .ok _ => return .existed
      | .error _ => throw (.provisionFailed lid)
  | .error e => throw e

/-- The leader: create the key and notify waiters. -/
def provisionAsLeader (lid : Lid) (parentLid : Option Lid) (attrs : FlatAttrs) :
    Provision KeyProvisionOutcome := do
  let result ← ExceptT.lift (provisioner.doProvision lid parentLid attrs).run
  lockInflight
  Provision.call (.finish lid (result.map fun _ => ()))
  liftM result

/-- Ensure a single key exists. -/
def ensureKey (lid : Lid) (parentLid : Option Lid) (attrs : FlatAttrs) :
    Provision KeyProvisionOutcome := do
  match ← Provision.call (.getKey lid) with
  | .ok _ => return .existed
  | .error (.keyNotFound _) =>
    lockInflight
    match ← Provision.call (.enter lid) with
    | .leader => provisioner.provisionAsLeader lid parentLid attrs
    | .waiter channel =>
      match ← Provision.call (.recv channel) with
      | .sent (.ok ()) => return .existed
      | .sent (.error e) => throw (.leaderFailed lid e)
      | .closed => throw (.channelClosed lid)
  | .error e => throw e

/-- The loop over the chain, root first, with the previous key and what was created
    and found so far. -/
def provisionLevels (attrs : FlatAttrs) :
    Option Lid → List Lid → List Lid × List Lid → Provision (List Lid × List Lid)
  | _, [], sorted => return sorted
  | parentLid, lid :: rest, (created, existed) => do
    match ← provisioner.ensureKey lid parentLid attrs with
    | .created => provisionLevels attrs (some lid) rest (created ++ [lid], existed)
    | .existed => provisionLevels attrs (some lid) rest (created, existed ++ [lid])

variable [Blake3]

/-- `resolve_chain`, with as many iterations as its depth limit lets it make. -/
def chainOf (attrs : FlatAttrs) : Except KeyRackError (List Lid) :=
  (resolveChain (provisioner.config.resolver.maxDepth + 1) provisioner.rules attrs
    provisioner.config.resolver).getD (.error .panicked)

def resolveAndProvision (attrs : FlatAttrs) : Provision ProvisionResult := do
  let attrs ← liftM (mapErr (normalizeFlat attrs) KeyRackError.invalidIdentity)
  let chain ← liftM (provisioner.chainOf attrs)
  -- every level is provisioned with the attributes of the leaf
  let (created, existed) ← provisioner.provisionLevels attrs none chain.reverse ([], [])
  return ⟨chain, created, existed⟩

end LazyProvisioner

/-! ### Its surroundings -/

/-- The keys of a storage backend. -/
abbrev KeyStore : Type := Lid → Option KeyRecord

/-- What `create_key` may do: store the record of a key that is not there, or fail;
    the reply to a stored record can be lost. -/
inductive KeyStore.Creates (store : KeyStore) (record : KeyRecord) :
    Except KeyRackError Unit → KeyStore → Prop where
  | created (absent : store record.lid = none) :
      Creates store record (.ok ()) (update store record.lid (some record))
  | failed (e : KeyRackError) : Creates store record (.error e) store
  | lost (e : KeyRackError) (absent : store record.lid = none) :
      Creates store record (.error e) (update store record.lid (some record))

/-- What `get_key` may return. -/
inductive KeyStore.Finds (store : KeyStore) (lid : Lid) : Except KeyRackError KeyRecord → Prop where
  | found (record : KeyRecord) (stored : store lid = some record) : Finds store lid (.ok record)
  | missing (absent : store lid = none) : Finds store lid (.error (.keyNotFound lid))
  | failed (e : KeyRackError) (other : ∀ named, e ≠ .keyNotFound named) :
      Finds store lid (.error e)

/-- Keys may be added and changed by others, but do not go away. -/
def KeyStore.Grows (store store' : KeyStore) : Prop :=
  ∀ lid, (store lid).isSome = true → (store' lid).isSome = true

/-- The state that the calls on one provisioner share. -/
structure ProvisionWorld (ι : Type) where
  store : KeyStore
  inflight : Lid → Option Nat
  -- what the sender of each channel has sent, or that it is gone
  notices : Nat → Option Notice
  channels : Nat
  lock : Mutex ι
  -- the armed `InflightGuard` of each call
  guards : ι → Option Lid

namespace ProvisionWorld

variable {ι : Type}

def initial (store : KeyStore) : ProvisionWorld ι :=
  ⟨store, fun _ => none, fun _ => none, 0, .unlocked, fun _ => none⟩

/-- Take the entry out of the map; its sender goes with this notice. -/
def removeEntry (world : ProvisionWorld ι) (lid : Lid) (notice : Notice) : ProvisionWorld ι :=
  match world.inflight lid with
  | none => world
  | some channel =>
    { world with
      inflight := update world.inflight lid none
      notices := update world.notices channel (some notice) }

variable [DecidableEq ι]

def enter (world : ProvisionWorld ι) (i : ι) (lid : Lid) : Role × ProvisionWorld ι :=
  match world.inflight lid with
  | some channel => (.waiter channel, { world with lock := world.lock.release })
  | none =>
    (.leader, { world with
      inflight := update world.inflight lid (some world.channels)
      channels := world.channels + 1
      lock := world.lock.release
      guards := update world.guards i (some lid) })

def finish (world : ProvisionWorld ι) (i : ι) (lid : Lid) (result : Except KeyRackError Unit) :
    ProvisionWorld ι :=
  let world := world.removeEntry lid (.sent result)
  { world with
    lock := world.lock.release
    guards := update world.guards i none }

/-- `InflightGuard::drop`: an armed guard removes its entry if it gets the lock
    without waiting. -/
def dropGuard (world : ProvisionWorld ι) (i : ι) : ProvisionWorld ι :=
  match world.guards i with
  | none => world
  | some lid =>
    let world := { world with guards := update world.guards i none }
    if world.lock.isFree then world.removeEntry lid .closed else world

end ProvisionWorld

variable {ι : Type} [DecidableEq ι]

inductive ProvisionCall.Answers (world : ProvisionWorld ι) (i : ι) :
    (c : ProvisionCall) → c.Reply → ProvisionWorld ι → Prop where
  | get (lid : Lid) (reply : Except KeyRackError KeyRecord) (finds : world.store.Finds lid reply) :
      Answers world i (.getKey lid) reply world
  | create (record : KeyRecord) (reply : Except KeyRackError Unit) (store : KeyStore)
      (creates : world.store.Creates record reply store) :
      Answers world i (.createKey record) reply { world with store }
  | now (time : DateTime) : Answers world i .now time world
  | resolve (name : ProviderRef) (reply : Except KeyRackError ProviderEntry) :
      Answers world i (.resolve name) reply world
  | generate (lid : Lid) (entry : ProviderEntry) (keySpec : KeySpec)
      (reply : Except KeyRackError KeyHandle) :
      Answers world i (.generateKey lid entry keySpec) reply world
  | requestLock : Answers world i .requestLock () { world with lock := world.lock.request i }
  | awaitLock (held : world.lock.holder = some i) : Answers world i .awaitLock () world
  | enter (lid : Lid) :
      Answers world i (.enter lid) (world.enter i lid).1 (world.enter i lid).2
  | finish (lid : Lid) (result : Except KeyRackError Unit) :
      Answers world i (.finish lid result) () (world.finish i lid result)
  | recv (channel : Nat) (notice : Notice) (known : world.notices channel = some notice) :
      Answers world i (.recv channel) notice world

/-- What becomes of the shared state when a call is dropped while it waits. The
    other calls return at once, so nothing is dropped there. -/
inductive ProvisionCall.Leaves (world : ProvisionWorld ι) (i : ι) :
    ProvisionCall → ProvisionWorld ι → Prop where
  | get (lid : Lid) : Leaves world i (.getKey lid) (world.dropGuard i)
  | generate (lid : Lid) (entry : ProviderEntry) (keySpec : KeySpec) :
      Leaves world i (.generateKey lid entry keySpec) (world.dropGuard i)
  -- the backend may still carry the write out
  | create (record : KeyRecord) (reply : Except KeyRackError Unit) (store : KeyStore)
      (creates : world.store.Creates record reply store) :
      Leaves world i (.createKey record) (ProvisionWorld.dropGuard { world with store } i)
  -- the request for the lock goes before the guard
  | awaitLock :
      Leaves world i .awaitLock
        (ProvisionWorld.dropGuard { world with lock := world.lock.abandon i } i)
  | recv (channel : Nat) : Leaves world i (.recv channel) (world.dropGuard i)

variable [UnicodeNormalization] [Blake3]

/-- Any number of calls for the given attribute maps on one provisioner, whose
    backend others use as well. -/
def provisionRules (ι : Type) [DecidableEq ι] (provisioner : LazyProvisioner)
    (asked : FlatAttrs → Prop) :
    Rules (ProvisionWorld ι) ι ProvisionCall ProvisionCall.Reply
      (Except KeyRackError ProvisionResult) KeyStore where
  starts p := ∃ attrs, asked attrs ∧ p = (provisioner.resolveAndProvision attrs).run
  answers world i c reply world' := c.Answers world i reply world'
  drops world i c world' := c.Leaves world i world'
  environment world store world' := world.store.Grows store ∧ world' = { world with store }

end KeyRack
