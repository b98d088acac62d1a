import KeyRack.Core.Provisioner
import KeyRack.Properties.KeyTable
import KeyRack.Properties.Resolution

/-!
# What a provisioner creates

A chain has one attribute map per level, and a key should carry the tags, the
specification and the provider of its own level. The provisioner makes every level
from the leaf's attributes, so exactly the leaf comes out right: all keys it
creates are right if and only if nothing above a leaf is missing.
-/
namespace KeyRack

open Fallible Process Trace Function List Option LazyProvisioner

/-! ### Where a call stands -/

abbrev ProvisionEvent : Type := Process.Event ProvisionCall ProvisionCall.Reply

abbrev ProvisionProg : Type :=
  Prog ProvisionCall ProvisionCall.Reply (Except KeyRackError ProvisionResult)

abbrev ProvisionThread : Type := Thread ProvisionProg

/-- How far a leader is with its key. -/
inductive LeadPhase where
  | checking
  | missing
  | generated
  | stored
  deriving DecidableEq

def LeadPhase.next : LeadPhase → ProvisionEvent → LeadPhase
  | .checking, ⟨.getKey _, .error (.keyNotFound _)⟩ => .missing
  | _, ⟨.generateKey _ _ _, .ok _⟩ => .generated
  | _, ⟨.createKey _, _⟩ => .stored
  | phase, _ => phase

def leadStep (stage : Option (Lid × LeadPhase)) : ProvisionEvent → Option (Lid × LeadPhase)
  | ⟨.enter lid, .leader⟩ => some (lid, .checking)
  | ⟨.finish _ _, _⟩ => none
  | event => stage.map fun (lid, phase) => (lid, phase.next event)

/-- The key that a call leads after these events, if any, and how far it is. -/
def leadStage (past : List ProvisionEvent) : Option (Lid × LeadPhase) := past.foldl leadStep none

@[simp] theorem leadStage_append (past events : List ProvisionEvent) :
    leadStage (past ++ events) = events.foldl leadStep (leadStage past) := by
  simp [leadStage]

/-- What a call does where it stands. -/
def Leading (past : List ProvisionEvent) : ProvisionCall → Prop
  | .enter _ => leadStage past = none
  | .finish lid _ => ∃ phase, phase ≠ .generated ∧ leadStage past = some (lid, phase)
  | .getKey lid => ∀ led, leadStage past = some (led, .checking) → led = lid
  | .generateKey lid _ _ => leadStage past = some (lid, .missing)
  | .createKey record => leadStage past = some (record.lid, .generated)
  | .recv channel => ∃ lid, (⟨.enter lid, .waiter channel⟩ : ProvisionEvent) ∈ past
  | _ => True

theorem mapM_tag_stringEntries (entries : List (String × String)) :
    (stringEntries entries).mapM IdentityTags.tag = .ok entries := by
  induction entries with
  | nil => rfl
  | cons _ _ ih =>
    simp only [stringEntries, map_cons, mapM_cons] at ih ⊢
    rw [ih]
    rfl

section
variable [UnicodeNormalization] {provisioner : LazyProvisioner} {attrs tags : FlatAttrs}

/-! ### The leaf's attributes -/

/-- The identity tags of a flat map are the map, normalized. -/
theorem identityTagsFor_eq_ok :
    identityTagsFor attrs = .ok tags ↔ normalizeFlat attrs = .ok tags := by
  simp only [identityTagsFor, IdentityTags.fromAttributeSet, eq_ok, normalizeAttributes_collected]
  constructor
  · rintro ⟨_, ⟨normalized, returned, rfl⟩, _, read, rfl⟩
    cases (mapM_tag_stringEntries normalized.entries).symm.trans read
    rw [returned, SortedMap.ofList_entries]
  · intro returned
    exact ⟨_, ⟨tags, returned, rfl⟩, _, mapM_tag_stringEntries _, SortedMap.ofList_entries tags⟩

variable [Blake3]

theorem chainOf_eq_ok :
    provisioner.chainOf attrs = .ok chain ↔
      ∃ ancestors, Walk provisioner.rules provisioner.config.resolver.canonicalizationVersion attrs
        ancestors chain ∧ chain.Nodup ∧ chain.length ≤ provisioner.config.resolver.maxDepth := by
  have bounded : provisioner.chainOf attrs = .ok chain ↔
      resolveChain (provisioner.config.resolver.maxDepth + 1) provisioner.rules attrs
        provisioner.config.resolver = some (.ok chain) := by
    rw [chainOf]
    cases resolveChain (provisioner.config.resolver.maxDepth + 1) provisioner.rules attrs
      provisioner.config.resolver with
    | none | some result => simp
  rw [bounded, resolveChain_eq_ok]
  constructor
  · rintro ⟨ancestors, walk, nodup, depth, _⟩
    exact ⟨ancestors, walk, nodup, depth⟩
  · rintro ⟨ancestors, walk, nodup, depth⟩
    exact ⟨ancestors, walk, nodup, depth, by omega⟩

theorem chainOf_normalized (returned : normalizeFlat attrs = .ok tags) :
    provisioner.chainOf tags = .ok chain ↔ provisioner.chainOf attrs = .ok chain := by
  simp only [chainOf_eq_ok, Walk.normalized_iff returned]

/-! ### What a key should carry -/

/-- The attribute map of the level of `lid` in the chain of `attrs`. -/
def LevelOf (provisioner : LazyProvisioner) (attrs : FlatAttrs) (lid : Lid) (level : FlatAttrs) :
    Prop :=
  ∃ ancestors chain, Walk provisioner.rules provisioner.config.resolver.canonicalizationVersion
    attrs ancestors chain ∧ (lid, level) ∈ chain.zip (attrs :: ancestors)

/-- The tags derive the key's own identifier, and specification and provider are
    those of the level. -/
structure Rightful (provisioner : LazyProvisioner) (level : FlatAttrs) (record : KeyRecord) :
    Prop where
  identity : lidFromFlatAttrs record.identityTags
    provisioner.config.resolver.canonicalizationVersion = .ok record.lid
  keySpec : record.keySpec = provisioner.keySpecFor level
  provider : ∃ tags, identityTagsFor level = .ok tags ∧
    record.providerRef = some (provisioner.router.select tags) ∧
    ∀ version ∈ record.keyVersions, version.providerRef = some (provisioner.router.select tags)

/-- What the provisioner gives a record, whatever its level. -/
structure MadeFrom (provisioner : LazyProvisioner) (tags : FlatAttrs) (record : KeyRecord) :
    Prop where
  identityTags : record.identityTags = tags
  keySpec : record.keySpec = provisioner.keySpecFor tags
  providerRef : record.providerRef = some (provisioner.router.select tags)
  versions : ∀ version ∈ record.keyVersions,
    version.providerRef = some (provisioner.router.select tags)

theorem MadeFrom.rightful (made : MadeFrom provisioner tags record)
    (returned : normalizeFlat attrs = .ok tags)
    (leaf : lidFromFlatAttrs attrs provisioner.config.resolver.canonicalizationVersion =
      .ok record.lid) : Rightful provisioner attrs record := by
  refine ⟨?_, ?_, tags, identityTagsFor_eq_ok.mpr returned, made.providerRef, made.versions⟩
  · rw [made.identityTags]
    exact (lidFromFlatAttrs_normalized returned _ _).mpr leaf
  · rw [made.keySpec, keySpecFor, matchRule_normalized returned, keySpecFor]

/-! ### What the program creates -/

/-- A chain that was asked for, with the attributes every level is made from. -/
structure Asks (provisioner : LazyProvisioner) (asked : FlatAttrs → Prop) (attrs tags : FlatAttrs)
    (chain : List Lid) : Prop where
  asked : asked attrs
  normalized : normalizeFlat attrs = .ok tags
  resolved : provisioner.chainOf attrs = .ok chain

/-- A record is created for a level that was found missing, from the leaf's
    attributes. -/
def Provisions (provisioner : LazyProvisioner) (asked : FlatAttrs → Prop)
    (past : List ProvisionEvent) : ProvisionCall → Prop
  | .createKey record => ∃ attrs tags chain, Asks provisioner asked attrs tags chain ∧
      record.lid ∈ chain ∧ MadeFrom provisioner tags record ∧
      ∃ named, (⟨.getKey record.lid, .error (.keyNotFound named)⟩ : ProvisionEvent) ∈ past
  | _ => True

variable {asked : FlatAttrs → Prop} {past : List ProvisionEvent} {lid : Lid}
  {chain : List Lid}

/-- What a call of the program is in both respects. -/
def Provides (provisioner : LazyProvisioner) (asked : FlatAttrs → Prop)
    (past : List ProvisionEvent) (c : ProvisionCall) : Prop :=
  Provisions provisioner asked past c ∧ Leading past c

attribute [local simp] leadStep LeadPhase.next

section
variable (asks : Asks provisioner asked attrs tags chain)
include asks

theorem doProvision_obeys (level : lid ∈ chain) (leads : leadStage past = some (lid, .checking)) :
    Obeys (Provides provisioner asked)
      (fun later _ => ∃ phase, phase ≠ .generated ∧ leadStage later = some (lid, phase)) past
      (provisioner.doProvision lid parentLid tags).run := by
  have own : Leading past (.getKey lid) := by
    intro _ checking
    cases leads.symm.trans checking
    rfl
  refine obeys_observe_then ⟨trivial, own⟩ fun _ => ?_
  split
  next => exact ⟨.checking, nofun, by simp [leads]⟩
  next named =>
    refine obeys_observe_then ⟨trivial, trivial⟩ fun _ => ?_
    refine obeys_check_then (fun _ _ => ⟨.missing, nofun, by simp [leads]⟩)
      fun identityTags derived => ?_
    -- the attributes are normalized already, so they are their own tags
    have same : identityTags = tags := by
      have again := identityTagsFor_eq_ok.mp derived
      rw [normalizeFlat_idem asks.normalized] at again
      exact (Except.ok.inj again).symm
    subst same
    refine obeys_observe_then ⟨trivial, trivial⟩ fun _ => ?_
    refine obeys_check_then (fun _ _ => ⟨.missing, nofun, by simp [leads]⟩) fun _ _ => ?_
    refine obeys_observe_then ⟨trivial, by simp [Leading, leads]⟩ fun generated => ?_
    cases generated with
    | error => exact ⟨.missing, nofun, by simp [leads]⟩
    | ok =>
      refine obeys_observe_then ⟨?_, by simp [Leading, leads, provisionedRecord]⟩
        fun _ => ?_
      · refine ⟨attrs, identityTags, chain, asks, level, ⟨rfl, rfl, rfl, ?_⟩, named, ?_⟩
        · intro _ isVersion
          cases mem_singleton.mp isVersion
          rfl
        · simp [provisionedRecord]
      · split
        next => exact ⟨.stored, nofun, by simp [leads]⟩
        next =>
          refine obeys_observe_then ⟨trivial, by simp [Leading, leads]⟩ fun _ => ?_
          split
          next => exact ⟨.stored, nofun, by simp [leads]⟩
          next => exact ⟨.stored, nofun, by simp [leads]⟩
  next e other =>
    cases e with
    | keyNotFound named => exact (other named rfl).elim
    | _ => exact ⟨.checking, nofun, by simp [leads]⟩

theorem provisionAsLeader_obeys (level : lid ∈ chain)
    (leads : leadStage past = some (lid, .checking)) :
    Obeys (Provides provisioner asked) (fun later _ => leadStage later = none) past
      (provisioner.provisionAsLeader lid parentLid tags).run := by
  refine obeys_lift_then ((doProvision_obeys asks level leads).mono fun _ result stands => ?_)
  obtain ⟨phase, done, stands⟩ := stands
  refine obeys_observe_then ⟨trivial, trivial⟩ fun _ => ?_
  refine obeys_observe_then ⟨trivial, trivial⟩ fun _ => ?_
  refine obeys_observe_then ⟨trivial, phase, done, by simp [stands]⟩ fun _ => ?_
  cases result with
  | error e | ok outcome =>
    change leadStage _ = none
    simp

theorem ensureKey_obeys (level : lid ∈ chain) (idle : leadStage past = none) :
    Obeys (Provides provisioner asked) (fun later _ => leadStage later = none) past
      (provisioner.ensureKey lid parentLid tags).run := by
  refine obeys_observe_then ⟨trivial, by simp [Leading, idle]⟩ fun _ => ?_
  split
  next => simp [idle]
  next =>
    refine obeys_observe_then ⟨trivial, trivial⟩ fun _ => ?_
    refine obeys_observe_then ⟨trivial, trivial⟩ fun _ => ?_
    refine obeys_observe_then ⟨trivial, by simp [Leading, idle]⟩ fun _ => ?_
    split
    next => exact provisionAsLeader_obeys asks level (by simp)
    next =>
      refine obeys_observe_then ⟨trivial, lid, by simp⟩ fun _ => ?_
      split
      next => simp [idle]
      next => simp [idle]
      next => simp [idle]
  next => simp [idle]

theorem provisionLevels_obeys (levels : ∀ lid ∈ lids, lid ∈ chain) (idle : leadStage past = none) :
    Obeys (Provides provisioner asked) (fun later _ => leadStage later = none) past
      (provisioner.provisionLevels tags parentLid lids sorted).run := by
  induction lids generalizing past parentLid sorted with
  | nil => exact idle
  | cons _ _ ih =>
    obtain ⟨level, above⟩ := forall_mem_cons.mp levels
    refine obeys_try.mpr ((ensureKey_obeys asks level idle).mono fun _ result after => ?_)
    cases result with
    | error => exact after
    | ok outcome =>
      cases outcome with
      | created | existed => exact ih above after

end

theorem started_obeys {ι : Type} [DecidableEq ι] (p : ProvisionProg)
    (starts : (provisionRules ι provisioner asked).starts p) :
    Obeys (Provides provisioner asked) (fun later _ => leadStage later = none) [] p := by
  obtain ⟨_, isAsked, rfl⟩ := starts
  refine obeys_check_then (fun _ _ => rfl) fun tags normalized => ?_
  refine obeys_check_then (fun _ _ => rfl) fun chain resolved => ?_
  have returned := mapErr_eq_ok.mp normalized
  have asks : Asks provisioner asked _ tags chain :=
    ⟨isAsked, returned, (chainOf_normalized returned).mp resolved⟩
  refine obeys_try.mpr ((provisionLevels_obeys asks (fun _ member => ?_) rfl).mono
    fun _ result after => ?_)
  · exact mem_reverse.mp member
  · cases result with
    | error e | ok sorted => exact after

end

/-! ### The store along a run -/

namespace ProvisionWorld

variable {ι : Type} (world : ProvisionWorld ι)

@[simp] theorem store_removeEntry (lid : Lid) (notice : Notice) :
    (world.removeEntry lid notice).store = world.store := by
  unfold removeEntry
  split
  next => rfl
  next => rfl

variable [DecidableEq ι] (i : ι)

@[simp] theorem store_enter (lid : Lid) : (world.enter i lid).2.store = world.store := by
  unfold enter
  split
  next => rfl
  next => rfl

@[simp] theorem store_finish (lid : Lid) (result : Except KeyRackError Unit) :
    (world.finish i lid result).store = world.store := by
  simp [finish]

@[simp] theorem store_dropGuard : (world.dropGuard i).store = world.store := by
  unfold dropGuard
  split
  next => rfl
  next =>
    dsimp only
    split
    next => simp
    next => rfl

end ProvisionWorld

variable {record : KeyRecord}

theorem KeyStore.Creates.cases {store store' : KeyStore}
    (creates : store.Creates record reply store') :
    store' = store ∨
      store record.lid = none ∧ store' = update store record.lid (some record) := by
  cases creates with
  | created absent => exact .inr ⟨absent, rfl⟩
  | failed => exact .inl rfl
  | lost e absent => exact .inr ⟨absent, rfl⟩

section
variable [UnicodeNormalization] [Blake3] {ι : Type} [DecidableEq ι]

abbrev ProvisionLabel (ι : Type) : Type :=
  Label ι ProvisionCall ProvisionCall.Reply KeyStore

abbrev ProvisionSystem (ι : Type) : Type :=
  System (ProvisionWorld ι) ι ProvisionCall ProvisionCall.Reply
    (Except KeyRackError ProvisionResult)

variable {provisioner : LazyProvisioner} {asked : FlatAttrs → Prop} {s t : ProvisionSystem ι}
  {label : ProvisionLabel ι} {past : List (ProvisionLabel ι)}

/-- A step leaves the keys alone, is one of others, or stores the record of a call
    that creates one. -/
theorem provisionStep_store (step : Step (provisionRules ι provisioner asked) s label t) :
    t.world.store = s.world.store ∨
      (∃ change, label = .environment change ∧ s.world.store.Grows t.world.store) ∨
      ∃ i record next, s.threads i = .live (.call (.createKey record) next) ∧
        s.world.store record.lid = none ∧
        t.world.store = update s.world.store record.lid (some record) := by
  cases step with
  | start => exact .inl rfl
  | environment store _ changed =>
    obtain ⟨grows, rfl⟩ := changed
    exact .inr (.inl ⟨store, rfl, grows⟩)
  | call i _ next _ _ live answered =>
    cases answered with
    | create record _ _ creates =>
      rcases creates.cases with same | ⟨absent, stored⟩
      · exact .inl same
      · exact .inr (.inr ⟨i, record, next, live, absent, stored⟩)
    | enter lid => exact .inl (s.world.store_enter i lid)
    | finish lid result => exact .inl (s.world.store_finish i lid result)
    | _ => exact .inl rfl
  | drop i _ next _ live left =>
    cases left with
    | create record _ _ creates =>
      rw [ProvisionWorld.store_dropGuard]
      rcases creates.cases with same | ⟨absent, stored⟩
      · exact .inl same
      · exact .inr (.inr ⟨i, record, next, live, absent, stored⟩)
    | _ =>
      rw [ProvisionWorld.store_dropGuard]
      exact .inl rfl

theorem provisionStep_grows (step : Step (provisionRules ι provisioner asked) s label t) :
    s.world.store.Grows t.world.store := by
  intro lid present
  rcases provisionStep_store step with same | ⟨_, _, grows⟩ | ⟨_, _, _, _, _, stored⟩
  · rw [same]
    exact present
  · exact grows lid present
  · rw [stored, update_apply]
    split
    next => rfl
    next => exact present

/-- The keys from the start are still there, and none of them was ever missed. -/
structure Present (start : KeyStore) (past : List (ProvisionLabel ι)) (s : ProvisionSystem ι) :
    Prop where
  grows : start.Grows s.world.store
  missing : ∀ i lid named, .called i ⟨.getKey lid, .error (.keyNotFound named)⟩ ∈ past →
    start lid = none

theorem Present.step (present : Present start past s)
    (step : Step (provisionRules ι provisioner asked) s label t) :
    Present start (past ++ [label]) t := by
  refine ⟨fun lid stored => provisionStep_grows step lid (present.grows lid stored), ?_⟩
  intro i lid named member
  rcases mem_concat.mp member with before | now
  · exact present.missing i lid named before
  · cases now
    cases step with
    | call _ _ _ _ _ _ answered =>
      cases answered with
      | get _ _ finds =>
        cases finds with
        | missing absent =>
          rw [eq_none_iff_forall_ne_some]
          intro _ stored
          have still := present.grows lid (by rw [stored]; rfl)
          rw [absent] at still
          cases still
        | failed _ other => exact absurd rfl (other named)

end

/-! ### The SQLite backend -/

namespace Sqlite

/-- The keys that the key table holds. -/
def Db.keyStore (db : Db) : KeyStore := fun lid => (db.keyRow lid).map (·.record)

theorem getKey_finds (db : Db) (lid : Lid) : db.keyStore.Finds lid (getKey db lid) := by
  rw [getKey, Table.select?_primary]
  change db.keyStore.Finds lid ((okOr ((db.keyRow lid).map fun row => (lid, row)) _).bind _)
  cases stored : db.keyRow lid with
  | none => exact .missing (by rw [Db.keyStore, stored]; rfl)
  | some row => exact .found row.record (by rw [Db.keyStore, stored]; rfl)

variable [UuidText] [Blake3] [IntentEncoding]

/-- A record without compromise history is stored as it is. -/
theorem StorageStep.creates
    (unmarked : latched record = record) (step : StorageStep db (.createKey record, outcome) db') :
    (∃ e, outcome = .error e) ∧ db'.keyStore = db.keyStore ∨
      db.keyStore record.lid = none ∧
        db'.keyStore = update db.keyStore record.lid (some record) := by
  cases step.effect with
  | failed => exact .inl ⟨⟨_, rfl⟩, rfl⟩
  | repeated repeats => exact repeats.elim
  | advance _ _ _ advances => cases advances
  | ownMigration owns => cases owns
  | create absent _ rows =>
    rw [unmarked] at rows
    refine .inr ⟨?_, funext fun _ => ?_⟩
    · rw [Db.keyStore, key_eq_none.mp absent]
      rfl
    · rw [Db.keyStore, rows, update_apply, update_apply]
      split
      next => rfl
      next => rfl

/-- A call of `create_key` does what the provisioner expects of it. -/
theorem Attempt.creates (made : record = provisionedRecord settings lid parentLid keySpec
      identityTags providerName entry keyHandle now)
    (attempt : Attempt (.createKey record) (fun _ => .done) db reply db') :
    db.keyStore.Creates record reply db'.keyStore := by
  have unmarked : latched record = record := by
    simp [made, latched, provisionedRecord, KeyRecord.hasCompromiseHistory]
  cases attempt with
  | returned _ _ step =>
    rcases step.creates unmarked with ⟨⟨e, failed⟩, same⟩ | ⟨absent, stored⟩
    · cases reply with
      | ok => cases failed
      | error e =>
        rw [same]
        exact .failed e
    · rw [stored]
      cases reply with
      | ok => exact .created absent
      | error e => exact .lost e absent
  | failed e => exact .failed e
  | lost _ e _ step =>
    rcases step.creates unmarked with ⟨_, same⟩ | ⟨absent, stored⟩
    · rw [same]
      exact .failed e
    · rw [stored]
      exact .lost e absent

/-- No operation takes a key away. -/
theorem StorageStep.grows (step : StorageStep db event db') : db.keyStore.Grows db'.keyStore := by
  intro lid present
  rw [Db.keyStore, isSome_map] at present
  obtain ⟨row, stored⟩ := isSome_iff_exists.mp present
  obtain ⟨_, still, _⟩ := step.evolves (R := fun _ _ => True) (fun _ => trivial)
    (fun _ _ _ _ => trivial) lid row stored
  rw [Db.keyStore, still]
  rfl

/-- **SQLite under the provisioner**: where the shared store is the key table, a lookup,
    a creation, be it answered, lost or dropped, and every run of other operations are
    steps of the provisioner's rules. -/
theorem provisioner_backed {ι : Type} [DecidableEq ι] [UnicodeNormalization]
    (provisioner : LazyProvisioner) (asked : FlatAttrs → Prop) (db db' : Db)
    (world : ProvisionWorld ι) (i : ι) :
    let rules := provisionRules ι provisioner asked
    let before := { world with store := db.keyStore }
    let after := { world with store := db'.keyStore }
    (∀ lid, rules.answers before i (.getKey lid) (getKey db lid) before) ∧
    (∀ settings lid parent spec tags name entry handle now reply,
      let record := provisionedRecord settings lid parent spec tags name entry handle now
      Attempt (.createKey record) (fun _ => .done) db reply db' →
        rules.answers before i (.createKey record) reply after ∧
          rules.drops before i (.createKey record) (after.dropGuard i)) ∧
    ∀ events, Run db events db' → rules.environment before db'.keyStore after := by
  refine ⟨fun lid => .get lid _ (getKey_finds db lid), ?_, fun events run => ⟨?_, rfl⟩⟩
  · intro _ _ _ _ _ _ _ _ _ reply record attempt
    have creates := attempt.creates rfl
    exact ⟨.create record reply _ creates, .create record reply _ creates⟩
  · induction run with
    | nil => exact fun _ present => present
    | cons step _ ih => exact fun lid present => ih lid (step.grows lid present)

end Sqlite

/-! ### A run that creates a level -/

section
variable [UnicodeNormalization] [Blake3] {ι : Type} [DecidableEq ι]
  {provisioner : LazyProvisioner} {α : Type}

/-- Keys that are there are passed by. -/
theorem steps_existing (rest : List Lid × List Lid → Provision ProvisionResult)
    (before after : List Lid) (parentLid : Option Lid) (sorted : List Lid × List Lid)
    (stored : ∀ lid ∈ before, (world.store lid).isSome = true) :
    ∃ labels parentLid' sorted', Steps (Step (provisionRules ι provisioner asked))
      ⟨world, update threads i
        (.live (provisioner.provisionLevels tags parentLid (before ++ after) sorted >>= rest).run)⟩
      labels
      ⟨world, update threads i
        (.live (provisioner.provisionLevels tags parentLid' after sorted' >>= rest).run)⟩ := by
  induction before generalizing parentLid sorted with
  | nil => exact ⟨[], parentLid, sorted, .nil _⟩
  | cons lid _ ih =>
    obtain ⟨present, others⟩ := forall_mem_cons.mp stored
    obtain ⟨record, found⟩ := isSome_iff_exists.mp present
    obtain ⟨created, existed⟩ := sorted
    obtain ⟨_, parentLid', sorted', steps⟩ := ih (some lid) (created, existed ++ [lid]) others
    have answered : ProvisionCall.Answers world i (.getKey lid) (.ok record) world :=
      .get lid _ (.found record found)
    exact ⟨_, parentLid', sorted', .cons (step_called rfl answered) steps⟩

/-- A key that is missing is created, if everything goes well, with the tags that
    the call came with. -/
theorem steps_missing (rest : List Lid × List Lid → Provision ProvisionResult) (lid : Lid)
    (after : List Lid) (parentLid : Option Lid) (sorted : List Lid × List Lid)
    (absent : world.store lid = none) (free : world.inflight lid = none)
    (unlocked : world.lock = .unlocked) (normalized : normalizeFlat tags = .ok tags) :
    ∃ labels world' record next, Steps (Step (provisionRules ι provisioner asked))
      ⟨world, update threads i
        (.live (provisioner.provisionLevels tags parentLid (lid :: after) sorted >>= rest).run)⟩
      labels
      ⟨world', update threads i (.live (.call (.createKey record) next))⟩ ∧
      world'.store = world.store ∧ record.lid = lid ∧ MadeFrom provisioner tags record := by
  have derived := identityTagsFor_eq_ok.mpr normalized
  let locked : ProvisionWorld ι := { world with lock := world.lock.request i }
  have held : locked.lock.holder = some i := by
    simp [locked, unlocked, Mutex.request, Mutex.unlocked]
  have entered : (locked.enter i lid).1 = .leader := by
    simp [ProvisionWorld.enter, locked, free]
  have missed (w : ProvisionWorld ι) (same : w.store = world.store) :
      ProvisionCall.Answers w i (.getKey lid) (.error (.keyNotFound lid)) w :=
    .get lid _ (.missing (by rw [same, absent]))
  have leads : ProvisionCall.Answers locked i (.enter lid) .leader (locked.enter i lid).2 := by
    have enters : ProvisionCall.Answers locked i (.enter lid) _ _ := .enter lid
    rw [entered] at enters
    exact enters
  have resolves (w : ProvisionWorld ι) (name : ProviderRef) :
      ProvisionCall.Answers w i (.resolve name) (.ok ⟨0, .software⟩) w := .resolve name _
  have generates (w : ProvisionWorld ι) (entry : ProviderEntry) (keySpec : KeySpec) :
      ProvisionCall.Answers w i (.generateKey lid entry keySpec) (.ok ⟨"", keySpec⟩) w :=
    .generate lid entry keySpec _
  unfold provisionLevels ensureKey provisionAsLeader doProvision
  rw [derived]
  refine ⟨_, (locked.enter i lid).2, _, _, .cons (step_called rfl (missed world rfl))
    (.cons (step_called rfl .requestLock) (.cons (step_called rfl (.awaitLock held))
      (.cons (step_called rfl leads) (.cons (step_called rfl (missed _ ?_))
        (.cons (step_called rfl (.now 0)) (.cons (step_called rfl (resolves _ _))
          (.cons (step_called rfl (generates _ _ _)) (.nil _)))))))), ?_, rfl, rfl, rfl, rfl, ?_⟩
  · exact locked.store_enter i lid
  · exact locked.store_enter i lid
  · intro _ isVersion
    cases mem_singleton.mp isVersion
    rfl

variable {attrs : FlatAttrs}

theorem resolveAndProvision_run (normalized : normalizeFlat attrs = .ok tags)
    (resolved : provisioner.chainOf attrs = .ok chain) :
    (provisioner.resolveAndProvision attrs).run =
      (provisioner.provisionLevels tags none chain.reverse ([], []) >>= fun sorted =>
        pure ⟨chain, sorted.1, sorted.2⟩).run := by
  have same : provisioner.chainOf tags = .ok chain := (chainOf_normalized normalized).mpr resolved
  have accepted : mapErr (normalizeFlat attrs) KeyRackError.invalidIdentity = .ok tags :=
    mapErr_eq_ok.mpr normalized
  rw [resolveAndProvision, accepted]
  change (liftM (provisioner.chainOf tags) >>= _ : Provision ProvisionResult).run = _
  rw [same]
  rfl

theorem chainOf_leaf (resolved : provisioner.chainOf attrs = .ok chain) :
    ∃ leaf above tags, chain = leaf :: above ∧ leaf ∉ above ∧ normalizeFlat attrs = .ok tags ∧
      lidFromFlatAttrs attrs provisioner.config.resolver.canonicalizationVersion = .ok leaf ∧
      LevelOf provisioner attrs leaf attrs := by
  obtain ⟨ancestors, walk, nodup, _⟩ := chainOf_eq_ok.mp resolved
  obtain ⟨leaf, above, rfl, identifies⟩ : ∃ leaf above, chain = leaf :: above ∧
      lidFromFlatAttrs attrs provisioner.config.resolver.canonicalizationVersion = .ok leaf := by
    cases walk with
    | root identifies | parent identifies => exact ⟨_, _, rfl, identifies⟩
  obtain ⟨tags, normalized, _⟩ := lidFromFlatAttrs_eq_ok.mp identifies
  exact ⟨leaf, above, tags, rfl, (nodup_cons.mp nodup).1, normalized, identifies, ancestors, _,
    walk, by simp⟩

/-- If a level above the leaf is missing, some run creates it with the leaf's tags. -/
theorem exists_run_creating {above before after : List Lid}
    (i : ι) (isAsked : asked attrs) (normalized : normalizeFlat attrs = .ok tags)
    (resolved : provisioner.chainOf attrs = .ok (leaf :: above))
    (levels : above.reverse = before ++ missing :: after)
    (stored : ∀ lid ∈ before, (store lid).isSome = true) (absent : store missing = none) :
    ∃ labels s event t record,
      Steps (Step (provisionRules ι provisioner asked)) ⟨.initial store, fun _ => .idle⟩ labels s ∧
      Step (provisionRules ι provisioner asked) s (.called i event) t ∧
      s.world.store missing = none ∧ t.world.store missing = some record ∧
      record.lid = missing ∧ MadeFrom provisioner tags record := by
  let start : ProvisionWorld ι := .initial store
  have program := resolveAndProvision_run normalized resolved
  have order : (leaf :: above).reverse = before ++ missing :: (after ++ [leaf]) := by
    rw [reverse_cons, levels]
    simp
  rw [order] at program
  have startable : (provisionRules ι provisioner asked).starts
      (provisioner.resolveAndProvision attrs).run := ⟨attrs, isAsked, rfl⟩
  have starting : Step (provisionRules ι provisioner asked) ⟨start, fun _ => .idle⟩ (.started i)
      ⟨start, update (fun _ => .idle) i
        (.live (provisioner.resolveAndProvision attrs).run)⟩ := step_started rfl startable
  rw [program] at starting
  have there : ∀ lid ∈ before, (start.store lid).isSome = true := stored
  obtain ⟨_, parentLid, sorted, passing⟩ := steps_existing _ before
    (missing :: (after ++ [leaf])) none ([], []) there
  have gone : start.store missing = none := absent
  have unlocked : start.lock = .unlocked := rfl
  obtain ⟨_, world, record, _, created, same, rfl, made⟩ := steps_missing _ missing
    (after ++ [leaf]) parentLid sorted gone rfl unlocked (normalizeFlat_idem normalized)
  have unstored : world.store record.lid = none := by
    rw [same]
    exact absent
  have creates : ProvisionCall.Answers world i (.createKey record) (.ok ())
      { world with store := update world.store record.lid (some record) } :=
    .create record _ _ (.created unstored)
  refine ⟨_, _, _, _, record, .cons starting (passing.append created),
    step_called rfl creates, unstored, ?_, rfl, made⟩
  exact update_self record.lid (some record) world.store

/-- **Provisioned levels**: whatever the interleaving of any number of calls for the
    given attribute maps, and wherever their storage and provider calls fail or they
    are dropped, every key they create has tags that derive its own identifier and
    the specification and provider of its own level, if and only if every level above
    a leaf is stored before. -/
theorem provisioned_levels_iff (provisioner : LazyProvisioner) (asked : FlatAttrs → Prop)
    (store : KeyStore) :
    (∀ labels s label t,
      Steps (Step (provisionRules Nat provisioner asked)) ⟨.initial store, fun _ => .idle⟩ labels
        s → Step (provisionRules Nat provisioner asked) s label t →
      (∀ change, label ≠ .environment change) → ∀ lid record, s.world.store lid = none →
      t.world.store lid = some record → record.lid = lid ∧ ∃ attrs level, asked attrs ∧
        LevelOf provisioner attrs lid level ∧ Rightful provisioner level record) ↔
    ∀ attrs chain, asked attrs → provisioner.chainOf attrs = .ok chain →
      ∀ lid ∈ chain.tail, (store lid).isSome = true := by
  constructor
  · intro right attrs _ isAsked resolved lid member
    by_contra unstored
    obtain ⟨_, above, tags, rfl, fresh, normalized, identifies, _⟩ := chainOf_leaf resolved
    -- the first level from the root that is missing
    obtain ⟨missing, found⟩ : ∃ missing,
        above.reverse.find? (fun lid => (store lid).isNone) = some missing := by
      refine isSome_iff_exists.mp (List.find?_isSome.mpr ⟨lid, by simpa using member, ?_⟩)
      simpa using unstored
    obtain ⟨absent, before, _, split, present⟩ := List.find?_eq_some_iff_append.mp found
    have isAbove : missing ∈ above := by
      rw [← mem_reverse, split]
      simp
    have stored : ∀ lid ∈ before, (store lid).isSome = true := by
      intro lid member
      have kept := present lid member
      cases found : store lid with
      | none => simp [found] at kept
      | some => rfl
    have gone := isNone_iff_eq_none.mp absent
    obtain ⟨labels, s, _, t, record, steps, step, unset, created, same, made⟩ :=
      exists_run_creating 0 isAsked normalized resolved split stored gone
    obtain ⟨_, _, _, _, _, rightful⟩ :=
      right labels s _ t steps step nofun missing record unset created
    -- the leaf's tags derive the leaf's identifier
    have own := rightful.identity
    rw [made.identityTags, lidFromFlatAttrs_normalized normalized, same] at own
    cases own.symm.trans identifies
    exact fresh isAbove
  · intro stored _ s _ t steps step own lid record absent created
    have initially : Present store [] (⟨.initial store, fun _ => .idle⟩ : ProvisionSystem Nat) := by
      refine ⟨fun lid present => present, ?_⟩
      nofun
    obtain ⟨following, present⟩ := steps_guided started_obeys
      (fun _ _ _ _ step _ _ present => present.step step) steps (fun _ => rfl) initially
    rcases provisionStep_store step with same | ⟨change, isChange, _⟩ |
      ⟨i, made, _, waits, _, added⟩
    · rw [same, absent] at created
      cases created
    · exact absurd isChange (own change)
    · by_cases isNew : lid = made.lid
      · subst isNew
        rw [added, update_self] at created
        cases created
        refine ⟨rfl, ?_⟩
        obtain ⟨attrs, _, _, asks, level, madeFrom, named, missed⟩ := (following.live i _ waits).1.1
        obtain ⟨leaf, above, _, rfl, _, _, identifies, levelOf⟩ := chainOf_leaf asks.resolved
        have unstored := present.missing i record.lid named (mem_own.mp missed)
        -- a level above the leaf would have been found
        rcases mem_cons.mp level with isLeaf | isAbove
        · rw [← isLeaf] at identifies levelOf
          exact ⟨attrs, attrs, asks.asked, levelOf, madeFrom.rightful asks.normalized identifies⟩
        · have found := stored attrs _ asks.asked asks.resolved record.lid isAbove
          rw [unstored] at found
          cases found
      · rw [added, update_of_ne isNew, absent] at created
        cases created

end

/-! ### A tenant without a key -/

attribute [local instance] asciiNormalization truncatingHash

/-- Data keys go to a module of their own. -/
def tenantProvisioner : LazyProvisioner where
  rules := tenantRules
  config := ⟨.aes256, .encryptDecrypt, tenantConfig⟩
  router := ⟨[⟨.ofList [("kind", "dek")], .route ⟨"hsm"⟩⟩], ⟨"software"⟩⟩

theorem tenantProvisioner_chainOf :
    tenantProvisioner.chainOf dekAttrs = .ok [dekLid, tenantLid] := by decide

/-- The first data key of a tenant also creates the tenant's key, but with the tags of
    the data key, which derive the data key's identifier, and on the data keys'
    provider. -/
theorem provisioned_levels_tenant :
    ∃ labels s event t record,
      Steps (Step (provisionRules Nat tenantProvisioner (dekAttrs = ·)))
        ⟨.initial fun _ => none, fun _ => .idle⟩ labels s ∧
      Step (provisionRules Nat tenantProvisioner (dekAttrs = ·)) s (.called 0 event) t ∧
      s.world.store tenantLid = none ∧ t.world.store tenantLid = some record ∧
      lidFromFlatAttrs record.identityTags .v2 = .ok dekLid ∧ dekLid ≠ tenantLid ∧
      record.providerRef = some ⟨"hsm"⟩ ∧
      tenantProvisioner.router.select (.ofList [("t", "a")]) = ⟨"software"⟩ := by
  have normalized : normalizeFlat dekAttrs = .ok dekAttrs := by decide
  have nothing : ∀ lid ∈ ([] : List Lid), ((fun _ => none : KeyStore) lid).isSome = true := nofun
  obtain ⟨labels, s, event, t, record, steps, step, absent, created, _, made⟩ :=
    exists_run_creating 0 rfl normalized tenantProvisioner_chainOf rfl nothing rfl
  refine ⟨labels, s, event, t, record, steps, step, absent, created, ?_, by decide, ?_, by decide⟩
  · rw [made.identityTags]
    decide
  · rw [made.providerRef]
    decide

/-- The tenant's key was created on its own before. -/
def tenantStore : KeyStore :=
  update (fun _ => none) tenantLid (some (provisionedRecord tenantProvisioner.config
    tenantLid none .aes256 (.ofList [("t", "a")]) ⟨"software"⟩ ⟨0, .software⟩ ⟨"", .aes256⟩ 0))

theorem provisioned_levels_iff_tenant_stored :
    ∀ labels s label t,
      Steps (Step (provisionRules Nat tenantProvisioner (dekAttrs = ·)))
        ⟨.initial tenantStore, fun _ => .idle⟩ labels s →
      Step (provisionRules Nat tenantProvisioner (dekAttrs = ·)) s label t →
      (∀ change, label ≠ .environment change) → ∀ lid record, s.world.store lid = none →
      t.world.store lid = some record → record.lid = lid ∧ ∃ attrs level, dekAttrs = attrs ∧
        LevelOf tenantProvisioner attrs lid level ∧ Rightful tenantProvisioner level record := by
  refine (provisioned_levels_iff tenantProvisioner (dekAttrs = ·) tenantStore).mpr ?_
  rintro _ _ rfl resolved _ member
  cases tenantProvisioner_chainOf.symm.trans resolved
  rw [mem_singleton.mp member, tenantStore, update_self]
  rfl

end KeyRack
