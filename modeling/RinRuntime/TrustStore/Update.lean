/-
TrustStore.Update — the replacement of the root store by an authenticated bundle.

The owner of a trust store has a configuration (which bundle is installed, under which sequence number and
generation), a state and a candidate. `rin_trust_store_update_apply` verifies a bundle and commits it; where
the commit leaves the outcome open, `rin_trust_store_update_confirm` asks again. The callbacks verify, commit
and confirm are called with the lock released: what one does is any reply, with any owner left behind. The
lock itself is left out.
-/
import RinRuntime.Revocation.Policy

namespace RinRuntime.TrustStore
open Revocation (Digest)

/-! ## §1. The owner. -/

/-- `RinTrustStoreUpdateStatus`; `other` is a value of a callback that the enumeration does not have. -/
inductive Status where
  | ok
  | invalid
  | busy
  | stale
  | verifyFailed
  | commitUnknown
  | notFound
  | protocol
  | other (code : Int)
  deriving DecidableEq

/-- `RIN_TRUST_STORE_UPDATE_VERSION`. -/
def updateVersion : UInt32 := 0x00010000

/-- `RIN_TRUST_STORE_UPDATE_MAX_BUNDLE_BYTES`. -/
def maxBundleBytes : UInt32 := 262144

/-- `sizeof` of the configuration. -/
def configSize : UInt32 := 120

/-- `RinTrustStoreUpdateConfigV1`; pointers are addresses. -/
structure Config where
  structSize : UInt32
  version : UInt32
  flags : UInt32
  reserved0 : UInt32
  generation : UInt64
  sequence : UInt64
  bundleBytes : UInt32
  reserved1 : UInt32
  bundleSha256 : Digest
  context : UInt64
  verifyCall : UInt64
  commitCall : UInt64
  confirmCall : UInt64
  reserved : UInt64 × UInt64
  deriving DecidableEq

/-- `RIN_TRUST_STORE_UPDATE_STATE_…`; `other` is any other value of the field. -/
inductive State where
  | ready
  | inFlight
  | commitUnknown
  | confirmInFlight
  | other (value : UInt32)
  deriving DecidableEq

/-- `RinTrustStoreUpdateOwnerV1`. -/
structure Owner where
  initialized : UInt32
  config : Config
  state : State
  candidateBytes : UInt32
  candidateGeneration : UInt64
  candidateSequence : UInt64
  candidateDigest : Digest
  deriving DecidableEq

/-- `RinTrustStoreUpdateReceiptV1`, without its reserved fields. -/
structure Receipt where
  structSize : UInt32
  version : UInt32
  state : State
  generation : UInt64
  sequence : UInt64
  bundleBytes : UInt32
  bundleSha256 : Digest
  deriving DecidableEq

/-- A receipt of zeros. -/
def Receipt.zero : Receipt := ⟨0, 0, .other 0, 0, 0, 0, .zero⟩

/-- `trust_config_equal`. -/
def configEqual (left right : Config) : Bool :=
  left.structSize == right.structSize && left.version == right.version && left.flags == right.flags &&
  left.reserved0 == right.reserved0 && left.generation == right.generation &&
  left.sequence == right.sequence && left.bundleBytes == right.bundleBytes &&
  left.reserved1 == right.reserved1 && left.bundleSha256 == right.bundleSha256 &&
  left.context == right.context && left.verifyCall == right.verifyCall &&
  left.commitCall == right.commitCall && left.confirmCall == right.confirmCall &&
  left.reserved == right.reserved

/-- `trust_candidate_equal`. -/
def candidateEqual (owner : Owner) (bytes : UInt32) (generation sequence : UInt64)
    (digest : Option Digest) : Bool :=
  owner.candidateBytes == bytes && owner.candidateGeneration == generation &&
  owner.candidateSequence == sequence &&
  match digest with
  | none => true
  | some digest => owner.candidateDigest == digest

/-- `trust_clear_candidate`. -/
def Owner.clearCandidate (owner : Owner) : Owner :=
  { owner with candidateBytes := 0, candidateGeneration := 0, candidateSequence := 0, candidateDigest := .zero }

/-- `trust_config_valid`. -/
def configValid (config : Config) : Bool :=
  decide (config.structSize = configSize ∧ config.version = updateVersion ∧ config.flags = 0 ∧
    config.reserved0 = 0 ∧ config.verifyCall ≠ 0 ∧ config.commitCall ≠ 0 ∧ config.confirmCall ≠ 0 ∧
    config.reserved1 = 0 ∧
    (config.sequence = 0 ∧ config.bundleBytes = 0 ∧ config.bundleSha256 = .zero ∨
      config.sequence ≠ 0 ∧ config.generation ≠ 0 ∧ config.bundleBytes ≠ 0 ∧
        config.bundleBytes ≤ maxBundleBytes ∧ config.bundleSha256 ≠ .zero) ∧
    config.reserved = (0, 0))

/-- `trust_publish_receipt`. -/
def publishReceipt (owner : Owner) (state : State) : Receipt :=
  if state = .commitUnknown then
    ⟨88, updateVersion, state, owner.candidateGeneration, owner.candidateSequence, owner.candidateBytes,
      owner.candidateDigest⟩
  else
    ⟨88, updateVersion, state, owner.config.generation, owner.config.sequence, owner.config.bundleBytes,
      owner.config.bundleSha256⟩

/-- `rin_trust_store_update_init`. -/
def init (config : Config) : Option Owner :=
  if configValid config = false then none
  else some ⟨1, config, .ready, 0, 0, 0, .zero⟩

/-! ## §2. The calls. -/

/-- What a callback does: its status, the value it hands out, and the owner it leaves. -/
structure Reply (α : Type) where
  status : Status
  value : α
  owner : Owner

/-- The callbacks. Which function runs, and on which context, the owner says. The digest goes to the verify
and the commit callback in one buffer of `rin_trust_store_update_apply`, which the verify callback may write
to: a commit hands out the generation and leaves that buffer. -/
structure Callbacks where
  verify : Owner → (bundle : List UInt8) → (bundleBytes : UInt32) → (sequence : UInt64) → Reply Digest
  commit : Owner → (bundle : List UInt8) → (bundleBytes : UInt32) → (expectedGeneration : UInt64) →
    (sequence : UInt64) → (digest : Digest) → Reply (UInt64 × Digest)
  confirm : Owner → (expectedGeneration : UInt64) → (sequence : UInt64) → (digest : Digest) → Reply UInt64

/-- The arguments of `rin_trust_store_update_apply`; `bundle` is `none` for a null pointer, and `receipt`
says whether there is a receipt to fill. -/
structure ApplyCall where
  bundle : Option (List UInt8)
  bundleBytes : UInt32
  sequence : UInt64
  receipt : Bool

/-- Status, owner and receipt after a call. -/
structure Result where
  status : Status
  owner : Owner
  receipt : Receipt

/-- The tests of `rin_trust_store_update_apply` before it verifies the bundle. -/
def applyGuard (owner : Owner) (call : ApplyCall) : Except Status (List UInt8) :=
  match call.bundle with
  | none => .error .invalid
  | some bundle =>
      if call.receipt = false ∨ owner.initialized ≠ 1 ∨ call.bundleBytes = 0 ∨
          maxBundleBytes < call.bundleBytes ∨ call.sequence = 0 then .error .invalid
      else if owner.state ≠ .ready then .error .busy
      else if call.sequence ≤ owner.config.sequence then .error .stale
      else .ok bundle

/-- The owner while `rin_trust_store_update_apply` verifies the bundle. -/
def Owner.started (owner : Owner) (call : ApplyCall) : Owner :=
  { owner with
    state := .inFlight
    candidateBytes := call.bundleBytes
    candidateSequence := call.sequence
    candidateGeneration := owner.config.generation }

/-- The test after a callback: neither state nor configuration nor candidate have changed. -/
def intact (owner : Owner) (state : State) (snapshot : Config) (bytes : UInt32) (generation sequence : UInt64)
    (digest : Option Digest) : Bool :=
  owner.state == state && configEqual owner.config snapshot &&
    candidateEqual owner bytes generation sequence digest

/-- Give up and restore the configuration. -/
def Owner.abandon (owner : Owner) (snapshot : Config) : Owner :=
  { ({ owner with config := snapshot } : Owner).clearCandidate with state := .ready }

/-- Install the candidate under a generation. -/
def Owner.install (owner : Owner) (generation sequence : UInt64) (bytes : UInt32) (digest : Digest) : Owner :=
  { owner with
    config := { owner.config with
      generation := generation, sequence := sequence, bundleBytes := bytes, bundleSha256 := digest }
    state := .ready }

/-- The end of `rin_trust_store_update_apply`, after the commit callback. -/
def finishCommit (snapshot : Config) (call : ApplyCall) (reply : Reply (UInt64 × Digest)) : Result :=
  let (generation, digest) := reply.value
  if intact reply.owner .inFlight snapshot call.bundleBytes snapshot.generation call.sequence (some digest)
      = false then
    ⟨.protocol, reply.owner.abandon snapshot, .zero⟩
  else if reply.status = .ok ∧ reply.owner.config.generation < generation then
    let installed := reply.owner.install generation call.sequence call.bundleBytes digest
    ⟨.ok, installed.clearCandidate, publishReceipt installed .ready⟩
  else if reply.status = .commitUnknown then
    let unknown := { reply.owner with candidateGeneration := generation, state := .commitUnknown }
    ⟨.commitUnknown, unknown, publishReceipt unknown .commitUnknown⟩
  else
    ⟨if reply.status = .ok then .protocol else reply.status,
      ({ reply.owner with state := .ready } : Owner).clearCandidate, .zero⟩

/-- The call of the verify callback. -/
def Callbacks.verified (callbacks : Callbacks) (owner : Owner) (call : ApplyCall) (bundle : List UInt8) :
    Reply Digest :=
  callbacks.verify (owner.started call) bundle call.bundleBytes call.sequence

/-- The call of the commit callback, with the owner and the digest that the verify callback left. -/
def Callbacks.committed (callbacks : Callbacks) (call : ApplyCall) (bundle : List UInt8)
    (reply : Reply Digest) : Reply (UInt64 × Digest) :=
  callbacks.commit { reply.owner with candidateDigest := reply.value } bundle call.bundleBytes
    reply.owner.candidateGeneration call.sequence reply.value

/-- `rin_trust_store_update_apply`. -/
def apply (callbacks : Callbacks) (owner : Owner) (call : ApplyCall) : Result :=
  match applyGuard owner call with
  | .error status => ⟨status, owner, .zero⟩
  | .ok bundle =>
      let snapshot := owner.config
      let reply := callbacks.verified owner call bundle
      if reply.status ≠ .ok ∨ reply.value = .zero then
        -- the configuration the callback left is not compared here
        ⟨if reply.status = .ok then .verifyFailed else reply.status,
          { reply.owner.clearCandidate with state := .ready }, .zero⟩
      else if intact reply.owner .inFlight snapshot call.bundleBytes snapshot.generation call.sequence none
          = false then
        ⟨.protocol, reply.owner.abandon snapshot, .zero⟩
      else finishCommit snapshot call (callbacks.committed call bundle reply)

/-- `rin_trust_store_update_confirm`. -/
def confirm (callbacks : Callbacks) (owner : Owner) (receipt : Bool) : Result :=
  if receipt = false ∨ owner.initialized ≠ 1 then ⟨.invalid, owner, .zero⟩
  else if owner.state = .confirmInFlight ∨ owner.state = .inFlight then ⟨.busy, owner, .zero⟩
  else if owner.state ≠ .commitUnknown then ⟨.notFound, owner, .zero⟩
  else
    let published := publishReceipt owner .commitUnknown
    let reply := callbacks.confirm { owner with state := .confirmInFlight } owner.candidateGeneration
      owner.candidateSequence owner.candidateDigest
    if intact reply.owner .confirmInFlight owner.config owner.candidateBytes owner.candidateGeneration
        owner.candidateSequence (some owner.candidateDigest) = false then
      ⟨.protocol, { reply.owner with
        config := owner.config
        candidateBytes := owner.candidateBytes
        candidateGeneration := owner.candidateGeneration
        candidateSequence := owner.candidateSequence
        candidateDigest := owner.candidateDigest
        state := .commitUnknown }, published⟩
    else if reply.status = .ok ∧ reply.owner.config.generation < reply.value then
      let installed := reply.owner.install reply.value reply.owner.candidateSequence
        reply.owner.candidateBytes reply.owner.candidateDigest
      ⟨.ok, installed.clearCandidate, publishReceipt installed .ready⟩
    else
      ⟨if reply.status = .ok then .protocol else reply.status,
        { reply.owner with state := .commitUnknown }, published⟩

/-! ## §3. Verified bundles. -/

/-- A bundle that the verify callback has accepted, with the digest it gave, and what the commit callback
left of that digest in the buffer. -/
structure Verified where
  bundle : List UInt8
  bundleBytes : UInt32
  sequence : UInt64
  digest : Digest
  left : Digest

/-- The configuration names the bundle. -/
def Config.Names (config : Config) (v : Verified) : Prop :=
  config.sequence = v.sequence ∧ config.bundleBytes = v.bundleBytes ∧ config.bundleSha256 = v.digest

variable {owner : Owner}

end RinRuntime.TrustStore
