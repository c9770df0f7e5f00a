/-
Revocation.Policy — evidence of revocation, and when a policy accepts it.

`rin_certificate_revocation_validate` looks at the shape of the evidence, at its scope, at the flags the
policy requires, and at its lifetime.
-/
import Mathlib.Tactic.Common

namespace RinRuntime.Revocation

/-- A SHA-256 digest. -/
abbrev Digest := Vector UInt8 32

/-- The digest of zeros, which stands for none. -/
def Digest.zero : Digest := Vector.replicate 32 0

/-- `RIN_CERTIFICATE_REVOCATION_VERSION`. -/
def revocationVersion : UInt32 := 0x00010000

/-- `RinCertificateRevocationEvidenceV1`. -/
structure Evidence where
  structSize : UInt32
  version : UInt32
  status : UInt32
  source : UInt32
  evidenceFlags : UInt32
  reserved0 : UInt32
  thisUpdateUnixTime : UInt64
  nextUpdateUnixTime : UInt64
  producedAtUnixTime : UInt64
  certificateSha256 : Digest
  issuerSha256 : Digest
  sequence : UInt64
  reserved : UInt64 × UInt64
  deriving DecidableEq

/-- `sizeof` of the evidence. -/
def evidenceSize : UInt32 := 136

/-- Evidence of zeros. -/
def Evidence.zero : Evidence := ⟨0, 0, 0, 0, 0, 0, 0, 0, 0, .zero, .zero, 0, (0, 0)⟩

/-- `RinCertificateRevocationPolicyV1`. -/
structure Policy where
  structSize : UInt32
  version : UInt32
  trustedUnixTime : UInt64
  maximumOcspValiditySeconds : UInt64
  maximumCrlValiditySeconds : UInt64
  requiredEvidenceFlags : UInt32
  policyFlags : UInt32
  reserved : UInt64 × UInt64

/-- `RIN_CERTIFICATE_REVOCATION_EVIDENCE_NONCE_VERIFIED`. -/
def evidenceNonceVerified : UInt32 := 0x10

/-- `RIN_CERTIFICATE_REVOCATION_EVIDENCE_REQUIRED`. -/
def evidenceRequired : UInt32 := 0x0f

/-- `RIN_CERTIFICATE_REVOCATION_EVIDENCE_ALL`. -/
def evidenceAll : UInt32 := evidenceRequired ||| evidenceNonceVerified

/-- `RIN_CERTIFICATE_REVOCATION_POLICY_REQUIRE_OCSP_NONCE`, the only flag of a policy. -/
def policyRequireOcspNonce : UInt32 := 1

/-- `rin_certificate_revocation_policy_valid`. -/
def policyValid (policy : Policy) : Bool :=
  decide (policy.structSize = 56 ∧ policy.version = revocationVersion ∧ policy.trustedUnixTime ≠ 0 ∧
    policy.maximumOcspValiditySeconds ≠ 0 ∧ policy.maximumOcspValiditySeconds ≤ 604800 ∧
    policy.maximumCrlValiditySeconds ≠ 0 ∧ policy.maximumCrlValiditySeconds ≤ 2592000 ∧
    policy.requiredEvidenceFlags &&& evidenceRequired = evidenceRequired ∧
    policy.requiredEvidenceFlags &&& ~~~ evidenceAll = 0 ∧
    policy.policyFlags &&& ~~~ policyRequireOcspNonce = 0 ∧ policy.reserved = (0, 0))

/-- `RinCertificateRevocationResult`. -/
inductive Validation where
  | ok
  | invalid
  | unavailable
  | revoked
  | stale
  | future
  | scopeMismatch
  | unsupported
  deriving DecidableEq

/-- The longest validity the policy allows for a source of evidence, if it knows the source and accepts
the flags of the evidence for it. -/
def maximumValidity (policy : Policy) (evidence : Evidence) : Except Validation UInt64 :=
  if evidence.source = 1 then
    if policy.policyFlags &&& policyRequireOcspNonce ≠ 0 ∧
        evidence.evidenceFlags &&& evidenceNonceVerified = 0 then .error .unavailable
    else .ok policy.maximumOcspValiditySeconds
  else if evidence.source = 2 then .ok policy.maximumCrlValiditySeconds
  else .error .unsupported

/-- The last tests of `rin_certificate_revocation_validate`: lifetime and status. -/
def validateLifetime (policy : Policy) (evidence : Evidence) (maximum : UInt64) : Validation :=
  if evidence.thisUpdateUnixTime = 0 ∨ evidence.nextUpdateUnixTime ≤ evidence.thisUpdateUnixTime ∨
      evidence.producedAtUnixTime < evidence.thisUpdateUnixTime ∨
      evidence.nextUpdateUnixTime < evidence.producedAtUnixTime ∨
      maximum < evidence.nextUpdateUnixTime - evidence.thisUpdateUnixTime then .invalid
  else if policy.trustedUnixTime < evidence.thisUpdateUnixTime ∨
      policy.trustedUnixTime < evidence.producedAtUnixTime then .future
  else if evidence.nextUpdateUnixTime < policy.trustedUnixTime then .stale
  else if evidence.status = 2 then .revoked
  else if evidence.status ≠ 1 then .unavailable
  else .ok

/-- `rin_certificate_revocation_validate`. -/
def validate (policy : Policy) (certificate : Digest) (evidence : Evidence) : Validation :=
  if policyValid policy = false ∨ evidence.structSize ≠ evidenceSize ∨
      evidence.version ≠ revocationVersion ∨ evidence.reserved0 ≠ 0 ∨ evidence.reserved ≠ (0, 0) ∨
      evidence.sequence = 0 ∨ certificate = .zero ∨ evidence.certificateSha256 = .zero ∨
      evidence.issuerSha256 = .zero ∨ evidence.evidenceFlags &&& ~~~ evidenceAll ≠ 0 then .invalid
  else if certificate ≠ evidence.certificateSha256 then .scopeMismatch
  else if evidence.evidenceFlags &&& policy.requiredEvidenceFlags ≠ policy.requiredEvidenceFlags then
    .unavailable
  else
    match maximumValidity policy evidence with
    | .error e => e
    | .ok maximum => validateLifetime policy evidence maximum

/-- A result that admits the evidence: it is good, or it says that the certificate is revoked. -/
def Validation.admits : Validation → Bool
  | .ok => true
  | .revoked => true
  | _ => false

/-- **Admitted evidence** has the right size and version, a sequence number, and the digest of the
certificate. -/
theorem validate_admits {policy : Policy} {certificate : Digest} {evidence : Evidence}
    (h : (validate policy certificate evidence).admits = true) :
    evidence.structSize = evidenceSize ∧ evidence.version = revocationVersion ∧ evidence.sequence ≠ 0 ∧
      evidence.certificateSha256 = certificate := by
  unfold validate at h
  split at h
  · cases h
  next hshape =>
  split at h
  · cases h
  next hscope =>
  simp only [not_or, ne_eq, Decidable.not_not] at hshape hscope
  exact ⟨hshape.2.1, hshape.2.2.1, hshape.2.2.2.2.2.1, hscope.symm⟩

end RinRuntime.Revocation
