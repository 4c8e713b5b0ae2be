import IntegrityShield.Types
import IntegrityShield.GitUrl

namespace IntegrityShield.Provenance

open Go Types GitUrl

def getCommitID (digest : GoMap String) : String :=
  match digest.get? "commit" with
  | some val => val
  | none => ""

def mprovinfo (pr : Provenance) (am : ProvenanceMaterial) : ManifestProvenanceInfo :=
  let commitID := getCommitID am.digest
  let url := convertToCommitDetailURL am.uri commitID
  { artifact := pr.artifact, commitID := commitID, gitApiURL := url, hash := pr.hash,
    gitRepo := am.uri }

def materialLoop (pr : Provenance) :
    List ProvenanceMaterial → List ManifestProvenanceInfo → List ManifestProvenanceInfo
  | [], acc => acc
  | am :: ams, acc => materialLoop pr ams (acc ++ [mprovinfo pr am])

def provenanceLoop (artifactManifestImage : String) :
    List Provenance → List ManifestProvenanceInfo → List ManifestProvenanceInfo
  | [], acc => acc
  | pr :: prs, acc =>
    if pr.artifactType ≠ artifactManifestImage then provenanceLoop artifactManifestImage prs acc
    else if pr.attestationMaterials.length ≠ 0 then
      provenanceLoop artifactManifestImage prs (materialLoop pr pr.attestationMaterials acc)
    else provenanceLoop artifactManifestImage prs acc

/-- `GetProvenanceFromVerifyResourceResult`; the value of `k8smnfutil.ArtifactManifestImage`
is declared outside src/ and is a parameter. -/
def getProvenanceFromVerifyResourceResult (artifactManifestImage : String) (res : VerifyResult) :
    ObservationResourceResult :=
  let resourceLog : ObservationResourceResult :=
    { kind := res.resource.groupVersionKindKind, «namespace» := res.resource.getNamespace,
      name := res.resource.getName, resource := res.resource, manifestProvenanceInfo := [] }
  if res.provenances.length = 0 then resourceLog
  else { resourceLog with
    manifestProvenanceInfo := provenanceLoop artifactManifestImage res.provenances [] }

theorem mprovinfo_eq (pr : Provenance) (am : ProvenanceMaterial) :
    mprovinfo pr am =
      let c := (am.digest.get? "commit").getD ""
      { artifact := pr.artifact, hash := pr.hash, gitRepo := am.uri, commitID := c,
        gitApiURL := convertToCommitDetailURL am.uri c } := by
  simp only [mprovinfo, getCommitID]
  cases am.digest.get? "commit" <;> rfl

theorem materialLoop_eq (pr : Provenance) (ams : List ProvenanceMaterial)
    (acc : List ManifestProvenanceInfo) :
    materialLoop pr ams acc = acc ++ ams.map (mprovinfo pr) := by
  induction ams generalizing acc with
  | nil => simp [materialLoop]
  | cons am ams ih => simp [materialLoop, ih]

theorem provenanceLoop_eq (A : String) (prs : List Provenance) (acc : List ManifestProvenanceInfo) :
    provenanceLoop A prs acc =
      acc ++ (prs.filter (·.artifactType == A)).flatMap
        (fun pr => pr.attestationMaterials.map (mprovinfo pr)) := by
  induction prs generalizing acc with
  | nil => simp [provenanceLoop]
  | cons pr prs ih =>
    by_cases hA : pr.artifactType = A <;> by_cases hm : pr.attestationMaterials = [] <;>
      simp [provenanceLoop, hA, hm, ih, materialLoop_eq]

/-- The provenance extractor: the identity and the resource are copied, and the records are
exactly one per material of each manifest-image provenance, in input order. -/
theorem getProvenanceFromVerifyResourceResult_spec (A : String) (res : VerifyResult) :
    let log := getProvenanceFromVerifyResourceResult A res
    log.kind = res.resource.groupVersionKindKind ∧ log.«namespace» = res.resource.getNamespace ∧
      log.name = res.resource.getName ∧ log.resource = res.resource ∧
      log.manifestProvenanceInfo =
        (res.provenances.filter (·.artifactType == A)).flatMap (fun pr =>
          pr.attestationMaterials.map (fun am =>
            let c := (am.digest.get? "commit").getD ""
            { artifact := pr.artifact, hash := pr.hash, gitRepo := am.uri, commitID := c,
              gitApiURL := convertToCommitDetailURL am.uri c })) := by
  unfold getProvenanceFromVerifyResourceResult
  split_ifs with h
  · simp [List.length_eq_zero.mp h]
  · simp only [provenanceLoop_eq, List.nil_append, true_and, ← mprovinfo_eq]

end IntegrityShield.Provenance
