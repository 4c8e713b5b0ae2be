import IntegrityShield.Go

namespace IntegrityShield.Types

open Go

structure Unstructured where
  object : Object
  deriving Inhabited

def nestedString : Object → List String → String
  | _, [] => ""
  | m, [f] =>
    match index m f with
    | .string s => s
    | _ => ""
  | m, f :: g :: fs =>
    match index m f with
    | .object m' => nestedString m' (g :: fs)
    | _ => ""

namespace Unstructured

def getAPIVersion (u : Unstructured) : String := nestedString u.object ["apiVersion"]

def getKind (u : Unstructured) : String := nestedString u.object ["kind"]

def getName (u : Unstructured) : String := nestedString u.object ["metadata", "name"]

def getNamespace (u : Unstructured) : String := nestedString u.object ["metadata", "namespace"]

/-- The kind of `u.GroupVersionKind()`: `schema.ParseGroupVersion` rejects an apiVersion
with more than one `/`, and the whole group-version-kind is then empty. -/
def groupVersionKindKind (u : Unstructured) : String :=
  if u.getAPIVersion.toList.count '/' ≤ 1 then u.getKind else ""

end Unstructured

structure ProvenanceMaterial where
  uri : String
  digest : GoMap String

structure Provenance where
  artifactType : String
  artifact : String
  hash : String
  attestationMaterials : List ProvenanceMaterial

/-- Modelled from the spec: `VerifyResult` (declared outside src/) carries the verified
resource and zero or more provenance statements. -/
structure VerifyResult where
  resource : Unstructured
  provenances : List Provenance

/-- Modelled from the spec: `ManifestProvenanceInfo` (declared outside src/), the provenance
of a manifest: its artifact, commit, commit-detail URL, hash and repository. -/
structure ManifestProvenanceInfo where
  artifact : String
  commitID : String
  gitApiURL : String
  hash : String
  gitRepo : String
  deriving Repr, DecidableEq, Inhabited

/-- Modelled from the spec: `ManifestProvenanceResult` (declared outside src/), a provenance
resolved against its repository: the commit's date, author and changed files added. -/
structure ManifestProvenanceResult where
  gitRepo : String
  gitApiURL : String
  commitID : String
  commitDate : String
  author : String
  files : List String
  hash : String
  artifact : String
  deriving Repr, DecidableEq, Inhabited

structure CommitData where
  commit : String
  date : String
  author : String
  files : List String
  deriving Repr, DecidableEq, Inhabited

structure Parent where
  commit : String
  url : String
  deriving Repr, DecidableEq, Inhabited

/-- Modelled from the spec: `ObservationResourceResult` (declared outside src/) with the
fields `GetProvenanceFromVerifyResourceResult` sets. -/
structure ObservationResourceResult where
  kind : String
  «namespace» : String
  name : String
  resource : Unstructured
  manifestProvenanceInfo : List ManifestProvenanceInfo
  deriving Inhabited

/-- Modelled from the spec: `FinalObservationResourceResult` (declared outside src/), a
resource's identity and its resolved provenance records of the last cycle. -/
structure FinalObservationResourceResult where
  kind : String
  «namespace» : String
  name : String
  manifestProvenanceResult : List ManifestProvenanceResult
  deriving Repr, DecidableEq, Inhabited

end IntegrityShield.Types
