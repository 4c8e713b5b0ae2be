import IntegrityShield.Go
import IntegrityShield.Strings
import IntegrityShield.GitUrl
import IntegrityShield.Types
import IntegrityShield.Provenance
import IntegrityShield.CommitDetail
import IntegrityShield.Resolver
import IntegrityShield.History
import IntegrityShield.ManifestYaml
import IntegrityShield.Config
import IntegrityShield.Heap
import IntegrityShield.DeepCopy
