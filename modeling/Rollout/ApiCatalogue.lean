import Rollout.SortedMap

/-!
The configuration APIs a definition may declare, some of them accepted but to be migrated.
-/

namespace Rollout

/-- Known APIs; each may name the API that replaces it. -/
structure ApiCatalogue where
  replacements : SortedMap String (Option String)
deriving Inhabited

namespace ApiCatalogue

def empty : ApiCatalogue :=
  ⟨.empty⟩

/-- Makes an API known, in place of any earlier entry. -/
def register (apis : ApiCatalogue) (id : String) : ApiCatalogue :=
  ⟨apis.replacements.insert id none⟩

/-- Makes an API known that is to be given up for another. -/
def registerDeprecated (apis : ApiCatalogue) (id replacement : String) : ApiCatalogue :=
  ⟨apis.replacements.insert id (some replacement)⟩

def contains (apis : ApiCatalogue) (id : String) : Bool :=
  apis.replacements.contains id

def deprecatedBy? (apis : ApiCatalogue) (id : String) : Option String :=
  (apis.replacements.get? id).join

def ids (apis : ApiCatalogue) : List String :=
  apis.replacements.keys

def size (apis : ApiCatalogue) : Nat :=
  apis.replacements.size

def ofList (ids : List String) : ApiCatalogue :=
  ids.foldl register empty

def builtins : ApiCatalogue :=
  (ofList [
    "alerting-profile", "anomaly-detection-metrics", "app-detection-rule", "application-mobile",
    "application-web", "aws-credentials", "azure-credentials", "calculated-metrics-log",
    "calculated-metrics-service", "conditional-naming-host", "conditional-naming-processgroup",
    "conditional-naming-service", "credential-vault", "custom-service-java", "dashboard",
    "extension", "kubernetes-credentials", "maintenance-window", "management-zone",
    "notification", "request-attributes", "request-naming-service", "slo", "synthetic-location",
    "synthetic-monitor", "builtin:alerting.profile", "builtin:management-zones",
    "builtin:problem.notifications", "builtin:tags.auto-tagging"
  ]).registerDeprecated "auto-tag" "builtin:tags.auto-tagging"

end ApiCatalogue

end Rollout
