import TableExport.Bytes
import TableExport.Log.Event
import TableExport.Settings.Basic
import TableExport.Target.Mode

/-!
# Object stores

A bucket takes whole objects or refuses them. How the service behind it decides
is not known to the export: it is a function of the uploads tried before.
-/
namespace TableExport

structure Upload where
  bucket : String
  key : String
  contentType : ContentType
  body : Bytes
  deriving DecidableEq, Repr

/-- What a service says when asked for a bucket. -/
inductive Presence
  | present
  | absent
  | unknown
  deriving DecidableEq, Repr

/-- The outside service: whether a bucket exists, and whether it takes an upload
after so many earlier ones. -/
structure ObjectService where
  presence : String → Presence
  accepts : Nat → Upload → Bool

def ObjectService.unreachable : ObjectService := ⟨fun _ => .unknown, fun _ _ => false⟩

structure Bucket where
  name : String
  endpoint : String
  deriving DecidableEq, Repr

/-- Scheme, host and port of the configured service. -/
def ObjectStoreSettings.endpoint (s : ObjectStoreSettings) : String :=
  (if s.useSsl then "https" else "http") ++ "://" ++ s.host ++ ":" ++
    Decimal.natural s.port.toNat

/-- The configured bucket, with what is logged on connecting. No request is sent. -/
def Bucket.ofSettings (s : ObjectStoreSettings) : Except ExportError (Bucket × List Log.Event) :=
  if s.host = "" then .error (.configuration "s3.endpoint_url must be set")
  else if s.bucket = "" then .error (.configuration "s3.bucket must be set")
  else .ok (⟨s.bucket, s.endpoint⟩,
    [⟨.info, Log.uploadTarget, "Connecting to S3",
      [("endpoint", .shown s.endpoint), ("bucket", .shown s.bucket),
       ("storage_type", .shown s.flavor)]⟩])

/-- Whether the bucket exists, if the service says so. -/
def Bucket.exists? (bucket : Bucket) (service : ObjectService) : Except ExportError Bool :=
  match service.presence bucket.name with
  | .present => .ok true
  | .absent => .ok false
  | .unknown => .error (.connection
      s!"Unable to access bucket '{bucket.name}' at {bucket.endpoint}" .refused)

def Bucket.diagnostic (bucket : Bucket) : String :=
  "S3Store \x7b endpoint: " ++ Text.quoted bucket.endpoint ++ ", bucket: " ++
    Text.quoted bucket.name ++ ", .. \x7d"

end TableExport
