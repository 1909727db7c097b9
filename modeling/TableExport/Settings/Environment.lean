import TableExport.Decimal.Digits
import TableExport.Settings.Basic
import TableExport.Text.Blank
import TableExport.Text.LetterCase

/-!
# Settings from the environment

Variables override single settings. A variable addresses a setting by section and key
after a fixed prefix, in any letter case; its value is read by the type of the setting.
Variables are applied in order, so of two that address one setting the later wins.

Overrides work on a draft, in which ports are any integers; only when all are applied
must they be ports. Why one is not, which is appended to the message, is left out.
-/
namespace TableExport

/-- The settings that can be overridden. -/
inductive Key
  | dbDriver | sqliteSource | username | password | host | port | databaseName | parameters
  | logQueries
  | flavor | endpointHost | endpointPort | accessKey | secretKey | useSsl | bucket | region
  | tablePrefix
  | debug | level
  deriving DecidableEq, Repr

namespace Key

def all : List Key :=
  [.dbDriver, .sqliteSource, .username, .password, .host, .port, .databaseName, .parameters,
    .logQueries, .flavor, .endpointHost, .endpointPort, .accessKey, .secretKey, .useSsl, .bucket,
    .region, .tablePrefix, .debug, .level]

def path : Key → String × String
  | .dbDriver => ("storage", "db_driver")
  | .sqliteSource => ("storage", "sqlite_datasource")
  | .username => ("storage", "pg_username")
  | .password => ("storage", "pg_password")
  | .host => ("storage", "pg_host")
  | .port => ("storage", "pg_port")
  | .databaseName => ("storage", "pg_db_name")
  | .parameters => ("storage", "pg_params")
  | .logQueries => ("storage", "log_sql_queries")
  | .flavor => ("s3", "type")
  | .endpointHost => ("s3", "endpoint_url")
  | .endpointPort => ("s3", "endpoint_port")
  | .accessKey => ("s3", "access_key_id")
  | .secretKey => ("s3", "secret_access_key")
  | .useSsl => ("s3", "use_ssl")
  | .bucket => ("s3", "bucket")
  | .region => ("s3", "region")
  | .tablePrefix => ("s3", "prefix")
  | .debug => ("logging", "debug")
  | .level => ("logging", "log_level")

theorem mem_all (key : Key) : key ∈ all := by cases key <;> decide

end Key

inductive ScalarType
  | text
  | integer
  | boolean
  deriving DecidableEq, Repr

def ScalarType.name : ScalarType → String
  | .text => "string"
  | .integer => "integer"
  | .boolean => "boolean"

/-- The value of a setting in a draft. -/
inductive Scalar
  | text (s : String)
  | integer (n : Int)
  | boolean (b : Bool)
  deriving DecidableEq, Repr

def Key.type : Key → ScalarType
  | .port | .endpointPort => .integer
  | .logQueries | .useSsl | .debug => .boolean
  | _ => .text

def trueWords : List String := ["true", "1", "yes", "on"]
def falseWords : List String := ["false", "0", "no", "off"]

/-- An integer of 64 bits, with an optional sign. -/
def int64? (text : String) : Option Int :=
  (Decimal.integer? text.toList).filter fun n =>
    Int64.minValue.toInt ≤ n && n ≤ Int64.maxValue.toInt

/-- Reads the value of a variable. Texts are taken as they are; blanks around numbers and
truth values do not count. -/
def ScalarType.read (type : ScalarType) (raw : String) : Option Scalar :=
  match type with
  | .text => some (.text raw)
  | .integer => (int64? (Text.trim raw)).map .integer
  | .boolean =>
    let word := Text.lower (Text.trim raw)
    if trueWords.contains word then some (.boolean true)
    else if falseWords.contains word then some (.boolean false)
    else none

/-- Settings on the way: a value for each key. -/
abbrev Draft := Key → Scalar

namespace Draft

def ofSettings (s : Settings) : Draft
  | .dbDriver => .text s.storage.driver
  | .sqliteSource => .text s.storage.sqliteSource
  | .username => .text s.storage.username
  | .password => .text s.storage.password
  | .host => .text s.storage.host
  | .port => .integer s.storage.port.toNat
  | .databaseName => .text s.storage.databaseName
  | .parameters => .text s.storage.parameters
  | .logQueries => .boolean s.storage.logQueries
  | .flavor => .text s.objectStore.flavor
  | .endpointHost => .text s.objectStore.host
  | .endpointPort => .integer s.objectStore.port.toNat
  | .accessKey => .text s.objectStore.accessKey
  | .secretKey => .text s.objectStore.secretKey
  | .useSsl => .boolean s.objectStore.useSsl
  | .bucket => .text s.objectStore.bucket
  | .region => .text s.objectStore.region
  | .tablePrefix => .text s.objectStore.tablePrefix
  | .debug => .boolean s.logging.debug
  | .level => .text s.logging.level

def set (draft : Draft) (key : Key) (value : Scalar) : Draft := fun other =>
  if other = key then value else draft other

def text? (draft : Draft) (key : Key) : Option String :=
  match draft key with
  | .text s => some s
  | _ => none

def boolean? (draft : Draft) (key : Key) : Option Bool :=
  match draft key with
  | .boolean b => some b
  | _ => none

def port? (draft : Draft) (key : Key) : Option UInt16 :=
  match draft key with
  | .integer n => if 0 ≤ n ∧ n < 65536 then some (UInt16.ofNat n.toNat) else none
  | _ => none

/-- The finished settings, if the ports are ports. -/
def toSettings? (draft : Draft) : Option Settings := do
  pure
    { storage :=
        { driver := ← draft.text? .dbDriver
          sqliteSource := ← draft.text? .sqliteSource
          username := ← draft.text? .username
          password := ← draft.text? .password
          host := ← draft.text? .host
          port := ← draft.port? .port
          databaseName := ← draft.text? .databaseName
          parameters := ← draft.text? .parameters
          logQueries := ← draft.boolean? .logQueries }
      objectStore :=
        { flavor := ← draft.text? .flavor
          host := ← draft.text? .endpointHost
          port := ← draft.port? .endpointPort
          accessKey := ← draft.text? .accessKey
          secretKey := ← draft.text? .secretKey
          useSsl := ← draft.boolean? .useSsl
          bucket := ← draft.text? .bucket
          region := ← draft.text? .region
          tablePrefix := ← draft.text? .tablePrefix }
      logging := { debug := ← draft.boolean? .debug, level := ← draft.text? .level } }

end Draft

abbrev Variable := String × String

def overridePrefix : String := "INSIGHTS_RESULTS_AGGREGATOR_EXPORTER__"

/-- The text before the first two underscores in a row, and the text after them. -/
def splitUnderscores : List Char → Option (List Char × List Char)
  | '_' :: '_' :: rest => some ([], rest)
  | c :: rest => (splitUnderscores rest).map fun (front, back) => (c :: front, back)
  | [] => none

/-- The setting that a variable addresses by its name. -/
def addressed? (name : String) : Option Key :=
  let mark := overridePrefix.toList
  if mark.isPrefixOf name.toList then
    (splitUnderscores (name.toList.drop mark.length)).bind fun (first, second) =>
      let wanted := (Text.lower (String.ofList first), Text.lower (String.ofList second))
      Key.all.find? fun key => key.path == wanted
  else none

/-- Applies one variable. One that addresses no setting changes nothing. -/
def Draft.override (draft : Draft) (entry : Variable) : Except ExportError Draft :=
  match addressed? entry.1 with
  | none => .ok draft
  | some key =>
    match key.type.read entry.2 with
    | some value => .ok (draft.set key value)
    | none =>
      .error (.configuration s!"Invalid value for {entry.1}: expected {key.type.name}")

def Draft.overrideAll (draft : Draft) : List Variable → Except ExportError Draft
  | [] => .ok draft
  | entry :: rest =>
    match draft.override entry with
    | .ok draft => draft.overrideAll rest
    | .error e => .error e

def Settings.override (s : Settings) (environment : List Variable) : Except ExportError Settings :=
  match (Draft.ofSettings s).overrideAll environment with
  | .error e => .error e
  | .ok draft =>
    match draft.toSettings? with
    | some settings => .ok settings
    | none => .error (.configuration "Invalid configuration override")

end TableExport
