import Mathlib
import TableExport.Proofs.Settings.Variables
import TableExport.Proofs.Table.Cells
import TableExport.Settings.Document

/-!
# Layers of settings

Each setting has the value of the last variable that addresses it, else the value that the
document has for it, else its default. Variables are followed one by one: a step changes the one
setting that its variable addresses, or refuses its value, and a run keeps for each setting what
the last such step left. Ports are checked when all variables are applied.
-/
namespace TableExport

/-! ## Documents -/

/-- The place of a setting in an array that stands for its section. -/
def Key.position : Key → Nat
  | .dbDriver | .flavor | .debug => 0
  | .sqliteSource | .endpointHost | .level => 1
  | .username | .endpointPort => 2
  | .password | .accessKey => 3
  | .host | .secretKey => 4
  | .port | .useSsl => 5
  | .databaseName | .bucket => 6
  | .parameters | .region => 7
  | .logQueries | .tablePrefix => 8

def Scalar.type : Scalar → ScalarType
  | .text _ => .text
  | .integer _ => .integer
  | .boolean _ => .boolean

/-- The value of a setting as it stands in a document. -/
def Scalar.written : Scalar → Toml.Value
  | .text s => .text s
  | .integer n => .integer n
  | .boolean b => .boolean b

/-- The value that a document has for a setting: by its key in the table of its section, or by its
place in the array that stands for the section. -/
inductive HasValue (root : Toml.Entries) (key : Key) (value : Toml.Value) : Prop
  | named {origin : Toml.Origin} {entries : Toml.Entries}
      (here : root.get? key.path.1 = some (.table origin entries))
      (there : entries.get? key.path.2 = some value)
  | placed {items : List Toml.Value} (here : root.get? key.path.1 = some (.array items))
      (there : items[key.position]? = some value)

/-- The value of a setting before the environment is looked at. Without a document each setting
has its default. -/
inductive Base : Option Toml.Entries → Key → Scalar → Prop
  | given {root key value} (has : HasValue root key value.written) : Base (some root) key value
  | missing {root key} (absent : ∀ value, ¬HasValue root key value) :
      Base (some root) key (Draft.ofSettings {} key)
  | default {key} : Base none key (Draft.ofSettings {} key)

/-- Settings that come from an accepted document, or are the defaults. -/
inductive Configured : Option Toml.Entries → Settings → Prop
  | defaults : Configured none {}
  | document {text root settings} (parsed : Toml.parse? text = some root)
      (accepted : Settings.ofDocument text = .ok settings) : Configured (some root) settings

namespace Section
variable {root : Toml.Entries} {key : Key} {s : Section}

theorem hasValue_of_some (of : Section.of (root.get? key.path.1) = some s) {value : Scalar}
    (found : s key.path.2 key.position = some value.written) : HasValue root key value.written := by
  unfold Section.of at of
  split at of
  next => cases of; cases found
  next => cases of; cases found
  next origin entries here =>
    cases of
    exact .named here found
  next items here =>
    cases of
    exact .placed here found
  next =>
    -- repeated tables hold tables at their places, and no setting is one
    cases of
    obtain ⟨entries, -, same⟩ := Option.map_eq_some_iff.mp found
    cases value <;> cases same
  next => cases of

theorem not_hasValue_of_none (of : Section.of (root.get? key.path.1) = some s)
    (absent : s key.path.2 key.position = none) (value : Toml.Value) :
    ¬HasValue root key value := by
  intro has
  cases has with
  | named here there | placed here there =>
    rw [here] at of
    cases of
    exact Option.some_ne_none value (there.symm.trans absent)

theorem base_text (of : Section.of (root.get? key.path.1) = some s) {value default : String}
    (read : s.text key.path.2 key.position default = some value)
    (usual : Draft.ofSettings {} key = .text default) : Base (some root) key (.text value) := by
  unfold Section.text at read
  split at read
  next absent =>
    cases read
    exact usual ▸ .missing (not_hasValue_of_none of absent)
  next found =>
    cases read
    exact .given (hasValue_of_some of found)
  next => cases read

theorem base_boolean (of : Section.of (root.get? key.path.1) = some s) {value default : Bool}
    (read : s.boolean key.path.2 key.position default = some value)
    (usual : Draft.ofSettings {} key = .boolean default) :
    Base (some root) key (.boolean value) := by
  unfold Section.boolean at read
  split at read
  next absent =>
    cases read
    exact usual ▸ .missing (not_hasValue_of_none of absent)
  next found =>
    cases read
    exact .given (hasValue_of_some of found)
  next => cases read

theorem base_port (of : Section.of (root.get? key.path.1) = some s) {value default : UInt16}
    (read : s.port key.path.2 key.position default = some value)
    (usual : Draft.ofSettings {} key = .integer default.toNat) :
    Base (some root) key (.integer value.toNat) := by
  unfold Section.port at read
  split at read
  next absent =>
    cases read
    exact usual ▸ .missing (not_hasValue_of_none of absent)
  next n found =>
    split at read
    next range =>
      cases read
      have small : n.toNat < 2 ^ 16 := by omega
      have same : ((UInt16.ofNat n.toNat).toNat : Int) = n := by
        rw [UInt16.toNat_ofNat', Nat.mod_eq_of_lt small, Int.toNat_of_nonneg range.1]
      rw [same]
      exact .given (hasValue_of_some of found)
    next => cases read
  next => cases read

theorem base_storage {settings : Settings} (of : Section.of (root.get? "storage") = some s)
    (read : StorageSettings.ofSection? s = some settings.storage)
    (within : key.path.1 = "storage") : Base (some root) key (Draft.ofSettings settings key) := by
  obtain ⟨storage, objectStore, logging⟩ := settings
  simp only [StorageSettings.ofSection?, Option.bind_eq_bind, Option.bind_eq_some_iff,
    Option.pure_def, Option.some.injEq] at read
  obtain ⟨driver, h1, source, h2, username, h3, password, h4, host, h5, port, h6, databaseName, h7,
    parameters, h8, logQueries, h9, rfl⟩ := read
  cases key with
  | dbDriver => exact base_text of h1 rfl
  | sqliteSource => exact base_text of h2 rfl
  | username => exact base_text of h3 rfl
  | password => exact base_text of h4 rfl
  | host => exact base_text of h5 rfl
  | port => exact base_port of h6 rfl
  | databaseName => exact base_text of h7 rfl
  | parameters => exact base_text of h8 rfl
  | logQueries => exact base_boolean of h9 rfl
  | _ => exact absurd within (by decide)

theorem base_objectStore {settings : Settings} (of : Section.of (root.get? "s3") = some s)
    (read : ObjectStoreSettings.ofSection? s = some settings.objectStore)
    (within : key.path.1 = "s3") : Base (some root) key (Draft.ofSettings settings key) := by
  obtain ⟨storage, objectStore, logging⟩ := settings
  simp only [ObjectStoreSettings.ofSection?, Option.bind_eq_bind, Option.bind_eq_some_iff,
    Option.pure_def, Option.some.injEq] at read
  obtain ⟨flavor, h1, host, h2, port, h3, accessKey, h4, secretKey, h5, useSsl, h6, bucket, h7,
    region, h8, tablePrefix, h9, rfl⟩ := read
  cases key with
  | flavor => exact base_text of h1 rfl
  | endpointHost => exact base_text of h2 rfl
  | endpointPort => exact base_port of h3 rfl
  | accessKey => exact base_text of h4 rfl
  | secretKey => exact base_text of h5 rfl
  | useSsl => exact base_boolean of h6 rfl
  | bucket => exact base_text of h7 rfl
  | region => exact base_text of h8 rfl
  | tablePrefix => exact base_text of h9 rfl
  | _ => exact absurd within (by decide)

theorem base_logging {settings : Settings} (of : Section.of (root.get? "logging") = some s)
    (read : LogSettings.ofSection? s = some settings.logging) (within : key.path.1 = "logging") :
    Base (some root) key (Draft.ofSettings settings key) := by
  obtain ⟨storage, objectStore, logging⟩ := settings
  simp only [LogSettings.ofSection?, Option.bind_eq_bind, Option.bind_eq_some_iff,
    Option.pure_def, Option.some.injEq] at read
  obtain ⟨debug, h1, level, h2, rfl⟩ := read
  cases key with
  | debug => exact base_boolean of h1 rfl
  | level => exact base_text of h2 rfl
  | _ => exact absurd within (by decide)

end Section

theorem Configured.base {source : Option Toml.Entries} {settings : Settings}
    (configured : Configured source settings) (key : Key) :
    Base source key (Draft.ofSettings settings key) := by
  cases configured with
  | defaults => exact .default
  | @document text root settings parsed accepted =>
    have entries : Settings.ofEntries? root = some settings := by
      simp only [Settings.ofDocument, Settings.ofDocument?, parsed, Option.bind_some] at accepted
      split at accepted
      next found =>
        cases accepted
        exact found
      next => cases accepted
    simp only [Settings.ofEntries?, Option.bind_eq_bind, Option.bind_eq_some_iff, Option.pure_def,
      Option.some.injEq] at entries
    obtain ⟨s, storage, _, storage', o, objects, _, objects', l, logging, _, logging', rfl⟩ :=
      entries
    have sections : key.path.1 = "storage" ∨ key.path.1 = "s3" ∨ key.path.1 = "logging" := by
      cases key <;> decide
    obtain within | within | within := sections
    · exact Section.base_storage storage storage' within
    · exact Section.base_objectStore objects objects' within
    · exact Section.base_logging logging logging' within

/-! ## Variables one by one -/

/-- A variable whose text can be read as a value of every setting that it addresses. -/
def Legible (entry : Variable) : Prop :=
  ∀ key, Addresses entry.1 key → ∃ value, Reads key.type entry.2 value

/-- The last variable of an environment that addresses a setting. -/
def Last (environment : List Variable) (key : Key) (entry : Variable) : Prop :=
  ∃ before after, environment = before ++ entry :: after ∧ Addresses entry.1 key ∧
    ∀ later ∈ after, ¬Addresses later.1 key

/-- The value of a setting after all variables: that of the last one that addresses it, or else
the one below. -/
inductive Layered (below : Key → Scalar → Prop) (environment : List Variable) (key : Key)
    (value : Scalar) : Prop
  | overridden {entry} (last : Last environment key entry) (reads : Reads key.type entry.2 value)
  | kept (free : ∀ entry ∈ environment, ¬Addresses entry.1 key) (below : below key value)

/-- The variable that is refused: the first one, in order, whose text cannot be read. -/
inductive FirstIllegible (environment : List Variable) : ExportError → Prop
  | mk {before entry after key} (whole : environment = before ++ entry :: after)
      (earlier : ∀ other ∈ before, Legible other) (addresses : Addresses entry.1 key)
      (illegible : ∀ value, ¬Reads key.type entry.2 value) :
      FirstIllegible environment
        (.configuration s!"Invalid value for {entry.1}: expected {key.type.name}")

namespace Draft

/-- What one variable does: nothing, a change of one setting, or a refusal. -/
theorem override_cases (draft : Draft) (entry : Variable) :
    ((∀ key, ¬Addresses entry.1 key) ∧ draft.override entry = .ok draft) ∨
    ∃ key, Addresses entry.1 key ∧
      ((∃ value, Reads key.type entry.2 value ∧
          draft.override entry = .ok (draft.set key value)) ∨
        (∀ value, ¬Reads key.type entry.2 value) ∧ draft.override entry =
          .error (.configuration s!"Invalid value for {entry.1}: expected {key.type.name}")) := by
  unfold override
  cases found : addressed? entry.1 with
  | none =>
    refine .inl ⟨fun key addresses => ?_, rfl⟩
    cases found.symm.trans (addressed?_iff.mpr addresses)
  | some key =>
    refine .inr ⟨key, addressed?_iff.mp found, ?_⟩
    dsimp only
    cases found : key.type.read entry.2 with
    | some value => exact .inl ⟨value, read_iff.mp found, rfl⟩
    | none =>
      refine .inr ⟨fun other reads => ?_, rfl⟩
      cases found.symm.trans (read_iff.mpr reads)

end Draft

theorem Last.cons {environment : List Variable} {key : Key} {entry : Variable}
    (last : Last environment key entry) (first : Variable) :
    Last (first :: environment) key entry := by
  obtain ⟨before, after, rfl, addresses, free⟩ := last
  exact ⟨first :: before, after, rfl, addresses, free⟩

theorem FirstIllegible.cons {environment : List Variable} {e : ExportError}
    (refused : FirstIllegible environment e) {first : Variable} (legible : Legible first) :
    FirstIllegible (first :: environment) e := by
  cases refused with
  | @mk before entry after key whole earlier addresses illegible =>
    exact .mk (congrArg (first :: ·) whole) (List.forall_mem_cons.mpr ⟨legible, earlier⟩) addresses
      illegible

theorem Layered.mono {below other : Key → Scalar → Prop} {environment : List Variable} {key : Key}
    {value : Scalar} (layered : Layered below environment key value)
    (within : below key value → other key value) : Layered other environment key value := by
  cases layered with
  | overridden last reads => exact .overridden last reads
  | kept free below => exact .kept free (within below)

theorem Layered.cons_free {below : Key → Scalar → Prop} {environment : List Variable} {key : Key}
    {value : Scalar} (layered : Layered below environment key value) {first : Variable}
    (free : ¬Addresses first.1 key) : Layered below (first :: environment) key value := by
  cases layered with
  | overridden last reads => exact .overridden (last.cons first) reads
  | kept later below => exact .kept (List.forall_mem_cons.mpr ⟨free, later⟩) below

/-- Unless a later variable addresses the setting too, the one that set it is the last. -/
theorem Layered.cons_addressed {below other : Key → Scalar → Prop} {environment : List Variable}
    {key : Key} {value : Scalar} (layered : Layered below environment key value)
    {first : Variable} (addresses : Addresses first.1 key)
    (reads : below key value → Reads key.type first.2 value) :
    Layered other (first :: environment) key value := by
  cases layered with
  | overridden last read => exact .overridden (last.cons first) read
  | kept later below =>
    exact .overridden ⟨[], environment, rfl, addresses, later⟩ (reads below)

namespace Draft

/-- All variables are applied, or the first illegible one is refused. -/
theorem overrideAll_cases (draft : Draft) (environment : List Variable) :
    (∃ result, draft.overrideAll environment = .ok result ∧
        (∀ entry ∈ environment, Legible entry) ∧
        ∀ key, Layered (draft · = ·) environment key (result key)) ∨
      ∃ e, draft.overrideAll environment = .error e ∧ FirstIllegible environment e := by
  induction environment generalizing draft with
  | nil => exact .inl ⟨draft, rfl, nofun, fun key => .kept nofun rfl⟩
  | cons first rest ih =>
    obtain ⟨free, step⟩ | ⟨key, addresses, ⟨value, reads, step⟩ | ⟨illegible, step⟩⟩ :=
      draft.override_cases first
    · have legible : Legible first := fun key addresses => absurd addresses (free key)
      rw [overrideAll, step]
      obtain ⟨result, applied, all, layered⟩ | ⟨e, failed, refused⟩ := ih draft
      · exact .inl ⟨result, applied, List.forall_mem_cons.mpr ⟨legible, all⟩,
          fun key => (layered key).cons_free (free key)⟩
      · exact .inr ⟨e, failed, refused.cons legible⟩
    · have legible : Legible first := fun other there => by
        rw [there.unique addresses]
        exact ⟨value, reads⟩
      rw [overrideAll, step]
      obtain ⟨result, applied, all, layered⟩ | ⟨e, failed, refused⟩ := ih (draft.set key value)
      · refine .inl ⟨result, applied, List.forall_mem_cons.mpr ⟨legible, all⟩, fun other => ?_⟩
        by_cases same : other = key
        · subst same
          refine (layered other).cons_addressed addresses fun below => ?_
          rw [← below, set, if_pos rfl]
          exact reads
        · have free : ¬Addresses first.1 other := fun there => same (there.unique addresses)
          refine ((layered other).cons_free free).mono fun below => ?_
          rwa [set, if_neg same] at below
      · exact .inr ⟨e, failed, refused.cons legible⟩
    · have whole : first :: rest = [] ++ first :: rest := rfl
      rw [overrideAll, step]
      exact .inr ⟨_, rfl, .mk whole nofun addresses illegible⟩

/-- Variables that address nothing can be left out. -/
theorem overrideAll_skip (draft : Draft) (before : List Variable) {entry : Variable}
    (free : ∀ key, ¬Addresses entry.1 key) (after : List Variable) :
    draft.overrideAll (before ++ entry :: after) = draft.overrideAll (before ++ after) := by
  induction before generalizing draft with
  | nil =>
    obtain ⟨-, step⟩ | ⟨key, addresses, -⟩ := draft.override_cases entry
    · rw [List.nil_append, overrideAll, step, List.nil_append]
    · exact absurd addresses (free key)
  | cons first before ih =>
    rw [List.cons_append, overrideAll, List.cons_append, overrideAll]
    cases draft.override first with
    | ok next => exact ih next
    | error e => rfl

/-! ## From drafts to settings -/

theorem ofSettings_of_toSettings? {draft : Draft} {settings : Settings}
    (finished : draft.toSettings? = some settings) : ofSettings settings = draft := by
  have text {key : Key} {s : String} (found : draft.text? key = some s) :
      Scalar.text s = draft key := by
    unfold text? at found
    split at found
    next same => rw [same, Option.some.inj found]
    next => cases found
  have boolean {key : Key} {b : Bool} (found : draft.boolean? key = some b) :
      Scalar.boolean b = draft key := by
    unfold boolean? at found
    split at found
    next same => rw [same, Option.some.inj found]
    next => cases found
  have port {key : Key} {p : UInt16} (found : draft.port? key = some p) :
      Scalar.integer p.toNat = draft key := by
    unfold port? at found
    split at found
    next n same =>
      split at found
      next range =>
        have small : n.toNat < 2 ^ 16 := by omega
        rw [same, ← Option.some.inj found, UInt16.toNat_ofNat', Nat.mod_eq_of_lt small,
          Int.toNat_of_nonneg range.1]
      next => cases found
    next => cases found
  unfold toSettings? at finished
  -- one getter for each setting
  iterate 20 obtain ⟨_, _, finished⟩ := Option.bind_eq_some_iff.mp finished
  cases finished
  funext key
  cases key with
  | port | endpointPort => exact port ‹_›
  | logQueries | useSsl | debug => exact boolean ‹_›
  | _ => exact text ‹_›

theorem port?_of_eq {draft : Draft} {key : Key} {p : UInt16}
    (same : draft key = .integer p.toNat) : draft.port? key = some p := by
  have small := p.toNat_lt
  have range : (0 : Int) ≤ (p.toNat : Int) ∧ (p.toNat : Int) < 65536 := by omega
  simp only [port?, same, if_pos range, Int.toNat_natCast, UInt16.ofNat_toNat]

theorem toSettings?_ofSettings (settings : Settings) :
    (ofSettings settings).toSettings? = some settings := by
  unfold toSettings?
  rw [@port?_of_eq _ .port settings.storage.port rfl,
    @port?_of_eq _ .endpointPort settings.objectStore.port rfl]
  rfl

theorem ofSettings_injective {a b : Settings} (same : ofSettings a = ofSettings b) : a = b := by
  have both := toSettings?_ofSettings a
  rw [same, toSettings?_ofSettings] at both
  exact (Option.some.inj both).symm

theorem exists_settings {draft : Draft} (typed : ∀ key, (draft key).type = key.type)
    (ports : ∀ key n, draft key = .integer n → 0 ≤ n ∧ n ≤ 65535) :
    ∃ settings, draft.toSettings? = some settings := by
  have text (key : Key) (type : key.type = .text) : ∃ s, draft.text? key = some s := by
    have here := (typed key).trans type
    unfold text?
    cases value : draft key <;> rw [value] at here <;> cases here
    exact ⟨_, rfl⟩
  have boolean (key : Key) (type : key.type = .boolean) : ∃ b, draft.boolean? key = some b := by
    have here := (typed key).trans type
    unfold boolean?
    cases value : draft key <;> rw [value] at here <;> cases here
    exact ⟨_, rfl⟩
  have port (key : Key) (type : key.type = .integer) : ∃ p, draft.port? key = some p := by
    have here := (typed key).trans type
    unfold port?
    cases value : draft key <;> rw [value] at here <;> cases here
    obtain ⟨low, high⟩ := ports key _ value
    exact ⟨_, if_pos ⟨low, Int.lt_add_one_of_le high⟩⟩
  choose text isText using text
  choose boolean isBoolean using boolean
  choose port isPort using port
  unfold toSettings?
  rw [isText .dbDriver rfl, isText .sqliteSource rfl, isText .username rfl, isText .password rfl,
    isText .host rfl, isPort .port rfl, isText .databaseName rfl, isText .parameters rfl,
    isBoolean .logQueries rfl]
  rw [isText .flavor rfl, isText .endpointHost rfl, isPort .endpointPort rfl,
    isText .accessKey rfl, isText .secretKey rfl, isBoolean .useSsl rfl, isText .bucket rfl,
    isText .region rfl, isText .tablePrefix rfl]
  rw [isBoolean .debug rfl, isText .level rfl]
  exact ⟨_, rfl⟩

end Draft

theorem Reads.type {type : ScalarType} {raw : String} {value : Scalar}
    (reads : Reads type raw value) : value.type = type := by
  cases reads <;> rfl

theorem ofSettings_type (settings : Settings) (key : Key) :
    (Draft.ofSettings settings key).type = key.type := by
  cases key <;> rfl

theorem ofSettings_integer {settings : Settings} {key : Key} {n : Int}
    (value : Draft.ofSettings settings key = .integer n) : 0 ≤ n ∧ n ≤ 65535 := by
  cases key with
  | port =>
    cases value
    have small := settings.storage.port.toNat_lt
    omega
  | endpointPort =>
    cases value
    have small := settings.objectStore.port.toNat_lt
    omega
  | _ => cases value

/-! ## Nothing else is a layer -/

theorem Scalar.written_injective {a b : Scalar} (same : a.written = b.written) : a = b := by
  cases a <;> cases b <;> cases same <;> rfl

theorem HasValue.unique {root : Toml.Entries} {key : Key} {a b : Toml.Value}
    (here : HasValue root key a)
    (there : HasValue root key b) : a = b := by
  cases here with
  | named table value =>
    cases there with
    | named table' value' =>
      cases table.symm.trans table'
      exact Option.some.inj (value.symm.trans value')
    | placed items _ => cases table.symm.trans items
  | placed items value =>
    cases there with
    | named table _ => cases items.symm.trans table
    | placed items' value' =>
      cases items.symm.trans items'
      exact Option.some.inj (value.symm.trans value')

theorem Base.unique {source : Option Toml.Entries} {key : Key} {a b : Scalar}
    (here : Base source key a) (there : Base source key b) : a = b := by
  cases here with
  | given has =>
    cases there with
    | given has' => exact Scalar.written_injective (has.unique has')
    | missing absent => exact absurd has (absent _)
  | missing absent =>
    cases there with
    | given has => exact absurd has (absent _)
    | missing => rfl
  | default =>
    cases there
    rfl

theorem Last.unique {environment : List Variable} {key : Key} {a b : Variable}
    (here : Last environment key a) (there : Last environment key b) : a = b := by
  obtain ⟨before, after, rfl, addresses, free⟩ := here
  obtain ⟨before', after', whole, addresses', free'⟩ := there
  obtain ⟨between, -, same⟩ | ⟨tail, rfl⟩ := split_cons whole
  · obtain _ | ⟨first, between⟩ := between
    · exact (List.cons.inj same).1
    · obtain ⟨-, rfl⟩ := List.cons.inj same
      exact absurd addresses' (free b (by simp))
  · rw [List.append_assoc, List.append_cancel_left_eq, List.cons_append] at whole
    obtain ⟨-, rfl⟩ := List.cons.inj whole
    exact absurd addresses (free' a (by simp))

theorem Layered.of_last {below : Key → Scalar → Prop} {environment : List Variable} {key : Key}
    {entry : Variable} {a b : Scalar} (last : Last environment key entry)
    (reads : Reads key.type entry.2 a) (layered : Layered below environment key b) : a = b := by
  cases layered with
  | overridden last' reads' =>
    cases last.unique last'
    exact reads.unique reads'
  | kept free =>
    obtain ⟨before, after, rfl, addresses, -⟩ := last
    exact absurd addresses (free entry (by simp))

theorem Layered.unique {below : Key → Scalar → Prop} {environment : List Variable} {key : Key}
    {a b : Scalar} (functional : ∀ {x y}, below key x → below key y → x = y)
    (here : Layered below environment key a) (there : Layered below environment key b) :
    a = b := by
  cases here with
  | overridden last reads => exact Layered.of_last last reads there
  | kept free value =>
    cases there with
    | overridden last reads =>
      exact (Layered.of_last last reads (.kept free value)).symm
    | kept _ value' => exact functional value value'

theorem Legible.not_illegible {entry : Variable} (legible : Legible entry) {key : Key}
    (addresses : Addresses entry.1 key) : ¬∀ value, ¬Reads key.type entry.2 value := by
  obtain ⟨value, reads⟩ := legible key addresses
  exact fun illegible => illegible value reads

theorem FirstIllegible.not_legible {environment : List Variable} {e : ExportError}
    (refused : FirstIllegible environment e) : ¬∀ entry ∈ environment, Legible entry := by
  intro legible
  cases refused with
  | @mk before entry after key whole _ addresses illegible =>
    subst whole
    exact (legible entry (by simp)).not_illegible addresses illegible

theorem FirstIllegible.unique {environment : List Variable} {a b : ExportError}
    (here : FirstIllegible environment a) (there : FirstIllegible environment b) : a = b := by
  obtain @⟨before, x, after, key, rfl, earlier, addresses, illegible⟩ := here
  obtain @⟨before', y, after', key', whole, earlier', addresses', illegible'⟩ := there
  obtain ⟨between, rfl, same⟩ | ⟨tail, rfl⟩ := split_cons whole
  · obtain _ | ⟨first, between⟩ := between
    · obtain ⟨rfl, -⟩ := List.cons.inj same
      rw [addresses.unique addresses']
    · obtain ⟨rfl, -⟩ := List.cons.inj same
      exact absurd illegible ((earlier' x (by simp)).not_illegible addresses)
  · exact absurd illegible' ((earlier y (by simp)).not_illegible addresses')

/-! ## All variables -/

/-- The last integer that is given for a port is the number of no port. -/
def PortOutside (environment : List Variable) : Prop :=
  ∃ key entry n, Last environment key entry ∧ Reads key.type entry.2 (.integer n) ∧
    ¬(0 ≤ n ∧ n ≤ 65535)

/-- How an override can end. -/
theorem Settings.override_cases (settings : Settings) (environment : List Variable) :
    (∃ result, settings.override environment = .ok result ∧
        (∀ entry ∈ environment, Legible entry) ∧ ¬PortOutside environment ∧
        ∀ key, Layered (Draft.ofSettings settings · = ·) environment key
          (Draft.ofSettings result key)) ∨
      (∃ e, settings.override environment = .error e ∧ FirstIllegible environment e) ∨
      settings.override environment = .error (.configuration "Invalid configuration override") ∧
        (∀ entry ∈ environment, Legible entry) ∧ PortOutside environment := by
  unfold override
  obtain ⟨draft, applied, legible, layered⟩ | ⟨e, failed, refused⟩ :=
    (Draft.ofSettings settings).overrideAll_cases environment
  · rw [applied]
    dsimp only
    cases finished : draft.toSettings? with
    | some result =>
      have same := Draft.ofSettings_of_toSettings? finished
      refine .inl ⟨result, rfl, legible, ?_, fun key => by rw [same]; exact layered key⟩
      rintro ⟨key, entry, n, last, reads, outside⟩
      have value := Layered.of_last last reads (layered key)
      rw [← same] at value
      exact outside (ofSettings_integer value.symm)
    | none =>
      refine .inr (.inr ⟨rfl, legible, ?_⟩)
      by_contra inside
      have typed (key : Key) : (draft key).type = key.type := by
        cases layered key with
        | overridden _ reads => exact reads.type
        | kept _ below => exact below ▸ ofSettings_type settings key
      have ports (key : Key) (n : Int) (value : draft key = .integer n) : 0 ≤ n ∧ n ≤ 65535 := by
        cases layered key with
        | overridden last reads =>
          by_contra outside
          exact inside ⟨key, _, n, last, value ▸ reads, outside⟩
        | kept _ below => exact ofSettings_integer (below.trans value)
      obtain ⟨result, some⟩ := Draft.exists_settings typed ports
      cases finished.symm.trans some
  · rw [failed]
    exact .inr (.inl ⟨e, rfl, refused⟩)

namespace Settings
variable {source : Option Toml.Entries} {settings : Settings} {environment : List Variable}

theorem override_ok_iff (configured : Configured source settings) {result : Settings} :
    settings.override environment = .ok result ↔
      (∀ entry ∈ environment, Legible entry) ∧ ¬PortOutside environment ∧
        ∀ key, Layered (Base source) environment key (Draft.ofSettings result key) := by
  have based {result : Settings} {key : Key}
      (layered : Layered (Draft.ofSettings settings · = ·) environment key
        (Draft.ofSettings result key)) :
      Layered (Base source) environment key (Draft.ofSettings result key) :=
    layered.mono fun below => below ▸ configured.base key
  obtain ⟨found, ended, legible, inside, layered⟩ | ⟨e, ended, refused⟩ |
    ⟨ended, legible, outside⟩ := settings.override_cases environment
  · rw [ended]
    constructor
    · rintro ⟨⟩
      exact ⟨legible, inside, fun key => based (layered key)⟩
    · -- the layers leave no choice, so the settings that have these values are the ones found
      rintro ⟨-, -, other⟩
      have same : Draft.ofSettings found = Draft.ofSettings result :=
        funext fun key => (based (layered key)).unique Base.unique (other key)
      rw [Draft.ofSettings_injective same]
  · rw [ended]
    exact ⟨nofun, fun h => absurd h.1 refused.not_legible⟩
  · rw [ended]
    exact ⟨nofun, fun h => absurd outside h.2.1⟩

theorem override_error_iff {e : ExportError} : settings.override environment = .error e ↔
    FirstIllegible environment e ∨
      (∀ entry ∈ environment, Legible entry) ∧ PortOutside environment ∧
        e = .configuration "Invalid configuration override" := by
  obtain ⟨found, ended, legible, inside, layered⟩ | ⟨first, ended, refused⟩ |
    ⟨ended, legible, outside⟩ := settings.override_cases environment
  · rw [ended]
    refine ⟨nofun, ?_⟩
    rintro (refused | ⟨-, outside, -⟩)
    · exact absurd legible refused.not_legible
    · exact absurd outside inside
  · rw [ended]
    constructor
    · rintro ⟨⟩
      exact .inl refused
    · rintro (other | ⟨legible, -⟩)
      · rw [refused.unique other]
      · exact absurd legible refused.not_legible
  · rw [ended]
    constructor
    · rintro ⟨⟩
      exact .inr ⟨legible, outside, rfl⟩
    · rintro (refused | ⟨-, -, rfl⟩)
      · exact absurd legible refused.not_legible
      · rfl

theorem override_of_draft {result : Settings} {draft : Draft}
    (applied : (Draft.ofSettings settings).overrideAll environment = .ok draft)
    (finished : draft.toSettings? = some result) : settings.override environment = .ok result := by
  unfold override
  rw [applied]
  dsimp only
  rw [finished]

/-- Without a variable that addresses a setting, settings stay as they are. -/
theorem override_free (free : ∀ entry ∈ environment, ∀ key, ¬Addresses entry.1 key) :
    settings.override environment = .ok settings := by
  obtain ⟨found, ended, -, -, layered⟩ | ⟨e, ended, refused⟩ | ⟨ended, legible, outside⟩ :=
    settings.override_cases environment
  · have same : Draft.ofSettings settings = Draft.ofSettings found := funext fun key =>
      Layered.unique (fun here there => here.symm.trans there)
        (.kept (fun entry member => free entry member key) rfl) (layered key)
    rw [ended, Draft.ofSettings_injective same]
  · refine absurd (fun entry member key addresses => ?_) refused.not_legible
    exact absurd addresses (free entry member key)
  · obtain ⟨key, entry, n, ⟨before, after, rfl, addresses, -⟩, -⟩ := outside
    exact absurd addresses (free entry (by simp) key)

end Settings

/-- What settings become under an environment, and when they are refused. -/
structure Layering (source : Option Toml.Entries) (settings : Settings)
    (environment : List Variable) : Prop where
  accepted : ∀ result, settings.override environment = .ok result ↔
    (∀ entry ∈ environment, Legible entry) ∧ ¬PortOutside environment ∧
      ∀ key, Layered (Base source) environment key (Draft.ofSettings result key)
  refused : ∀ e, settings.override environment = .error e ↔
    FirstIllegible environment e ∨
      (∀ entry ∈ environment, Legible entry) ∧ PortOutside environment ∧
        e = .configuration "Invalid configuration override"
  skipped : ∀ before entry after, environment = before ++ entry :: after →
    (∀ key, ¬Addresses entry.1 key) →
      settings.override environment = settings.override (before ++ after)
  unchanged : (∀ entry ∈ environment, ∀ key, ¬Addresses entry.1 key) →
    settings.override environment = .ok settings

/-- Every setting has the value of its uppermost layer. -/
theorem Settings.override_layers {source : Option Toml.Entries} {settings : Settings}
    (configured : Configured source settings) (environment : List Variable) :
    Layering source settings environment where
  accepted _ := override_ok_iff configured
  refused _ := override_error_iff
  skipped before entry after whole free := by
    subst whole
    unfold override
    rw [Draft.overrideAll_skip _ before free after]
  unchanged := override_free

def movedDocument : String := "[storage]\npg_port = 6000\n[s3]\nbucket = 'exports'\n"

def movedRoot : Toml.Entries :=
  [("storage", .table .header [("pg_port", .integer 6000)]),
    ("s3", .table .header [("bucket", .text "exports")])]

/-- A port that is given twice, a truth value in capitals, and a variable of another program. -/
def movedEnvironment : List Variable :=
  [(overridePrefix ++ "STORAGE__PG_PORT", " 70000 "), ("PATH", "/bin"),
    (overridePrefix ++ "s3__Use_SSL", "YES"), (overridePrefix ++ "STORAGE__PG_PORT", "+5433")]

def movedSettings : Settings where
  storage.port := 6000
  objectStore.bucket := "exports"

/-- The last port counts, what no variable gives comes from the document, and the rest is as it
was. -/
def movedResult : Settings where
  storage.port := 5433
  objectStore.useSsl := true
  objectStore.bucket := "exports"

theorem override_moved : movedSettings.override movedEnvironment = .ok movedResult := by
  have port : addressed? (overridePrefix ++ "STORAGE__PG_PORT") = some .port := by decide +kernel
  have useSsl : addressed? (overridePrefix ++ "s3__Use_SSL") = some .useSsl := by decide +kernel
  have other : addressed? "PATH" = none := by decide +kernel
  have first : ScalarType.read .integer " 70000 " = some (.integer 70000) := by decide +kernel
  have second : ScalarType.read .integer "+5433" = some (.integer 5433) := by decide +kernel
  have yes : ScalarType.read .boolean "YES" = some (.boolean true) := by decide +kernel
  refine Settings.override_of_draft ?_ (Draft.toSettings?_ofSettings _)
  simp only [movedEnvironment, Draft.overrideAll, Draft.override, port, useSsl, other, first,
    second, yes, Key.type]
  congr 1
  funext key
  cases key <;> rfl

theorem Settings.override_layers_moved :
    Configured (some movedRoot) movedSettings ∧
      Layering (some movedRoot) movedSettings movedEnvironment ∧
      movedSettings.override movedEnvironment = .ok movedResult ∧
      Layered (Base (some movedRoot)) movedEnvironment .port (.integer 5433) ∧
      Layered (Base (some movedRoot)) movedEnvironment .bucket (.text "exports") := by
  have parsed : Toml.parse? movedDocument = some movedRoot := by cbv
  have read : Settings.ofDocument movedDocument = .ok movedSettings := by cbv
  have layering := override_layers (.document parsed read) movedEnvironment
  obtain ⟨-, -, layered⟩ := (layering.accepted movedResult).mp override_moved
  exact ⟨.document parsed read, layering, override_moved, layered .port, layered .bucket⟩

end TableExport
