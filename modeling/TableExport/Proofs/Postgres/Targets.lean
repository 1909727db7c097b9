import Mathlib
import TableExport.Proofs.Postgres.Credentials
import TableExport.Proofs.Url.Paths

/-!
# The target of a connection

Host and database name are written into the URL as they are, before it is read for the first time,
while credentials and parameters are set as parts of what has been read. So a host or name with a
mark in it may be taken for another part of the URL. The URL leads to the configured target exactly
if the host is a host as it stands and the name is a path of its own; such a host is never refused.
-/
namespace TableExport.Postgres
open Url

/-! ## Reading host and database name -/

/-- A text that is the host of a URL as it stands. -/
def IsHost (cs : List Char) : Prop := ∃ host, PlainHost host ∧ host ≠ .empty ∧ host.text = cs

/-- The URL of a host and of what is read as path, query and fragment of the database name. -/
def target (s : StorageSettings) (host : Host) : Url :=
  let tail := cutTail ('/' :: cleanedEnd s.databaseName.toList)
  finish .plain
    { scheme := "postgresql".toList, host := some host, port := some s.port.toNat,
      path := readPath .plain tail.1 } tail.2.1 tail.2.2

/-- An authority part and what follows the slash behind it are read on their own. -/
theorem parse_authority_iff {rest : String} {authority tail : List Char} {url : Url}
    (text : rest.toList = authority ++ '/' :: tail) (inside : Inside ['/', '?', '#'] authority) :
    Url.parse ("postgresql://" ++ rest) = .ok url ↔
      Authority "postgresql".toList .plain authority ('/' :: cleanedEnd tail) url := by
  have slash : Inside [] ['/'] := inside_of_all (by decide)
  have cleaned : cleanedEnd rest.toList = authority ++ '/' :: cleanedEnd tail := by
    rw [text, cleanedEnd_append inside, ← List.singleton_append, cleanedEnd_append slash,
      List.singleton_append]
  have ends : ∀ c ∈ ('/' :: cleanedEnd tail).head?, (!endsAuthority .plain c) = false := by
    simp [endsAuthority]
  rw [parse_postgresql, cleaned, readAuthority_iff, takeWhile_front inside.authority ends,
    dropWhile_front inside.authority ends]

section Target
variable {s : StorageSettings} {host : Host}

theorem parse_target (plain : PlainHost host) (some : host ≠ .empty)
    (same : host.text = s.host.toList) : Url.parse (baseText s) = .ok (target s host) := by
  let numbered : Url :=
    { scheme := "postgresql".toList, port := .some s.port.toNat, path := .segments [] }
  have port : numbered.portText = ':' :: Decimal.digits s.port.toNat := rfl
  have bounded : ∀ n, numbered.port = .some n → n ≤ 65535 := by
    rintro n ⟨⟩
    exact Nat.le_of_lt_succ s.port.toNat_lt
  have inside : Inside ['@', '/', '?', '#'] (host.text ++ numbered.portText) :=
    plain.inside.append (portText_inside numbered)
  have text :
      (s.host ++ (":" ++ (Decimal.natural s.port.toNat ++ ("/" ++ s.databaseName)))).toList =
        (host.text ++ numbered.portText) ++ '/' :: s.databaseName.toList := by
    simp [Decimal.natural, port, same]
  have parts (cs : List Char) :
      cutTail ([] ++ cs) = ((cutTail cs).1, (cutTail cs).2.1, (cutTail cs).2.2) := rfl
  rw [baseText_eq, parse_authority_iff text (inside.fewer (List.subset_cons_self '@' _))]
  -- there is no `@` in it, so what is read has no credentials
  exact .mk (splitUserinfo_none (inside.lacks (by decide))) (by simp)
    (plain.cut (by simp [port])) (by simp) plain.read (by simp [some])
    (readPort_text plainScheme_postgresql.plain bounded) (parts _)

theorem target_takes (some : host ≠ .empty) : (target s host).takesUserinfo = true := by
  cases host with
  | empty => exact absurd rfl some
  | _ => rfl

end Target

/-! ## Setting the other parts -/

/-- The URL with the configured credentials and parameters. -/
def configured (s : StorageSettings) (url : Url) : Url :=
  { url with
    username := if s.username = "" then url.username else encode userinfoSet s.username.toList
    password :=
      if s.password = "" then url.password else some (encode userinfoSet s.password.toList)
    query := if s.parameters = "" then url.query else
      some (encodeQuery (SchemeKind.of url.scheme) (s.parameters.toList.filter (!isSkipped ·))) }

theorem withParameters_settled {s : StorageSettings} {url : Url} (settled : Settled url) :
    Settled (withParameters s url) := by
  unfold withParameters
  split
  next => exact settled
  next => exact settled.withQuery _

theorem beforePassword_refused {s : StorageSettings} {refusal : ExportError}
    (refused : beforePassword s = .error refusal) : ∃ message, refusal = .configuration message := by
  unfold beforePassword at refused
  simp only [bind, Except.bind] at refused
  cases read : Url.parse (baseText s) with
  | error e =>
    rw [read] at refused
    cases refused
    exact ⟨_, rfl⟩
  | ok url =>
    rw [read] at refused
    dsimp only at refused
    split at refused
    next => cases refused
    next =>
      split at refused
      next => cases refused
      next =>
        cases refused
        exact ⟨_, rfl⟩

/-- Either a URL is built that can be read back, or the settings are refused as configuration. -/
theorem connectionUrl_settled (s : StorageSettings) :
    (∃ url, Settled url ∧ connectionUrl s = .ok (String.ofList url.text)) ∨
      ∃ message, connectionUrl s = .error (.configuration message) := by
  rw [connectionUrl_bind]
  cases before : beforePassword s with
  | error refusal =>
    obtain ⟨message, rfl⟩ := beforePassword_refused before
    exact .inr ⟨message, rfl⟩
  | ok url =>
    have settled := beforePassword_settled before
    rw [Except.bind]
    split
    next => exact .inl ⟨_, withParameters_settled settled, rfl⟩
    next =>
      cases set : url.withPassword s.password.toList with
      | some changed => exact .inl ⟨_, withParameters_settled (settled.withPassword set), rfl⟩
      | none => exact .inr ⟨_, rfl⟩

/-- A URL that takes credentials gets all of them. -/
theorem connectionUrl_configured {s : StorageSettings} {base : Url}
    (read : Url.parse (baseText s) = .ok base) (takes : base.takesUserinfo = true) :
    connectionUrl s = .ok (String.ofList (configured s base).text) := by
  have before : beforePassword s = .ok { base with
      username :=
        if s.username = "" then base.username else encode userinfoSet s.username.toList } := by
    unfold beforePassword
    simp only [read, bind, Except.bind, Url.withUsername, if_pos takes]
    split <;> rfl
  rw [connectionUrl_bind, before]
  simp only [Except.bind]
  generalize named : ({ base with username := _ } : Url) = url
  have same : url.takesUserinfo = true := by rw [← named]; exact takes
  have whole : withParameters s (if s.password = "" then url else secured url s.password) =
      configured s base := by
    unfold withParameters configured secured Url.withQuery
    rw [← named]
    split_ifs <;> rfl
  split
  next bare => rw [← whole, if_pos bare]
  next present =>
    rw [withPassword_secured same present, Option.elim_some, ← whole, if_neg present]

theorem configured_settled (s : StorageSettings) {base : Url} (settled : Settled base)
    (takes : base.takesUserinfo = true) : Settled (configured s base) := by
  refine { settled with
    alone := fun empty => absurd empty (Settled.host_ne_empty takes)
    userinfo := ⟨?_, ?_⟩
    query := ?_ }
  · show Kept userinfoSet (if s.username = "" then base.username else _)
    split
    next => exact settled.userinfo.username
    next => exact kept_encode spares_userinfoSet _
  · intro p same
    simp only [configured] at same
    split at same
    next => exact settled.userinfo.password p same
    next present =>
      cases same
      exact ⟨encode_ne_nil (by simpa using present), kept_encode spares_userinfoSet _⟩
  · intro q same
    simp only [configured, settled.scheme.plain] at same
    split at same
    next => exact settled.query q same
    next =>
      cases same
      exact kept_encode spares_querySet _

/-- With a host as it stands a URL is built and read back, whatever the other settings are. -/
theorem connectionUrl_target {s : StorageSettings} {host : Host} (plain : PlainHost host)
    (some : host ≠ .empty) (same : host.text = s.host.toList) :
    connectionUrl s = .ok (String.ofList (configured s (target s host)).text) ∧
      Url.parse (String.ofList (configured s (target s host)).text) =
        .ok (configured s (target s host)) := by
  have read := parse_target plain some same
  have settled := parse_settled (baseText_eq s ▸ read)
  have takes : (target s host).takesUserinfo = true := target_takes some
  exact ⟨connectionUrl_configured read takes, (configured_settled s settled takes).parse_text⟩

/-! ## Where the URL leads -/

/-- The URL of the configured target: host, port and database are the configured ones, and the other
parts have nothing in them but what is configured for them. -/
structure Leads (s : StorageSettings) (url : Url) : Prop where
  host : ∃ host, url.host = some host ∧ host.text = s.host.toList
  port : url.port = some s.port.toNat
  database : ∃ name, url.path.text = '/' :: name ∧ decode name = Bytes.ofText s.databaseName
  username : url.username = encode userinfoSet s.username.toList
  password : url.password =
    if s.password = "" then none else some (encode userinfoSet s.password.toList)
  query : url.query = if s.parameters = "" then none else
    some (encode querySet (s.parameters.toList.filter (!isSkipped ·)))
  fragment : url.fragment = none

theorem Leads.isHost {s : StorageSettings} {url : Url} (leads : Leads s url)
    (settled : Settled url) : IsHost s.host.toList := by
  obtain ⟨host, hosted, text⟩ := leads.host
  obtain ⟨_, same, plain⟩ := settled.host
  cases hosted.symm.trans same
  refine ⟨host, plain, ?_, text⟩
  rintro rfl
  -- only a URL without a port can be without a host
  cases leads.port.symm.trans (settled.alone hosted).1

section Leads
variable {s : StorageSettings} {host : Host}

theorem Leads.pathName (leads : Leads s (configured s (target s host))) :
    PathName s.databaseName.toList := by
  obtain ⟨name, text, decoded⟩ := leads.database
  rw [← decode_path_iff, ← decoded, ← decode_slash, ← text]
  rfl

theorem leads_of_pathName (same : host.text = s.host.toList)
    (name : PathName s.databaseName.toList) : Leads s (configured s (target s host)) := by
  have whole : target s host =
      { scheme := "postgresql".toList, host := some host, port := some s.port.toNat,
        path := readPath .plain ('/' :: s.databaseName.toList) } := by
    unfold target
    rw [name.cutTail]
    rfl
  rw [whole]
  refine ⟨⟨host, rfl, same⟩, rfl, name.exists_text, ?_, rfl, ?_, rfl⟩
  · show (if s.username = "" then [] else encode userinfoSet s.username.toList) = _
    split
    next empty =>
      rw [empty]
      rfl
    next => rfl
  · simp only [configured, plainScheme_postgresql.plain]
    rfl

end Leads

/-- The URL that is built is read as one that leads to the configured target exactly if the host is
a host as it stands and nothing in the database name is taken for something else. With such a host a
URL is always built; what is refused is refused as configuration. -/
theorem connectionUrl_leads (s : StorageSettings) :
    (∀ text, connectionUrl s = .ok text → ∃ url, Url.parse text = .ok url ∧
      (Leads s url ↔ IsHost s.host.toList ∧ PathName s.databaseName.toList)) ∧
    ∀ refusal, connectionUrl s = .error refusal → ¬IsHost s.host.toList ∧
      ∃ message, refusal = .configuration message := by
  obtain ⟨url, settled, ok⟩ | ⟨message, refused⟩ := connectionUrl_settled s
  · refine ⟨fun text given => ?_, fun refusal refused => (nomatch refused.symm.trans ok)⟩
    cases given.symm.trans ok
    have read := settled.parse_text
    have whole {host : Host} (plain : PlainHost host) (some : host ≠ .empty)
        (same : host.text = s.host.toList) : url = configured s (target s host) := by
      obtain ⟨built, back⟩ := connectionUrl_target plain some same
      rw [← Except.ok.inj (ok.symm.trans built), read] at back
      exact Except.ok.inj back
    refine ⟨url, read, fun leads => ?_, ?_⟩
    · obtain ⟨host, plain, some, same⟩ := leads.isHost settled
      exact ⟨⟨host, plain, some, same⟩, (whole plain some same ▸ leads).pathName⟩
    · rintro ⟨⟨host, plain, some, same⟩, name⟩
      exact whole plain some same ▸ leads_of_pathName same name
  · refine ⟨fun text given => (nomatch given.symm.trans refused), fun refusal given => ?_⟩
    cases given.symm.trans refused
    refine ⟨?_, message, rfl⟩
    rintro ⟨host, plain, some, same⟩
    cases refused.symm.trans (connectionUrl_target plain some same).1

/-- A slash stands for itself in a path, and a blank is encoded. -/
def nested : StorageSettings :=
  { username := "user", host := "db.example", databaseName := "a/b c" }

theorem connectionUrl_leads_nested :
    (connectionUrl nested = .ok "postgresql://user@db.example:5432/a/b%20c" ∧
      ∃ url, Url.parse "postgresql://user@db.example:5432/a/b%20c" = .ok url ∧ Leads nested url) ∧
    connectionUrl { host := "db:1" } =
      .error (.configuration "Invalid PostgreSQL host or database name: invalid port number") ∧
    ¬IsHost "db:1".toList := by
  have built : connectionUrl nested = .ok "postgresql://user@db.example:5432/a/b%20c" := by
    decide +kernel
  have refused : connectionUrl { host := "db:1" } =
      .error (.configuration "Invalid PostgreSQL host or database name: invalid port number") := by
    decide +kernel
  have isHost : IsHost "db.example".toList :=
    ⟨.name "db.example".toList, .name (by decide) (by simp [Kept, isControl])
      (by simp [isForbidden]), nofun, rfl⟩
  have name : PathName "a/b c".toList :=
    ⟨by simp, by simp, (decode_eq_iff "a/b c").mp (by decide), by simp [splitOn]⟩
  obtain ⟨url, read, leads⟩ := (connectionUrl_leads nested).1 _ built
  exact ⟨⟨built, url, read, leads.mpr ⟨isHost, name⟩⟩, refused,
    ((connectionUrl_leads { host := "db:1" }).2 _ refused).1⟩

/-- A name with a question mark leads to another database, and the rest of it is read as
parameters. -/
theorem connectionUrl_misleads : ∃ url,
    connectionUrl { databaseName := "a?b" } = .ok "postgresql://localhost:5432/a?b" ∧
    Url.parse "postgresql://localhost:5432/a?b" = .ok url ∧
    decode (url.path.text.drop 1) = Bytes.ofText "a" ∧ url.query = some ['b'] ∧
    ¬Leads { databaseName := "a?b" } url := by
  refine ⟨
    { scheme := "postgresql".toList, host := some (.name "localhost".toList), port := some 5432,
      path := .segments [['a']], query := some ['b'] },
    by decide +kernel, by decide +kernel, by decide +kernel, rfl, fun leads => ?_⟩
  cases leads.query

end TableExport.Postgres
