import Mathlib
import TableExport.Proofs.Text.Trimming
import TableExport.Proofs.Url.Parts

/-!
# Reading a URL back

Reading puts a URL into a form that writing and reading leave alone: every part is encoded for its
place, so nothing in one part is taken for the mark of another. Another user name, password or query
keeps that form, because setting a part encodes it as well.
-/
namespace TableExport.Url

/-! ## Around a URL -/

theorem cleaned_of_padded {cs core : List Char} (padded : Text.Padded (· ≤ ' ') cs core)
    (present : core ≠ []) (solid : Text.Solid (· ≤ ' ') core) :
    cleaned cs = core.filter fun c => !isSkipped c :=
  congrArg (List.filter _) (Text.trim_of_padded padded present solid)

theorem Inside.solid {stops cs : List Char} (inside : Inside stops cs) :
    Text.Solid (· ≤ ' ') cs :=
  ⟨fun c first => by simpa using (inside c (List.mem_of_mem_head? first)).1,
    fun c last => by simpa using (inside c (List.mem_of_mem_getLast? last)).1⟩

theorem Inside.filter {stops cs : List Char} (inside : Inside stops cs) :
    cs.filter (fun c => !isSkipped c) = cs := by
  refine List.filter_eq_self.mpr fun c member => ?_
  have visible := (inside c member).1
  simp only [isSkipped, Bool.not_eq_true', Bool.or_eq_false_iff, decide_eq_false_iff_not]
  refine ⟨⟨?_, ?_⟩, ?_⟩ <;> rintro rfl <;> revert visible <;> decide

theorem Inside.cleaned {stops cs : List Char} (inside : Inside stops cs) : cleaned cs = cs := by
  by_cases empty : cs = []
  · subst empty
    rfl
  · rw [cleaned_of_padded ⟨[], [], by simp, nofun, nofun⟩ empty inside.solid, inside.filter]

/-- What is left of the end of a URL. -/
def cleanedEnd (cs : List Char) : List Char :=
  (cs.rdropWhile (· ≤ ' ')).filter fun c => !isSkipped c

/-- What an end begins with is not trimmed with what follows it. -/
theorem cleanedEnd_append {stops front : List Char} (inside : Inside stops front)
    (cs : List Char) : cleanedEnd (front ++ cs) = front ++ cleanedEnd cs := by
  obtain ⟨after, whole, low⟩ := @Text.exists_rdropWhile (· ≤ ' ') cs
  have last := @Text.last_rdropWhile (· ≤ ' ') cs
  unfold cleanedEnd
  generalize cs.rdropWhile (· ≤ ' ') = kept at whole last
  have stop : ∀ c ∈ (front ++ kept).getLast?, decide (c ≤ ' ') = false := by
    cases kept with
    | nil =>
      rw [List.append_nil]
      exact inside.solid.2
    | cons d kept => rwa [List.getLast?_append_of_ne_nil _ (List.cons_ne_nil d kept)]
  rw [whole, ← List.append_assoc, Text.rdropWhile_back stop low, List.filter_append, inside.filter]

theorem cleaned_append {stops front : List Char} (inside : Inside stops front)
    (present : front ≠ []) (cs : List Char) :
    Url.cleaned (front ++ cs) = front ++ cleanedEnd cs := by
  show cleanedEnd ((front ++ cs).dropWhile (· ≤ ' ')) = _
  rw [Text.dropWhile_of_head present inside.solid.1, cleanedEnd_append inside]

/-! ## Reading an authority part -/

/-- How a host is read. -/
def readHost (kind : SchemeKind) (cs : List Char) : Except UrlError Host :=
  if kind.isSpecial then domainHost cs else plainHost cs

/-- What `readAuthority` reads from an authority part and what follows it. -/
inductive Authority (scheme : List Char) (kind : SchemeKind) (authority tail : List Char) :
    Url → Prop
  | mk {userinfo hostPort hostText portText host port rest path query fragment}
      (split : splitUserinfo authority = (userinfo, hostPort))
      (named : ¬(userinfo = some [] ∧ hostPort = [] ∧ tail ≠ []))
      (cut : cutHost false hostPort = (hostText, portText))
      (web : ¬(kind = .web ∧ hostText = []))
      (read : readHost kind hostText = .ok host)
      (alone : ¬(host = .empty ∧ (portText ≠ [] ∨ (readUserinfo (userinfo.getD [])).1 ≠ [] ∨
        (readUserinfo (userinfo.getD [])).2.isSome)))
      (numbered : readPort scheme portText = .ok (port, rest))
      (parts : cutTail (rest ++ tail) = (path, query, fragment)) :
      Authority scheme kind authority tail (finish kind
        { scheme := scheme, username := (readUserinfo (userinfo.getD [])).1,
          password := (readUserinfo (userinfo.getD [])).2, host := some host, port := port,
          path := readPath kind path } query fragment)

theorem readAuthority_iff {scheme cs : List Char} {kind : SchemeKind} {url : Url} :
    readAuthority scheme kind cs = .ok url ↔
      Authority scheme kind (cs.takeWhile fun c => !endsAuthority kind c)
        (cs.dropWhile fun c => !endsAuthority kind c) url := by
  unfold readAuthority
  simp only [bind, Except.bind, pure, Except.pure]
  constructor
  · intro read
    split at read
    · cases read
    rename_i named
    split at read
    · cases read
    rename_i web
    -- the two ways to read a host go on alike
    split at read
    all_goals
      rename_i special
      split at read
      · cases read
      rename_i host found
      split at read
      · cases read
      rename_i alone
      split at read
      · cases read
      rename_i port numbered
      cases read
      refine ⟨rfl, named, rfl, web, Eq.trans ?_ found, alone, numbered, rfl⟩
      first | exact if_pos special | exact if_neg special
  · rintro ⟨split, named, cut, web, found, alone, numbered, parts⟩
    rw [split]
    dsimp only
    rw [if_neg named, cut]
    unfold readHost at found
    split at found
    all_goals
      rename_i special
      simp only [special, if_neg web, found, if_neg alone, numbered, parts, if_true, if_false,
        Bool.false_eq_true]

/-- An authority part goes on up to one of the characters that end it. -/
theorem Inside.authority {cs : List Char} (inside : Inside ['/', '?', '#'] cs) :
    ∀ c ∈ cs, (!endsAuthority .plain c) = true := by
  intro c member
  have stops := (inside c member).2
  simpa [endsAuthority, SchemeKind.isSpecial, and_assoc] using stops

/-! ## Settled URLs -/

/-- A scheme that is not special, in the form in which it is read. -/
structure PlainScheme (scheme : List Char) : Prop where
  plain : SchemeKind.of scheme = .plain
  visible : Inside [] scheme
  read : ∀ rest, scheme? (scheme ++ ':' :: rest) = some (scheme, rest)

/-- A URL with a host whose scheme is not special, as reading leaves it. -/
structure Settled (url : Url) : Prop where
  scheme : PlainScheme url.scheme
  host : ∃ host, url.host = some host ∧ PlainHost host
  alone : url.host = some .empty → url.port = none ∧ url.username = [] ∧ url.password = none
  userinfo : KeptUserinfo url.username url.password
  port : ∀ n, url.port = some n → n ≤ 65535
  path : KeptPath url.path
  query : ∀ q, url.query = some q → Kept querySet q
  fragment : ∀ f, url.fragment = some f → Kept fragmentSet f

theorem Authority.settled {scheme authority tail : List Char} {url : Url}
    (named : PlainScheme scheme) (read : Authority scheme .plain authority tail url) :
    Settled url := by
  obtain @⟨userinfo, hostPort, hostText, portText, host, port, rest, path, query, fragment, split,
    _, cut, _, found, alone, numbered, parts⟩ := read
  refine ⟨named, ⟨host, rfl, plainHost_ok found⟩, ?_, readUserinfo_kept _, readPort_fits numbered,
    readPath_kept path, ?_, ?_⟩
  · intro empty
    obtain rfl : host = .empty := Option.some.inj empty
    simp only [true_and, not_or, not_not, Bool.not_eq_true, Option.isSome_eq_false_iff,
      Option.isNone_iff_eq_none] at alone
    obtain ⟨rfl, user, password⟩ := alone
    cases numbered
    exact ⟨rfl, user, password⟩
  · intro q same
    obtain ⟨raw, -, rfl⟩ := Option.map_eq_some_iff.mp same
    exact kept_encode spares_querySet raw
  · intro f same
    obtain ⟨raw, -, rfl⟩ := Option.map_eq_some_iff.mp same
    exact kept_encode spares_fragmentSet raw

/-- What is written behind the authority part. -/
def tailText (url : Url) : List Char :=
  url.path.text ++ marked '?' url.query ++ marked '#' url.fragment

namespace Settled
variable {url : Url}

theorem host_ne_empty (takes : url.takesUserinfo = true) : url.host ≠ some .empty := by
  intro empty
  rw [takesUserinfo, empty] at takes
  cases takes

theorem withUsername {username : List Char} {changed : Url} (settled : Settled url)
    (set : url.withUsername username = some changed) : Settled changed := by
  unfold Url.withUsername at set
  split at set
  next takes =>
    cases set
    refine { settled with
      alone := ?_
      userinfo := ⟨kept_encode spares_userinfoSet username, settled.userinfo.password⟩ }
    intro empty
    exact absurd empty (host_ne_empty takes)
  next => cases set

theorem withPassword {password : List Char} {changed : Url} (settled : Settled url)
    (set : url.withPassword password = some changed) : Settled changed := by
  unfold Url.withPassword at set
  split at set
  next takes =>
    cases set
    refine { settled with
      alone := ?_
      userinfo := ⟨settled.userinfo.username, ?_⟩ }
    · intro empty
      exact absurd empty (host_ne_empty takes)
    · intro p same
      split at same
      next => cases same
      next present =>
        cases same
        exact ⟨encode_ne_nil (by simpa using present), kept_encode spares_userinfoSet password⟩
  next => cases set

theorem withQuery (settled : Settled url) (query : List Char) : Settled (url.withQuery query) := by
  refine { settled with query := fun q same => ?_ }
  cases same
  rw [settled.scheme.plain]
  exact kept_encode spares_querySet _

theorem query_kept (settled : Settled url) : url.query.map (encodeQuery .plain) = url.query := by
  cases same : url.query with
  | none => rfl
  | some q => exact congrArg some (encode_kept (settled.query q same))

theorem fragment_kept (settled : Settled url) :
    url.fragment.map (encode fragmentSet) = url.fragment := by
  cases same : url.fragment with
  | none => rfl
  | some f => exact congrArg some (encode_kept (settled.fragment f same))

theorem query_inside (settled : Settled url) {q : List Char} (same : url.query = some q) :
    Inside ['#'] q :=
  (settled.query q same).inside querySet_blank (by decide)

theorem tail_inside (settled : Settled url) : Inside [] url.tailText := by
  have path := (path_inside settled.path).fewer (List.nil_subset _)
  have query : Inside [] (marked '?' url.query) := by
    unfold marked
    split
    next q same =>
      exact .cons (inside_of_all (by decide))
        ((settled.query_inside same).fewer (List.nil_subset _))
    next => exact .nil
  have fragment : Inside [] (marked '#' url.fragment) := by
    unfold marked
    split
    next f same =>
      exact .cons (inside_of_all (by decide))
        ((settled.fragment f same).inside fragmentSet_blank rfl)
    next => exact .nil
  exact (path.append query).append fragment

theorem host_inside (settled : Settled url) {host : Host} (hosted : url.host = some host) :
    Inside ['@', '/', '?', '#'] (host.text ++ url.portText) := by
  obtain ⟨_, same, plain⟩ := settled.host
  cases hosted.symm.trans same
  exact plain.inside.append (portText_inside url)

theorem authority_inside (settled : Settled url) {host : Host} (hosted : url.host = some host) :
    Inside ['/', '?', '#'] (url.userinfoText ++ (host.text ++ url.portText)) :=
  (userinfo_inside settled.userinfo).append
    ((settled.host_inside hosted).fewer (List.subset_cons_self _ _))

theorem authority_within (settled : Settled url) {host : Host} (hosted : url.host = some host) :
    ∀ c ∈ url.userinfoText ++ (host.text ++ url.portText), (!endsAuthority .plain c) = true :=
  (settled.authority_inside hosted).authority

/-- What follows an authority part begins with one of the characters that end it. -/
theorem tail_ends (settled : Settled url) :
    ∀ c ∈ url.tailText.head?, (!endsAuthority .plain c) = false := by
  have start := path_start settled.path
  unfold tailText
  cases path : url.path.text with
  | cons c cs =>
    rw [path] at start
    obtain rfl := start c rfl
    simp [endsAuthority]
  | nil =>
    -- without a path the mark of the query comes first, and without a query that of the fragment
    cases url.query with
    | some q => simp [marked, endsAuthority]
    | none => cases url.fragment <;> simp [marked, endsAuthority]

/-- The authority part of a settled URL is read as the URL. -/
theorem authority (settled : Settled url) {host : Host} (hosted : url.host = some host) :
    Authority url.scheme .plain (url.userinfoText ++ (host.text ++ url.portText)) url.tailText
      url := by
  obtain ⟨_, same, plain⟩ := settled.host
  cases hosted.symm.trans same
  obtain ⟨userinfo, split, named, read⟩ := userinfo_read settled.userinfo
    ((settled.host_inside hosted).lacks (c := '@') (by decide))
  have stop : ∀ c ∈ url.portText.head?, c = ':' := by
    unfold portText
    split
    next => simp
    next => exact nofun
  have parts := @cutTail_text _ url.query url.fragment
    ((path_inside settled.path).lacks (c := '?') (by decide))
    ((path_inside settled.path).lacks (c := '#') (by decide))
    fun q same => (settled.query_inside same).lacks (c := '#') (by decide)
  have made : Authority url.scheme .plain (url.userinfoText ++ (host.text ++ url.portText))
      url.tailText (finish .plain
        { scheme := url.scheme, username := (readUserinfo (userinfo.getD [])).1,
          password := (readUserinfo (userinfo.getD [])).2, host := some host, port := url.port,
          path := readPath .plain url.path.text } url.query url.fragment) := by
    refine ⟨split, fun empty => named empty.1, plain.cut stop, fun web => ?_, plain.read, ?_,
      readPort_text settled.scheme.plain settled.port, parts⟩
    · cases web.1
    · rintro ⟨rfl, other⟩
      obtain ⟨port, user, password⟩ := settled.alone hosted
      rw [read, portText, port, user, password] at other
      simp at other
  rw [read, readPath_text settled.path, finish, settled.query_kept, settled.fragment_kept,
    ← hosted] at made
  exact made

end Settled

/-- The text of a URL with a host, cut where it is cut in reading. -/
theorem text_of_host {url : Url} {host : Host} (hosted : url.host = some host) :
    url.text = url.scheme ++ ':' :: '/' :: '/' ::
      ((url.userinfoText ++ (host.text ++ url.portText)) ++ url.tailText) := by
  simp [Url.text, authorityText, tailText, hosted]

/-- A settled URL is read back from its text. -/
theorem Settled.parse_text {url : Url} (settled : Settled url) :
    parse (String.ofList url.text) = .ok url := by
  obtain ⟨host, hosted, -⟩ := settled.host
  have text := text_of_host hosted
  have cleaned : cleaned url.text = url.text := by
    suffices inside : Inside [] url.text from inside.cleaned
    rw [text]
    refine settled.scheme.visible.append (.cons (inside_of_all (by decide)) (.cons
      (inside_of_all (by decide)) (.cons (inside_of_all (by decide)) (.append ?_ ?_))))
    · exact (settled.authority_inside hosted).fewer (List.nil_subset _)
    · exact settled.tail_inside
  have within := settled.authority_within hosted
  rw [parse, String.toList_ofList, cleaned, text, settled.scheme.read]
  dsimp only
  rw [readAfterScheme, settled.scheme.plain]
  dsimp only
  rw [readAuthority_iff, takeWhile_front within settled.tail_ends,
    dropWhile_front within settled.tail_ends]
  exact settled.authority hosted

end TableExport.Url
