import Mathlib
import TableExport.Proofs.Decimal.Digits
import TableExport.Proofs.Url.Address

/-!
# The parts of a URL

Each part of a URL whose scheme is not special is read back from what is written for it. What is
kept in a part has none of the characters at which that part ends.
-/
namespace TableExport.Url

/-! ## Characters -/

/-- A text in which nothing is trimmed or left out, and which has none of the characters at which
it would end. -/
def Inside (stops : List Char) (cs : List Char) : Prop := ∀ c ∈ cs, ' ' < c ∧ c ∉ stops

section Inside
variable {stops : List Char} {cs : List Char}

theorem Inside.nil : Inside stops [] := nofun

theorem Inside.cons {c : Char} (first : Inside stops [c]) (rest : Inside stops cs) :
    Inside stops (c :: cs) :=
  List.forall_mem_cons.mpr ⟨first c List.mem_cons_self, rest⟩

theorem Inside.append {as : List Char} (front : Inside stops as) (back : Inside stops cs) :
    Inside stops (as ++ cs) :=
  List.forall_mem_append.mpr ⟨front, back⟩

theorem Inside.lacks (inside : Inside stops cs) {c : Char} (stop : c ∈ stops) : c ∉ cs :=
  fun member => (inside c member).2 stop

theorem Inside.fewer {more : List Char} (inside : Inside more cs) (fewer : stops ⊆ more) :
    Inside stops cs :=
  fun c member => ⟨(inside c member).1, fun stop => (inside c member).2 (fewer stop)⟩

theorem inside_of_all (all : cs.all (fun c => decide (' ' < c) && !stops.contains c) = true) :
    Inside stops cs :=
  fun c member => by simpa using List.all_eq_true.mp all c member

variable {set : Char → Bool}

theorem Kept.lacks (kept : Kept set cs) {c : Char} (taken : set c = true) : c ∉ cs :=
  fun member => absurd taken (by rw [(kept c member).1]; decide)

theorem Kept.inside (kept : Kept set cs) (blanks : ∀ c ≤ ' ', set c = true)
    (taken : stops.all set = true) : Inside stops cs :=
  fun c member => ⟨lt_of_not_ge fun low => kept.lacks (blanks c low) member,
    fun stop => kept.lacks (List.all_eq_true.mp taken c stop) member⟩

end Inside

theorem fragmentSet_blank : ∀ c ≤ ' ', fragmentSet c = true := by
  intro c low
  obtain below | rfl := lt_or_eq_of_le low
  · simp [fragmentSet, isControl, below]
  · decide

theorem querySet_blank : ∀ c ≤ ' ', querySet c = true := by
  intro c low
  obtain below | rfl := lt_or_eq_of_le low
  · simp [querySet, isControl, below]
  · decide

theorem pathSet_blank : ∀ c ≤ ' ', pathSet c = true := by
  intro c low
  rw [pathSet, fragmentSet_blank c low, Bool.true_or]

theorem userinfoSet_blank : ∀ c ≤ ' ', userinfoSet c = true := by
  intro c low
  rw [userinfoSet, pathSet_blank c low, Bool.true_or]

/-! ## Hosts -/

/-- The hosts of URLs whose scheme is not special. -/
inductive PlainHost : Host → Prop
  | empty : PlainHost .empty
  | name {text} (present : text ≠ []) (kept : Kept isControl text)
      (allowed : ∀ c ∈ text, isForbidden c = false) : PlainHost (.name text)
  | ipv6 {pieces} (eight : pieces.length = 8) (small : ∀ n ∈ pieces, n < 65536) :
      PlainHost (.ipv6 pieces)

theorem plainHost_ok {cs : List Char} {host : Host} (read : plainHost cs = .ok host) :
    PlainHost host := by
  unfold plainHost at read
  split at read
  -- what stands in brackets is an address, and everything else a name or nothing
  next =>
    unfold bracketed at read
    split at read
    next =>
      split at read
      next pieces found =>
        cases read
        obtain ⟨eight, small⟩ := ipv6?_pieces found
        exact .ipv6 eight small
      next => cases read
    next => cases read
  next =>
    split at read
    next => cases read
    next allowed =>
      split at read
      next =>
        cases read
        exact .empty
      next present =>
        cases read
        refine .name (encode_ne_nil (by simpa using present)) (kept_encode spares_isControl cs) ?_
        intro c member
        obtain inside | escape := mem_encode member
        · exact Bool.eq_false_iff.mpr fun taken => allowed (List.any_eq_true.mpr ⟨c, inside, taken⟩)
        · have all : ('%' :: hexDigits).all (fun c => !isForbidden c) = true := by decide
          simpa using List.all_eq_true.mp all c escape

theorem mem_pieceText {pieces : List Nat} : ∀ c ∈ pieceText pieces, c ∈ ':' :: hexDigits := by
  unfold pieceText
  induction pieces with
  | nil => exact nofun
  | cons n rest ih =>
    have here : ∀ c ∈ Nat.toDigits 16 n, c ∈ ':' :: hexDigits := fun c member =>
      List.mem_cons_of_mem _ (mem_toDigits c member)
    cases rest with
    | nil => rwa [List.map_singleton, List.intercalate_singleton]
    | cons m rest =>
      rw [List.map_cons, List.map_cons, List.intercalate_cons_cons, ← List.map_cons]
      exact List.forall_mem_append.mpr ⟨List.forall_mem_append.mpr
        ⟨here, by simp⟩, ih⟩

theorem mem_ipv6Text {pieces : List Nat} : ∀ c ∈ ipv6Text pieces, c ∈ ':' :: hexDigits := by
  unfold ipv6Text
  split
  next => exact mem_pieceText
  next => exact List.forall_mem_append.mpr ⟨List.forall_mem_append.mpr
      ⟨mem_pieceText, by simp⟩, mem_pieceText⟩

theorem cutHost_outside {front : List Char} (plain : ∀ c ∈ front, c ≠ ':' ∧ c ≠ '[' ∧ c ≠ ']')
    (back : List Char) : cutHost false (front ++ back) =
      (front ++ (cutHost false back).1, (cutHost false back).2) := by
  induction front with
  | nil => rfl
  | cons c front ih =>
    obtain ⟨⟨noColon, noOpen, noClose⟩, later⟩ := List.forall_mem_cons.mp plain
    rw [List.cons_append, cutHost, if_neg (by simp [noColon])]
    dsimp only
    rw [if_neg noOpen, if_neg noClose, ih later]
    rfl

theorem cutHost_inside {front : List Char} (plain : ']' ∉ front) (back : List Char) :
    cutHost true (front ++ ']' :: back) =
      (front ++ ']' :: (cutHost false back).1, (cutHost false back).2) := by
  induction front with
  | nil => rfl
  | cons c front ih =>
    -- a colon does not end the host here, and another opening bracket changes nothing
    obtain ⟨noClose, later⟩ := List.ne_and_not_mem_of_not_mem_cons plain
    rw [List.cons_append, cutHost, if_neg (by simp)]
    dsimp only
    rw [if_neg (Ne.symm noClose), ite_self, ih later]
    rfl

theorem cutHost_stop {back : List Char} (stop : ∀ c ∈ back.head?, c = ':') :
    cutHost false back = ([], back) := by
  cases back with
  | nil => rfl
  | cons c back =>
    obtain rfl := stop c rfl
    rfl

theorem PlainHost.cut {host : Host} (plain : PlainHost host) {back : List Char}
    (stop : ∀ c ∈ back.head?, c = ':') : cutHost false (host.text ++ back) = (host.text, back) := by
  cases plain with
  | empty => exact cutHost_stop stop
  | name present kept allowed =>
    rw [Host.text, cutHost_outside ?_, cutHost_stop stop, List.append_nil]
    intro c member
    refine ⟨?_, ?_, ?_⟩ <;> rintro rfl <;> cases allowed _ member
  | @ipv6 pieces =>
    have inside : ']' ∉ ipv6Text pieces := fun member => by
      cases List.mem_cons.mp (mem_ipv6Text _ member) with
      | inl same => cases same
      | inr digit => revert digit; decide
    rw [Host.text, List.cons_append, List.cons_append, List.append_assoc, List.singleton_append,
      cutHost, if_neg (by decide)]
    dsimp only
    rw [if_pos rfl, cutHost_inside inside, cutHost_stop stop]

theorem PlainHost.read {host : Host} (plain : PlainHost host) : plainHost host.text = .ok host := by
  cases plain with
  | empty => rfl
  | @name text present kept allowed =>
    have start : text.head? ≠ some '[' := fun head => by
      cases allowed '[' (List.mem_of_mem_head? head)
    have legal : ¬text.any isForbidden = true := by simpa using allowed
    rw [Host.text, plainHost, if_neg start, if_neg legal, if_neg (by simpa using present),
      encode_kept kept]
  | @ipv6 pieces eight small =>
    have last : ('[' :: ipv6Text pieces ++ [']']).getLast? = some ']' :=
      List.getLast?_concat
    have inner : (('[' :: ipv6Text pieces ++ [']']).drop 1).dropLast = ipv6Text pieces := by simp
    rw [Host.text, plainHost, if_pos (by simp), bracketed, if_pos ⟨last, by simp⟩, inner,
      ipv6?_text eight small]

/-- Neither the authority nor the user information ends within a host. -/
theorem PlainHost.inside {host : Host} (plain : PlainHost host) :
    Inside ['@', '/', '?', '#'] host.text := by
  cases plain with
  | empty => exact .nil
  | name present kept allowed =>
    intro c member
    have ok := allowed c member
    constructor
    -- controls have been encoded, and a blank is forbidden
    · refine lt_of_not_ge fun low => ?_
      obtain below | rfl := lt_or_eq_of_le low
      · have control : isControl c = true := by simp [isControl, below]
        exact kept.lacks control member
      · cases ok
    · intro ends
      have all : ['@', '/', '?', '#'].all isForbidden = true := by decide
      cases ok.symm.trans (List.all_eq_true.mp all c ends)
  | @ipv6 pieces =>
    have all : Inside ['@', '/', '?', '#'] (':' :: hexDigits) := inside_of_all (by decide)
    have text : Inside ['@', '/', '?', '#'] (ipv6Text pieces) := fun c member =>
      all c (mem_ipv6Text c member)
    exact ((inside_of_all (by decide)).cons text).append (inside_of_all (by decide))

/-! ## User information -/

/-- The user information of a URL as it is kept. -/
structure KeptUserinfo (username : List Char) (password : Option (List Char)) : Prop where
  username : Kept userinfoSet username
  password : ∀ p, password = some p → p ≠ [] ∧ Kept userinfoSet p

theorem readUserinfo_kept (cs : List Char) :
    KeptUserinfo (readUserinfo cs).1 (readUserinfo cs).2 := by
  have encoded (cs : List Char) := kept_encode spares_userinfoSet cs
  unfold readUserinfo
  split
  next => exact ⟨encoded _, nofun⟩
  next => exact ⟨encoded _, nofun⟩
  next user colon password present _ =>
    refine ⟨encoded _, ?_⟩
    intro p same
    cases same
    exact ⟨encode_ne_nil present, encoded _⟩

theorem splitUserinfo_at (user : List Char) {host : List Char} (lacks : '@' ∉ host) :
    splitUserinfo (user ++ '@' :: host) = (some user, host) := by
  have turned : '@' ∉ host.reverse := fun member => lacks (List.mem_reverse.mp member)
  have split : (user ++ '@' :: host).reverse = host.reverse ++ '@' :: user.reverse := by simp
  rw [splitUserinfo, split, span_at turned]
  dsimp only
  rw [List.reverse_reverse, List.reverse_reverse]

theorem splitUserinfo_none {cs : List Char} (lacks : '@' ∉ cs) :
    splitUserinfo cs = (none, cs) := by
  have turned : '@' ∉ cs.reverse := fun member => lacks (List.mem_reverse.mp member)
  rw [splitUserinfo, span_without turned]

theorem readUserinfo_user {user : List Char} (lacks : ':' ∉ user) :
    readUserinfo user = (encode userinfoSet user, none) := by
  rw [readUserinfo, span_without lacks]

theorem readUserinfo_both {user password : List Char} (lacks : ':' ∉ user)
    (present : password ≠ []) : readUserinfo (user ++ ':' :: password) =
      (encode userinfoSet user, some (encode userinfoSet password)) := by
  obtain ⟨c, cs, rfl⟩ := List.exists_cons_of_ne_nil present
  rw [readUserinfo, span_at lacks]

/-- What stands before the host is read as the user information that it was written for. -/
theorem userinfo_read {url : Url} (kept : KeptUserinfo url.username url.password)
    {host : List Char} (lacks : '@' ∉ host) :
    ∃ userinfo, splitUserinfo (url.userinfoText ++ host) = (userinfo, host) ∧
      userinfo ≠ some [] ∧ readUserinfo (userinfo.getD []) = (url.username, url.password) := by
  have bare : ':' ∉ url.username := kept.username.lacks rfl
  unfold userinfoText
  split
  next p same =>
    obtain ⟨present, kept'⟩ := kept.password p same
    refine ⟨some (url.username ++ ':' :: p), ?_, ?_, ?_⟩
    · rw [List.append_assoc, List.singleton_append, splitUserinfo_at _ lacks]
    · simp
    · rw [same, Option.getD_some, readUserinfo_both bare present, encode_kept kept.username,
        encode_kept kept']
  next same =>
    split
    next empty =>
      -- nothing is written, and nothing in the host is taken for user information
      have nothing : url.username = [] := by simpa using empty
      refine ⟨none, splitUserinfo_none lacks, nofun, ?_⟩
      rw [same, nothing]
      rfl
    next present =>
      refine ⟨some url.username, ?_, ?_, ?_⟩
      · rw [List.append_assoc, List.singleton_append, splitUserinfo_at _ lacks]
      · simpa using present
      · rw [same, Option.getD_some, readUserinfo_user bare, encode_kept kept.username]

theorem userinfo_inside {url : Url} (kept : KeptUserinfo url.username url.password) :
    Inside ['/', '?', '#'] url.userinfoText := by
  have user : Inside ['/', '?', '#'] url.username :=
    kept.username.inside userinfoSet_blank (by decide)
  have mark : Inside ['/', '?', '#'] ['@'] := inside_of_all (by decide)
  unfold userinfoText
  split
  next p same =>
    have password : Inside ['/', '?', '#'] p :=
      (kept.password p same).2.inside userinfoSet_blank (by decide)
    exact (user.append (.cons (inside_of_all (by decide)) password)).append mark
  next =>
    split
    next => exact .nil
    next => exact user.append mark

/-! ## Ports -/

theorem defaultPort_plain {scheme : List Char} (plain : SchemeKind.of scheme = .plain) :
    defaultPort scheme = none := by
  unfold SchemeKind.of at plain
  split at plain
  next => cases plain
  next =>
    split at plain
    next => cases plain
    next other =>
      simp only [List.any_cons, List.any_nil, Bool.or_false, Bool.or_eq_true, decide_eq_true_eq,
        not_or] at other
      obtain ⟨http, https, ws, wss, ftp⟩ := other
      rw [defaultPort, if_neg (not_or.mpr ⟨http, ws⟩), if_neg (not_or.mpr ⟨https, wss⟩), if_neg ftp]

theorem readPort_text {url : Url} (plain : SchemeKind.of url.scheme = .plain)
    (fits : ∀ n, url.port = some n → n ≤ 65535) :
    readPort url.scheme url.portText = .ok (url.port, []) := by
  unfold portText
  split
  next n same =>
    have present := Decimal.digits_ne_nil n
    have digits := Decimal.isDigit_digits n
    rw [readPort, List.takeWhile_eq_self_iff.mpr digits, List.dropWhile_eq_nil_iff.mpr digits,
      Decimal.value_digits, if_neg (Nat.not_lt.mpr (fits n same)), if_neg (by decide),
      defaultPort_plain plain, if_neg (by simpa using present), same]
  next same =>
    rw [same]
    rfl

theorem readPort_fits {scheme cs rest : List Char} {port : Option Nat}
    (read : readPort scheme cs = .ok (port, rest)) : ∀ n, port = some n → n ≤ 65535 := by
  unfold readPort at read
  split at read
  next =>
    dsimp only at read
    split at read
    next => cases read
    next fits =>
      split at read
      next => cases read
      next =>
        split at read
        next => cases read; exact nofun
        next =>
          cases read
          rintro n ⟨⟩
          exact Nat.le_of_not_lt fits
  next => cases read; exact nofun

theorem portText_inside (url : Url) : Inside ['@', '/', '?', '#'] url.portText := by
  unfold portText
  split
  next n _ =>
    refine .cons (inside_of_all (by decide)) fun c member => ?_
    have digit := Decimal.isDigit_digits n c member
    constructor
    · simp only [Char.isDigit, Bool.and_eq_true, decide_eq_true_eq] at digit
      exact lt_of_lt_of_le (by decide : ' ' < '0') digit.1
    · intro ends
      have all : ['@', '/', '?', '#'].all (fun c => !c.isDigit) = true := by decide
      simpa [digit] using List.all_eq_true.mp all c ends
  next => exact .nil

/-! ## Path, query and fragment -/

/-- The segments that following a path leaves. -/
def KeptSegment (segment : List Char) : Prop :=
  Kept pathSet segment ∧ '/' ∉ segment ∧ isSingleDot segment = false ∧ isDoubleDot segment = false

theorem keptSegment_nil : KeptSegment [] := ⟨nofun, nofun, by decide, by decide⟩

theorem mem_shorten {kept : List (List Char)} {segment : List Char}
    (member : segment ∈ shorten kept) : segment ∈ kept := by
  unfold shorten at member
  split at member
  next =>
    split at member
    next => exact member
    next => exact List.mem_of_mem_dropLast member
  next => cases member

def isDots (segment : List Char) : Bool := isDoubleDot segment || isSingleDot segment

/-- One step along a path. -/
def placed (kept : List (List Char)) (segment : List Char) : List (List Char) :=
  if isDoubleDot segment then shorten kept
  else if isSingleDot segment then kept
  else kept ++ [segment]

theorem placed_of_not_dots {segment : List Char} (kept : List (List Char))
    (plain : isDots segment = false) : placed kept segment = kept ++ [segment] := by
  rw [isDots, Bool.or_eq_false_iff] at plain
  rw [placed, if_neg (by simp [plain.1]), if_neg (by simp [plain.2])]

theorem follow_cons (kept : List (List Char)) (segment : List Char) {rest : List (List Char)}
    (more : rest ≠ []) :
    follow .plain kept (segment :: rest) = follow .plain (placed kept segment) rest := by
  rw [follow, placed]
  · split
    next => rfl
    next => split <;> rfl
  · exact more

/-- Dots at the end leave an empty segment behind. -/
theorem follow_last (kept : List (List Char)) (segment : List Char) :
    follow .plain kept [segment] = placed kept segment ++ if isDots segment then [[]] else [] := by
  rw [follow, placed, isDots]
  cases isDoubleDot segment with
  | true => rfl
  | false =>
    cases isSingleDot segment with
    | true => rfl
    | false => exact (List.append_nil _).symm

theorem placed_kept {kept : List (List Char)} {segment : List Char}
    (before : ∀ other ∈ kept, KeptSegment other) (pure : Kept pathSet segment)
    (noSlash : '/' ∉ segment) : ∀ other ∈ placed kept segment, KeptSegment other := by
  unfold placed
  split
  next => exact fun other member => before other (mem_shorten member)
  next double =>
    split
    next => exact before
    next single =>
      exact List.forall_mem_append.mpr ⟨before, List.forall_mem_singleton.mpr
        ⟨pure, noSlash, Bool.eq_false_iff.mpr single, Bool.eq_false_iff.mpr double⟩⟩

theorem follow_kept {kept parts : List (List Char)} (before : ∀ segment ∈ kept, KeptSegment segment)
    (encoded : ∀ part ∈ parts, Kept pathSet part ∧ '/' ∉ part) :
    ∀ segment ∈ follow .plain kept parts, KeptSegment segment := by
  -- the segments before a part are any that have been kept, so that dots may take the last away
  induction parts generalizing kept with
  | nil => rwa [follow]
  | cons segment rest ih =>
    obtain ⟨⟨pure, noSlash⟩, later⟩ := List.forall_mem_cons.mp encoded
    have here := placed_kept before pure noSlash
    by_cases more : rest = []
    · subst more
      rw [follow_last]
      refine List.forall_mem_append.mpr ⟨here, ?_⟩
      split
      next => exact List.forall_mem_singleton.mpr keptSegment_nil
      next => exact nofun
    · rw [follow_cons kept segment more]
      exact ih here later

/-- Segments without dots are followed one by one. -/
theorem follow_plain {kept parts : List (List Char)}
    (segments : ∀ segment ∈ parts, isDots segment = false) :
    follow .plain kept parts = kept ++ parts := by
  induction parts generalizing kept with
  | nil => rw [follow, List.append_nil]
  | cons segment rest ih =>
    obtain ⟨plain, later⟩ := List.forall_mem_cons.mp segments
    by_cases more : rest = []
    · subst more
      rw [follow_last, placed_of_not_dots kept plain, plain]
      exact List.append_nil _
    · rw [follow_cons kept segment more, placed_of_not_dots kept plain, ih later, List.append_assoc,
        List.singleton_append]

theorem KeptSegment.not_dots {segment : List Char} (kept : KeptSegment segment) :
    isDots segment = false := by
  rw [isDots, kept.2.2.1, kept.2.2.2, Bool.or_false]

/-- The path of a URL with a host, as it is kept. -/
def KeptPath (path : Path) : Prop :=
  ∃ list, path = .segments list ∧ ∀ segment ∈ list, KeptSegment segment

theorem readSegments_plain (cs : List Char) : readSegments .plain cs =
    follow .plain [] ((splitOn (· = '/') cs).map (encode pathSet)) := by
  simp [readSegments, SchemeKind.isSpecial]

theorem encoded_kept (cs : List Char) : ∀ part ∈ (splitOn (· = '/') cs).map (encode pathSet),
    Kept pathSet part ∧ '/' ∉ part := by
  intro part member
  obtain ⟨raw, inside, rfl⟩ := List.mem_map.mp member
  refine ⟨kept_encode spares_pathSet raw, fun slash => ?_⟩
  obtain here | escape := mem_encode slash
  · have separates := (mem_splitOn inside _ here).2
    simp at separates
  · revert escape
    decide

theorem readSegments_kept (cs : List Char) :
    ∀ segment ∈ readSegments .plain cs, KeptSegment segment := by
  rw [readSegments_plain]
  exact follow_kept nofun (encoded_kept cs)

theorem readPath_kept (cs : List Char) : KeptPath (readPath .plain cs) := by
  unfold readPath
  split
  next => exact ⟨_, rfl, nofun⟩
  next => exact ⟨_, rfl, readSegments_kept _⟩
  next => exact ⟨_, rfl, readSegments_kept _⟩
  next special => exact absurd rfl special
  next special => exact absurd rfl special

theorem readPath_text {path : Path} (kept : KeptPath path) : readPath .plain path.text = path := by
  obtain ⟨list, rfl, segments⟩ := kept
  cases list with
  | nil => rfl
  | cons segment rest =>
    have plain : ∀ part ∈ segment :: rest, ∀ c ∈ part,
        (decide (c = '/') || (SchemeKind.plain.isSpecial && decide (c = '\\'))) = false := by
      intro part member c inside
      have other := ne_of_mem_of_not_mem inside (segments part member).2.1
      simp [other, SchemeKind.isSpecial]
    have split := splitOn_flatMap (c := '/') rfl plain
    rw [List.flatMap_cons, List.cons_append, splitOn_separator rfl] at split
    have same : (segment :: rest).map (encode pathSet) = segment :: rest :=
      (List.map_congr_left fun part member => encode_kept (segments part member).1).trans
        (List.map_id _)
    rw [Path.text, List.flatMap_cons, List.cons_append, readPath, readSegments,
      (List.cons.inj split).2, same,
      follow_plain fun part member => (segments part member).not_dots, List.nil_append]

theorem path_inside {path : Path} (kept : KeptPath path) : Inside ['?', '#'] path.text := by
  obtain ⟨list, rfl, segments⟩ := kept
  intro c member
  obtain ⟨segment, inside, member⟩ := List.mem_flatMap.mp member
  have pure : Inside ['?', '#'] segment :=
    (segments segment inside).1.inside pathSet_blank (by decide)
  exact Inside.cons (inside_of_all (by decide)) pure c member

theorem path_start {path : Path} (kept : KeptPath path) : ∀ c ∈ path.text.head?, c = '/' := by
  obtain ⟨list, rfl, -⟩ := kept
  cases list with
  | nil => exact nofun
  | cons segment rest => simp [Path.text]

theorem span_marked {mark : Char} {cs : List Char} (lacks : mark ∉ cs)
    (part : Option (List Char)) :
    (cs ++ marked mark part).span (· ≠ mark) = (cs, marked mark part) := by
  cases part with
  | none =>
    rw [marked, List.append_nil]
    exact span_without lacks
  | some part => exact span_at lacks part

theorem cutTail_text {path : List Char} {query fragment : Option (List Char)}
    (noQuery : '?' ∉ path) (noFragment : '#' ∉ path)
    (whole : ∀ q, query = some q → '#' ∉ q) :
    cutTail (path ++ marked '?' query ++ marked '#' fragment) = (path, query, fragment) := by
  have front : '#' ∉ path ++ marked '?' query := by
    cases query with
    | none => simpa [marked] using noFragment
    | some q => simpa [marked] using ⟨noFragment, whole q rfl⟩
  have atQuery := span_marked noQuery query
  rw [cutTail, span_marked front]
  cases fragment <;> cases query <;> simp only [marked] at atQuery ⊢ <;> rw [atQuery]

end TableExport.Url
