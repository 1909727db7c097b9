import Mathlib
import TableExport.Proofs.Url.Rereading

/-!
# Names in paths

A path is decoded segment by segment. Dot segments are taken out of it, it ends at a question or
number sign, and what is trimmed or left out of the whole URL is missing in it as well. Each of
these makes it shorter, and so does an escape in decoding it. So what is put in as a path is decoded
from it exactly if nothing of this happens.
-/
namespace TableExport.Url

/-! ## Segments -/

/-- The bytes of segments that stand after a slash each. -/
def segmentBytes (segments : List (List Char)) : Bytes :=
  segments.flatMap fun segment => 0x2f :: decode segment

theorem segmentBytes_cons (segment : List Char) (rest : List (List Char)) :
    segmentBytes (segment :: rest) = 0x2f :: decode segment ++ segmentBytes rest :=
  List.flatMap_cons

theorem decode_slash (cs : List Char) : decode ('/' :: cs) = 0x2f :: decode cs := by
  rw [decode_cons]
  · rfl
  · rintro ⟨_, _, _, _, _, same, -⟩
    cases same

theorem decode_segments (segments : List (List Char)) :
    decode (segments.flatMap ('/' :: ·)) = segmentBytes segments := by
  induction segments with
  | nil => rfl
  | cons segment rest ih =>
    -- a slash is no digit, so no escape goes on from one segment into the next
    have stop : ∀ c ∈ (rest.flatMap ('/' :: ·)).head?, hexValue? c = none := by
      cases rest with
      | nil => exact nofun
      | cons => simp [hexValue?]
    rw [List.flatMap_cons, List.cons_append, decode_slash, decode_append stop, ih,
      segmentBytes_cons, List.cons_append]

theorem segmentBytes_encode (segments : List (List Char)) :
    segmentBytes (segments.map (encode pathSet)) = segmentBytes segments := by
  simp only [segmentBytes, List.flatMap_map, decode_encode spares_pathSet]

theorem segmentBytes_splitOn (cs : List Char) :
    segmentBytes (splitOn (· = '/') cs) = 0x2f :: decode cs := by
  rw [← decode_segments, flatMap_splitOn, decode_slash]

/-! ## Dot segments -/

theorem mem_of_toLower {c d : Char} (lower : c.toLower = d) : c ∈ [d, d.toUpper] := by
  subst lower
  by_cases capital : c.val ≥ 'A'.val ∧ c.val ≤ 'Z'.val
  · have small : c.toNat < 128 := lt_of_le_of_lt (UInt32.le_iff_toNat_le.mp capital.2) (by decide)
    have all : ∀ n < 128,
        Char.ofNat n ∈ [(Char.ofNat n).toLower, (Char.ofNat n).toLower.toUpper] := by
      decide
    have found := all c.toNat small
    rwa [Char.ofNat_toNat] at found
  · rw [Char.toLower, dif_neg capital]
    exact List.mem_cons_self

/-- The texts that have a lower-case text. -/
theorem mem_of_lower {cs ds : List Char} (lower : cs.map Char.toLower = ds) :
    cs ∈ (ds.map fun d => [d, d.toUpper]).sections := by
  subst lower
  rw [List.mem_sections, List.map_map, List.forall₂_map_right_iff]
  exact List.forall₂_same.mpr fun c _ => mem_of_toLower rfl

theorem decode_singleDot {segment : List Char} (single : isSingleDot segment = true) :
    decode segment = [0x2e] := by
  have all : ∀ cs ∈ ("%2e".toList.map fun d => [d, d.toUpper]).sections, decode cs = [0x2e] := by
    decide
  simp only [isSingleDot, Bool.or_eq_true, decide_eq_true_eq] at single
  obtain rfl | lower := single
  · rfl
  · exact all _ (mem_of_lower lower)

theorem decode_doubleDot {segment : List Char} (double : isDoubleDot segment = true) :
    decode segment = [0x2e, 0x2e] := by
  have all : ∀ dots ∈ ["..", "%2e.", ".%2e", "%2e%2e"],
      ∀ cs ∈ (dots.toList.map fun d => [d, d.toUpper]).sections, decode cs = [0x2e, 0x2e] := by
    decide
  obtain ⟨dots, listed, lower⟩ := List.any_eq_true.mp double
  exact all dots listed _ (mem_of_lower (of_decide_eq_true lower))

theorem shorten_sublist (segments : List (List Char)) : (shorten segments).Sublist segments := by
  unfold shorten
  split
  next =>
    split
    next => exact List.Sublist.refl _
    next => exact (List.dropLast_prefix _).sublist
  next => exact List.nil_sublist _

theorem decode_dots {segment : List Char} (dots : isDots segment = true) :
    decode segment = [0x2e, 0x2e] ∨ decode segment = [0x2e] := by
  obtain double | single := Bool.or_eq_true_iff.mp dots
  · exact .inl (decode_doubleDot double)
  · exact .inr (decode_singleDot single)

theorem segmentBytes_concat (kept : List (List Char)) (segment : List Char) :
    (segmentBytes (kept ++ [segment])).length =
      (segmentBytes kept).length + (decode segment).length + 1 := by
  simp [segmentBytes, Nat.add_assoc]

theorem segmentBytes_placed (kept : List (List Char)) {segment : List Char}
    (dots : isDots segment = true) :
    (segmentBytes (placed kept segment)).length ≤ (segmentBytes kept).length := by
  unfold placed
  split
  next => exact ((shorten_sublist kept).flatMap _).length_le
  next double =>
    rw [isDots, Bool.eq_false_iff.mpr double, Bool.false_or] at dots
    rw [if_pos dots]

/-- Following a path makes it shorter by a byte at least for each dot segment. -/
theorem follow_length (kept parts : List (List Char)) :
    (segmentBytes (follow .plain kept parts)).length + parts.countP isDots ≤
      (segmentBytes kept).length + (segmentBytes parts).length := by
  induction parts generalizing kept with
  | nil => simp [follow, segmentBytes]
  | cons segment rest ih =>
    have later := ih (placed kept segment)
    have bytes : (segmentBytes (segment :: rest)).length =
        (decode segment).length + 1 + (segmentBytes rest).length := by
      rw [segmentBytes_cons, List.length_append, List.length_cons]
    rw [bytes, List.countP_cons]
    cases dots : isDots segment with
    | false =>
      -- a segment without dots is kept as it is
      rw [placed_of_not_dots kept dots, segmentBytes_concat] at later
      have same : follow .plain kept (segment :: rest) =
          follow .plain (kept ++ [segment]) rest := by
        by_cases more : rest = []
        · rw [more, follow_last, placed_of_not_dots kept dots, dots, follow]
          exact List.append_nil _
        · rw [follow_cons kept segment more, placed_of_not_dots kept dots]
      rw [same, if_neg (by decide)]
      omega
    | true =>
      have shorter := segmentBytes_placed kept dots
      have some : 1 ≤ (decode segment).length := by
        obtain two | one := decode_dots dots
        · simp [two]
        · simp [one]
      by_cases more : rest = []
      · -- the empty segment that is left has fewer bytes than the dots
        have empty : (decode []).length = 0 := rfl
        rw [more, follow_last, if_pos dots, if_pos rfl, segmentBytes_concat, List.countP_nil]
        omega
      · rw [follow_cons kept segment more, if_pos rfl]
        omega

theorem dots_encode {segment : List Char} (plain : ¬HasEscape segment)
    (dots : isDots (encode pathSet segment) = true) : segment = ['.'] ∨ segment = ['.', '.'] := by
  have bytes : decode (encode pathSet segment) = segment.flatMap String.utf8EncodeChar := by
    have same := (decode_eq_iff (String.ofList segment)).mpr
    rw [Utf8.ofText_eq, String.toList_ofList] at same
    rw [decode_encode spares_pathSet, same plain]
  obtain two | one := decode_dots dots
  · rw [two] at bytes
    exact .inr (@Utf8.encode_injective segment ['.', '.'] bytes.symm)
  · rw [one] at bytes
    exact .inl (@Utf8.encode_injective segment ['.'] bytes.symm)

theorem not_hasEscape_segment {cs segment : List Char} (plain : ¬HasEscape cs)
    (member : segment ∈ splitOn (· = '/') cs) : ¬HasEscape segment := by
  intro escape
  obtain ⟨front, back, split⟩ := List.append_of_mem member
  have whole := flatMap_splitOn '/' cs
  rw [split, List.flatMap_append, List.flatMap_cons, List.cons_append, List.append_cons,
    ← List.append_assoc] at whole
  exact plain ((whole ▸ escape.within _ _).of_cons (by decide))

/-! ## Names -/

/-- A text that is a path of its own: nothing in it is trimmed or left out, ends a path, is an
escape or a dot segment. -/
structure PathName (cs : List Char) : Prop where
  last : ∀ c ∈ cs.getLast?, ' ' < c
  inside : ∀ c ∈ cs, c ∉ ['\t', '\n', '\r', '?', '#']
  plain : ¬HasEscape cs
  segments : ['.'] ∉ splitOn (· = '/') cs ∧ ['.', '.'] ∉ splitOn (· = '/') cs

/-- The text up to a question or number sign. -/
def pathFront (cs : List Char) : List Char := (cs.takeWhile (· ≠ '#')).takeWhile (· ≠ '?')

theorem cutTail_path (cs : List Char) : (cutTail cs).1 = pathFront cs := by
  rw [cutTail, pathFront, List.span_eq_takeWhile_dropWhile]
  -- the text before a number sign is the front, whether there is a sign or not
  cases cs.dropWhile (· ≠ '#')
  all_goals
    dsimp only
    rw [List.span_eq_takeWhile_dropWhile]
    cases (cs.takeWhile (· ≠ '#')).dropWhile (· ≠ '?') <;> rfl

theorem cutTail_slash (cs : List Char) : (cutTail ('/' :: cs)).1 = '/' :: pathFront cs := by
  rw [cutTail_path, pathFront, List.takeWhile_cons_of_pos (by decide),
    List.takeWhile_cons_of_pos (by decide), pathFront]

theorem decode_readPath (front : List Char) : decode (readPath .plain ('/' :: front)).text =
    segmentBytes (follow .plain [] ((splitOn (· = '/') front).map (encode pathSet))) := by
  rw [readPath, readSegments_plain, Path.text, decode_segments]

theorem cleanedEnd_sublist (cs : List Char) : (cleanedEnd cs).Sublist (cs.rdropWhile (· ≤ ' ')) :=
  List.filter_sublist

theorem pathFront_sublist (cs : List Char) : (pathFront cs).Sublist cs :=
  (List.takeWhile_sublist _).trans (List.takeWhile_sublist _)

section Ends
variable {cs : List Char}

theorem PathName.cleanedEnd (name : PathName cs) : cleanedEnd cs = cs := by
  have trimmed := @Text.rdropWhile_eq (· ≤ ' ') cs fun c last =>
    decide_eq_false (not_le.mpr (name.last c last))
  rw [Url.cleanedEnd, trimmed, List.filter_eq_self]
  intro c member
  have inside := name.inside c member
  simp only [List.mem_cons, not_or] at inside
  simp [isSkipped, inside]

theorem PathName.cutTail (name : PathName cs) :
    cutTail ('/' :: Url.cleanedEnd cs) = ('/' :: cs, none, none) := by
  have lacks {c : Char} (stop : c ∈ ['?', '#']) : c ∉ '/' :: cs := by
    intro member
    obtain rfl | inside := List.mem_cons.mp member
    · revert stop
      decide
    · exact name.inside c inside (List.mem_append_right ['\t', '\n', '\r'] stop)
  have whole := @cutTail_text ('/' :: cs) none none (lacks (by decide)) (lacks (by decide)) nofun
  rw [name.cleanedEnd]
  simpa [marked] using whole

/-- A text of which the whole is left has nothing at its end or inside that would be lost. -/
theorem lost_of_front (whole : pathFront (cleanedEnd cs) = cs) :
    (∀ c ∈ cs.getLast?, ' ' < c) ∧ ∀ c ∈ cs, c ∉ ['\t', '\n', '\r', '?', '#'] := by
  have kept : cs.Sublist (cleanedEnd cs) := by
    have front := pathFront_sublist (cleanedEnd cs)
    rwa [whole] at front
  have trimmed : cs.rdropWhile (· ≤ ' ') = cs :=
    (List.rdropWhile_prefix _ _).sublist.antisymm (kept.trans (cleanedEnd_sublist cs))
  constructor
  · intro c last
    rw [← trimmed] at last
    exact not_le.mp (of_decide_eq_false (Text.last_rdropWhile cs c last))
  · intro c member
    have visible := (List.mem_filter.mp (kept.subset member)).2
    rw [← whole, pathFront] at member
    have noQuery := List.mem_takeWhile_imp member
    have noFragment := List.mem_takeWhile_imp ((List.takeWhile_sublist _).subset member)
    simp [isSkipped] at visible noQuery noFragment
    simp [visible, noQuery, noFragment]

end Ends

theorem segments_of_follow {cs : List Char}
    (none : ((splitOn (· = '/') cs).map (encode pathSet)).countP isDots = 0) :
    ['.'] ∉ splitOn (· = '/') cs ∧ ['.', '.'] ∉ splitOn (· = '/') cs := by
  have lacks {segment : List Char} (dots : isDots (encode pathSet segment) = true) :
      segment ∉ splitOn (· = '/') cs := fun member =>
    List.countP_eq_zero.mp none _ (List.mem_map_of_mem member) dots
  exact ⟨lacks (by decide), lacks (by decide)⟩

theorem PathName.follow {cs : List Char} (name : PathName cs) :
    follow .plain [] ((splitOn (· = '/') cs).map (encode pathSet)) =
      (splitOn (· = '/') cs).map (encode pathSet) := by
  refine follow_plain (List.forall_mem_map.mpr fun segment inside => ?_)
  refine Bool.eq_false_iff.mpr fun dots => ?_
  obtain rfl | rfl := dots_encode (not_hasEscape_segment name.plain inside) dots
  · exact name.segments.1 inside
  · exact name.segments.2 inside

/-- What is decoded from the path that is read from a text is the text exactly if it is a path of
its own. -/
theorem decode_path_iff (text : String) :
    decode (readPath .plain (cutTail ('/' :: cleanedEnd text.toList)).1).text =
      0x2f :: Bytes.ofText text ↔ PathName text.toList := by
  have plain := decode_eq_iff text
  rw [Utf8.ofText_eq] at plain ⊢
  generalize text.toList = cs at plain ⊢
  constructor
  · rw [cutTail_slash, decode_readPath]
    intro same
    have short := ((pathFront_sublist _).trans (cleanedEnd_sublist cs)).trans
      (List.rdropWhile_prefix _ _).sublist
    have lost := @lost_of_front cs
    generalize pathFront (cleanedEnd cs) = front at same short lost
    -- each way to lose something makes the path shorter
    have bytes := congrArg List.length same
    have dots := follow_length [] ((splitOn (· = '/') front).map (encode pathSet))
    have encoded := (short.flatMap String.utf8EncodeChar).length_le
    obtain ⟨most, fewer⟩ := decode_length front
    have nothing : (segmentBytes []).length = 0 := rfl
    rw [segmentBytes_encode, segmentBytes_splitOn, nothing] at dots
    simp only [List.length_cons] at bytes dots
    obtain rfl : front = cs :=
      Utf8.encode_injective ((short.flatMap _).eq_of_length_le (by omega))
    obtain ⟨last, inside⟩ := lost rfl
    have noEscape : ¬HasEscape front := fun escape => by
      have := fewer escape
      omega
    exact ⟨last, inside, noEscape, segments_of_follow (by omega)⟩
  · intro name
    rw [name.cutTail, decode_readPath, name.follow, segmentBytes_encode, segmentBytes_splitOn,
      plain.mpr name.plain]

/-- What is read as a path from such a text is the text behind a slash. -/
theorem PathName.exists_text {text : String} (name : PathName text.toList) :
    ∃ rest, (readPath .plain ('/' :: text.toList)).text = '/' :: rest ∧
      decode rest = Bytes.ofText text := by
  have decoded := (decode_path_iff text).mpr name
  rw [name.cutTail] at decoded
  have start := path_start (readPath_kept ('/' :: text.toList))
  cases path : (readPath .plain ('/' :: text.toList)).text with
  | nil =>
    rw [path] at decoded
    cases decoded
  | cons c rest =>
    rw [path] at decoded start
    obtain rfl := start c rfl
    rw [decode_slash] at decoded
    exact ⟨rest, rfl, (List.cons.inj decoded).2⟩

end TableExport.Url
