import Mathlib
import TableExport.Proofs.Traversals
import TableExport.Proofs.Url.Cuts
import TableExport.Proofs.Url.Percent

/-!
# Version 6 addresses

An address is written with its longest run of zeros left out, and is read back from that. A group
of digits is read as the number that it was written for; the empty group that marks the gap
stands for one zero, and the others are filled in behind it.
-/
namespace TableExport.Url

/-! ## Groups of digits -/

theorem hexValue?_digitChar : ∀ d < 16, hexValue? (Nat.digitChar d) = some d := by decide

theorem hexValue?_lt {c : Char} {n : Nat} (digit : hexValue? c = some n) : n < 16 := by
  have all : hexDigits.all (fun c => ((hexValue? c).getD 0) < 16) = true := by decide
  simpa [digit] using List.all_eq_true.mp all c (mem_hexDigits digit)

theorem radix?_iff {cs : List Char} {n : Nat} : radix? 16 cs = some n ↔
    ∃ ds, cs.mapM hexValue? = some ds ∧ ds.foldl (fun n d => n * 16 + d) 0 = n := by
  have each : (fun c => (hexValue? c).filter (· < 16)) = hexValue? := by
    funext c
    cases digit : hexValue? c with
    | none => rfl
    | some d => simp [hexValue?_lt digit]
  rw [radix?, each, Option.map_eq_some_iff]

theorem radix?_concat {cs : List Char} {n d : Nat} {c : Char} (front : radix? 16 cs = some n)
    (digit : hexValue? c = some d) : radix? 16 (cs ++ [c]) = some (n * 16 + d) := by
  obtain ⟨ds, digits, rfl⟩ := radix?_iff.mp front
  refine radix?_iff.mpr ⟨ds ++ [d], ?_, by rw [List.foldl_append]; rfl⟩
  simp [List.mapM_append, digits, digit]

theorem radix?_toDigits (n : Nat) : radix? 16 (Nat.toDigits 16 n) = some n := by
  induction n using Nat.strong_induction_on with
  | _ n ih =>
    by_cases small : n < 16
    · rw [Nat.toDigits_of_lt_base small]
      exact radix?_iff.mpr ⟨[n], by simp [hexValue?_digitChar n small], by simp⟩
    · have large : 16 ≤ n := Nat.le_of_not_lt small
      rw [Nat.toDigits_of_base_le (by decide) large]
      rw [radix?_concat (ih (n / 16) (Nat.div_lt_self (by omega) (by decide)))
        (hexValue?_digitChar _ (Nat.mod_lt _ (by decide)))]
      exact congrArg some (by omega)

theorem mapM_hexValue? {cs : List Char} {ds : List Nat} (read : cs.mapM hexValue? = some ds) :
    ds.length = cs.length ∧ (∀ c ∈ cs, c ∈ hexDigits) ∧ ∀ d ∈ ds, d < 16 := by
  induction mapM_some_iff.mp read with
  | nil => exact ⟨rfl, nofun, nofun⟩
  | cons digit later ih =>
    obtain ⟨length, chars, small⟩ := ih (mapM_some_iff.mpr later)
    exact ⟨congrArg (· + 1) length, List.forall_mem_cons.mpr ⟨mem_hexDigits digit, chars⟩,
      List.forall_mem_cons.mpr ⟨hexValue?_lt digit, small⟩⟩

theorem foldl_lt {ds : List Nat} (small : ∀ d ∈ ds, d < 16) (n : Nat) :
    ds.foldl (fun n d => n * 16 + d) n < (n + 1) * 16 ^ ds.length := by
  induction ds generalizing n with
  | nil => simp
  | cons d ds ih =>
    obtain ⟨here, later⟩ := List.forall_mem_cons.mp small
    calc (d :: ds).foldl (fun n d => n * 16 + d) n
      _ < (n * 16 + d + 1) * 16 ^ ds.length := ih later _
      _ ≤ ((n + 1) * 16) * 16 ^ ds.length := Nat.mul_le_mul_right _ (by omega)
      _ = (n + 1) * 16 ^ (d :: ds).length := by rw [List.length_cons, Nat.pow_succ', Nat.mul_assoc]

theorem radix?_lt {cs : List Char} {n : Nat} (read : radix? 16 cs = some n)
    (short : cs.length ≤ 4) : n < 65536 := by
  obtain ⟨ds, digits, rfl⟩ := radix?_iff.mp read
  obtain ⟨length, -, small⟩ := mapM_hexValue? digits
  calc ds.foldl (fun n d => n * 16 + d) 0
    _ < (0 + 1) * 16 ^ ds.length := foldl_lt small 0
    _ ≤ (0 + 1) * 16 ^ 4 := Nat.mul_le_mul_left _ (Nat.pow_le_pow_right (by decide) (by omega))

theorem mem_toDigits {n : Nat} : ∀ c ∈ Nat.toDigits 16 n, c ∈ hexDigits := by
  obtain ⟨ds, digits, -⟩ := radix?_iff.mp (radix?_toDigits n)
  exact (mapM_hexValue? digits).2.1

theorem toDigits_length {n : Nat} (small : n < 65536) : (Nat.toDigits 16 n).length ≤ 4 :=
  Nat.toDigits_length 16 n 4 (by decide) small

/-! ## Reading groups -/

theorem ipv6Groups_number {group : List Char} {n : Nat} (read : radix? 16 group = some n)
    (short : group.length ≤ 4) (some : group ≠ []) (rest : List (List Char)) (pieces : List Nat)
    (gap : Option Nat) :
    ipv6Groups (group :: rest) pieces gap = ipv6Groups rest (pieces ++ [n]) gap := by
  obtain ⟨c, cs, rfl⟩ := List.exists_cons_of_ne_nil some
  rw [ipv6Groups]
  · simp only [read, if_pos short]
  all_goals simp

theorem ipv6Groups_numbers {numbers : List Nat} (small : ∀ n ∈ numbers, n < 65536)
    (rest : List (List Char)) (pieces : List Nat) (gap : Option Nat) :
    ipv6Groups (numbers.map (Nat.toDigits 16) ++ rest) pieces gap =
      ipv6Groups rest (pieces ++ numbers) gap := by
  induction numbers generalizing pieces with
  | nil => rw [List.map_nil, List.nil_append, List.append_nil]
  | cons n numbers ih =>
    obtain ⟨here, later⟩ := List.forall_mem_cons.mp small
    rw [List.map_cons, List.cons_append, ipv6Groups_number (radix?_toDigits n)
      (toDigits_length here) Nat.toDigits_ne_nil, ih later, List.append_assoc,
      List.singleton_append]

theorem dottedPieces?_small {cs : List Char} {two : List Nat} (read : dottedPieces? cs = some two) :
    ∀ n ∈ two, n < 65536 := by
  have byte {cs : List Char} {n : Nat} (read : decimalByte? cs = some n) : n ≤ 255 := by
    unfold decimalByte? at read
    split at read
    next => cases read
    next =>
      dsimp only at read
      split at read
      next small => exact Option.some.inj read ▸ small
      next => cases read
  have bytes {parts : List (List Char)} {ns : List Nat} (read : parts.mapM decimalByte? = some ns) :
      ∀ n ∈ ns, n ≤ 255 := by
    induction mapM_some_iff.mp read with
    | nil => exact nofun
    | cons first later ih =>
      exact List.forall_mem_cons.mpr ⟨byte first, ih (mapM_some_iff.mpr later)⟩
  obtain ⟨ns, parts, pair⟩ := Option.bind_eq_some_iff.mp read
  split at pair
  next a b c d =>
    cases pair
    have small := bytes parts
    simp only [List.mem_cons, List.not_mem_nil, or_false, forall_eq_or_imp, forall_eq] at small ⊢
    omega
  next => cases pair

/-- The pieces that are read fit into sixteen bits. -/
theorem ipv6Groups_small {groups : List (List Char)} {pieces read : List Nat}
    {gap gap' : Option Nat} (small : ∀ n ∈ pieces, n < 65536)
    (found : ipv6Groups groups pieces gap = some (read, gap')) : ∀ n ∈ read, n < 65536 := by
  have and {n : Nat} (here : n < 65536) {pieces : List Nat} (small : ∀ n ∈ pieces, n < 65536) :
      ∀ m ∈ pieces ++ [n], m < 65536 := by
    simpa [or_imp, forall_and] using ⟨small, here⟩
  -- a group adds one piece of sixteen bits, and a dotted address at the end two
  induction groups generalizing pieces gap with
  | nil =>
    rw [ipv6Groups] at found
    cases found
    exact small
  | cons group rest ih =>
    unfold ipv6Groups at found
    split at found
    next same => cases same
    next same _ =>
      cases found
      exact and (by decide) small
    next => cases found
    next _ _ same =>
      obtain ⟨-, rfl⟩ := List.cons.inj same
      exact ih (and (by decide) small) found
    next => cases found
    next same _ _ _ =>
      obtain ⟨rfl, rfl⟩ := List.cons.inj same
      split at found
      next n number =>
        split at found
        next short => exact ih (and (radix?_lt number short) small) found
        next => cases found
      next =>
        split at found
        next =>
          obtain ⟨two, dotted, same⟩ := Option.map_eq_some_iff.mp found
          cases same
          simpa [or_imp, forall_and] using ⟨small, dottedPieces?_small dotted⟩
        next => cases found

/-- What is read as an address has eight pieces of sixteen bits. -/
theorem ipv6?_pieces {cs : List Char} {pieces : List Nat} (read : ipv6? cs = some pieces) :
    pieces.length = 8 ∧ ∀ n ∈ pieces, n < 65536 := by
  have none : ∀ n ∈ ([] : List Nat), n < 65536 := nofun
  unfold ipv6? at read
  dsimp only at read
  split at read
  next found groups =>
    obtain ⟨start, -, groups⟩ := Option.bind_eq_some_iff.mp groups
    split at read
    next eight =>
      cases read
      exact ⟨eight, ipv6Groups_small none groups⟩
    next => cases read
  next found gap groups =>
    obtain ⟨start, -, groups⟩ := Option.bind_eq_some_iff.mp groups
    have small := ipv6Groups_small none groups
    split at read
    next most =>
      cases read
      constructor
      · simp only [List.length_append, List.length_take, List.length_replicate, List.length_drop]
        omega
      · simp only [List.mem_append, List.mem_replicate, or_imp, forall_and]
        exact ⟨⟨fun n member => small n (List.mem_of_mem_take member), fun n zero => by omega⟩,
          fun n member => small n (List.mem_of_mem_drop member)⟩
    next => cases read
  next => cases read

/-! ## Runs of zeros -/

theorem zeroRuns_get {pieces : List Nat} {i n : Nat} (run : (zeroRuns pieces)[i]? = some n) :
    pieces.drop i = List.replicate n 0 ++ pieces.drop (i + n) := by
  induction pieces generalizing i n with
  | nil => cases run
  | cons piece rest ih =>
    cases i with
    | succ i =>
      rw [zeroRuns, List.getElem?_cons_succ] at run
      rw [List.drop_succ_cons, ih run, Nat.add_right_comm, List.drop_succ_cons]
    | zero =>
      rw [zeroRuns, List.getElem?_cons_zero, Option.some.injEq] at run
      split at run
      next zero =>
        subst zero run
        -- the run goes on as far as the one behind it
        rw [List.drop_zero, Nat.zero_add, List.drop_succ_cons, List.replicate_succ,
          List.cons_append]
        cases later : zeroRuns rest with
        | nil => simp
        | cons m more =>
          have next := @ih 0 m (by rw [later]; rfl)
          rw [List.drop_zero, Nat.zero_add] at next
          rw [List.headD_cons, ← next]
      next =>
        subst run
        rfl

/-- The longest run is a run of at least two zeros. -/
theorem longestRun_some {pieces : List Nat} {start length : Nat}
    (run : longestRun pieces = some (start, length)) :
    pieces = pieces.take start ++ List.replicate length 0 ++ pieces.drop (start + length) ∧
      2 ≤ length := by
  unfold longestRun at run
  dsimp only at run
  split at run
  next => cases run
  next long =>
    obtain ⟨found, there, same⟩ := Option.map_eq_some_iff.mp run
    cases same
    obtain ⟨inside, holds, -⟩ := List.findIdx?_eq_some_iff_getElem.mp there
    have here := zeroRuns_get (List.getElem?_eq_some_iff.mpr ⟨inside, of_decide_eq_true holds⟩)
    rw [List.append_assoc, ← here, List.take_append_drop]
    exact ⟨rfl, Nat.le_of_not_lt long⟩

/-! ## Writing and reading -/

theorem isAlphanum_of_digit {c : Char} (digit : c ∈ hexDigits) : c.isAlphanum = true := by
  have all : hexDigits.all Char.isAlphanum = true := by decide
  exact List.all_eq_true.mp all c digit

theorem pieceText_nil : pieceText [] = [] := by simp [pieceText]

theorem splitOn_pieceText {pieces : List Nat} (some : pieces ≠ []) :
    splitOn (· = ':') (pieceText pieces) = pieces.map (Nat.toDigits 16) := by
  refine splitOn_intercalate rfl (by simpa using some) fun part member c inside => ?_
  obtain ⟨n, -, rfl⟩ := List.mem_map.mp member
  refine decide_eq_false fun colon => ?_
  have digit := isAlphanum_of_digit (mem_toDigits c inside)
  rw [colon] at digit
  cases digit

/-- The groups of an address with a gap between two parts. -/
theorem splitOn_gap (front back : List Nat) :
    splitOn (· = ':') (pieceText front ++ [':', ':'] ++ pieceText back) =
      splitOn (· = ':') (pieceText front) ++ [] :: splitOn (· = ':') (pieceText back) := by
  rw [List.append_assoc, List.cons_append, List.singleton_append, splitOn_append _ (by decide),
    splitOn_separator (by decide)]

/-- Behind its front part, the gap stands for one zero, and the back part is read as it is. -/
theorem ipv6Groups_gap (front : List Nat) {back : List Nat} (small : ∀ n ∈ back, n < 65536) :
    ipv6Groups ([] :: splitOn (· = ':') (pieceText back)) front none =
      some (front ++ [0] ++ back, some (front.length + 1)) := by
  by_cases empty : back = []
  · subst empty
    rw [pieceText_nil, splitOn, ipv6Groups, List.append_nil]
  rw [splitOn_pieceText empty]
  obtain ⟨n, more, rfl⟩ := List.exists_cons_of_ne_nil empty
  rw [List.map_cons, ipv6Groups, ← List.map_cons]
  · have read := ipv6Groups_numbers small [] (front ++ [0]) (some (front.length + 1))
    rw [List.append_nil] at read
    rw [read]
    rfl
  · intro same
    exact Nat.toDigits_ne_nil (List.cons.inj same).1
  · exact List.cons_ne_nil _ _

/-- What is made of the pieces: zeros are filled in at the gap. -/
def filled : List Nat × Option Nat → Option (List Nat)
  | (pieces, none) => if pieces.length = 8 then some pieces else none
  | (pieces, some gap) =>
    if pieces.length ≤ 8 then
      some (pieces.take gap ++ List.replicate (8 - pieces.length) 0 ++ pieces.drop gap)
    else none

/-- A number at the front is the start of an address. -/
theorem ipv6?_number {cs : List Char} {first : Nat} {more : List (List Char)}
    (split : splitOn (· = ':') cs = Nat.toDigits 16 first :: more) {result : List Nat × Option Nat}
    (read : ipv6Groups (Nat.toDigits 16 first :: more) [] none = some result) :
    ipv6? cs = filled result := by
  obtain ⟨digit, digits, same⟩ := List.exists_cons_of_ne_nil Nat.toDigits_ne_nil
  rw [same] at split read
  unfold ipv6?
  dsimp only
  rw [split]
  dsimp only
  rw [Option.bind_some, read]
  obtain ⟨pieces, _ | gap⟩ := result <;> rfl

/-- The empty group has brought one of the zeros, and the others follow it. -/
theorem filled_gap {front back : List Nat} {length : Nat} (long : 2 ≤ length)
    (eight : front.length + length + back.length = 8) :
    filled (front ++ [0] ++ back, some (front.length + 1)) =
      some (front ++ List.replicate length 0 ++ back) := by
  have count : (front ++ [0] ++ back).length = front.length + 1 + back.length := by
    simp only [List.length_append, List.length_singleton]
  have zeros : [0] ++ List.replicate (8 - (front.length + 1 + back.length)) 0 =
      List.replicate length 0 := by
    rw [List.singleton_append, ← List.replicate_succ]
    exact congrArg (List.replicate · 0) (by omega)
  have size : (front ++ [0]).length = front.length + 1 := List.length_append
  rw [filled, count, if_pos (by omega), List.take_left' size, List.drop_left' size,
    List.append_assoc front, zeros]

theorem ipv6?_gap {front back : List Nat} {length : Nat}
    (small : ∀ n ∈ front ++ back, n < 65536) (long : 2 ≤ length)
    (eight : front.length + length + back.length = 8) :
    ipv6? (pieceText front ++ [':', ':'] ++ pieceText back) =
      some (front ++ List.replicate length 0 ++ back) := by
  obtain ⟨before, after⟩ := List.forall_mem_append.mp small
  rw [← filled_gap long eight]
  by_cases empty : front = []
  -- a gap at the start is written with two colons, the first of which is left out in reading
  · subst empty
    unfold ipv6?
    dsimp only
    rw [splitOn_gap, pieceText_nil, splitOn, List.singleton_append]
    dsimp only
    rw [Option.bind_some, ipv6Groups_gap [] after]
    rfl
  · obtain ⟨first, more, rfl⟩ := List.exists_cons_of_ne_nil empty
    have split := splitOn_gap (first :: more) back
    rw [splitOn_pieceText empty] at split
    have read := ipv6Groups_numbers before ([] :: splitOn (· = ':') (pieceText back)) [] none
    rw [List.nil_append, ipv6Groups_gap _ after] at read
    exact ipv6?_number split read

/-- An address is read back from its text. -/
theorem ipv6?_text {pieces : List Nat} (eight : pieces.length = 8)
    (small : ∀ n ∈ pieces, n < 65536) : ipv6? (ipv6Text pieces) = some pieces := by
  unfold ipv6Text
  split
  next =>
    obtain ⟨first, more, rfl⟩ :=
      List.exists_cons_of_ne_nil (List.ne_nil_of_length_pos (l := pieces) (by omega))
    have split := splitOn_pieceText (List.cons_ne_nil first more)
    have read := ipv6Groups_numbers small [] [] none
    rw [List.append_nil, List.nil_append, ipv6Groups] at read
    rw [ipv6?_number split read]
    exact if_pos eight
  next start length run =>
    obtain ⟨whole, long⟩ := longestRun_some run
    have total := congrArg List.length whole
    rw [List.length_append, List.length_append, List.length_replicate, eight] at total
    rw [@ipv6?_gap _ _ length ?_ long total.symm, ← whole]
    intro n member
    obtain front | back := List.mem_append.mp member
    · exact small n (List.mem_of_mem_take front)
    · exact small n (List.mem_of_mem_drop back)

end TableExport.Url
