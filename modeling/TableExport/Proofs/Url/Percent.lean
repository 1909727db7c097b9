import Mathlib
import TableExport.Proofs.Text.Utf8
import TableExport.Url.Percent

/-!
# Percent-encoding and back

Encoding leaves nothing to encode, so a second encoding changes nothing, and it does not change
what is decoded: percent signs are kept, so the encoded text has the escapes that the text had,
and others only for characters that have gone. A text is decoded to itself exactly if it has no
escape of its own.
-/
namespace TableExport.Url

/-! ## Escapes -/

def hexDigits : List Char :=
  ['0', '1', '2', '3', '4', '5', '6', '7', '8', '9', 'A', 'B', 'C', 'D', 'E', 'F', 'a', 'b', 'c',
    'd', 'e', 'f']

theorem hexValue?_hexDigit : ∀ n < 16, hexValue? (hexDigit n) = some n := by decide

theorem hexValue?_percent : hexValue? '%' = none := by decide

theorem mem_hexDigits {c : Char} {n : Nat} (digit : hexValue? c = some n) : c ∈ hexDigits := by
  have back : Char.ofNat c.toNat = c := Char.ofNat_toNat c
  simp only [hexValue?, Char.le_def, UInt32.le_iff_toNat_le] at digit
  have range : 48 ≤ c.toNat ∧ c.toNat ≤ 57 ∨ 65 ≤ c.toNat ∧ c.toNat ≤ 70 ∨
      97 ≤ c.toNat ∧ c.toNat ≤ 102 := by
    split at digit
    next figure => exact .inl figure
    next =>
      split at digit
      next capital => exact .inr (.inl capital)
      next =>
        split at digit
        next small => exact .inr (.inr small)
        next => cases digit
  rw [← back]
  generalize c.toNat = v at range
  obtain ⟨low, high⟩ | ⟨low, high⟩ | ⟨low, high⟩ := range <;> interval_cases v <;> decide

/-- A percent sign with two digits after it. -/
def Escaped (cs : List Char) : Prop :=
  ∃ a b rest x y, cs = '%' :: a :: b :: rest ∧ hexValue? a = some x ∧ hexValue? b = some y

/-- A text with an escape in it. -/
def HasEscape (cs : List Char) : Prop := ∃ front back, cs = front ++ back ∧ Escaped back

theorem HasEscape.within {cs : List Char} (escape : HasEscape cs) (before after : List Char) :
    HasEscape (before ++ cs ++ after) := by
  obtain ⟨front, _, rfl, a, b, rest, x, y, rfl, high, low⟩ := escape
  exact ⟨before ++ front, '%' :: a :: b :: (rest ++ after), by simp, a, b, rest ++ after, x, y, rfl,
    high, low⟩

theorem HasEscape.of_cons {c : Char} {cs : List Char} (escape : HasEscape (c :: cs))
    (other : c ≠ '%') : HasEscape cs := by
  obtain ⟨front, back, whole, escaped⟩ := escape
  cases front with
  | nil =>
    obtain ⟨a, b, rest, x, y, rfl, -⟩ := escaped
    exact absurd (List.cons.inj whole).1 other
  | cons d front => exact ⟨front, back, (List.cons.inj whole).2, escaped⟩

theorem ofText_singleton (c : Char) :
    Bytes.ofText (String.singleton c) = String.utf8EncodeChar c := by
  rw [Utf8.ofText_eq, String.toList_singleton, List.flatMap_singleton]

/-! ## Encoding -/

/-- The characters that stand for themselves where everything of a set is encoded. -/
def Kept (set : Char → Bool) (cs : List Char) : Prop := ∀ c ∈ cs, set c = false ∧ c ≤ '\x7f'

/-- A set that leaves escapes as they are. -/
def Spares (set : Char → Bool) : Prop := ('%' :: hexDigits).all (fun c => !set c) = true

theorem Spares.kept {set : Char → Bool} (spares : Spares set) {c : Char}
    (member : c ∈ '%' :: hexDigits) : set c = false ∧ c ≤ '\x7f' := by
  have ascii : ('%' :: hexDigits).all (fun c => decide (c ≤ '\x7f')) = true := by decide
  exact ⟨by simpa using List.all_eq_true.mp spares c member,
    of_decide_eq_true (List.all_eq_true.mp ascii c member)⟩

theorem spares_isControl : Spares isControl := by rw [Spares]; decide
theorem spares_querySet : Spares querySet := by rw [Spares]; decide
theorem spares_fragmentSet : Spares fragmentSet := by rw [Spares]; decide
theorem spares_pathSet : Spares pathSet := by rw [Spares]; decide
theorem spares_userinfoSet : Spares userinfoSet := by rw [Spares]; decide

section Encoding
variable {set : Char → Bool}

theorem Kept.append {as bs : List Char} (front : Kept set as) (back : Kept set bs) :
    Kept set (as ++ bs) :=
  List.forall_mem_append.mpr ⟨front, back⟩

theorem encode_cons (c : Char) (cs : List Char) : encode set (c :: cs) =
    (if set c || '\x7f' < c then percentChar c else [c]) ++ encode set cs :=
  List.flatMap_cons

theorem encode_kept {cs : List Char} (kept : Kept set cs) : encode set cs = cs := by
  induction cs with
  | nil => rfl
  | cons c cs ih =>
    obtain ⟨⟨plain, ascii⟩, later⟩ := List.forall_mem_cons.mp kept
    rw [encode_cons, ih later, plain, if_neg (by simpa using ascii), List.singleton_append]

theorem mem_percentChar {c d : Char} (member : d ∈ percentChar c) : d ∈ '%' :: hexDigits := by
  obtain ⟨byte, -, member⟩ := List.mem_flatMap.mp member
  have high := hexValue?_hexDigit (byte.toNat / 16) (by have := byte.toNat_lt; omega)
  have low := hexValue?_hexDigit (byte.toNat % 16) (Nat.mod_lt _ (by decide))
  simp only [percentByte, List.mem_cons, List.not_mem_nil, or_false] at member
  obtain rfl | rfl | rfl := member
  · exact List.mem_cons_self
  · exact List.mem_cons_of_mem _ (mem_hexDigits high)
  · exact List.mem_cons_of_mem _ (mem_hexDigits low)

/-- Encoding adds nothing but escapes. -/
theorem mem_encode {cs : List Char} {d : Char} (member : d ∈ encode set cs) :
    d ∈ cs ∨ d ∈ '%' :: hexDigits := by
  obtain ⟨c, inside, member⟩ := List.mem_flatMap.mp member
  split at member
  next => exact .inr (mem_percentChar member)
  next => exact .inl (List.mem_singleton.mp member ▸ inside)

/-- What is encoded stands for itself from then on. -/
theorem kept_encode (spares : Spares set) (cs : List Char) : Kept set (encode set cs) := by
  induction cs with
  | nil => exact nofun
  | cons c cs ih =>
    rw [encode_cons]
    refine Kept.append ?_ ih
    split
    next => exact fun d member => spares.kept (mem_percentChar member)
    next plain => exact fun d member => by simpa [List.mem_singleton.mp member] using plain

theorem encode_digit (spares : Spares set) {c : Char} {n : Nat} (digit : hexValue? c = some n)
    (cs : List Char) : encode set (c :: cs) = c :: encode set cs := by
  obtain ⟨plain, ascii⟩ := spares.kept (List.mem_cons_of_mem _ (mem_hexDigits digit))
  rw [encode_cons, plain, if_neg (by simpa using ascii), List.singleton_append]

theorem encode_percent (spares : Spares set) (cs : List Char) :
    encode set ('%' :: cs) = '%' :: encode set cs := by
  rw [encode_cons, (spares.kept List.mem_cons_self).1]
  rfl

/-- Encoding begins with a percent sign where it does not begin with the character itself. -/
theorem encode_head (c : Char) (cs : List Char) :
    (∃ rest, encode set (c :: cs) = '%' :: rest) ∨ encode set (c :: cs) = c :: encode set cs := by
  rw [encode_cons]
  split
  next =>
    obtain ⟨byte, bytes, first, -⟩ := Utf8.step_encode c
    left
    rw [percentChar, ofText_singleton, first]
    exact ⟨_, rfl⟩
  next => exact .inr rfl

theorem encode_ne_nil {cs : List Char} (some : cs ≠ []) : encode set cs ≠ [] := by
  obtain ⟨c, rest, rfl⟩ := List.exists_cons_of_ne_nil some
  obtain ⟨more, first⟩ | first := @encode_head set c rest <;> rw [first] <;>
    exact List.cons_ne_nil _ _

end Encoding

/-! ## Decoding -/

theorem decode_escaped {a b : Char} {x y : Nat} (high : hexValue? a = some x)
    (low : hexValue? b = some y) (rest : List Char) :
    decode ('%' :: a :: b :: rest) = UInt8.ofNat (x * 16 + y) :: decode rest := by
  rw [decode, high, low]

theorem ofText_percent : Bytes.ofText (String.singleton '%') = [0x25] := by decide

/-- Without an escape the first character is read as itself. -/
theorem decode_cons {c : Char} {rest : List Char} (plain : ¬Escaped (c :: rest)) :
    decode (c :: rest) = Bytes.ofText (String.singleton c) ++ decode rest := by
  by_cases percent : c = '%'
  · subst percent
    rw [ofText_percent]
    match rest with
    | [] => rfl
    | [a] => rfl
    | a :: b :: rest =>
      rw [decode]
      split
      next x y high low => exact absurd ⟨a, b, rest, x, y, rfl, high, low⟩ plain
      next => rfl
  · rw [decode]
    exact fun a b rest same => absurd same percent

/-- No escape of a text ends behind it, if what follows does not begin with a digit. -/
theorem escaped_of_append {back : List Char} (stop : ∀ c ∈ back.head?, hexValue? c = none)
    {c : Char} {rest : List Char} (escaped : Escaped (c :: (rest ++ back))) :
    Escaped (c :: rest) := by
  obtain ⟨a, b, more, x, y, same, high, low⟩ := escaped
  obtain ⟨rfl, digits⟩ := List.cons.inj same
  have digit {d : Char} {n : Nat} {cs : List Char} (whole : back = d :: cs)
      (value : hexValue? d = some n) : False := by
    rw [stop d (by rw [whole]; rfl)] at value
    cases value
  match rest with
  | [] => exact (digit digits high).elim
  | [d] => exact (digit (List.cons.inj digits).2 low).elim
  | d :: e :: rest =>
    obtain ⟨rfl, later⟩ := List.cons.inj digits
    obtain ⟨rfl, -⟩ := List.cons.inj later
    exact ⟨d, e, rest, x, y, rfl, high, low⟩

theorem decode_append {back : List Char} (stop : ∀ c ∈ back.head?, hexValue? c = none)
    (front : List Char) : decode (front ++ back) = decode front ++ decode back := by
  induction bound : front.length using Nat.strong_induction_on generalizing front with
  | _ n ih =>
    subst bound
    match front with
    | [] => rfl
    | c :: rest =>
      by_cases escaped : Escaped (c :: rest)
      · obtain ⟨a, b, rest, x, y, same, high, low⟩ := escaped
        have later := ih rest.length (by simp [same]; omega) rest rfl
        rw [same, List.cons_append, List.cons_append, List.cons_append, decode_escaped high low,
          decode_escaped high low, later, List.cons_append]
      · have later := ih rest.length (Nat.lt_succ_self _) rest rfl
        rw [List.cons_append, decode_cons fun longer => escaped (escaped_of_append stop longer),
          decode_cons escaped, later, List.append_assoc]

theorem decode_percentByte (byte : UInt8) (rest : List Char) :
    decode (percentByte byte ++ rest) = byte :: decode rest := by
  have bound := byte.toNat_lt
  have high := hexValue?_hexDigit (byte.toNat / 16) (by omega)
  have low := hexValue?_hexDigit (byte.toNat % 16) (Nat.mod_lt _ (by decide))
  have value : byte.toNat / 16 * 16 + byte.toNat % 16 = byte.toNat := by omega
  show decode ('%' :: _ :: _ :: rest) = _
  rw [decode_escaped high low, value, UInt8.ofNat_toNat]

theorem decode_percentChar (c : Char) (rest : List Char) :
    decode (percentChar c ++ rest) = Bytes.ofText (String.singleton c) ++ decode rest := by
  unfold percentChar
  induction Bytes.ofText (String.singleton c) with
  | nil => rfl
  | cons byte bytes ih =>
    rw [List.flatMap_cons, List.append_assoc, decode_percentByte, ih, List.cons_append]

/-- Encoding makes no escapes of characters that it keeps. -/
theorem escaped_of_encode {set : Char → Bool} {rest : List Char}
    (escaped : Escaped ('%' :: encode set rest)) : Escaped ('%' :: rest) := by
  obtain ⟨a, b, back, x, y, same, high, low⟩ := escaped
  obtain ⟨-, same⟩ := List.cons.inj same
  -- what has been encoded begins with a percent sign, which is no digit
  have begins {c d : Char} {n : Nat} {cs more : List Char}
      (whole : encode set (c :: cs) = d :: more) (digit : hexValue? d = some n) :
      d = c ∧ encode set cs = more := by
    obtain ⟨_, percent⟩ | kept := @encode_head set c cs
    · obtain ⟨rfl, -⟩ := List.cons.inj (percent.symm.trans whole)
      cases hexValue?_percent.symm.trans digit
    · obtain ⟨rfl, later⟩ := List.cons.inj (kept.symm.trans whole)
      exact ⟨rfl, later⟩
  match rest with
  | [] => cases same
  | [c] =>
    obtain ⟨-, nothing⟩ := begins same high
    cases nothing
  | c :: d :: rest =>
    obtain ⟨rfl, later⟩ := begins same high
    obtain ⟨rfl, -⟩ := begins later low
    exact ⟨a, b, rest, x, y, rfl, high, low⟩

/-- What is decoded does not depend on whether a text has been encoded. -/
theorem decode_encode {set : Char → Bool} (spares : Spares set) (cs : List Char) :
    decode (encode set cs) = decode cs := by
  -- an escape takes three characters at once, so the induction is on the length
  induction bound : cs.length using Nat.strong_induction_on generalizing cs with
  | _ n ih =>
    subst bound
    match cs with
    | [] => rfl
    | c :: rest =>
      by_cases escaped : Escaped (c :: rest)
      · obtain ⟨a, b, rest, x, y, same, high, low⟩ := escaped
        have later := ih rest.length (by simp [same]; omega) rest rfl
        rw [same, encode_percent spares, encode_digit spares high, encode_digit spares low,
          decode_escaped high low, decode_escaped high low, later]
      rw [decode_cons escaped, ← ih rest.length (Nat.lt_succ_self _) rest rfl, encode_cons]
      split
      next => exact decode_percentChar c _
      next =>
        refine decode_cons fun made => escaped ?_
        obtain rfl : c = '%' := by
          obtain ⟨_, _, _, _, _, same, -⟩ := made
          exact (List.cons.inj same).1
        exact escaped_of_encode made

theorem utf8_length_pos (c : Char) : 0 < (String.utf8EncodeChar c).length := by
  rw [String.length_utf8EncodeChar]
  exact c.utf8Size_pos

/-- Decoding gives at most the bytes of the text, and fewer where there is an escape. -/
theorem decode_length (cs : List Char) :
    (decode cs).length ≤ (cs.flatMap String.utf8EncodeChar).length ∧
      (HasEscape cs → (decode cs).length < (cs.flatMap String.utf8EncodeChar).length) := by
  induction bound : cs.length using Nat.strong_induction_on generalizing cs with
  | _ n ih =>
    subst bound
    match cs with
    | [] =>
      refine ⟨Nat.le_refl _, fun ⟨front, back, whole, _, _, _, _, _, same, _⟩ => ?_⟩
      rw [same] at whole
      simp at whole
    | c :: rest =>
      by_cases escaped : Escaped (c :: rest)
      · obtain ⟨a, b, back, x, y, same, high, low⟩ := escaped
        obtain ⟨rfl, rfl⟩ := List.cons.inj same
        have later := (ih back.length (by simp; omega) back rfl).1
        have first := utf8_length_pos a
        have second := utf8_length_pos b
        have shorter : (decode ('%' :: a :: b :: back)).length <
            (('%' :: a :: b :: back).flatMap String.utf8EncodeChar).length := by
          rw [decode_escaped high low]
          simp only [List.flatMap_cons, List.length_append, List.length_cons]
          omega
        exact ⟨Nat.le_of_lt shorter, fun _ => shorter⟩
      obtain ⟨most, fewer⟩ := ih rest.length (Nat.lt_succ_self _) rest rfl
      rw [decode_cons escaped, ofText_singleton, List.flatMap_cons, List.length_append,
        List.length_append]
      refine ⟨Nat.add_le_add_left most _, fun ⟨front, back, whole, there⟩ => ?_⟩
      refine Nat.add_lt_add_left (fewer ?_) _
      cases front with
      | nil => exact absurd (whole ▸ there) escaped
      | cons d front => exact ⟨front, back, (List.cons.inj whole).2, there⟩

/-- Only a text without escapes is decoded to its own bytes. -/
theorem decode_eq_iff (text : String) :
    decode text.toList = Bytes.ofText text ↔ ¬HasEscape text.toList := by
  rw [Utf8.ofText_eq]
  constructor
  · intro same escape
    exact Nat.ne_of_lt ((decode_length _).2 escape) (congrArg List.length same)
  · generalize text.toList = cs
    intro none
    induction cs with
    | nil => rfl
    | cons c rest ih =>
      have here : ¬Escaped (c :: rest) := fun escaped => none ⟨[], c :: rest, rfl, escaped⟩
      have later : ¬HasEscape rest := fun ⟨front, back, whole, escaped⟩ =>
        none ⟨c :: front, back, congrArg (c :: ·) whole, escaped⟩
      rw [decode_cons here, ofText_singleton, ih later, List.flatMap_cons]

end TableExport.Url
