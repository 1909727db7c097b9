import Mathlib
import TableExport.Proofs.Decimal.Digits
import TableExport.Proofs.Postgres.Selection

/-!
# Tokens of SQL texts

A text is cut into words, numbers, marks and names in double quotes. A name goes on to the first
quote that is not followed by another one; two quotes in a row stand for one. No other token is
longer than the characters of its kind, so what a piece of text is cut into depends on the text
behind it only by its first character.
-/
namespace TableExport.Sql

inductive Token
  -- A keyword or a name without quotes.
  | word (text : String)
  | number (n : Nat)
  | mark (c : Char)
  -- Two colons.
  | cast
  -- A name in quotes, as it is meant.
  | name (text : String)
  deriving DecidableEq, Repr

/-- Where a reader stands. -/
inductive Mode
  | between
  | word (text : List Char)
  | number (digits : List Char)
  | colon
  -- Between the quotes of a name.
  | quoted (text : List Char)
  -- After a quote that ends the name unless another one follows.
  | quoteSeen (text : List Char)
  deriving DecidableEq, Repr

def isWordChar (c : Char) : Bool := c.isAlphanum || c = '_'

namespace Mode

/-- The token that is complete if nothing more belongs to it. A name needs its last quote. -/
def finish : Mode → Option (List Token)
  | between => some []
  | word text => some [.word (String.ofList text)]
  | number digits => some [.number (Decimal.value digits)]
  | colon => some [.mark ':']
  | quoted _ => none
  | quoteSeen text => some [.name (String.ofList text)]

/-- What begins with a character. -/
def start (c : Char) : List Token × Mode :=
  if c = ' ' then ([], between)
  else if c = '"' then ([], quoted [])
  else if c = ':' then ([], colon)
  else if c.isDigit then ([], number [c])
  else if isWordChar c then ([], word [c])
  else ([.mark c], between)

/-- The token in front of the character is complete. -/
def onward (mode : Mode) (c : Char) : List Token × Mode :=
  ((mode.finish.getD []) ++ (start c).1, (start c).2)

/-- The tokens that are complete with a character, and where the reader stands behind it. -/
def advance (mode : Mode) (c : Char) : List Token × Mode :=
  match mode with
  | between => start c
  | word text => if isWordChar c then ([], word (text ++ [c])) else mode.onward c
  | number digits => if c.isDigit then ([], number (digits ++ [c])) else mode.onward c
  | colon => if c = ':' then ([.cast], between) else mode.onward c
  | quoted text => if c = '"' then ([], quoteSeen text) else ([], quoted (text ++ [c]))
  | quoteSeen text => if c = '"' then ([], quoted (text ++ [c])) else mode.onward c

theorem advance_between (c : Char) : between.advance c = start c := rfl

theorem advance_number (digits : List Char) (c : Char) : (number digits).advance c =
    if c.isDigit then ([], number (digits ++ [c])) else (number digits).onward c := rfl

theorem advance_quoted (text : List Char) (c : Char) : (quoted text).advance c =
    if c = '"' then ([], quoteSeen text) else ([], quoted (text ++ [c])) := rfl

theorem advance_quoteSeen (text : List Char) (c : Char) : (quoteSeen text).advance c =
    if c = '"' then ([], quoted (text ++ [c])) else (quoteSeen text).onward c := rfl

theorem start_digit {c : Char} (digit : c.isDigit = true) : start c = ([], number [c]) := by
  have blank : c ≠ ' ' := by rintro rfl; cases digit
  have quote : c ≠ '"' := by rintro rfl; cases digit
  have colon : c ≠ ':' := by rintro rfl; cases digit
  simp [start, blank, quote, colon, digit]

end Mode

/-- The tokens that are complete behind a text, and where the reader stands then. -/
def scan (mode : Mode) : List Char → List Token × Mode
  | [] => ([], mode)
  | c :: rest =>
    ((mode.advance c).1 ++ (scan (mode.advance c).2 rest).1, (scan (mode.advance c).2 rest).2)

def lex (mode : Mode) (chars : List Char) : Option (List Token) :=
  (scan mode chars).2.finish.map ((scan mode chars).1 ++ ·)

/-- The tokens of a text; `none` if it ends inside a name. -/
def tokens? (text : String) : Option (List Token) := lex .between text.toList

/-! ## Reading on -/

theorem scan_append (mode : Mode) (xs ys : List Char) :
    scan mode (xs ++ ys) =
      ((scan mode xs).1 ++ (scan (scan mode xs).2 ys).1, (scan (scan mode xs).2 ys).2) := by
  induction xs generalizing mode with
  | nil => rfl
  | cons c xs ih => simp only [List.cons_append, scan, ih, List.append_assoc]

theorem lex_append {mode behind : Mode} {tokens : List Token} {xs : List Char}
    (front : scan mode xs = (tokens, behind)) (ys : List Char) :
    lex mode (xs ++ ys) = (lex behind ys).map (tokens ++ ·) := by
  unfold lex
  rw [scan_append, front, Option.map_map]
  congr 1
  funext late
  exact List.append_assoc ..

/-- What stands behind a complete token is read as if nothing were in front of it. -/
theorem lex_complete {mode : Mode} {tokens : List Token} {rest : List Char}
    (complete : mode.finish = some tokens)
    (ends : ∀ c, rest.head? = some c → mode.advance c = mode.onward c) :
    lex mode rest = (lex .between rest).map (tokens ++ ·) := by
  cases rest with
  | nil =>
    show mode.finish.map ([] ++ ·) = (some []).map (tokens ++ ·)
    simp [complete]
  | cons c rest =>
    have first : mode.advance c = (tokens ++ (Mode.start c).1, (Mode.start c).2) := by
      rw [ends c rfl, Mode.onward, complete, Option.getD_some]
    simp only [lex, scan, first, Option.map_map, Function.comp_def, Mode.advance_between,
      List.append_assoc]

/-! ## Pieces of text -/

/-- In front of this text, these characters are read as these tokens. -/
def Reads (chars : List Char) (tokens : List Token) (rest : List Char) : Prop :=
  lex .between (chars ++ rest) = (lex .between rest).map (tokens ++ ·)

namespace Reads
variable {xs ys rest : List Char} {ts us : List Token}

theorem append (first : Reads xs ts (ys ++ rest)) (second : Reads ys us rest) :
    Reads (xs ++ ys) (ts ++ us) rest := by
  unfold Reads at *
  rw [List.append_assoc, first, second, Option.map_map]
  congr 1
  funext late
  exact (List.append_assoc ..).symm

/-- A piece that ends with a complete token is read alike in front of every text. -/
theorem closed (read : scan .between xs = (ts, .between)) (rest : List Char) : Reads xs ts rest :=
  lex_append read rest

theorem tokens {text : String} (reads : Reads text.toList ts []) : tokens? text = some ts := by
  rw [tokens?, ← List.append_nil text.toList, reads]
  simp [lex, scan, Mode.finish]

end Reads

theorem scan_escaped (text name : List Char) :
    scan (.quoted text) (Postgres.escaped name) = ([], .quoted (text ++ name)) := by
  induction name generalizing text with
  | nil => simp [Postgres.escaped, scan]
  | cons c name ih =>
    have further := ih (text ++ [c])
    rw [List.append_assoc, List.singleton_append] at further
    by_cases quote : c = '"'
    · subst quote
      have twice : Postgres.escaped ('"' :: name) = '"' :: '"' :: Postgres.escaped name := rfl
      simp [twice, scan, Mode.advance_quoted, Mode.advance_quoteSeen, further]
    · have once : Postgres.escaped (c :: name) = c :: Postgres.escaped name := by
        rw [Postgres.escaped, List.flatMap_cons, if_neg quote, List.singleton_append,
          Postgres.escaped]
      simp [once, scan, Mode.advance_quoted, quote, further]

/-- A name in quotes is one token, the name as it is meant. -/
theorem reads_name (name : String) {rest : List Char} (after : rest.head? ≠ some '"') :
    Reads (quoteIdentifier name).toList [.name name] rest := by
  have front : scan .between (quoteIdentifier name).toList = ([], .quoteSeen name.toList) := by
    rw [Postgres.quoteIdentifier_toList]
    have opened : Mode.start '"' = ([], .quoted []) := rfl
    simp [scan, scan_append, Mode.advance_between, opened, scan_escaped, Mode.advance_quoted]
  unfold Reads
  rw [lex_append front, lex_complete rfl, Option.map_map]
  · simp [Function.comp_def]
  · intro c first
    have other : c ≠ '"' := fun quote => after (quote ▸ first)
    rw [Mode.advance_quoteSeen, if_neg other]

theorem scan_digits (text digits : List Char) (all : ∀ c ∈ digits, c.isDigit = true) :
    scan (.number text) digits = ([], .number (text ++ digits)) := by
  induction digits generalizing text with
  | nil => simp [scan]
  | cons c digits ih =>
    obtain ⟨digit, others⟩ := List.forall_mem_cons.mp all
    simp [scan, Mode.advance_number, digit, ih (text ++ [c]) others]

/-- A number at the end of a text is one token. -/
theorem reads_number (n : Nat) : Reads (Nat.repr n).toList [.number n] [] := by
  have text : (Nat.repr n).toList = Decimal.digits n := by
    rw [Nat.repr_eq_ofList_toDigits, String.toList_ofList, Decimal.digits_eq]
  have all := Decimal.isDigit_digits n
  have front : scan .between (Decimal.digits n) = ([], .number (Decimal.digits n)) := by
    obtain ⟨c, rest, digits⟩ := List.exists_cons_of_ne_nil (Decimal.digits_ne_nil n)
    rw [digits] at all ⊢
    obtain ⟨digit, others⟩ := List.forall_mem_cons.mp all
    simp [scan, Mode.advance_between, Mode.start_digit digit, scan_digits [c] rest others]
  unfold Reads
  rw [text, lex_append front, lex_complete rfl (fun _ none => by cases none), Option.map_map]
  simp [Decimal.value_digits, Function.comp_def]

/-! ## Select lists -/

open Postgres (SelectItem)

/-- A column by its name, or cast to text under the same name. -/
def itemTokens (item : SelectItem) : List Token :=
  if item.cast then [.name item.name, .cast, .word "text", .word "AS", .name item.name]
  else [.name item.name]

def listTokens (items : List SelectItem) : List Token :=
  [.mark ','].intercalate (items.map itemTokens)

theorem reads_item (item : SelectItem) {rest : List Char} (after : rest.head? ≠ some '"') :
    Reads item.text.toList (itemTokens item) rest := by
  unfold SelectItem.text itemTokens
  split
  next =>
    rw [String.toList_append, String.toList_append, List.append_assoc]
    have last := reads_name item.name after
    have cast : scan .between "::text AS ".toList =
        ([.cast, .word "text", .word "AS"], .between) := by decide
    have behind := (Reads.closed cast ((quoteIdentifier item.name).toList ++ rest)).append last
    exact (reads_name item.name (by simp)).append behind
  next => exact reads_name item.name after

theorem head?_more (items : List SelectItem) {rest : List Char} (after : rest.head? ≠ some '"') :
    (SelectItem.more items ++ rest).head? ≠ some '"' := by
  cases items with
  | nil => exact after
  | cons item items => simp [SelectItem.more]

theorem reads_more (items : List SelectItem) {rest : List Char} (after : rest.head? ≠ some '"') :
    Reads (SelectItem.more items) (items.flatMap fun item => .mark ',' :: itemTokens item) rest := by
  induction items with
  | nil => exact Reads.closed rfl rest
  | cons item items ih =>
    have comma : scan .between ", ".toList = ([.mark ','], .between) := by decide
    exact (Reads.closed comma _).append ((reads_item item (head?_more items after)).append ih)

theorem listTokens_cons (item : SelectItem) (items : List SelectItem) :
    listTokens (item :: items) =
      itemTokens item ++ items.flatMap fun other => .mark ',' :: itemTokens other := by
  induction items generalizing item with
  | nil => simp [listTokens]
  | cons next items ih =>
    have onward : listTokens (item :: next :: items) =
        itemTokens item ++ [.mark ','] ++ listTokens (next :: items) :=
      List.intercalate_cons_cons
    rw [onward, ih, List.flatMap_cons, List.append_assoc]
    rfl

/-- A select list is read as its items, with a comma between two of them. -/
theorem reads_list (items : List SelectItem) {rest : List Char} (after : rest.head? ≠ some '"') :
    Reads (SelectItem.list items).toList (listTokens items) rest := by
  cases items with
  | nil => exact Reads.closed rfl rest
  | cons item items =>
    rw [SelectItem.list_toList, listTokens_cons]
    exact (reads_item item (head?_more items after)).append (reads_more items after)

theorem itemTokens_injective {a b : SelectItem} (same : itemTokens a = itemTokens b) : a = b := by
  obtain ⟨aName, aCast⟩ := a
  obtain ⟨bName, bCast⟩ := b
  cases aCast <;> cases bCast <;> simp_all [itemTokens]

theorem listTokens_ne_nil (item : SelectItem) (items : List SelectItem) :
    listTokens (item :: items) ≠ [] := by
  rw [listTokens_cons]
  unfold itemTokens
  split <;> simp

theorem listTokens_injective {as bs : List SelectItem} (same : listTokens as = listTokens bs) :
    as = bs := by
  have parts (items : List SelectItem) (some_ : items ≠ []) :
      (listTokens items).splitOn (.mark ',') = items.map itemTokens := by
    refine List.splitOn_intercalate _ (fun tokens member => ?_) (by simpa using some_)
    obtain ⟨item, -, rfl⟩ := List.mem_map.mp member
    unfold itemTokens
    split <;> simp
  cases as with
  | nil =>
    cases bs with
    | nil => rfl
    | cons b bs => exact absurd same.symm (listTokens_ne_nil b bs)
  | cons a as =>
    cases bs with
    | nil => exact absurd same (listTokens_ne_nil a as)
    | cons b bs =>
      -- no item has a comma in it
      have split := congrArg (List.splitOn (.mark ',')) same
      rw [parts (a :: as) (by simp), parts (b :: bs) (by simp)] at split
      exact List.map_injective_iff.mpr (fun _ _ => itemTokens_injective) split

theorem from_not_mem_listTokens (items : List SelectItem) : .word "FROM" ∉ listTokens items := by
  cases items with
  | nil => exact List.not_mem_nil
  | cons item items =>
    have absent (item : SelectItem) : .word "FROM" ∉ itemTokens item := by
      unfold itemTokens
      split <;> simp
    simp [listTokens_cons, absent]

/-! ## Statements -/

/-- The bound of a read. Zero, like no limit, gives none. -/
def boundTokens (limit : Option UInt32) : List Token :=
  match limit with
  | some n => if 0 < n then [.word "LIMIT", .number n.toNat] else []
  | none => []

/-- The characters of a statement behind its table. -/
def boundText (limit : Option UInt32) : List Char :=
  match bound limit with
  | some n => " LIMIT ".toList ++ (Nat.repr n).toList
  | none => []

theorem bound_cases (limit : Option UInt32) :
    (bound limit = none ∧ boundTokens limit = []) ∨
      ∃ n, bound limit = some n ∧ boundTokens limit = [.word "LIMIT", .number n] := by
  cases limit with
  | none => exact .inl ⟨rfl, rfl⟩
  | some n =>
    by_cases zero : n = 0
    · subst zero
      exact .inl ⟨rfl, rfl⟩
    · have positive : 0 < n := UInt32.pos_iff_ne_zero.mpr zero
      exact .inr ⟨n.toNat, by simp [bound, zero], by simp [boundTokens, positive]⟩

theorem reads_bound (limit : Option UInt32) : Reads (boundText limit) (boundTokens limit) [] := by
  unfold boundText
  obtain ⟨unbounded, none⟩ | ⟨n, bounded, tokens⟩ := bound_cases limit
  · rw [unbounded, none]
    exact Reads.closed rfl []
  · rw [bounded, tokens]
    have word : scan .between " LIMIT ".toList = ([.word "LIMIT"], .between) := by decide
    exact (Reads.closed word _).append (reads_number n)

theorem head?_boundText (limit : Option UInt32) :
    (boundText limit ++ []).head? ≠ some '"' := by
  unfold boundText
  split <;> simp

theorem boundTokens_iff {a b : Option UInt32} : boundTokens a = boundTokens b ↔ bound a = bound b := by
  obtain ⟨unbounded, none⟩ | ⟨n, bounded, tokens⟩ := bound_cases a <;>
    obtain ⟨unbounded', none'⟩ | ⟨m, bounded', tokens'⟩ := bound_cases b <;>
    simp [*]

theorem select_toList (items : String) (table : TableName) (limit : Option UInt32) :
    (select items table limit).toList = "SELECT ".toList ++ (items.toList ++
      (" FROM ".toList ++ (table.quoted.toList ++ boundText limit))) := by
  unfold select boundText
  cases bound limit with
  | none => simp only [String.toList_append, List.append_assoc, List.append_nil]
  | some n => simp only [String.toList_append, List.append_assoc]

/-- What is selected is followed by the table and the bound. -/
theorem tokens_select {items : String} {tokens : List Token}
    (list : ∀ rest : List Char, rest.head? = some ' ' → Reads items.toList tokens rest)
    (table : TableName) (limit : Option UInt32) :
    tokens? (select items table limit) = some (.word "SELECT" :: (tokens ++
      .word "FROM" :: .name table.text :: boundTokens limit)) := by
  apply Reads.tokens
  rw [select_toList]
  have first : scan .between "SELECT ".toList = ([.word "SELECT"], .between) := by decide
  have second : scan .between " FROM ".toList = ([.word "FROM"], .between) := by decide
  have named := (reads_name table.text (head?_boundText limit)).append (reads_bound limit)
  have behind := (Reads.closed second _).append named
  exact (Reads.closed first _).append ((list _ (by simp)).append behind)

theorem tokens_selectAll (table : TableName) (limit : Option UInt32) :
    tokens? (selectAll table limit) = some ([.word "SELECT", .mark '*', .word "FROM",
      .name table.text] ++ boundTokens limit) := by
  have all : scan .between "*".toList = ([.mark '*'], .between) := by decide
  exact tokens_select (fun rest _ => Reads.closed all rest) table limit

theorem tokens_list (items : List SelectItem) (table : TableName) (limit : Option UInt32) :
    tokens? (select (SelectItem.list items) table limit) =
      some (.word "SELECT" :: (listTokens items ++
        .word "FROM" :: .name table.text :: boundTokens limit)) :=
  tokens_select (fun rest blank => reads_list items (by simp [blank])) table limit

theorem probe_eq (table : TableName) : probe table = selectAll table (some 1) := by
  have one : bound (some 1) = some 1 := rfl
  have text : Nat.repr 1 = "1" := rfl
  rw [← String.toList_inj]
  simp [probe, selectAll, select, one, text]

theorem tokens_count (table : TableName) :
    tokens? (count table) = some [.word "SELECT", .word "count", .mark '(', .mark '*', .mark ')',
      .word "FROM", .name table.text] := by
  apply Reads.tokens
  have front : scan .between "SELECT count(*) FROM ".toList = ([.word "SELECT", .word "count",
    .mark '(', .mark '*', .mark ')', .word "FROM"], .between) := by decide +kernel
  have whole : (count table).toList = "SELECT count(*) FROM ".toList ++ table.quoted.toList := by
    unfold count
    exact String.toList_append
  have read := (Reads.closed front _).append (@reads_name table.text [] (by simp))
  rw [whole]
  exact read

/-! ## What a statement determines -/

theorem select_congr (items : String) (table : TableName) {limit other : Option UInt32}
    (same : bound limit = bound other) : select items table limit = select items table other := by
  unfold select
  rw [same]

theorem name_injective {a b : TableName} (same : Token.name a.text = Token.name b.text) : a = b := by
  obtain ⟨text, nonempty⟩ := a
  cases same
  rfl

theorem selectAll_iff {a b : TableName} {limit other : Option UInt32} :
    selectAll a limit = selectAll b other ↔ a = b ∧ bound limit = bound other := by
  constructor
  · intro same
    have tokens := congrArg tokens? same
    rw [tokens_selectAll, tokens_selectAll, Option.some_inj] at tokens
    simp only [List.cons_append, List.nil_append, List.cons.injEq, true_and] at tokens
    exact ⟨name_injective tokens.1, boundTokens_iff.mp tokens.2⟩
  · rintro ⟨rfl, same⟩
    exact select_congr _ _ same

/-- The list ends with the first word that leads on to the table, since no item has that word. -/
theorem select_list_iff {as bs : List SelectItem} {a b : TableName} {limit other : Option UInt32} :
    select (SelectItem.list as) a limit = select (SelectItem.list bs) b other ↔
      as = bs ∧ a = b ∧ bound limit = bound other := by
  constructor
  · intro same
    have tokens := congrArg tokens? same
    rw [tokens_list, tokens_list, Option.some_inj, List.cons.injEq] at tokens
    have behind : .word "FROM" ∉ .name a.text :: boundTokens limit := by
      obtain ⟨-, none⟩ | ⟨n, -, some_⟩ := bound_cases limit
      · simp [none]
      · simp [some_]
    obtain ⟨list, -, rest⟩ := (List.append_cons_inj_of_notMem (from_not_mem_listTokens as)
      behind).mp tokens.2
    obtain ⟨table, bounds⟩ := List.cons.inj rest
    exact ⟨listTokens_injective list, name_injective table, boundTokens_iff.mp bounds⟩
  · rintro ⟨rfl, rfl, same⟩
    exact select_congr _ _ same

/-! ## Main result -/

/-- Every statement is read as the tokens that it is meant to have, whatever names are in it. So its
text determines the table, the bound, and the columns with the casts that their types ask for. -/
theorem statements_read (table : TableName) (columns : List Column) (limit : Option UInt32) :
    tokens? (probe table) = some [.word "SELECT", .mark '*', .word "FROM", .name table.text,
      .word "LIMIT", .number 1] ∧
    tokens? (count table) = some [.word "SELECT", .word "count", .mark '(', .mark '*', .mark ')',
      .word "FROM", .name table.text] ∧
    tokens? (selectAll table limit) = some ([.word "SELECT", .mark '*', .word "FROM",
      .name table.text] ++ boundTokens limit) ∧
    tokens? (select (Postgres.selectList columns) table limit) =
      some (.word "SELECT" :: (listTokens (columns.map SelectItem.ofColumn) ++
        .word "FROM" :: .name table.text :: boundTokens limit)) ∧
    (∀ other, probe table = probe other ↔ table = other) ∧
    (∀ other, count table = count other ↔ table = other) ∧
    (∀ other limit', selectAll table limit = selectAll other limit' ↔
      table = other ∧ bound limit = bound limit') ∧
    ∀ columns' other limit', select (Postgres.selectList columns) table limit =
        select (Postgres.selectList columns') other limit' ↔
      columns.map SelectItem.ofColumn = columns'.map SelectItem.ofColumn ∧
        table = other ∧ bound limit = bound limit' := by
  simp only [← SelectItem.list_ofColumn, probe_eq]
  refine ⟨tokens_selectAll table _, tokens_count table, tokens_selectAll table limit,
    tokens_list _ table limit, fun other => ?_, fun other => ?_, fun other limit' => selectAll_iff,
    fun columns' other limit' => select_list_iff⟩
  · rw [selectAll_iff, and_iff_left rfl]
  · refine ⟨fun same => ?_, congrArg count⟩
    have tokens := congrArg tokens? same
    rw [tokens_count, tokens_count] at tokens
    exact name_injective (by simpa using tokens)

/-- Names that end in quotes, stand next to a cast and look like SQL are read as names. -/
example : tokens? "SELECT \"a\"\"\"::text AS \"a\"\"\", \"\"\"; DROP\" FROM \"t\" LIMIT 20" =
    some [.word "SELECT", .name "a\"", .cast, .word "text", .word "AS", .name "a\"", .mark ',',
      .name "\"; DROP", .word "FROM", .name "t", .word "LIMIT", .number 20] := by
  decide +kernel

end TableExport.Sql
