import TableExport.Log.Event
import TableExport.Text.Blank
import TableExport.Text.LetterCase

/-!
# Log filters

A filter is a list of rules. A rule names the start of a target, or nothing for
all targets, and the least level it lets through. Of the rules that fit an
event's target the one with the longest name decides.
-/
namespace TableExport.Log

/-- The least level that the settings name. Unknown names stand for `info`. -/
def Level.ofSetting (text : String) : Level :=
  let word := Text.lower (Text.trim text)
  if word = "trace" then .trace
  else if word = "debug" then .debug
  else if word = "info" then .info
  else if word = "warn" ∨ word = "warning" then .warn
  else if word = "error" ∨ word = "fatal" then .error
  else .info

/-- The level as a filter writes it. -/
def Level.directive (level : Level) : String := Text.lower level.name

/-- Lets through the events of a target from some level on; none without a level. -/
structure Rule where
  target : String
  least : Option Level
  deriving DecidableEq, Repr

structure Filter where
  rules : List Rule
  deriving DecidableEq, Repr

namespace Filter

/-- Keeps events from one level on, whatever their target. -/
def ofLevel (level : Level) : Filter := ⟨[⟨"", some level⟩]⟩

/-- A rule replaces an earlier one of the same target. -/
def add (rules : List Rule) (rule : Rule) : List Rule :=
  rules.filter (fun other => other.target != rule.target) ++ [rule]

/-- The levels by number; the first is none at all. -/
def levels : List (Option Level) :=
  [none, some .error, some .warn, some .info, some .debug, some .trace]

/-- A level by name in any letter case, or by number. -/
def level? (word : List Char) : Option (Option Level) :=
  let digits := match word with
    | '+' :: rest => rest
    | cs => cs
  if !digits.isEmpty && digits.all Char.isDigit then levels[Decimal.value digits]?
  else if Text.sameLetters (String.ofList word) "off" then some none
  else
    ([.error, .warn, .info, .debug, .trace] : List Level).findSome? fun level =>
      if Text.sameLetters (String.ofList word) level.name then some (some level) else none

/-- The characters that a rule may begin with: letters, digits, hyphens, colons and
underscores. -/
def canBegin (c : Char) : Bool :=
  c.isAlphanum || c = '-' || c = ':' || c = '_' || '\u0080' ≤ c

/-- One rule: a level, a target, or a target with a level after an equals sign. A target
alone lets everything through, as does one with nothing after the equals sign. Blanks
belong to what is read, and none may stand in front of a target with an equals sign. -/
def rule? (text : List Char) : Option Rule :=
  if !((Text.trimmed text).head?.any canBegin) || text.contains '[' then none
  else
    match text.dropWhile (· ≠ '=') with
    | [] =>
      match level? text with
      | some least => some ⟨"", least⟩
      | none => some ⟨String.ofList text, some .trace⟩
    | _ :: word =>
      if text.head?.any Text.isBlank then none
      else
        let target := String.ofList (text.takeWhile (· ≠ '='))
        if word.isEmpty then some ⟨target, some .trace⟩
        else (level? word).map fun least => ⟨target, least⟩

def splitCommas (text : List Char) : List (List Char) :=
  text.splitBy (fun a b => a != ',' && b != ',') |>.filter fun piece => piece != [',']

/-- Rules separated by commas; nothing if one of them cannot be read. Without any
rule only errors are kept. -/
def ofText? (text : String) : Option Filter :=
  ((splitCommas text.toList).mapM rule?).map fun rules =>
    if rules.isEmpty then ofLevel .error else ⟨rules.foldl add []⟩

/-- The rule that decides about a target. -/
def deciding (f : Filter) (target : String) : Option Rule :=
  (f.rules.filter fun rule => rule.target.isPrefixOf target).foldl
    (fun best rule => match best with
      | none => some rule
      | some b => if b.target.length < rule.target.length then some rule else some b) none

def keeps (f : Filter) (event : Event) : Bool :=
  match (f.deciding event.target).bind Rule.least with
  | some least => least.rank ≤ event.level.rank
  | none => false

end Filter

/-- The filter of a run: the one given from outside if it can be read, otherwise
the level of the settings. -/
def Filter.choose (outside : Option String) (setting : String) : Filter :=
  (outside.bind Filter.ofText?).getD (.ofLevel (.ofSetting setting))

end TableExport.Log
