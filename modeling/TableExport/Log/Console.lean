import TableExport.Log.Event

/-!
# Log lines on the console

An event is shown as one JSON object per line, or in a form for readers.
-/
namespace TableExport.Log

inductive Format
  | json
  | readable
  deriving DecidableEq, Repr

namespace Json

/-- A character as it stands inside a JSON text. -/
def escaped (c : Char) : List Char :=
  match c with
  | '"' => ['\\', '"']
  | '\\' => ['\\', '\\']
  | '\n' => ['\\', 'n']
  | '\r' => ['\\', 'r']
  | '\t' => ['\\', 't']
  | '\x08' => ['\\', 'b']
  | '\x0c' => ['\\', 'f']
  | c =>
    if c < ' ' then
      ['\\', 'u', '0', '0', Nat.digitChar (c.toNat / 16), Nat.digitChar (c.toNat % 16)]
    else [c]

def text (s : String) : String := String.ofList ('"' :: (s.toList.flatMap escaped ++ ['"']))

def member (name value : String) : String := text name ++ ":" ++ value

def object (members : List String) : String := "\x7b" ++ ",".intercalate members ++ "\x7d"

end Json

def Datum.json : Datum → String
  | .shown s | .literal s => Json.text s
  | .number n => Decimal.integer n
  | .flag b => if b then "true" else "false"

def Event.json (time : String) (e : Event) : String :=
  let data := e.data.map fun (name, datum) => Json.member name datum.json
  Json.object
    [Json.member "timestamp" (Json.text time), Json.member "level" (Json.text e.level.name),
     Json.member "fields" (Json.object (Json.member "message" (Json.text e.message) :: data)),
     Json.member "target" (Json.text e.target)]

def Event.readable (time : String) (e : Event) : String :=
  "  " ++ time ++ " " ++ Text.padStart 5 e.level.name ++ " " ++ e.target ++ ": " ++ e.message ++
    String.join (e.data.map fun (name, datum) => ", " ++ name ++ ": " ++ datum.render) ++ "\n"

def Format.render (format : Format) (time : String) (e : Event) : String :=
  match format with
  | .json => e.json time
  | .readable => e.readable time

end TableExport.Log
