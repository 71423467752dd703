import DateDisplay.Journal
import DateDisplay.Text.Quoted

/-!
# Lines of the journal

The journal is written one event a line, each as a JSON object: the level, the fields in their order,
and the message unless it is empty.
-/

namespace DateDisplay

open Text

namespace Event

/-- A character as it stands in a JSON string. -/
def jsonCharacter : Character → Text
  | .stray _ => replacement
  | .point n =>
    if n == 34 || n == 92 then [92, n.toUInt8]
    else if n < 32 then
      match n with
      | 8 => lit "\\b"
      | 9 => lit "\\t"
      | 10 => lit "\\n"
      | 12 => lit "\\f"
      | 13 => lit "\\r"
      | _ => lit "\\u" ++ hex 4 n
    else encodePoint n

/-- A text as a JSON string. -/
def jsonString (t : Text) : Text := 34 :: (characters t).flatMap jsonCharacter ++ [34]

/-- A value as JSON. -/
def jsonValue : FieldValue → Text
  | .text t => jsonString t
  | .number n => decimalInt n
  | .flag true => lit "true"
  | .flag false => lit "false"

/-- A member of a JSON object. -/
def jsonMember (f : Field) : Text := jsonString (lit f.1) ++ lit ":" ++ jsonValue f.2

/-- The line of an event. -/
def line (e : Event) : Text :=
  let message := if e.message.isEmpty then [] else [("message", FieldValue.text e.message)]
  let members := ("level", FieldValue.text (lit e.level.name)) :: e.fields ++ message
  0x7B :: join (lit ",") (members.map jsonMember) ++ [0x7D, 10]

end Event

end DateDisplay
