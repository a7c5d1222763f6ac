import BackendSwitch.Text.Basic

/-! What can be wrong with a text, and how it is worded. -/
namespace BackendSwitch
set_option autoImplicit false

/-- What was missing, or what was found instead, where reading ended. -/
inductive Complaint where
  | unexpectedToken
  | lineEnd
  | structureStart
  | blockOpen
  | blockBody
  | attributeSign
  | repeatedKey
  | expression
  | traversalStep
  | closing (sign : Char)
  | colon
  | name
  | loopIn
  | arrow
  | argumentsOpen
  | argumentsClose
  | spread
  | exponentDigit
  | itemSign
  | itemEnd
  | shortHex
  | longHex
  | escape
  | branchEnd
  | loopEnd
  | heredocLine
  | heredocDelimiter
deriving DecidableEq, Repr

namespace Complaint

def message : Complaint → String
  | unexpectedToken => "unexpected token"
  | lineEnd => "expected newline or eof"
  | structureStart => "invalid structure; expected `\x7b`, `=`, `\"` or identifier"
  | blockOpen => "expected `\x7b`"
  | blockBody => "invalid block body; expected `\x7d`, newline or identifier"
  | attributeSign => "invalid attribute; expected `=`"
  | repeatedKey => "invalid attribute; expected unique attribute key; found redefined attribute"
  | expression =>
    "invalid expression; expected `\"`, `[`, `\x7b`, `-`, `!`, `(`, `_`, `<`, letter or digit"
  | traversalStep => "invalid traversal operator; expected `*`, identifier or unsigned integer"
  | closing sign => "expected `" ++ String.singleton sign ++ "`"
  | colon => "expected `:`"
  | name => "expected identifier"
  | loopIn => "expected `in`"
  | arrow => "expected `=>`"
  | argumentsOpen => "expected `(`"
  | argumentsClose => "expected `)` or expression"
  | spread => "expected `..`"
  | exponentDigit => "expected digit"
  | itemSign => "invalid object value assignment; expected `=` or `:`"
  | itemEnd => "invalid object item; expected `\x7d`, `,` or newline"
  | shortHex => "invalid unicode 4-digit hex code; unexpected token"
  | longHex => "invalid unicode 8-digit hex code; unexpected token"
  | escape => "invalid escape sequence; expected `b`, `f`, `n`, `r`, `t`, `u`, `U`, `\\` or `\"`"
  | branchEnd => "expected `endif`"
  | loopEnd => "expected `endfor`"
  | heredocLine => "expected newline"
  | heredocDelimiter => "expected heredoc end delimiter"

end Complaint
end BackendSwitch
