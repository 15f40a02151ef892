import NodeSwitcher.Text.Hidden
/-!
# Quoted text

The quoted form of a text, as it appears in error messages and log fields:
the text between double quotes, with the quote and the backslash escaped by a
backslash, tab, carriage return, line feed and NUL written `\t`, `\r`, `\n`,
`\0`, and every hidden character (`isHidden`) written `\u{hex}` with lowercase
hexadecimal digits and no leading zeros. Everything else, the apostrophe
included, stands for itself.
-/

namespace NodeSwitcher.Text

/-- The lowercase hexadecimal digits of a number, without leading zeros. -/
def hexDigits (n : Nat) : List Char :=
  Nat.toDigits 16 n

/-- How one character is written inside quoted text. -/
def escapeChar (c : Char) : List Char :=
  if c = '\x00' then ['\\', '0']
  else if c = '\t' then ['\\', 't']
  else if c = '\r' then ['\\', 'r']
  else if c = '\n' then ['\\', 'n']
  else if c = '\\' then ['\\', '\\']
  else if c = '"' then ['\\', '"']
  else if isHidden c then ['\\', 'u', '\x7b'] ++ hexDigits c.toNat ++ ['\x7d']
  else [c]

/-- The quoted form of a list of characters, without the surrounding quotes. -/
def escapeChars (cs : List Char) : List Char :=
  cs.flatMap escapeChar

/-- The quoted form of a text. -/
def quote (s : String) : String :=
  String.ofList ('"' :: escapeChars s.toList ++ ['"'])

end NodeSwitcher.Text
