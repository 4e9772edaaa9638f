import Exchange.Text.Hidden

/-!
Quoted text: how strings and byte strings are shown inside the text of a value.

A string stands between double quotes. The quote and the backslash are preceded by a backslash,
the common controls have letters of their own (`\n`, `\t`, `\r`, `\0`), and any other hidden
character is written by its number in braces. A byte string has the letter `b` in front, and every
byte outside printable ASCII is written with two hexadecimal digits.
-/
namespace Exchange.Text

/-- The lower-case hexadecimal digits of `n`, without leading zeros. -/
def hexDigits (n : Nat) : String := String.ofList (Nat.toDigits 16 n)

/-- Two lower-case hexadecimal digits. -/
def hexPair (b : UInt8) : String :=
  String.ofList [Nat.digitChar (b.toNat / 16), Nat.digitChar (b.toNat % 16)]

/-- One character between the quotes of a string. -/
def quoteChar (c : Char) : String :=
  if c = '"' then "\\\""
  else if c = '\\' then "\\\\"
  else if c = '\n' then "\\n"
  else if c = '\t' then "\\t"
  else if c = '\r' then "\\r"
  else if c = '\x00' then "\\0"
  else if hidden c then "\\u\x7b" ++ hexDigits c.toNat ++ "\x7d"
  else c.toString

/-- A string between quotes. -/
def quote (s : String) : String :=
  "\"" ++ String.join (s.toList.map quoteChar) ++ "\""

/-- One byte between the quotes of a byte string. -/
def quoteByte (b : UInt8) : String :=
  if b = 0x22 then "\\\""
  else if b = 0x5c then "\\\\"
  else if b = 0x0a then "\\n"
  else if b = 0x09 then "\\t"
  else if b = 0x0d then "\\r"
  else if b = 0x00 then "\\0"
  else if 0x20 ≤ b ∧ b < 0x7f then (Char.ofNat b.toNat).toString
  else "\\x" ++ hexPair b

/-- A byte string between quotes. -/
def quoteBytes (bytes : List UInt8) : String :=
  "b\"" ++ String.join (bytes.map quoteByte) ++ "\""

end Exchange.Text
