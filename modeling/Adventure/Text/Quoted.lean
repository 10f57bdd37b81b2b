/-
# Quoted text

The form in which the log shows a text: between double quotes, with quotes,
backslashes and characters that cannot be shown written as escapes.  The
texts of a database hold Latin-1 characters and a few letters of the
character set; the characters that cannot be shown among them are the
controls 0 to 31 and 127 to 159, the no-break space and the soft hyphen.
-/

namespace Adventure
namespace Quoted

/-- Whether a character is shown only as an escape. -/
def isHidden (c : Char) : Bool :=
  c.toNat < 32 || (127 ≤ c.toNat && c.toNat ≤ 160) || c.toNat == 173

/-- One character between the quotes. -/
def character (c : Char) : String :=
  if c = '"' then "\\\""
  else if c = '\\' then "\\\\"
  else if c = '\x00' then "\\0"
  else if c = '\t' then "\\t"
  else if c = '\n' then "\\n"
  else if c = '\r' then "\\r"
  else if isHidden c then
    "\\u\x7b" ++ String.ofList (Nat.toDigits 16 c.toNat) ++ "\x7d"
  else String.singleton c

/-- A text between quotes. -/
def text (s : String) : String :=
  s.foldl (fun line c => line ++ character c) "\"" ++ "\""

end Quoted
end Adventure
