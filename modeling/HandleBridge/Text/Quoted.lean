/-
  HandleBridge.Text.Quoted — a text as the log quotes it.

  Quotes, backslashes and the common controls are written with a backslash; any other
  character that would not show as itself is written by its code point.
-/
import HandleBridge.Text.Hex
import HandleBridge.Text.Invisible

namespace HandleBridge.Quoted

def byCodePoint (c : Char) : String := "\\u\x7b" ++ Hex.render c.toNat ++ "\x7d"

def escape (c : Char) : String :=
  if c = '"' then "\\\""
  else if c = '\\' then "\\\\"
  else if c = '\n' then "\\n"
  else if c = '\r' then "\\r"
  else if c = '\t' then "\\t"
  else if c = '\x00' then "\\0"
  else if c.toNat < 0x20 ∨ c.toNat = 0x7f then byCodePoint c
  else if c.toNat < 0x7f then String.singleton c
  else if Invisible.isInvisible c then byCodePoint c
  else String.singleton c

def quote (s : String) : String := "\"" ++ String.join (s.toList.map escape) ++ "\""

end HandleBridge.Quoted
