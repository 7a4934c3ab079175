import CSharpAudit.Text.Printable
import CSharpAudit.Text.Utf8

/-!
Texts in quotes. The quote is single unless the text holds a single quote and no double one. The
backslash, the quote itself and everything unprintable are escaped.
-/

namespace CSharpAudit.Text

def quoteFor (text : List Char) : Char :=
  if text.contains '\x27' && !text.contains '\x22' then '\x22' else '\x27'

def escape (quote c : Char) : String :=
  if c = quote || c = '\\' then String.ofList ['\\', c]
  else if c = '\n' then "\\n"
  else if c = '\r' then "\\r"
  else if c = '\t' then "\\t"
  else if isPrintable c then String.ofList [c]
  else if c.toNat < 0x100 then "\\x" ++ Utf8.hexDigits 2 c.toNat
  else if c.toNat < 0x10000 then "\\u" ++ Utf8.hexDigits 4 c.toNat
  else "\\U" ++ Utf8.hexDigits 8 c.toNat

def quoted (text : String) : String :=
  let quote := quoteFor text.toList
  String.singleton quote ++ String.join (text.toList.map (escape quote)) ++ String.singleton quote

end CSharpAudit.Text
