/-!
Letter case, as far as words of plain letters need it. A text is compared with such a word after
mapping its case, so the only characters that matter are those whose image is made of plain
letters.
-/

namespace CSharpAudit.Text

/-- Capitals of `c`. Besides the plain letters, a few characters have plain capitals: the dotless
i, the long s, the sharp s and the ligatures of f and s. All others keep their own image. -/
def capitals (c : Char) : List Char :=
  match c with
  | 'ı' => ['I']
  | 'ſ' => ['S']
  | 'ß' => ['S', 'S']
  | 'ﬀ' => ['F', 'F']
  | 'ﬁ' => ['F', 'I']
  | 'ﬂ' => ['F', 'L']
  | 'ﬃ' => ['F', 'F', 'I']
  | 'ﬄ' => ['F', 'F', 'L']
  | 'ﬅ' => ['S', 'T']
  | 'ﬆ' => ['S', 'T']
  | _ => [c.toUpper]

def upper (text : String) : String :=
  String.ofList (text.toList.flatMap capitals)

/-- Small plain letters. No other character has a plain letter other than i and k as its small
form. -/
def lowerPlain (text : List Char) : List Char :=
  text.map Char.toLower

end CSharpAudit.Text
