import CampaignMarkup.Text.Printable

/-! # Escaped text

Text on one line between quotes: quotes, backslashes and the usual control characters are
escaped with a backslash, and characters that cannot be shown are written as their code points.
-/
namespace CampaignMarkup.Text

def escapeChar (c : Char) : List Char :=
  match c with
  | '\x00' => ['\\', '0']
  | '\t' => ['\\', 't']
  | '\r' => ['\\', 'r']
  | '\n' => ['\\', 'n']
  | '\\' => ['\\', '\\']
  | '"' => ['\\', '"']
  | c =>
    if isPrintable c then [c]
    else ['\\', 'u', '{'] ++ Nat.toDigits 16 c.toNat ++ ['}']

def escaped (s : String) : String :=
  String.ofList ('"' :: s.toList.flatMap escapeChar ++ ['"'])

end CampaignMarkup.Text
