import Strand.Text.Printable

/-! Text in double quotes, as diagnostics show it, with escapes for quotes, backslashes and
characters without a printed form. -/
namespace Strand.Text

def hexDigits (n : Nat) : String := String.ofList (Nat.toDigits 16 n)

def escaped (c : Char) : String :=
  match c with
  | '\t' => "\\t"
  | '\r' => "\\r"
  | '\n' => "\\n"
  | '"' => "\\\""
  | '\\' => "\\\\"
  | c =>
    if c.toNat = 0 then "\\0"
    else if isPrintable c then c.toString
    else "\\u\x7b" ++ hexDigits c.toNat ++ "\x7d"

/-- A text between double quotes, on one line and with nothing in it invisible. -/
def quoted (s : String) : String :=
  "\"" ++ String.join (s.toList.map escaped) ++ "\""

end Strand.Text
