import ServiceBalancer.Text.Hidden

/-! Quoted text: a string between quotes, with escapes for what would not show. -/
namespace ServiceBalancer.Text

def hexDigits (n : Nat) : List Char := Nat.toDigits 16 n

/-- A character inside quotes. The backslash escapes the quote, itself and four controls;
another hidden character is written by its number. -/
def quoteChar (c : Char) : List Char :=
  if c = '"' then ['\\', '"']
  else if c = '\\' then ['\\', '\\']
  else if c = '\n' then ['\\', 'n']
  else if c = '\r' then ['\\', 'r']
  else if c = '\t' then ['\\', 't']
  else if c.toNat = 0 then ['\\', '0']
  else if isHidden c then ['\\', 'u', '\x7b'] ++ hexDigits c.toNat ++ ['\x7d']
  else [c]

def quoted (s : String) : String :=
  .ofList ('"' :: (s.toList.flatMap quoteChar ++ ['"']))

end ServiceBalancer.Text
