import Scriptlet.Text.Invisible
/-!
# Quoted text

Text between quotes is written so that each character shows: the quote and the
backslash after a backslash, the null character, tab, newline and carriage return
by a letter, and an invisible character by its code point in hexadecimal.
-/

namespace Scriptlet.Text

def codePoint (c : Char) : List Char :=
  '\\' :: 'u' :: '\x7b' :: (Nat.toDigits 16 c.toNat ++ ['\x7d'])

def escape (quote c : Char) : List Char :=
  if c = '\x00' then ['\\', '0']
  else if c = '\t' then ['\\', 't']
  else if c = '\n' then ['\\', 'n']
  else if c = '\r' then ['\\', 'r']
  else if c = '\\' ∨ c = quote then ['\\', c]
  else if isInvisible c then codePoint c
  else [c]

def between (quote : Char) (cs : List Char) : List Char :=
  quote :: (cs.flatMap (escape quote) ++ [quote])

def quoted (text : String) : String := String.ofList (between '"' text.toList)

def quotedChar (c : Char) : String := String.ofList (between '\x27' [c])

end Scriptlet.Text
