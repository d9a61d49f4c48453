/-!
# Blanks

The characters that trimming removes: the white space of the Unicode standard
without the next-line control, together with the byte order mark.
-/

namespace LadderDiagram
namespace Text

/-- A character that trimming removes at either end of a text. -/
def isBlank (char : Char) : Bool :=
  let code := char.toNat
  (0x09 ≤ code && code ≤ 0x0D) || code == 0x20 || code == 0xA0 ||
    code == 0x1680 || (0x2000 ≤ code && code ≤ 0x200A) ||
    code == 0x2028 || code == 0x2029 || code == 0x202F ||
    code == 0x205F || code == 0x3000 || code == 0xFEFF

def trimStart (chars : List Char) : List Char :=
  chars.dropWhile isBlank

def trimEnd (chars : List Char) : List Char :=
  (chars.reverse.dropWhile isBlank).reverse

def trimChars (chars : List Char) : List Char :=
  trimEnd (trimStart chars)

/-- A text without the blanks at either end. -/
def trim (text : String) : String :=
  String.ofList (trimChars text.toList)

/-- A text of nothing but blanks, the empty text included. -/
def isBlankText (text : String) : Bool :=
  text.toList.all isBlank

end Text
end LadderDiagram
