import LadderDiagram.Xml.Attribute

/-!
# Well-formed documents

The check that a document passes before it is read: its tags are named, spelled
and nested properly, it has one root, and ampersands start references.  The
check stops at the first fault.  A fault names its cause and its place, and a
place is what is left of the text there.
-/

namespace LadderDiagram
namespace Xml

/-- Why a document is not well formed. -/
inductive FaultCause
  | lateDeclaration
  | noTagName
  | badTagName (name : String)
  | openQuote (name : String)
  | attributeFault (name : String) (fault : AttributeFault)
  | closingNotEnded (name : String)
  | closingWithText (name : String)
  | closingNotOpened (name : String)
  | closingMismatch (opened : String) (openedAt : List Char) (closed : String)
  | secondRoot
  | strayAmpersand
  | textBehindRoot
  | strayCharacter (char : Char)
  | noTag
  | unclosed (name : String)
  | severalUnclosed (names : List String)

/-- A cause with the place of the fault. -/
structure Fault where
  cause : FaultCause
  place : List Char

namespace FaultCause

/-- A name between double quotes, as lists of open tags show it. -/
def quoted (name : String) : String := "    \"" ++ name ++ "\""

def message (text : List Char) : FaultCause → String
  | .lateDeclaration => "XML declaration allowed only at the start of the document."
  | .noTagName => "Invalid space after '<'."
  | .badTagName name => "Tag '" ++ name ++ "' is an invalid name."
  | .openQuote name => "Attributes for '" ++ name ++ "' have open quote."
  | .attributeFault name fault => fault.message name
  | .closingNotEnded name => "Closing tag '" ++ name ++ "' doesn't have proper closing."
  | .closingWithText name =>
      "Closing tag '" ++ name ++ "' can't have attributes or invalid starting."
  | .closingNotOpened name => "Closing tag '" ++ name ++ "' has not been opened."
  | .closingMismatch opened openedAt closed =>
      let position := Text.Position.of text openedAt
      "Expected closing tag '" ++ opened ++ "' (opened in line " ++ toString position.line ++
        ", col " ++ toString position.column ++ ") instead of closing tag '" ++ closed ++ "'."
  | .secondRoot => "Multiple possible root nodes found."
  | .strayAmpersand => "char '&' is not expected."
  | .textBehindRoot => "Extra text at the end"
  | .strayCharacter char =>
      "char '" ++ String.singleton (Text.firstUnit char) ++ "' is not expected."
  | .noTag => "Start tag expected."
  | .unclosed name => "Unclosed tag '" ++ name ++ "'."
  | .severalUnclosed names => "Invalid '[" ++ ",".intercalate (names.map quoted) ++ "]' found."

end FaultCause

/-! ### Declarations and references -/

/-- Whether what follows `<?` declares the document's version. -/
def isDeclaration : List Char → Bool
  | 'x' :: 'm' :: 'l' :: next :: _ => next == ' ' || next == '?'
  | _ => false

/-- What follows the angle bracket that closes as many as are open. -/
def dropBrackets (opened : Nat) : List Char → List Char
  | [] => []
  | '<' :: rest => dropBrackets (opened + 1) rest
  | '>' :: rest => if opened ≤ 1 then rest else dropBrackets (opened - 1) rest
  | _ :: rest => dropBrackets opened rest

theorem length_dropBrackets_le (opened : Nat) (chars : List Char) :
    (dropBrackets opened chars).length ≤ chars.length := by
  fun_induction dropBrackets opened chars <;> simp_all <;> omega

/--
What is left of a text behind `<!` after a comment, a document type or a
character section.  Anything else is not skipped, nor is what is too near the
end of the text.
-/
def skipDeclaration (chars : List Char) : List Char :=
  if "--".toList.isPrefixOf chars && 5 ≤ Text.unitLength (chars.take 5) then
    Text.dropPast "-->".toList (chars.drop 2)
  else if "DOCTYPE".toList.isPrefixOf chars && 8 ≤ Text.unitLength (chars.take 8) then
    dropBrackets 1 (chars.drop 7)
  else if "[CDATA[".toList.isPrefixOf chars && 9 ≤ Text.unitLength (chars.take 9) then
    Text.dropPast "]]>".toList (chars.drop 7)
  else chars

theorem length_skipDeclaration_le (chars : List Char) :
    (skipDeclaration chars).length ≤ chars.length := by
  unfold skipDeclaration
  split
  · refine Nat.le_trans (Text.length_dropPast_le _ _) ?_
    simp
  · split
    · refine Nat.le_trans (length_dropBrackets_le _ _) ?_
      simp
    · split
      · refine Nat.le_trans (Text.length_dropPast_le _ _) ?_
        simp
      · exact Nat.le_refl _

def inReferenceName (char : Char) : Bool := char.isAlphanum || char == '_'

/-- The longest name that a reference may have. -/
def referenceLimit : Nat := 20

/-- A digit of a number in base sixteen. -/
def isHexDigit (char : Char) : Bool :=
  char.isDigit || ('a' ≤ char && char ≤ 'f') || ('A' ≤ char && char ≤ 'F')

/-- What follows a semicolon that must be next. -/
def pastSemicolon? : List Char → Option (List Char)
  | ';' :: rest => some rest
  | _ => none

/--
What is left of a text behind an ampersand after the reference that must start
there.  The text may end within the name of a reference.
-/
def afterReference? : List Char → Option (List Char)
  | ';' :: _ => none
  | '#' :: 'x' :: rest => pastSemicolon? (rest.dropWhile isHexDigit)
  | '#' :: rest => pastSemicolon? (rest.dropWhile Char.isDigit)
  | rest =>
      if referenceLimit < (rest.takeWhile inReferenceName).length then none
      else
        match rest.dropWhile inReferenceName with
        | [] => some []
        | left => pastSemicolon? left

theorem length_pastSemicolon {chars after : List Char}
    (found : pastSemicolon? chars = some after) : after.length ≤ chars.length := by
  unfold pastSemicolon? at found
  split at found <;> simp_all

theorem length_afterReference {chars after : List Char}
    (found : afterReference? chars = some after) : after.length ≤ chars.length := by
  unfold afterReference? at found
  split at found
  · simp at found
  · rename_i rest
    have := length_pastSemicolon found
    have := Text.length_dropWhile_le isHexDigit rest
    simp only [List.length_cons]
    omega
  · rename_i rest _
    have := length_pastSemicolon found
    have := Text.length_dropWhile_le Char.isDigit rest
    simp only [List.length_cons]
    omega
  · split at found
    · simp at found
    · split at found
      · obtain rfl := Option.some.inj found
        simp
      · have := length_pastSemicolon found
        have := Text.length_dropWhile_le inReferenceName chars
        omega

/-! ### Tags -/

/-- How the text behind a tag's name ends. -/
inductive TagEnd
  | bracket
  | textEnd
  | quote
  deriving DecidableEq, Repr

/-- A tag as it is written. -/
structure TagText where
  closing : Bool
  name : List Char
  /-- The text behind the name. -/
  content : List Char
  ending : TagEnd
  /-- What is left of the document at the text behind the name. -/
  contentPlace : List Char
  /-- What is left of the document behind the tag. -/
  rest : List Char

def endsTagName (char : Char) : Bool := char == '>' || isSpace char

def quoteAfter (quote? : Option Char) (char : Char) : Option Char :=
  match quote? with
  | some quote => if char == quote then none else some quote
  | none => if char == '"' || char == '\'' then some char else none

/-- The text up to a closing bracket that stands in no quotes, and how it ends. -/
def takeContent (quote? : Option Char) : List Char → List Char × TagEnd
  | [] => ([], if quote?.isSome then .quote else .textEnd)
  | char :: rest =>
      if char == '>' && quote?.isNone then ([], .bracket)
      else
        let (content, ending) := takeContent (quoteAfter quote? char) rest
        (char :: content, ending)

def endsWithStroke (chars : List Char) : Bool := chars.getLast? == some '/'

namespace TagText

/--
The text behind a tag's name.  A stroke that ends the name belongs to that
text.
-/
def contentStart (chars : List Char) : List Char :=
  let raw := chars.takeWhile (!endsTagName ·)
  let stroke := if endsWithStroke (Text.trimChars raw) then 1 else 0
  chars.drop (raw.length - stroke)

/-- The name and the content of a tag whose kind is known. -/
def readNamed (closing : Bool) (chars : List Char) : TagText :=
  let name := Text.trimChars (chars.takeWhile (!endsTagName ·))
  let (content, ending) := takeContent none (contentStart chars)
  { closing := closing
    name := if endsWithStroke name then name.dropLast else name
    content := content
    ending := ending
    contentPlace := contentStart chars
    rest := (contentStart chars).drop (content.length + 1) }

/-- The tag behind an opening bracket. -/
def read : List Char → TagText
  | '/' :: rest => readNamed true rest
  | chars => readNamed false chars

theorem length_rest_readNamed_le (closing : Bool) (chars : List Char) :
    (readNamed closing chars).rest.length ≤ chars.length := by
  simp only [readNamed, contentStart, List.length_drop]
  omega

theorem length_rest_read_le (chars : List Char) : (read chars).rest.length ≤ chars.length := by
  unfold read
  split
  next rest =>
    have := length_rest_readNamed_le true rest
    simp only [List.length_cons]
    omega
  next => exact length_rest_readNamed_le false _

end TagText

/-! ### The check -/

/-- An open tag and the place of its bracket. -/
structure OpenTag where
  name : List Char
  place : List Char

/-- What the check knows of the text that it has passed. -/
structure Progress where
  /-- The open tags, innermost first. -/
  opened : List OpenTag
  tagSeen : Bool
  rootClosed : Bool

namespace Progress

/-- At the beginning of a document. -/
def start : Progress := ⟨[], false, false⟩

/-- The first fault in the text behind a tag's name. -/
def contentFault? (tag : TagText) (content : List Char) : Option Fault :=
  (firstFault [] (writtenAttributes content)).map fun (fault, written) =>
    ⟨.attributeFault (String.ofList written.name) fault,
      tag.contentPlace.drop (content.length - written.place.length)⟩

/-- Takes a closing tag that starts at `place`. -/
def close (progress : Progress) (tag : TagText) (place : List Char) : Except Fault Progress :=
  let name := String.ofList tag.name
  if tag.ending != .bracket then .error ⟨.closingNotEnded name, []⟩
  else if !tag.content.all Text.isBlank then .error ⟨.closingWithText name, place⟩
  else
    match progress.opened with
    | [] => .error ⟨.closingNotOpened name, place⟩
    | innermost :: outer =>
        if innermost.name == tag.name then
          .ok ⟨outer, progress.tagSeen, progress.rootClosed || outer.isEmpty⟩
        else
          .error ⟨.closingMismatch (String.ofList innermost.name) innermost.place name, place⟩

/-- Takes a tag that starts at `place`. -/
def takeTag (progress : Progress) (tag : TagText) (place : List Char) :
    Except Fault Progress :=
  let name := String.ofList tag.name
  if tag.name.isEmpty then .error ⟨.noTagName, place⟩
  else if !isName tag.name then .error ⟨.badTagName name, place⟩
  else if tag.ending == .quote then .error ⟨.openQuote name, place⟩
  else if endsWithStroke tag.content then
    match contentFault? tag tag.content.dropLast with
    | some fault => .error fault
    | none => .ok { progress with tagSeen := true }
  else if tag.closing then progress.close tag place
  else
    match contentFault? tag tag.content with
    | some fault => .error fault
    | none =>
        if progress.rootClosed then
          .error ⟨.secondRoot, tag.contentPlace.drop tag.content.length⟩
        else .ok ⟨⟨tag.name, place⟩ :: progress.opened, true, progress.rootClosed⟩

/-- Takes a character that belongs to no tag, with what is left of the text there. -/
def takeCharacter (progress : Progress) (char : Char) (place : List Char) : Option Fault :=
  if isSpace char then none
  else if !progress.tagSeen then some ⟨.strayCharacter char, place⟩
  else if progress.rootClosed then some ⟨.textBehindRoot, place⟩
  else none

/-- What is missing at the end of a document. -/
def atEnd (progress : Progress) (text : List Char) : Option Fault :=
  if !progress.tagSeen then some ⟨.noTag, text⟩
  else
    match progress.opened with
    | [] => none
    | [tag] => some ⟨.unclosed (String.ofList tag.name), tag.place⟩
    | tags => some ⟨.severalUnclosed (tags.reverse.map (String.ofList ·.name)), text⟩

end Progress

/--
Passes over a text.  Before the first tag only blanks and declarations may
stand; `atStart` tells the beginning of the document, where alone its version
may be declared.
-/
def pass (progress : Progress) (atStart : Bool) : List Char → Except Fault Progress
  | [] => .ok progress
  | '<' :: '?' :: rest =>
      if progress.tagSeen then
        pass progress false (Text.dropPast "?>".toList ('?' :: rest))
      else if !atStart && isDeclaration rest then
        .error ⟨.lateDeclaration, '<' :: '?' :: rest⟩
      else pass progress false (Text.dropPast "?>".toList rest)
  | '<' :: '!' :: rest => pass progress false (skipDeclaration rest)
  | '<' :: rest =>
      match progress.takeTag (.read rest) ('<' :: rest) with
      | .error fault => .error fault
      | .ok next => pass next false (TagText.read rest).rest
  | char :: rest =>
      if char == '&' && progress.tagSeen then
        match _found : afterReference? rest with
        | none => .error ⟨.strayAmpersand, char :: rest⟩
        | some left => pass progress false left
      else
        match progress.takeCharacter char (char :: rest) with
        | some fault => .error fault
        | none => pass progress false rest
termination_by chars => chars.length
decreasing_by
  · have := Text.length_dropPast_le "?>".toList ('?' :: rest)
    simp only [List.length_cons] at this ⊢
    omega
  · have := Text.length_dropPast_le "?>".toList rest
    simp only [List.length_cons]
    omega
  · have := length_skipDeclaration_le rest
    simp only [List.length_cons]
    omega
  · have := TagText.length_rest_read_le rest
    simp only [List.length_cons]
    omega
  · have := length_afterReference _found
    simp only [List.length_cons]
    omega
  · simp

/-- A text without a byte order mark in front. -/
def withoutMark : List Char → List Char
  | '\uFEFF' :: rest => rest
  | text => text

/-- A fault as it is reported: the line and the message. -/
structure Report where
  line : Nat
  message : String
  deriving DecidableEq, Repr

/-- The first fault of a document. -/
def check? (document : List Char) : Option Report :=
  let text := withoutMark document
  let fault? :=
    match pass .start true text with
    | .error fault => some fault
    | .ok progress => progress.atEnd text
  fault?.map fun fault =>
    ⟨(Text.Position.of text fault.place).line, fault.cause.message text⟩

end Xml
end LadderDiagram
