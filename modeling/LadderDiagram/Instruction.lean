import LadderDiagram.Text.Blank
import LadderDiagram.Text.Uppercase

/-!
# Instructions

An instruction has a mnemonic, operands and the canonical text that a rung
carries for it.  Its category says how large it is drawn.
-/

namespace LadderDiagram

/-- How an instruction is drawn: a contact, a coil or a block. -/
inductive Category
  | contact
  | coil
  | block
  deriving DecidableEq, Repr

namespace Category

def name : Category → String
  | .contact => "contact"
  | .coil => "coil"
  | .block => "block"

def ofName? (name : String) : Option Category :=
  [.contact, .coil, .block].find? (·.name == name)

/-- The upper-case mnemonics drawn as contacts. -/
def contactMnemonics : List String := ["XIC", "XIO", "ONS", "OSR", "OSF"]

/-- The upper-case mnemonics drawn as coils. -/
def coilMnemonics : List String := ["OTE", "OTL", "OTU"]

/-- The category of a mnemonic, in whatever case it is written. -/
def ofMnemonic (mnemonic : String) : Category :=
  let upper := Text.upper mnemonic
  if contactMnemonics.contains upper then .contact
  else if coilMnemonics.contains upper then .coil
  else .block

end Category

/-- One instruction of a rung. -/
structure Instruction where
  mnemonic : String
  operands : List String
  /-- The form in which the instruction is written back into rung text. -/
  text : String
  category : Category
  deriving DecidableEq, Repr

namespace Instruction

/-- The text of a mnemonic with its operands, as they stand. -/
def format (mnemonic : String) (operands : List String) : String :=
  mnemonic ++ "(" ++ ",".intercalate operands ++ ")"

/--
The instruction with a mnemonic and operands: the mnemonic is trimmed and
upper-cased, each operand is trimmed.
-/
def make (mnemonic : String) (operands : List String) : Instruction :=
  let normal := Text.upper (Text.trim mnemonic)
  let cleaned := operands.map Text.trim
  ⟨normal, cleaned, format normal cleaned, Category.ofMnemonic normal⟩

/-- The instruction that a tool drops onto a rung when it is given no other. -/
def placeholder : Category → Instruction
  | .contact => make "XIC" ["NewContact"]
  | .coil => make "OTE" ["NewCoil"]
  | .block => make "TON" ["Timer1", "1000", "0"]

end Instruction
end LadderDiagram
