import LadderDiagram.Decimal.Numeral
import LadderDiagram.Proofs.Text.Trim
import Mathlib

/-!
# Numerals

A text is read as a number if it is blank or a numeral between blanks, and then its number is the
double nearest to what the numeral writes.
-/

namespace LadderDiagram
namespace Decimal

open Float.Model Float.Model.UnpackedFloat

/-! ### Doubles that are numbers -/

/-- Packing neither makes nor hides a number. -/
theorem isNaN_unpack_pack (value : UnpackedFloat) :
    (unpack .binary64 (UnpackedFloat.pack .binary64 value)).isNaN = value.isNaN := by
  cases value with
  | infinity sign => cases sign <;> rfl
  | notANumber => rfl
  | zero sign => cases sign <;> rfl
  | finite sign mantissa exponent positive =>
      change _ = false
      rw [UnpackedFloat.pack]
      dsimp only
      split
      · cases sign <;> rfl
      · rename_i bounded
        -- The exponent is not the one that is kept for infinities and what is no number.
        have ordinary (exponent : BitVec 11) (part : BitVec 52) (small : exponent ≠ -1#11) :
            (unpack .binary64 (packComponents .binary64 sign exponent part)).isNaN = false := by
          rw [UnpackedFloat.unpack]
          simp only [unpackMantissa_packComponents, unpackExponent_packComponents]
          rw [if_neg small]
          split
          · split <;> rfl
          · rfl
        split
        · apply ordinary
          intro same
          have values := congrArg BitVec.toNat same
          rw [BitVec.toNat_ofNat] at values
          change _ % 2 ^ 11 = 2047 at values
          omega
        · exact ordinary _ _ (by decide)

theorem isNaN_ofModel_pack (value : UnpackedFloat) :
    (Float.ofModel (.pack value)).isNaN = value.isNaN := isNaN_unpack_pack value

theorem isNaN_roundWithAccuracy (sign : Sign) (mantissa : Nat) (exponent : Int)
    (accuracy : Accuracy) :
    (roundWithAccuracy .binary64 sign mantissa exponent accuracy).isNaN = false := by
  unfold roundWithAccuracy
  dsimp only
  split <;> rfl

/-- A number times or through one that is neither zero nor infinite is a number. -/
theorem isNaN_unpacked_mul_div {value : UnpackedFloat} (isNumber : value.isNaN = false)
    (sign : Sign) (mantissa : Nat) (exponent : Int) (positive : 0 < mantissa) :
    (UnpackedFloat.mul .binary64 value (.finite sign mantissa exponent positive)).isNaN = false ∧
      (UnpackedFloat.div .binary64 value (.finite sign mantissa exponent positive)).isNaN =
        false := by
  cases value with
  | notANumber => cases isNumber
  | infinity own => exact ⟨rfl, rfl⟩
  | zero own => exact ⟨rfl, rfl⟩
  | finite own factor power nonzero =>
      exact ⟨isNaN_roundWithAccuracy _ _ _ _, isNaN_roundWithAccuracy _ _ _ _⟩

/-- Whether a double is a number that is neither zero nor infinite. -/
def isNonzero (value : Float) : Bool :=
  match value.toModel.unpack with
  | .finite .. => true
  | _ => false

theorem isNaN_mul_div {value power : Float} (isNumber : value.isNaN = false)
    (nonzero : isNonzero power) :
    (value * power).isNaN = false ∧ (value / power).isNaN = false := by
  obtain ⟨sign, mantissa, exponent, positive, isFinite⟩ :
      ∃ sign mantissa exponent positive,
        power.toModel.unpack = .finite sign mantissa exponent positive := by
    unfold isNonzero at nonzero
    split at nonzero
    · rename_i sign mantissa exponent positive isFinite
      exact ⟨sign, mantissa, exponent, positive, isFinite⟩
    · cases nonzero
  have both := isNaN_unpacked_mul_div isNumber sign mantissa exponent positive
  rw [← isFinite] at both
  exact ⟨(isNaN_ofModel_pack _).trans both.1, (isNaN_ofModel_pack _).trans both.2⟩

theorem isNaN_unpacked_ofScientific (mantissa : Nat) (exponent : Int) :
    (UnpackedFloat.ofScientific .binary64 mantissa exponent).isNaN = false := by
  unfold UnpackedFloat.ofScientific
  split
  · rfl
  split
  · rfl
  split
  · rfl
  split
  · exact (isNaN_unpacked_mul_div rfl _ _ _ _).1
  · exact (isNaN_unpacked_mul_div rfl _ _ _ _).2

theorem isNaN_unpacked_ofNat (value : Nat) :
    (UnpackedFloat.ofNat .binary64 value).isNaN = false := by
  unfold UnpackedFloat.ofNat UnpackedFloat.ofInt UnpackedFloat.normalize
  split
  · exact isNaN_roundWithAccuracy _ _ _ _
  · rfl
  · exact isNaN_roundWithAccuracy _ _ _ _

theorem isNonzero_powerOfTen : ∀ exponent : Fin 23,
    isNonzero Float.exactlyRepresentablePowersOfTen[exponent] = true := by
  decide +kernel

/-- A decimal with few digits is read by one operation, any other with all digits at once. -/
theorem isNaN_ofScientific (mantissa : Nat) (negative : Bool) (exponent : Nat) :
    (Float.ofScientific mantissa negative exponent).isNaN = false := by
  unfold Float.ofScientific
  split
  · rename_i few
    have isNumber : (mantissa.toUInt64.toFloat).isNaN = false :=
      (isNaN_ofModel_pack _).trans (isNaN_unpacked_ofNat _)
    have both := isNaN_mul_div isNumber (isNonzero_powerOfTen ⟨exponent, by omega⟩)
    cases negative with
    | true => exact both.2
    | false => exact both.1
  · exact (isNaN_ofModel_pack _).trans (isNaN_unpacked_ofScientific _ _)

theorem isNaN_nearest (mantissa : Nat) (exponent : Int) :
    (nearest mantissa exponent).isNaN = false := by
  unfold nearest
  dsimp only
  split
  · decide +kernel
  split
  · decide +kernel
  split
  · decide +kernel
  split
  · exact isNaN_ofScientific _ _ _
  · exact isNaN_ofScientific _ _ _

theorem isNaN_neg (value : Float) : (-value).isNaN = value.isNaN := by
  refine (isNaN_ofModel_pack _).trans ?_
  change value.toModel.unpack.neg.isNaN = value.toModel.unpack.isNaN
  cases value.toModel.unpack <;> rfl

theorem isNaN_signed (negative : Bool) (value : Float) :
    (signed negative value).isNaN = value.isNaN := by
  cases negative with
  | false => rfl
  | true => exact isNaN_neg value

/-! ### The grammar of numerals -/

def AreDigits (digits : List Char) : Prop := ∀ char ∈ digits, char.isDigit = true

inductive SignText : List Char → Bool → Prop
  | none : SignText [] false
  | plus : SignText ['+'] false
  | minus : SignText ['-'] true

/-- A fraction and its digits. -/
inductive FractionText : List Char → List Char → Prop
  | none : FractionText [] []
  | point {digits : List Char} : AreDigits digits → FractionText ('.' :: digits) digits

inductive ExponentText : List Char → Int → Prop
  | none : ExponentText [] 0
  | marked {mark : Char} {sign digits : List Char} {negative : Bool} :
      mark ∈ ['e', 'E'] → SignText sign negative → digits ≠ [] → AreDigits digits →
      ExponentText (mark :: (sign ++ digits))
        (if negative then -(digitsValue digits : Int) else digitsValue digits)

/-- An unsigned decimal and the double nearest to it; it has a digit in front of its exponent. -/
inductive DecimalText : List Char → Float → Prop
  | mk {whole fraction part exponent : List Char} {power : Int} :
      AreDigits whole → FractionText fraction part → ExponentText exponent power →
      whole ++ part ≠ [] →
      DecimalText (whole ++ (fraction ++ exponent))
        (nearest (digitsValue (whole ++ part)) (power - part.length))

/-- A signed decimal or infinity and its number. -/
inductive PlainNumeral : List Char → Float → Prop
  | decimal {sign body : List Char} {negative : Bool} {value : Float} :
      SignText sign negative → DecimalText body value →
      PlainNumeral (sign ++ body) (signed negative value)
  | infinite {sign : List Char} {negative : Bool} :
      SignText sign negative →
      PlainNumeral (sign ++ "Infinity".toList) (signed negative (1 / 0))

/-- The marks of the bases that are not ten. -/
def baseMarks : List (Char × Nat) :=
  [('x', 16), ('X', 16), ('o', 8), ('O', 8), ('b', 2), ('B', 2)]

/-- A numeral and its number. -/
inductive Numeral : List Char → Float → Prop
  | plain {chars : List Char} {value : Float} : PlainNumeral chars value → Numeral chars value
  | based {mark : Char} {base value : Nat} {digits : List Char} :
      (mark, base) ∈ baseMarks → baseValue? base digits = some value →
      Numeral ('0' :: mark :: digits) (ofNat value)

/-! ### Reading decimals -/

theorem takeDigits_append {digits rest : List Char} (areDigits : AreDigits digits)
    (ends : ∀ char ∈ rest.head?, char.isDigit = false) :
    takeDigits (digits ++ rest) = (digits, rest) := by
  unfold takeDigits
  rw [List.takeWhile_append_of_pos areDigits, List.dropWhile_append_of_pos areDigits]
  cases rest with
  | nil => simp
  | cons first others =>
      have stops := ends first rfl
      rw [List.takeWhile_cons_of_neg (by simp [stops]),
        List.dropWhile_cons_of_neg (by simp [stops]), List.append_nil]

theorem areDigits_takeDigits (chars : List Char) :
    AreDigits (takeDigits chars).1 ∧ (takeDigits chars).1 ++ (takeDigits chars).2 = chars :=
  ⟨fun _ member => List.mem_takeWhile_imp member, List.takeWhile_append_dropWhile⟩

/-- The signs. -/
def isSign (char : Char) : Bool := char == '+' || char == '-'

theorem takeSign_append {sign body : List Char} {negative : Bool} (isText : SignText sign negative)
    (unsigned : ∀ char ∈ body.head?, isSign char = false) :
    takeSign (sign ++ body) = (negative, body) := by
  cases isText with
  | plus => rfl
  | minus => rfl
  | none =>
      cases body with
      | nil => rfl
      | cons first rest =>
          have other := unsigned first rfl
          have notMinus : first ≠ '-' := fun same => by rw [same] at other; cases other
          have notPlus : first ≠ '+' := fun same => by rw [same] at other; cases other
          change takeSign (first :: rest) = _
          rw [takeSign]
          · exact fun others same => notMinus (List.cons.inj same).1
          · exact fun others same => notPlus (List.cons.inj same).1

theorem exists_signText (chars : List Char) :
    ∃ sign, SignText sign (takeSign chars).1 ∧ sign ++ (takeSign chars).2 = chars := by
  unfold takeSign
  split
  · exact ⟨['-'], .minus, rfl⟩
  · exact ⟨['+'], .plus, rfl⟩
  · exact ⟨[], .none, rfl⟩

theorem not_isSign_of_isDigit {char : Char} (isDigit : char.isDigit = true) :
    isSign char = false := by
  by_contra isSign
  simp only [Decimal.isSign, Bool.not_eq_false, Bool.or_eq_true, beq_iff_eq] at isSign
  rcases isSign with rfl | rfl <;> cases isDigit

theorem takeExponent_eq_iff {chars : List Char} {power : Int} :
    takeExponent chars = (power, []) ↔ ExponentText chars power := by
  constructor
  · intro taken
    unfold takeExponent at taken
    split at taken
    · rename_i mark rest
      split at taken
      · rename_i isMark
        obtain ⟨sign, isSign, split⟩ := exists_signText rest
        obtain ⟨areDigits, others⟩ := areDigits_takeDigits (takeSign rest).2
        dsimp only at taken
        split at taken
        · cases taken
        · rename_i some
          obtain ⟨rfl, none⟩ := Prod.mk.inj taken
          rw [none, List.append_nil] at others
          have isText := ExponentText.marked (by simpa using isMark) isSign
            (fun empty => some (List.isEmpty_iff.mpr empty)) areDigits
          rw [others, split] at isText
          rw [others]
          exact isText
      · cases taken
    · obtain ⟨rfl, _⟩ := Prod.mk.inj taken
      exact .none
  · rintro (_ | ⟨isMark, isSign, some, areDigits⟩)
    · rfl
    · rename_i mark sign digits negative
      have isExponent : (mark == 'e' || mark == 'E') = true := by simpa using isMark
      have signs : takeSign (sign ++ digits) = (negative, digits) := by
        apply takeSign_append isSign
        exact fun char isHead =>
          not_isSign_of_isDigit (areDigits char (List.mem_of_mem_head? isHead))
      have all : takeDigits digits = (digits, []) := by
        have taken : takeDigits (digits ++ []) = (digits, []) := takeDigits_append areDigits nofun
        rwa [List.append_nil] at taken
      have filled : digits.isEmpty = false := List.isEmpty_eq_false_iff.mpr some
      simp [takeExponent, isExponent, signs, all, filled]

/-- A point or an exponent ends the digits in front of it. -/
theorem FractionText.head?_append {fraction part exponent : List Char} {power : Int}
    (isFraction : FractionText fraction part) (isExponent : ExponentText exponent power) :
    ∀ char ∈ (fraction ++ exponent).head?, char.isDigit = false := by
  intro char isHead
  cases isFraction with
  | point areDigits =>
      obtain rfl := Option.some.inj isHead
      rfl
  | none =>
      cases isExponent with
      | none => cases isHead
      | marked isMark _ _ _ =>
          obtain rfl := Option.some.inj isHead
          simp only [List.mem_cons, List.not_mem_nil, or_false] at isMark
          rcases isMark with rfl | rfl <;> rfl

/-- The digits behind a point, if the text goes on with one. -/
def takePart (chars : List Char) : List Char × List Char :=
  match chars with
  | '.' :: rest => takeDigits rest
  | rest => ([], rest)

theorem takeDecimal_eq (chars : List Char) :
    takeDecimal chars =
      let (whole, afterWhole) := takeDigits chars
      let (part, afterPart) := takePart afterWhole
      if whole.isEmpty && part.isEmpty then none
      else
        let (exponent, rest) := takeExponent afterPart
        some (nearest (digitsValue (whole ++ part)) (exponent - part.length), rest) := rfl

theorem takePart_append {fraction part exponent : List Char} {power : Int}
    (isFraction : FractionText fraction part) (isExponent : ExponentText exponent power) :
    takePart (fraction ++ exponent) = (part, exponent) := by
  cases isFraction with
  | point areDigits =>
      exact takeDigits_append areDigits (FractionText.none.head?_append isExponent)
  | none =>
      cases isExponent with
      | none => rfl
      | marked isMark _ _ _ =>
          simp only [List.mem_cons, List.not_mem_nil, or_false] at isMark
          rcases isMark with rfl | rfl <;> rfl

theorem exists_fractionText (chars : List Char) :
    ∃ fraction, FractionText fraction (takePart chars).1 ∧
      fraction ++ (takePart chars).2 = chars := by
  unfold takePart
  split
  · rename_i rest
    obtain ⟨areDigits, others⟩ := areDigits_takeDigits rest
    exact ⟨_, .point areDigits, congrArg ('.' :: ·) others⟩
  · exact ⟨[], .none, rfl⟩

theorem takeDecimal_eq_iff {chars : List Char} {value : Float} :
    takeDecimal chars = some (value, []) ↔ DecimalText chars value := by
  constructor
  · intro taken
    rw [takeDecimal_eq] at taken
    dsimp only at taken
    obtain ⟨areDigits, split⟩ := areDigits_takeDigits chars
    obtain ⟨fraction, isFraction, splitToo⟩ := exists_fractionText (takeDigits chars).2
    split at taken
    · cases taken
    · rename_i filled
      obtain ⟨isValue, isRest⟩ := Prod.mk.inj (Option.some.inj taken)
      have isExponent := takeExponent_eq_iff.mp (Prod.ext rfl isRest)
      have isText := DecimalText.mk areDigits isFraction isExponent (by simpa using filled)
      rw [splitToo, split, isValue] at isText
      exact isText
  · rintro ⟨areDigits, isFraction, isExponent, some⟩
    rw [takeDecimal_eq, takeDigits_append areDigits (isFraction.head?_append isExponent)]
    dsimp only
    rw [takePart_append isFraction isExponent, takeExponent_eq_iff.mpr isExponent]
    exact if_neg (by simpa using some)

/-! ### Reading numerals -/

theorem PlainNumeral.isNaN_eq {chars : List Char} {value : Float}
    (isNumeral : PlainNumeral chars value) : value.isNaN = false := by
  cases isNumeral with
  | decimal isSign isText =>
      cases isText with
      | mk _ _ _ _ => exact (isNaN_signed _ _).trans (isNaN_nearest _ _)
  | infinite isSign => exact (isNaN_signed _ _).trans (by decide +kernel)

theorem Numeral.isNaN_eq {chars : List Char} {value : Float} (isNumeral : Numeral chars value) :
    value.isNaN = false := by
  cases isNumeral with
  | plain isPlain => exact isPlain.isNaN_eq
  | based _ _ => exact isNaN_nearest _ _

theorem isNaN_undefinedNumber : undefinedNumber.isNaN = true := by decide +kernel

/-- A decimal does not begin with a sign. -/
theorem DecimalText.head?_eq {chars : List Char} {value : Float}
    (isText : DecimalText chars value) :
    ∀ char ∈ chars.head?, isSign char = false := by
  obtain ⟨areDigits, isFraction, isExponent, some⟩ := isText
  rename_i whole fraction part exponent power
  intro char isHead
  cases whole with
  | cons first rest =>
      obtain rfl := Option.some.inj isHead
      exact not_isSign_of_isDigit (areDigits _ List.mem_cons_self)
  | nil =>
      cases isFraction with
      | none => exact absurd rfl some
      | point _ =>
          obtain rfl := Option.some.inj isHead
          rfl

theorem readDecimal_eq {chars : List Char} {value : Float} (isNumeral : PlainNumeral chars value) :
    readDecimal chars = value := by
  unfold readDecimal
  cases isNumeral with
  | infinite isSign =>
      have unsigned : ∀ char ∈ "Infinity".toList.head?, Decimal.isSign char = false := by
        intro char isHead
        obtain rfl := Option.some.inj isHead
        rfl
      rw [takeSign_append isSign unsigned]
      rfl
  | decimal isSign isText =>
      rw [takeSign_append isSign isText.head?_eq]
      dsimp only
      rw [if_neg ?_, takeDecimal_eq_iff.mpr isText]
      intro infinite
      rw [beq_iff_eq.mp infinite, ← takeDecimal_eq_iff] at isText
      cases isText

theorem exists_plainNumeral {chars : List Char} (isNumber : (readDecimal chars).isNaN = false) :
    PlainNumeral chars (readDecimal chars) := by
  obtain ⟨sign, isSign, split⟩ := exists_signText chars
  unfold readDecimal at isNumber ⊢
  dsimp only at isNumber ⊢
  split at isNumber
  · rename_i infinite
    rw [if_pos infinite]
    have isNumeral := PlainNumeral.infinite isSign
    rw [← beq_iff_eq.mp infinite, split] at isNumeral
    exact isNumeral
  · rename_i finite
    rw [if_neg finite]
    split at isNumber
    · rename_i value taken
      have isNumeral := PlainNumeral.decimal isSign (takeDecimal_eq_iff.mp taken)
      rw [split] at isNumeral
      exact isNumeral
    · rw [isNaN_undefinedNumber] at isNumber
      cases isNumber

/-- The number that digits write in a base. -/
def readBased (base : Nat) (digits : List Char) : Float :=
  match baseValue? base digits with
  | some value => ofNat value
  | none => undefinedNumber

/-- A text between its blanks read as a number. -/
def readTrimmed (chars : List Char) : Float :=
  match chars with
  | [] => 0
  | '0' :: mark :: digits =>
      if mark == 'x' || mark == 'X' then readBased 16 digits
      else if mark == 'o' || mark == 'O' then readBased 8 digits
      else if mark == 'b' || mark == 'B' then readBased 2 digits
      else readDecimal ('0' :: mark :: digits)
  | chars => readDecimal chars

theorem readNumber_eq (text : String) :
    readNumber text = readTrimmed (Text.trimChars text.toList) := rfl

/-- Behind a zero and the mark of a base stand the digits of a number in that base. -/
theorem readTrimmed_based {mark : Char} {base : Nat} (isMark : (mark, base) ∈ baseMarks)
    (digits : List Char) :
    readTrimmed ('0' :: mark :: digits) = readBased base digits ∧
      readDecimal ('0' :: mark :: digits) = undefinedNumber := by
  simp only [baseMarks, List.mem_cons, Prod.mk.injEq, List.not_mem_nil, or_false] at isMark
  rcases isMark with ⟨rfl, rfl⟩ | ⟨rfl, rfl⟩ | ⟨rfl, rfl⟩ | ⟨rfl, rfl⟩ | ⟨rfl, rfl⟩ | ⟨rfl, rfl⟩ <;>
    exact ⟨rfl, rfl⟩

/-- Any other text that is not empty is read as a decimal. -/
theorem readTrimmed_cases (chars : List Char) :
    chars = [] ∨ (∃ mark base digits, chars = '0' :: mark :: digits ∧ (mark, base) ∈ baseMarks) ∨
      readTrimmed chars = readDecimal chars := by
  unfold readTrimmed
  split
  · exact .inl rfl
  · rename_i mark digits
    by_cases isMark : ∃ base, (mark, base) ∈ baseMarks
    · obtain ⟨base, isMark⟩ := isMark
      exact .inr (.inl ⟨mark, base, digits, rfl, isMark⟩)
    · have other (own : Char) (base : Nat) (isBase : (own, base) ∈ baseMarks) :
          (mark == own) = false := by
        rw [beq_eq_false_iff_ne]
        rintro rfl
        exact isMark ⟨base, isBase⟩
      refine .inr (.inr ?_)
      rw [other 'x' 16 (by decide), other 'X' 16 (by decide), other 'o' 8 (by decide),
        other 'O' 8 (by decide), other 'b' 2 (by decide), other 'B' 2 (by decide)]
      rfl
  · exact .inr (.inr rfl)

theorem Numeral.readTrimmed_eq {chars : List Char} {value : Float}
    (isNumeral : Numeral chars value) : readTrimmed chars = value := by
  cases isNumeral with
  | based isMark isValue =>
      rw [(readTrimmed_based isMark _).1, readBased, isValue]
  | plain isPlain =>
      have isNumber := isPlain.isNaN_eq
      have read := readDecimal_eq isPlain
      rcases readTrimmed_cases chars with rfl | ⟨mark, base, digits, rfl, isMark⟩ | same
      · rw [← read] at isNumber
        cases isNumber.symm.trans isNaN_undefinedNumber
      · rw [← read, (readTrimmed_based isMark digits).2, isNaN_undefinedNumber] at isNumber
        cases isNumber
      · exact same.trans read

theorem exists_numeral {chars : List Char} (filled : chars ≠ [])
    (isNumber : (readTrimmed chars).isNaN = false) : Numeral chars (readTrimmed chars) := by
  rcases readTrimmed_cases chars with empty | ⟨mark, base, digits, rfl, isMark⟩ | same
  · exact absurd empty filled
  · rw [(readTrimmed_based isMark digits).1, readBased] at isNumber ⊢
    cases isValue : baseValue? base digits with
    | some value => exact .based isMark isValue
    | none =>
        rw [isValue, isNaN_undefinedNumber] at isNumber
        cases isNumber
  · rw [same] at isNumber ⊢
    exact .plain (exists_plainNumeral isNumber)

/--
A text that is not blank is read as a number exactly if it is a numeral between blanks, and then
as the number of that numeral.  A blank text is read as zero.
-/
theorem readNumber_cases (text : String) :
    Text.trimChars text.toList = [] ∧ readNumber text = 0 ∨
    (∃ value, Numeral (Text.trimChars text.toList) value ∧ readNumber text = value ∧
      value.isNaN = false) ∨
    Text.trimChars text.toList ≠ [] ∧ (∀ value, ¬ Numeral (Text.trimChars text.toList) value) ∧
      (readNumber text).isNaN = true := by
  rw [readNumber_eq]
  generalize Text.trimChars text.toList = chars
  by_cases empty : chars = []
  · rw [empty]
    exact .inl ⟨rfl, rfl⟩
  right
  cases isNumber : (readTrimmed chars).isNaN with
  | false => exact .inl ⟨_, exists_numeral empty isNumber, rfl, isNumber⟩
  | true =>
      refine .inr ⟨empty, fun value isNumeral => ?_, rfl⟩
      rw [isNumeral.readTrimmed_eq, isNumeral.isNaN_eq] at isNumber
      cases isNumber

end Decimal
end LadderDiagram
