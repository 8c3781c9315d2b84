/-
Properties that follow from categories, scripts and listed properties.

The case properties take the listed exceptions from the letters that have a case; the
identifier properties add what letters and marks leave out and take away what serves as
syntax; the properties for cutting a text into characters, words and sentences are given
class by class.
-/
import TestTransform.Character.Listed
import TestTransform.Character.Script

namespace TestTransform
namespace Character

/-- The code points in categories given by their codes, with blanks between them. -/
def inCategories (codes : String) : Ranges := ofCategories (words codes)

def except (a : Ranges) (bs : List Ranges) : Ranges := a.diff (Ranges.unionAll bs)

/-! ## Case -/

def lowercase : Ranges := (inCategories "Ll").union (listed "Other_Lowercase")

def uppercase : Ranges := (inCategories "Lu").union (listed "Other_Uppercase")

def titlecase : Ranges := inCategories "Lt"

def cased : Ranges := Ranges.unionAll [lowercase, uppercase, titlecase]

def changesWhenLowercased : Ranges :=
  (uppercase.union titlecase).diff (ofSwitches upperOnly)

def changesWhenUppercased : Ranges :=
  (lowercase.union titlecase).diff (ofSwitches lowerOnly)

/-- The Georgian letters in whose script titles have no capitals. -/
def georgian : Ranges := [(0x10D0, 0x10FA), (0x10FD, 0x10FF)]

def changesWhenTitlecased : Ranges :=
  (except changesWhenUppercased [titlecase, georgian]).union
    [(0x1C4, 0x1C4), (0x1C7, 0x1C7), (0x1CA, 0x1CA), (0x1F1, 0x1F1)]

/-- The upper-case Cherokee letters, to which the lower-case ones fold. -/
def cherokee : Ranges := [(0x13A0, 0x13F5)]

def changesWhenCasefolded : Ranges :=
  (changesWhenLowercased.diff cherokee).union (ofSwitches foldedOnly)

def changesWhenCasemapped : Ranges :=
  Ranges.unionAll [changesWhenLowercased, changesWhenUppercased, changesWhenTitlecased]

/-- Points, apostrophes and colons that may stand inside a word. -/
def insideWords : Ranges :=
  Ranges.ofList [0x27, 0x2E, 0x2018, 0x2019, 0x2024, 0xFE52, 0xFF07, 0xFF0E, 0x3A, 0xB7, 0x387,
    0x55F, 0x5F4, 0x2027, 0xFE13, 0xFE55, 0xFF1A]

def caseIgnorable : Ranges := (inCategories "Mn Me Cf Lm Sk").union insideWords

/-! ## Letters and identifiers -/

def alphabetic : Ranges :=
  Ranges.unionAll [lowercase, uppercase, inCategories "Lt Lm Lo Nl", listed "Other_Alphabetic"]

/-- Whether a character is a letter or counts as one. -/
def isAlphabetic (c : Char) : Bool :=
  if c.toNat < 128 then c.isAlpha else alphabetic.mem c.toNat

/-- Whether a character is a digit or another number. -/
def isNumeric (c : Char) : Bool :=
  if c.toNat < 128 then c.isDigit else (inCategories "Nd Nl No").mem c.toNat

def math : Ranges := (inCategories "Sm").union (listed "Other_Math")

def syntaxMarks : Ranges := (listed "Pattern_Syntax").union (listed "Pattern_White_Space")

def idStart : Ranges :=
  ((inCategories "Lu Ll Lt Lm Lo Nl").union (listed "Other_ID_Start")).diff syntaxMarks

def idContinue : Ranges :=
  (Ranges.unionAll [idStart, inCategories "Mn Mc Nd Pc", listed "Other_ID_Continue"]).diff
    syntaxMarks

def xidStart : Ranges :=
  except idStart [ofSwitches decomposing, ofSwitches decomposingStart]

def xidContinue : Ranges := idContinue.diff (ofSwitches decomposing)

/-! ## Characters as they are seen -/

def graphemeExtend : Ranges := (inCategories "Me Mn").union (listed "Other_Grapheme_Extend")

def graphemeBase : Ranges :=
  except Ranges.all [inCategories "Cc Cf Co Cn Zl Zp", graphemeExtend]

def concatenationMarks : Ranges := listed "Prepended_Concatenation_Mark"

def defaultIgnorable : Ranges :=
  except
    (Ranges.unionAll
      [listed "Other_Default_Ignorable_Code_Point", inCategories "Cf", listed "Variation_Selector"])
    [listed "White_Space", [(0xFFF9, 0xFFFB), (0x13430, 0x13440)], concatenationMarks]

/-! ## Cutting a text into characters -/

def zeroWidthJoiner : Ranges := [(0x200D, 0x200D)]

def returns : Ranges := [(13, 13)]

def feeds : Ranges := [(10, 10)]

def graphemeExtending : Ranges := graphemeExtend.union (listed "Emoji_Modifier")

/-- The syllables of Hangul without a final consonant: every twenty-eighth. -/
def openSyllables : Ranges :=
  (List.range 399).map fun i => (0xAC00 + 28 * i, 0xAC00 + 28 * i)

def syllables : Ranges := [(0xAC00, 0xD7A3)]

/-- Spacing marks that do not belong to the character in front of them. -/
def looseMarks : Ranges :=
  [(0x102B, 0x102C), (0x1038, 0x1038), (0x1062, 0x1064), (0x1067, 0x106D), (0x1083, 0x1083),
   (0x1087, 0x108C), (0x108F, 0x108F), (0x109A, 0x109C), (0x1A61, 0x1A61), (0x1A63, 0x1A64),
   (0xAA7B, 0xAA7B), (0xAA7D, 0xAA7D), (0x11720, 0x11721)]

/-- Letters that belong to the character behind them. -/
def prefixedLetters : Ranges :=
  [(0xD4E, 0xD4E), (0x111C2, 0x111C3), (0x113D1, 0x113D1), (0x1193F, 0x1193F),
   (0x11941, 0x11941), (0x11A3A, 0x11A3A), (0x11A84, 0x11A89), (0x11D46, 0x11D46),
   (0x11F02, 0x11F02)]

/-- The classes of code points for cutting a text into characters. -/
def graphemeClasses : List (String × Ranges) :=
  [ ("CR", returns), ("LF", feeds), ("ZWJ", zeroWidthJoiner),
    ("Control CN",
      except
        ((inCategories "Zl Zp Cc Cf").union ((inCategories "Cn").inter defaultIgnorable))
        [returns, feeds, [(0x200C, 0x200D)], concatenationMarks, graphemeExtend]),
    ("Extend EX", graphemeExtending),
    ("Regional_Indicator RI", listed "Regional_Indicator"),
    ("Prepend PP", concatenationMarks.union prefixedLetters),
    ("SpacingMark SM",
      except ((inCategories "Mc").union [(0xE33, 0xE33), (0xEB3, 0xEB3)])
        [graphemeExtending, looseMarks]),
    ("L", [(0x1100, 0x115F), (0xA960, 0xA97C)]),
    ("V", [(0x1160, 0x11A7), (0xD7B0, 0xD7C6), (0x16D63, 0x16D63), (0x16D67, 0x16D6A)]),
    ("T", [(0x11A8, 0x11FF), (0xD7CB, 0xD7FB)]),
    ("LV", openSyllables), ("LVT", syllables.diff openSyllables) ]

/-! ## Cutting a text into words -/

/-- Marks and joiners that go on with what stands in front of them. -/
def extending : Ranges :=
  (Ranges.unionAll [graphemeExtend, inCategories "Mc", listed "Emoji_Modifier"]).diff zeroWidthJoiner

def katakana : Ranges :=
  ((ofScript "Kana".toList).union
    [(0x3031, 0x3035), (0x309B, 0x309C), (0x30A0, 0x30A0), (0x30FC, 0x30FC), (0xFF70, 0xFF70)]).diff
    extending

def hebrewLetters : Ranges := (ofScript "Hebr".toList).inter (inCategories "Lo")

/-- Marks that count as letters of words. -/
def letterMarks : Ranges :=
  [(0x2C2, 0x2C5), (0x2D2, 0x2D7), (0x2DE, 0x2DF), (0x2E5, 0x2EB), (0x2ED, 0x2ED),
   (0x2EF, 0x2FF), (0x55A, 0x55C), (0x55E, 0x55E), (0x58A, 0x58A), (0x5F3, 0x5F3),
   (0x70F, 0x70F), (0xA708, 0xA716), (0xA720, 0xA721), (0xA789, 0xA78A), (0xAB5B, 0xAB5B)]

/-- Signs in front of Arabic numbers. -/
def numberSigns : Ranges := concatenationMarks.diff [(0x70F, 0x70F)]

def wordNumeric : Ranges := Ranges.unionAll [inCategories "Nd", [(0x66B, 0x66B)], numberSigns]

def wordConnectors : Ranges := (inCategories "Pc").union [(0x202F, 0x202F)]

/-- The classes of code points for cutting a text into words. -/
def wordClasses : List (String × Ranges) :=
  [ ("CR", returns), ("LF", feeds), ("ZWJ", zeroWidthJoiner),
    ("Newline NL", [(0xB, 0xC), (0x85, 0x85), (0x2028, 0x2029)]),
    ("Extend", extending),
    ("Regional_Indicator RI", listed "Regional_Indicator"),
    ("Format FO",
      except (inCategories "Cf") [[(0x200B, 0x200D)], extending, concatenationMarks]),
    ("Katakana KA", katakana),
    ("Hebrew_Letter HL", hebrewLetters),
    ("Single_Quote SQ", [(0x27, 0x27)]), ("Double_Quote DQ", [(0x22, 0x22)]),
    ("MidNumLet MB",
      Ranges.ofList [0x2E, 0x2018, 0x2019, 0x2024, 0xFE52, 0xFF07, 0xFF0E]),
    ("MidLetter ML",
      Ranges.ofList [0x3A, 0xB7, 0x387, 0x55F, 0x5F4, 0x2027, 0xFE13, 0xFE55, 0xFF1A]),
    ("MidNum MN",
      Ranges.ofList [0x2C, 0x3B, 0x37E, 0x589, 0x60C, 0x60D, 0x66C, 0x7F8, 0x2044, 0xFE10, 0xFE14,
        0xFE50, 0xFE54, 0xFF0C, 0xFF1B]),
    ("Numeric NU", wordNumeric),
    ("ExtendNumLet EX", wordConnectors),
    ("ALetter LE",
      except (alphabetic.union letterMarks)
        [listed "Ideographic", katakana, ofSwitches withoutBlanks, ofScript "Hira".toList,
         extending, hebrewLetters, wordNumeric, wordConnectors]),
    ("WSegSpace", except (inCategories "Zs") [Ranges.ofList [0xA0, 0x2007, 0x202F]]) ]

/-! ## Cutting a text into sentences -/

def sentenceEnders : Ranges := Ranges.ofList [0x2E, 0x2024, 0xFE52, 0xFF0E]

def sentenceTerminals : Ranges := (listed "Sentence_Terminal").diff sentenceEnders

def paragraphEnds : Ranges := [(0x85, 0x85), (0x2028, 0x2029)]

def sentenceExtend : Ranges :=
  Ranges.unionAll [graphemeExtend, zeroWidthJoiner, inCategories "Mc"]

def sentenceLower : Ranges := except lowercase [graphemeExtend, georgian]

def sentenceUpper : Ranges :=
  (titlecase.union uppercase).diff [(0x1C90, 0x1CBA), (0x1CBD, 0x1CBF)]

/-- The classes of code points for cutting a text into sentences. -/
def sentenceClasses : List (String × Ranges) :=
  [ ("CR", returns), ("LF", feeds), ("Extend EX", sentenceExtend),
    ("Sep SE", paragraphEnds),
    ("Format FO", except (inCategories "Cf") [[(0x200C, 0x200D)], sentenceExtend, numberSigns]),
    ("Sp SP", except (listed "White_Space") [paragraphEnds, returns, feeds]),
    ("Lower LO", sentenceLower), ("Upper UP", sentenceUpper),
    ("OLetter LE",
      except (alphabetic.union [(0x5F3, 0x5F3)]) [sentenceLower, sentenceUpper, sentenceExtend]),
    ("Numeric NU", Ranges.unionAll [inCategories "Nd", [(0x66B, 0x66C)], numberSigns]),
    ("ATerm AT", sentenceEnders),
    ("SContinue SC",
      Ranges.ofList [0x2C, 0x2D, 0x3A, 0x3B, 0x37E, 0x55D, 0x60C, 0x60D, 0x7F8, 0x1802, 0x1808,
        0x2013, 0x2014, 0x3001, 0xFE10, 0xFE11, 0xFE13, 0xFE14, 0xFE31, 0xFE32, 0xFE50, 0xFE51,
        0xFE54, 0xFE55, 0xFE58, 0xFE63, 0xFF0C, 0xFF0D, 0xFF1A, 0xFF1B, 0xFF64]),
    ("STerm ST", sentenceTerminals),
    ("Close CL",
      except ((inCategories "Ps Pe Pi Pf").union (ofSwitches quotation))
        [[(0x5F3, 0x5F3)], sentenceEnders, sentenceTerminals]) ]

end Character
end TestTransform
