import PathBinding.Character.CaseChange
import PathBinding.Character.Category
import PathBinding.Character.Property

/-!
Binary properties of the Unicode character database that follow from general categories and other properties, and the
names by which a pattern may ask for a property.
-/

set_option autoImplicit false
set_option relaxedAutoImplicit false

namespace PathBinding.Character

open RangeTable

def alphabetic : RangeTable :=
  unions [letter, letterNumber, otherAlphabetic]

def lowercase : RangeTable :=
  union lowercaseLetter otherLowercase

def uppercase : RangeTable :=
  union uppercaseLetter otherUppercase

def cased : RangeTable :=
  unions [lowercase, uppercase, titlecaseLetter]

def math : RangeTable :=
  union mathSymbol otherMath

def graphemeExtend : RangeTable :=
  unions [nonspacingMark, enclosingMark, otherGraphemeExtend]

/-- Characters that can begin a cluster and be seen. -/
def graphemeBase : RangeTable :=
  diff assigned (unions [control, format, privateUse, lineSeparator, paragraphSeparator, graphemeExtend])

/-- Format characters that are to be seen: annotations, hieroglyph controls and marks that enclose what follows. -/
private def visibleFormat : RangeTable :=
  union [(0xFFF9, 0xFFFB), (0x13430, 0x13440)] prependedConcatenationMark

def defaultIgnorableCodePoint : RangeTable :=
  diff (unions [otherDefaultIgnorableCodePoint, format, variationSelector]) visibleFormat

private def patternCharacters : RangeTable :=
  union patternSyntax patternWhiteSpace

def idStart : RangeTable :=
  diff (unions [letter, letterNumber, otherIdStart]) patternCharacters

def idContinue : RangeTable :=
  diff (unions [idStart, nonspacingMark, spacingMark, decimalNumber, connectorPunctuation, otherIdContinue])
    patternCharacters

/-- Characters whose compatible forms cannot stand in an identifier where they stand themselves. -/
private def unstableAnywhere : RangeTable := .ofHex
  "37A 309B-309C FC5E-FC63 FDFA-FDFB FE70 FE72 FE74 FE76 FE78 FE7A FE7C FE7E"

private def unstableAtStart : RangeTable := .ofHex
  "E33 EB3 FF9E-FF9F"

def xidStart : RangeTable :=
  diff idStart (union unstableAnywhere unstableAtStart)

def xidContinue : RangeTable :=
  diff idContinue unstableAnywhere

/-- Mathematical characters that may stand in an identifier in a notation for mathematics: those that may begin one, and
raised and lowered ones. -/
def idCompatMathContinue : RangeTable :=
  union idCompatMathStart (.ofHex "B2-B3 B9 2070 2074-207E 2080-208E")

/-- Punctuation that words may have in their middle: the apostrophe, full stops and colons. -/
def midWord : RangeTable := .ofHex
  "27 2E 3A B7 387 55F 5F4 2018-2019 2024 2027 FE13 FE52 FE55 FF07 FF0E FF1A"

def caseIgnorable : RangeTable :=
  unions [nonspacingMark, enclosingMark, format, modifierLetter, modifierSymbol, midWord]

/-- Characters of words: letters, marks, decimal digits, connectors and the two joiners. -/
def wordCharacter : RangeTable :=
  unions [alphabetic, mark, decimalNumber, connectorPunctuation, joinControl]

/-- The properties that a pattern may name, with their names in loose spelling. -/
def properties : List (List String × RangeTable) :=
  [(["ahex", "asciihexdigit"], asciiHexDigit),
   (["alpha", "alphabetic"], alphabetic),
   (["bidic", "bidicontrol"], bidiControl),
   (["bidim", "bidimirrored"], bidiMirrored),
   (["ci", "caseignorable"], caseIgnorable),
   (["cased"], cased),
   (["cwcf", "changeswhencasefolded"], changesWhenCasefolded),
   (["cwcm", "changeswhencasemapped"], changesWhenCasemapped),
   (["cwl", "changeswhenlowercased"], changesWhenLowercased),
   (["cwt", "changeswhentitlecased"], changesWhenTitlecased),
   (["cwu", "changeswhenuppercased"], changesWhenUppercased),
   (["dash"], dash),
   (["dep", "deprecated"], deprecated),
   (["di", "defaultignorablecodepoint"], defaultIgnorableCodePoint),
   (["dia", "diacritic"], diacritic),
   (["ebase", "emojimodifierbase"], emojiModifierBase),
   (["ecomp", "emojicomponent"], emojiComponent),
   (["emod", "emojimodifier"], emojiModifier),
   (["emoji"], emoji),
   (["epres", "emojipresentation"], emojiPresentation),
   (["ext", "extender"], extender),
   (["extpict", "extendedpictographic"], extendedPictographic),
   (["grbase", "graphemebase"], graphemeBase),
   (["grext", "graphemeextend"], graphemeExtend),
   (["grlink", "graphemelink"], graphemeLink),
   (["hex", "hexdigit"], hexDigit),
   (["hyphen"], hyphen),
   (["idc", "idcontinue"], idContinue),
   (["idcompatmathcontinue"], idCompatMathContinue),
   (["idcompatmathstart"], idCompatMathStart),
   (["ideo", "ideographic"], ideographic),
   (["ids", "idstart"], idStart),
   (["idsb", "idsbinaryoperator"], idsBinaryOperator),
   (["idst", "idstrinaryoperator"], idsTrinaryOperator),
   (["idsu", "idsunaryoperator"], idsUnaryOperator),
   (["joinc", "joincontrol"], joinControl),
   (["loe", "logicalorderexception"], logicalOrderException),
   (["lower", "lowercase"], lowercase),
   (["math"], math),
   (["mcm", "modifiercombiningmark"], modifierCombiningMark),
   (["nchar", "noncharactercodepoint"], noncharacterCodePoint),
   (["oalpha", "otheralphabetic"], otherAlphabetic),
   (["odi", "otherdefaultignorablecodepoint"], otherDefaultIgnorableCodePoint),
   (["ogrext", "othergraphemeextend"], otherGraphemeExtend),
   (["oidc", "otheridcontinue"], otherIdContinue),
   (["oids", "otheridstart"], otherIdStart),
   (["olower", "otherlowercase"], otherLowercase),
   (["omath", "othermath"], otherMath),
   (["oupper", "otheruppercase"], otherUppercase),
   (["patsyn", "patternsyntax"], patternSyntax),
   (["patws", "patternwhitespace"], patternWhiteSpace),
   (["pcm", "prependedconcatenationmark"], prependedConcatenationMark),
   (["qmark", "quotationmark"], quotationMark),
   (["radical"], radical),
   (["ri", "regionalindicator"], regionalIndicator),
   (["sd", "softdotted"], softDotted),
   (["space", "whitespace", "wspace"], whiteSpace),
   (["sterm", "sentenceterminal"], sentenceTerminal),
   (["term", "terminalpunctuation"], terminalPunctuation),
   (["uideo", "unifiedideograph"], unifiedIdeograph),
   (["upper", "uppercase"], uppercase),
   (["vs", "variationselector"], variationSelector),
   (["xidc", "xidcontinue"], xidContinue),
   (["xids", "xidstart"], xidStart)]

/-- The characters with the property that a name selects. -/
def property? (name : String) : Option RangeTable :=
  (properties.find? (·.1.contains name)).map (·.2)

end PathBinding.Character
