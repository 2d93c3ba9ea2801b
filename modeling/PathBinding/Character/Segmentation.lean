import PathBinding.Character.DerivedProperty
import PathBinding.Character.Script

/-!
The classes by which text is cut into clusters, words and sentences. Each class is defined from general categories,
scripts and properties, the earlier classes of a partition taking precedence over the later ones where both could apply.
-/

set_option autoImplicit false
set_option relaxedAutoImplicit false

namespace PathBinding.Character

open RangeTable

private def carriageReturn : RangeTable := [(0xD, 0xD)]

private def lineFeed : RangeTable := [(0xA, 0xA)]

private def zeroWidthJoiner : RangeTable := [(0x200D, 0x200D)]

/-- Letters in front of the first consonant of a cluster: a repha, and prefixed forms. -/
private def prefixedConsonant : RangeTable := .ofHex
  "D4E 111C2-111C3 113D1 1193F 11941 11A3A 11A84-11A89 11D46 11F02"

/-- Spacing marks, and two vowels, that do not extend the cluster before them. -/
private def detachedMark : RangeTable := .ofHex
  "102B-102C 1038 1062-1064 1067-106D 1083 1087-108C 108F 109A-109C 1A61 1A63-1A64 AA7B AA7D 11720-11721"

private def clusterExtend : RangeTable :=
  union graphemeExtend emojiModifier

private def clusterPrepend : RangeTable :=
  union prependedConcatenationMark prefixedConsonant

/-- Controls, formats and separators, and the ignorable code points that are not assigned. -/
private def clusterControl : RangeTable :=
  diff (unions [control, format, lineSeparator, paragraphSeparator, diff defaultIgnorableCodePoint assigned])
    (unions [carriageReturn, lineFeed, joinControl, prependedConcatenationMark, clusterExtend])

private def clusterSpacingMark : RangeTable :=
  diff (union spacingMark [(0xE33, 0xE33), (0xEB3, 0xEB3)]) (unions [clusterExtend, detachedMark, clusterPrepend])

/-- Syllables of a leading consonant and a vowel, one in 28. -/
private def openSyllable : RangeTable :=
  (List.range 399).map fun i ↦ (0xAC00 + 28 * i, 0xAC00 + 28 * i)

private def syllable : RangeTable := [(0xAC00, 0xD7A3)]

/-- The classes of characters at the borders of clusters. -/
def clusterBreaks : List (List String × RangeTable) :=
  [(["cn", "control"], clusterControl),
   (["cr"], carriageReturn),
   (["ex", "extend"], clusterExtend),
   (["l"], .ofHex "1100-115F A960-A97C"),
   (["lf"], lineFeed),
   (["lv"], openSyllable),
   (["lvt"], diff syllable openSyllable),
   (["pp", "prepend"], clusterPrepend),
   (["ri", "regionalindicator"], regionalIndicator),
   (["sm", "spacingmark"], clusterSpacingMark),
   (["t"], .ofHex "11A8-11FF D7CB-D7FB"),
   (["v"], .ofHex "1160-11A7 D7B0-D7C6 16D63 16D67-16D6A"),
   (["zwj"], zeroWidthJoiner)]

/-- Marks and selectors that belong to the character before them. -/
private def wordExtend : RangeTable :=
  diff (unions [graphemeExtend, spacingMark, emojiModifier]) zeroWidthJoiner

private def katakana : RangeTable :=
  union ((script? "katakana").getD []) (.ofHex "3031-3035 309B-309C 30A0 30FC FF70")

private def hebrewLetter : RangeTable :=
  inter ((script? "hebrew").getD []) otherLetter

/-- Characters of scripts that write words without blanks between them. -/
private def complexContext : RangeTable := .ofHex
  "E01-E3A E40-E4E E81-E82 E84 E86-E8A E8C-EA3 EA5 EA7-EBD EC0-EC4 EC6 EC8-ECE EDC-EDF 1000-103F
   1050-108F 109A-109F 1780-17D3 17D7 17DC-17DD 1950-196D 1970-1974 1980-19AB 19B0-19C9 19DA 19DE-19DF
   1A20-1A5E 1A60-1A7C 1AA0-1AAD A9E0-A9EF A9FA-A9FE AA60-AAC2 AADB-AADF 11700-1171A 1171D-1172B
   1173A-1173B 1173F-11746"

/-- Signs that count as letters of words. -/
private def letterLike : RangeTable := .ofHex
  "B8 2C2-2C5 2D2-2D7 2DE-2DF 2E5-2EB 2ED 2EF-2FF 55A-55C 55E 58A 5F3 70F A708-A716 A720-A721 A789-A78A
   AB5B"

private def wordLetter : RangeTable :=
  diff (union alphabetic letterLike)
    (unions [ideographic, katakana, complexContext, (script? "hiragana").getD [], wordExtend, hebrewLetter])

/-- Digits, the Arabic decimal separator and the marks that enclose a number. -/
private def numeric : RangeTable :=
  unions [decimalNumber, [(0x66B, 0x66B)], diff prependedConcatenationMark [(0x70F, 0x70F)]]

/-- The classes of characters at the borders of words. -/
def wordBreaks : List (List String × RangeTable) :=
  [(["cr"], carriageReturn),
   (["dq", "doublequote"], [(0x22, 0x22)]),
   (["ex", "extendnumlet"], union connectorPunctuation [(0x202F, 0x202F)]),
   (["extend"], wordExtend),
   (["fo", "format"],
     diff format (unions [[(0x200B, 0x200D)], wordExtend, prependedConcatenationMark])),
   (["hl", "hebrewletter"], hebrewLetter),
   (["ka", "katakana"], katakana),
   (["le", "aletter"], wordLetter),
   (["lf"], lineFeed),
   (["mb", "midnumlet"], .ofHex "2E 2018-2019 2024 FE52 FF07 FF0E"),
   (["ml", "midletter"], .ofHex "3A B7 387 55F 5F4 2027 FE13 FE55 FF1A"),
   (["mn", "midnum"], .ofHex "2C 3B 37E 589 60C-60D 66C 7F8 2044 FE10 FE14 FE50 FE54 FF0C FF1B"),
   (["nl", "newline"], .ofHex "B-C 85 2028-2029"),
   (["nu", "numeric"], numeric),
   (["ri", "regionalindicator"], regionalIndicator),
   (["sq", "singlequote"], [(0x27, 0x27)]),
   (["wsegspace"], .ofHex "20 1680 2000-2006 2008-200A 205F 3000"),
   (["zwj"], zeroWidthJoiner)]

private def sentenceExtend : RangeTable :=
  unions [graphemeExtend, spacingMark, zeroWidthJoiner]

private def separator : RangeTable := .ofHex
  "85 2028-2029"

private def sentenceNumeric : RangeTable :=
  union numeric [(0x66C, 0x66C)]

/-- Lower case, without the Georgian letters, which have no case in running text. -/
private def sentenceLower : RangeTable :=
  diff (diff lowercase graphemeExtend) (.ofHex "10D0-10FA 10FD-10FF")

private def sentenceUpper : RangeTable :=
  diff (union titlecaseLetter uppercase) (.ofHex "1C90-1CBA 1CBD-1CBF")

private def ambiguousTerminal : RangeTable := .ofHex
  "2E 2024 FE52 FF0E"

private def surelyTerminal : RangeTable :=
  diff sentenceTerminal ambiguousTerminal

/-- Quotation marks that may open or close a quotation. -/
private def ambiguousQuotation : RangeTable := .ofHex
  "22 27 AB BB 2018-2019 201B-201D 201F 2039-203A 275B-2760 2E00-2E0D 2E1C-2E1D 2E20-2E21 1F676-1F678"

/-- The classes of characters at the borders of sentences. -/
def sentenceBreaks : List (List String × RangeTable) :=
  [(["at", "aterm"], ambiguousTerminal),
   (["cl", "close"], diff (unions [openPunctuation, closePunctuation, ambiguousQuotation])
     (union ambiguousTerminal surelyTerminal)),
   (["cr"], carriageReturn),
   (["ex", "extend"], sentenceExtend),
   (["fo", "format"], diff format (unions [sentenceExtend, joinControl, sentenceNumeric])),
   (["le", "oletter"],
     diff (union alphabetic [(0x5F3, 0x5F3)]) (unions [sentenceLower, sentenceUpper, sentenceExtend])),
   (["lf"], lineFeed),
   (["lo", "lower"], sentenceLower),
   (["nu", "numeric"], sentenceNumeric),
   (["sc", "scontinue"],
     .ofHex "2C-2D 3A-3B 37E 55D 60C-60D 7F8 1802 1808 2013-2014 3001 FE10-FE11 FE13-FE14 FE31-FE32
             FE50-FE51 FE54-FE55 FE58 FE63 FF0C-FF0D FF1A-FF1B FF64"),
   (["se", "sep"], separator),
   (["sp"], diff whiteSpace (unions [separator, carriageReturn, lineFeed])),
   (["st", "sterm"], surelyTerminal),
   (["up", "upper"], sentenceUpper)]

/-- The class that a name selects in a partition. -/
def breakClass? (classes : List (List String × RangeTable)) (name : String) : Option RangeTable :=
  (classes.find? (·.1.contains name)).map (·.2)

end PathBinding.Character
