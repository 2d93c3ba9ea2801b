import PathBinding.Character.RangeTable

/-!
Ranges of code points as sequences of ranges of bytes. Each sequence stands for all ways to take one byte from each of
its ranges, and the sequences of a set, in ascending order, cover exactly the encodings of its members.
-/

set_option autoImplicit false
set_option relaxedAutoImplicit false

namespace PathBinding.Regex.Utf8

/-- A closed range of bytes. -/
abbrev ByteRange := Nat × Nat

/-- The bytes that encode a code point. -/
def encode (code : Nat) : List Nat :=
  if code < 0x80 then [code]
  else if code < 0x800 then [0xC0 + code / 0x40, 0x80 + code % 0x40]
  else if code < 0x10000 then [0xE0 + code / 0x1000, 0x80 + code / 0x40 % 0x40, 0x80 + code % 0x40]
  else [0xF0 + code / 0x40000, 0x80 + code / 0x1000 % 0x40, 0x80 + code / 0x40 % 0x40, 0x80 + code % 0x40]

/-- The code points where the encoding gets longer, and the borders of the codes that are no characters. -/
private def borders : List Nat := [0x80, 0x800, 0xD800, 0xE000, 0x10000]

/-- Cuts a range in front of a code point. -/
private def cutBefore (border : Nat) (range : Nat × Nat) : List (Nat × Nat) :=
  if range.1 < border ∧ border ≤ range.2 then [(range.1, border - 1), (border, range.2)] else [range]

/-- Cuts a range until each part covers whole blocks of a size that lie in one larger block, for the sizes of one, two and
three bytes behind the first. -/
private def cutBlocks : List Nat → Nat × Nat → List (Nat × Nat)
  | [], range => [range]
  | size :: sizes, (first, last) =>
    if first / size = last / size then cutBlocks sizes (first, last)
    else
      let head := if first % size = 0 then first else (first / size + 1) * size
      let tail := if last % size = size - 1 then last + 1 else last / size * size
      let front := if first < head then cutBlocks sizes (first, head - 1) else []
      let back := if tail ≤ last then cutBlocks sizes (tail, last) else []
      front ++ (if head < tail then cutBlocks sizes (head, tail - 1) else []) ++ back

private def isSurrogate (range : Nat × Nat) : Bool :=
  0xD800 ≤ range.1 && range.2 ≤ 0xDFFF

/-- The sequences of byte ranges for a range of code points. -/
def sequences (range : Nat × Nat) : List (List ByteRange) :=
  let cut := borders.foldl (fun ranges border ↦ ranges.flatMap (cutBefore border)) [range]
  let parts := (cut.filter (!isSurrogate ·)).flatMap fun part ↦
    if part.2 < 0x80 then [part] else cutBlocks [0x40, 0x1000, 0x40000] part
  parts.map fun (first, last) ↦ (encode first).zip (encode last)

end PathBinding.Regex.Utf8
