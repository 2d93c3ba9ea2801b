import PathBinding.Fragment
import PathBinding.Proofs.Rendering
import PathBinding.Proofs.Segment.Reading

/-!
Patterns as templates. A path pattern is compiled with a slash in front but rendered as it is declared; what is read in
both cases differs in that slash only (`exists_template`).
-/

set_option autoImplicit false
set_option relaxedAutoImplicit false

namespace PathBinding

namespace Segment

variable {letters raw : List Char} {path rest : List Segment}

theorem isLiteral_slash (letters : List Char) : isLiteral ('/' :: letters) = isLiteral letters := by
  cases letters <;> simp [isLiteral]

/-- The segments that begin with a literal, if it has any letters. -/
def behind (letters : List Char) (rest : List Segment) : List Segment :=
  if letters = [] then rest else .literal (.ofList letters) :: rest

theorem parted_literal (text text' : String) (rest : List Segment) (h : Parted (.literal text) rest) :
    Parted (.literal text') rest := by
  cases rest with
  | nil => trivial
  | cons segment rest => cases segment <;> exact h

/-- What is read behind a slash is read without it. -/
theorem read_behind_slash {raw : String} (h : read ("/" ++ raw) = .ok path) : ∃ letters rest,
    path = .literal (.ofList ('/' :: letters)) :: rest ∧ read raw = .ok (behind letters rest) := by
  obtain ⟨hcanonical, hspells⟩ := read_eq_ok_iff.mp h
  have hslash : ("/" ++ raw).toList = '/' :: raw.toList := by
    rw [String.toList_append]
    rfl
  rw [hslash] at hspells
  cases path with
  | nil => cases hspells
  | cons segment rest =>
    obtain ⟨u, v, hsplit, hu, hv⟩ := hspells
    obtain ⟨hsegment, hparted, hrest⟩ := hcanonical
    have hhead : ∀ c, u.head? = some c → c = '/' := by
      intro c hc
      obtain ⟨tail, rfl⟩ := List.head?_eq_some_iff.mp hc
      exact (List.cons.inj hsplit).1.symm
    cases segment with
    | literal text =>
      obtain rfl : u = text.toList := hu
      obtain ⟨hne, hliteral⟩ := hsegment
      obtain ⟨c, letters, htext⟩ := List.exists_cons_of_ne_nil hne
      obtain rfl : c = '/' := hhead c (by rw [htext]; rfl)
      have hraw : raw.toList = letters ++ v := by
        rw [htext] at hsplit
        exact (List.cons.inj hsplit).2
      rw [htext, isLiteral_slash] at hliteral
      refine ⟨letters, rest, by rw [← htext, String.ofList_toList], read_eq_ok_iff.mpr ?_⟩
      unfold behind
      by_cases hletters : letters = []
      · rw [if_pos hletters]
        rw [hletters] at hraw
        exact ⟨hrest, hraw ▸ hv⟩
      · rw [if_neg hletters]
        refine ⟨⟨?_, parted_literal text _ rest hparted, hrest⟩, letters, v, hraw, String.toList_ofList.symm, hv⟩
        rw [Canonical, String.toList_ofList]
        exact ⟨hletters, hliteral⟩
    | placeholder name regex =>
      rw [Spells, toList_print_placeholder] at hu
      exact absurd (hhead ':' (by rw [hu]; rfl)) (by decide)
    | positional index =>
      obtain ⟨zeros, rfl⟩ := hu
      exact absurd (hhead ':' rfl) (by decide)
    | optional inner =>
      obtain ⟨w, rfl, -⟩ := hu
      exact absurd (hhead '[' rfl) (by decide)

theorem unescapeChars_slash (letters : List Char) : unescapeChars ('/' :: letters) = '/' :: unescapeChars letters := by
  cases letters <;> simp [unescapeChars]

section Fills

variable {fits : String → Option String → List Char → Prop} {value : String → Option (List Char)} {e : List Char}

theorem fillsAll_behind_iff : FillsAll fits value (behind letters rest) e ↔
    ∃ v, e = unescapeChars letters ++ v ∧ FillsAll fits value rest v := by
  unfold behind
  by_cases hletters : letters = []
  · rw [if_pos hletters, hletters]
    exact ⟨fun h ↦ ⟨e, rfl, h⟩, fun ⟨v, he, h⟩ ↦ he ▸ h⟩
  · rw [if_neg hletters, FillsAll]
    constructor
    · rintro ⟨u, v, rfl, hu, hv⟩
      rw [Fills, String.toList_ofList] at hu
      exact ⟨v, by rw [hu], hv⟩
    · rintro ⟨v, rfl, hv⟩
      exact ⟨unescapeChars letters, v, rfl, by rw [Fills, String.toList_ofList], hv⟩

theorem fillsAll_behind (h : FillsAll fits value (.literal (.ofList ('/' :: letters)) :: rest) e) :
    ∃ s, e = '/' :: s ∧ FillsAll fits value (behind letters rest) s := by
  have hbehind : behind ('/' :: letters) rest = .literal (.ofList ('/' :: letters)) :: rest :=
    if_neg (List.cons_ne_nil _ _)
  obtain ⟨v, rfl, hv⟩ := fillsAll_behind_iff.mp (hbehind ▸ h)
  refine ⟨unescapeChars letters ++ v, ?_, fillsAll_behind_iff.mpr ⟨v, rfl, hv⟩⟩
  rw [unescapeChars_slash]
  rfl

end Fills

theorem allNamed_behind {known : String → Prop} (h : AllNamed known rest) : AllNamed known (behind letters rest) := by
  unfold behind
  split
  · exact h
  · exact ⟨trivial, h⟩

theorem allAnchored_behind (h : AllAnchored rest) : AllAnchored (behind letters rest) := by
  unfold behind
  split
  · exact h
  · exact ⟨trivial, h⟩

end Segment

namespace Fragment

/-- Assumes: a path pattern is compiled from segments that are filled to a text. As a template it is read too, and its
segments are filled to that text, possibly without the slash in front. -/
theorem exists_template {raw : String} {path : List Segment} (hparse : Segment.parse (rooted raw) = .ok path)
    {known : String → Prop} (hnamed : Segment.AllNamed known path) (hanchored : Segment.AllAnchored path)
    {fits : String → Option String → List Char → Prop} {value : String → Option (List Char)} {e : List Char}
    (hfills : Segment.FillsAll fits value path e) : ∃ parts s, Segment.read raw = .ok parts ∧
      Segment.AllNamed known parts ∧ Segment.AllAnchored parts ∧ Segment.FillsAll fits value parts s ∧
      (e = s ∨ e = '/' :: s) := by
  have hread := Segment.parse_eq_ok_iff_read.mp hparse
  unfold rooted at hread
  split at hread
  · exact ⟨path, e, hread, hnamed, hanchored, hfills, .inl rfl⟩
  · exact ⟨path, e, hread, hnamed, hanchored, hfills, .inl rfl⟩
  · obtain ⟨letters, rest, rfl, htemplate⟩ := Segment.read_behind_slash hread
    obtain ⟨s, rfl, hbehind⟩ := Segment.fillsAll_behind hfills
    exact ⟨_, s, htemplate, Segment.allNamed_behind hnamed.2, Segment.allAnchored_behind hanchored.2, hbehind, .inr rfl⟩

end Fragment

end PathBinding
