import PathBinding.Proofs.Pieces
import PathBinding.Segment.Parser

/-!
The names of placeholders. A reader that has read placeholders with proper names only keeps to them character by
character (`named_of_step`), so the named placeholders of a text have names of word characters
(`named_of_read`).
-/

set_option autoImplicit false
set_option relaxedAutoImplicit false

namespace PathBinding.Segment

/-- One or more word characters. -/
def IsName (name : String) : Prop :=
  name.toList ≠ [] ∧ ∀ c ∈ name.toList, isWordChar c = true

/-- All named placeholders of segments have names of word characters. -/
def Named (segments : List Segment) : Prop :=
  ∀ p ∈ placeholdersAll segments, IsName p.1

theorem named_nil : Named [] :=
  nofun

theorem named_cons {segment : Segment} {segments : List Segment} :
    Named (segment :: segments) ↔ (∀ p ∈ segment.placeholders, IsName p.1) ∧ Named segments := by
  simp only [Named, placeholdersAll, List.forall_mem_append]

theorem placeholdersAll_append (first second : List Segment) :
    placeholdersAll (first ++ second) = placeholdersAll first ++ placeholdersAll second := by
  induction first with
  | nil => rfl
  | cons segment rest ih => rw [List.cons_append, placeholdersAll, placeholdersAll, ih, List.append_assoc]

theorem Named.reverse {segments : List Segment} (h : Named segments) : Named segments.reverse := by
  induction segments with
  | nil => exact named_nil
  | cons segment rest ih =>
    obtain ⟨hsegment, hrest⟩ := named_cons.mp h
    rw [List.reverse_cons, Named, placeholdersAll_append, List.forall_mem_append]
    exact ⟨ih hrest, named_cons.mpr ⟨hsegment, named_nil⟩⟩

theorem Named.flush {segments : List Segment} (h : Named segments) (text : List Char) :
    Named (flush text segments) := by
  unfold Segment.flush
  split
  · exact h
  · exact named_cons.mpr ⟨nofun, h⟩

/-- The letters read so far can be a name. -/
def AreLetters (letters : List Char) : Prop :=
  letters ≠ [] ∧ ∀ c ∈ letters, isWordChar c = true

theorem isName_ofList {letters : List Char} (h : AreLetters letters) : IsName (.ofList letters) := by
  rw [IsName, String.toList_ofList]
  exact h

theorem AreLetters.reverse {letters : List Char} (h : AreLetters letters) : AreLetters letters.reverse :=
  ⟨List.reverse_ne_nil_iff.mpr h.1, fun c hc ↦ h.2 c (List.mem_reverse.mp hc)⟩

theorem placeholders_ofName {letters : List Char} {segment : Segment} (h : ofName letters = .ok segment)
    (hletters : AreLetters letters) : ∀ p ∈ segment.placeholders, IsName p.1 := by
  unfold ofName at h
  split at h
  · split at h
    · cases h
    · split at h
      · cases h
        exact nofun
      · cases h
  · cases h
    exact List.forall_mem_singleton.mpr (isName_ofList hletters)

/-- Whatever the last characters have begun, a name in it has word characters. -/
def Pending.Named : Pending → Prop
  | .literal _ | .escape _ | .colon _ _ => True
  | .name _ letters => AreLetters letters
  | .regex _ own _ => IsName own

namespace Reading

/-- All names read so far have word characters. -/
structure Named (r : Reading) : Prop where
  enclosing : ∀ segments ∈ r.enclosing, Segment.Named segments
  read : Segment.Named r.read
  pending : r.pending.Named

variable {r next : Reading} {c : Char} {text : List Char}

theorem named_takePlain (henclosing : ∀ segments ∈ r.enclosing, Segment.Named segments) (hread : Segment.Named r.read)
    (h : r.takePlain text c = .ok next) : next.Named := by
  unfold takePlain at h
  split at h
  · cases h
    exact ⟨henclosing, hread, trivial⟩
  split at h
  · cases h
    exact ⟨List.forall_mem_cons.mpr ⟨hread.flush text, henclosing⟩, named_nil, trivial⟩
  split at h
  · split at h
    · cases h
    · next outer enclosing heq =>
      cases h
      rw [heq] at henclosing
      obtain ⟨houter, hrest⟩ := List.forall_mem_cons.mp henclosing
      exact ⟨hrest, named_cons.mpr ⟨(hread.flush text).reverse, houter⟩, trivial⟩
  split at h
  · cases h
    exact ⟨henclosing, hread, trivial⟩
  · cases h
    exact ⟨henclosing, hread, trivial⟩

theorem named_take (hr : r.Named) (h : r.take c = .ok next) : next.Named := by
  obtain ⟨henclosing, hread, hpending⟩ := hr
  unfold take at h
  split at h
  · exact named_takePlain henclosing hread h
  · cases h
    exact ⟨henclosing, hread, trivial⟩
  · split at h
    · next hc =>
      cases h
      exact ⟨henclosing, hread.flush _, List.cons_ne_nil _ _, List.forall_mem_singleton.mpr hc⟩
    · exact named_takePlain henclosing hread h
  · next start letters heq =>
    rw [heq] at hpending
    split at h
    · next hc =>
      cases h
      exact ⟨henclosing, hread, List.cons_ne_nil _ _, List.forall_mem_cons.mpr ⟨hc, hpending.2⟩⟩
    · split at h
      · cases h
        exact ⟨henclosing, hread, isName_ofList hpending.reverse⟩
      · obtain ⟨segment, hsegment, h⟩ := bind_eq_ok.mp h
        have hnamed := placeholders_ofName hsegment hpending.reverse
        exact named_takePlain (r := { r with read := segment :: r.read }) henclosing
          (named_cons.mpr ⟨hnamed, hread⟩) h
  · next start name letters heq =>
    rw [heq] at hpending
    split at h
    · split at h
      · cases h
      · cases h
        exact ⟨henclosing, named_cons.mpr ⟨List.forall_mem_singleton.mpr hpending, hread⟩, trivial⟩
    · cases h
      exact ⟨henclosing, hread, hpending⟩

theorem named_start : start.Named :=
  ⟨nofun, named_nil, trivial⟩

theorem named_of_step (hr : r.Named) (h : r.step c = .ok next) : next.Named := by
  obtain ⟨taken, htaken, h⟩ := bind_eq_ok.mp h
  cases h
  obtain ⟨henclosing, hread, hpending⟩ := named_take hr htaken
  exact ⟨henclosing, hread, hpending⟩

theorem named_of_foldlM {cs : List Char} (hr : r.Named) (h : cs.foldlM step r = .ok next) : next.Named := by
  induction cs generalizing r with
  | nil =>
    cases h
    exact hr
  | cons c cs ih =>
    obtain ⟨middle, hmiddle, h⟩ := bind_eq_ok.mp h
    exact ih (named_of_step hr hmiddle) h

theorem named_of_finish {segments : List Segment} (hr : r.Named) (h : r.finish = .ok segments) :
    Segment.Named segments := by
  have hlast {read : List Segment} (hread : Segment.Named read)
      (h : (if r.enclosing.isEmpty = true then pure read.reverse else throw .unclosedOpen) =
        (.ok segments : Except PatternFault (List Segment))) : Segment.Named segments := by
    split at h
    · cases h
      exact hread.reverse
    · cases h
  unfold finish at h
  dsimp only at h
  split at h
  · exact hlast (hr.read.flush _) h
  · cases h
  · exact hlast (hr.read.flush _) h
  · next start letters heq =>
    have hpending := hr.pending
    rw [heq] at hpending
    obtain ⟨read, hread, h⟩ := bind_eq_ok.mp h
    cases hsegment : ofName letters.reverse with
    | error fault =>
      rw [hsegment] at hread
      cases hread
    | ok segment =>
      rw [hsegment] at hread
      cases hread
      exact hlast (named_cons.mpr ⟨placeholders_ofName hsegment hpending.reverse, hr.read⟩) h
  · cases h

end Reading

/-- The named placeholders of a text have names of word characters. -/
theorem named_of_read {text : String} {segments : List Segment} (h : read text = .ok segments) : Named segments := by
  obtain ⟨reading, hreading, h⟩ := bind_eq_ok.mp h
  exact Reading.named_of_finish (Reading.named_of_foldlM Reading.named_start hreading) h

theorem named_of_parse {pattern : String} {segments : List Segment} (h : parse pattern = .ok segments) :
    Named segments := by
  unfold parse at h
  split at h
  · next hread =>
    cases h
    exact named_of_read hread
  · cases h

end PathBinding.Segment
