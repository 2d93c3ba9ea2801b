import PathBinding.Pieces

/-!
The text of an expression with gaps, once each gap is filled (`fill`). Appending pieces appends their text (`fill_addText`,
`fill_extend`), and both ways to complete an expression are this one: without gaps there is nothing to fill
(`static?_of_slots`), and the text assembled from resolved gaps is the text with those fillings (`assemble_eq`).
-/

set_option autoImplicit false
set_option relaxedAutoImplicit false

namespace PathBinding

/-- A computation that succeeds has succeeded at each step. -/
theorem bind_eq_ok {ε α β : Type} {x : Except ε α} {f : α → Except ε β} {b : β} :
    x >>= f = .ok b ↔ ∃ a, x = .ok a ∧ f a = .ok b := by
  cases x with
  | error e => exact ⟨nofun, fun ⟨_, h, _⟩ ↦ nomatch h⟩
  | ok a => exact ⟨fun h ↦ ⟨a, rfl, h⟩, fun ⟨_, h, hf⟩ ↦ by cases h; exact hf⟩

/-- A computation that fails has failed at its first step or behind it. -/
theorem bind_eq_error {ε α β : Type} {x : Except ε α} {f : α → Except ε β} {e : ε} :
    x >>= f = .error e ↔ x = .error e ∨ ∃ a, x = .ok a ∧ f a = .error e := by
  cases x with
  | error fault => exact ⟨fun h ↦ .inl (by cases h; rfl), fun h ↦ h.elim (by rintro ⟨⟩; rfl) fun ⟨_, h, _⟩ ↦ nomatch h⟩
  | ok a => exact ⟨fun h ↦ .inr ⟨a, rfl, h⟩, fun h ↦ h.elim nofun fun ⟨_, h, hf⟩ ↦ by cases h; exact hf⟩

theorem eq_ok_of_toOption {ε α : Type} {x : Except ε α} {a : α} (h : x.toOption = some a) : x = .ok a := by
  cases x with
  | error e => cases h
  | ok b => exact congrArg Except.ok (Option.some.inj h)

namespace Pieces

variable {pieces other : Pieces} {text : String}

/-- The text of the pieces, where each gap is filled with some text for its name. -/
def fill (filling : String → String) : Pieces → String
  | [] => ""
  | .text text :: rest => text ++ fill filling rest
  | .slot name :: rest => filling name ++ fill filling rest

variable (filling : String → String)

theorem fill_append (pieces other : Pieces) : fill filling (pieces ++ other) = fill filling pieces ++ fill filling other := by
  induction pieces with
  | nil => simp [fill]
  | cons piece rest ih =>
    cases piece with
    | text text => rw [List.cons_append, fill, fill, ih, String.append_assoc]
    | slot name => rw [List.cons_append, fill, fill, ih, String.append_assoc]

theorem fill_addText (pieces : Pieces) (text : String) : fill filling (pieces.addText text) = fill filling pieces ++ text := by
  induction pieces with
  | nil =>
    rw [addText]
    split
    · next hempty => simp [String.isEmpty_iff.mp hempty, fill]
    · simp [fill]
  | cons piece rest ih =>
    cases rest with
    | nil =>
      cases piece with
      | text last => simp [addText, fill]
      | slot name =>
        rw [addText]
        split
        · next hempty => simp [String.isEmpty_iff.mp hempty, fill]
        · simp [fill]
    | cons next rest =>
      rw [addText]
      cases piece with
      | text first => rw [fill, fill, ih, String.append_assoc]
      | slot name => rw [fill, fill, ih, String.append_assoc]

theorem fill_addSlot (pieces : Pieces) (name : String) :
    fill filling (pieces.addSlot name) = fill filling pieces ++ filling name := by
  rw [addSlot, fill_append]
  simp [fill]

theorem fill_extend (pieces other : Pieces) : fill filling (pieces.extend other) = fill filling pieces ++ fill filling other := by
  rw [extend]
  induction other generalizing pieces with
  | nil => simp [fill]
  | cons piece rest ih =>
    rw [List.foldl_cons, ih]
    cases piece with
    | text text => rw [add, fill_addText, fill, String.append_assoc]
    | slot name => rw [add, fill_addSlot, fill, String.append_assoc]

/-! ### Gaps -/

/-- The names of the gaps. -/
def slots : Pieces → List String
  | [] => []
  | .text _ :: rest => slots rest
  | .slot name :: rest => name :: slots rest

theorem slots_append (pieces other : Pieces) : slots (pieces ++ other) = slots pieces ++ slots other := by
  induction pieces with
  | nil => rfl
  | cons piece rest ih =>
    cases piece with
    | text text => exact ih
    | slot name => rw [List.cons_append, slots, slots, ih, List.cons_append]

theorem slots_addText (pieces : Pieces) (text : String) : slots (pieces.addText text) = slots pieces := by
  induction pieces with
  | nil =>
    rw [addText]
    split <;> rfl
  | cons piece rest ih =>
    cases rest with
    | nil =>
      cases piece with
      | text last => rfl
      | slot name =>
        rw [addText]
        split <;> rfl
    | cons next rest =>
      rw [addText]
      cases piece with
      | text first => exact ih
      | slot name => rw [slots, slots, ih]

theorem slots_addSlot (pieces : Pieces) (name : String) : slots (pieces.addSlot name) = slots pieces ++ [name] :=
  slots_append pieces [.slot name]

theorem slots_extend (pieces other : Pieces) : slots (pieces.extend other) = slots pieces ++ slots other := by
  rw [extend]
  induction other generalizing pieces with
  | nil => simp [slots]
  | cons piece rest ih =>
    rw [List.foldl_cons, ih]
    cases piece with
    | text text => rw [add, slots_addText, slots]
    | slot name => rw [add, addSlot, slots_append, List.append_assoc, slots, slots, slots, List.singleton_append]

theorem slots_of_static? (h : pieces.static? = some text) : pieces.slots = [] := by
  induction pieces generalizing text with
  | nil => rfl
  | cons piece rest ih =>
    cases piece with
    | text first =>
      obtain ⟨tail, htail, -⟩ := Option.map_eq_some_iff.mp h
      exact ih htail
    | slot name => cases h

/-- Without gaps there is one text, whatever would fill them. -/
theorem static?_of_slots (h : pieces.slots = []) : pieces.static? = some (pieces.fill filling) := by
  induction pieces with
  | nil => rfl
  | cons piece rest ih =>
    cases piece with
    | text first => rw [static?, ih h, Option.map_some, fill]
    | slot name => cases h

theorem static?_eq (h : pieces.static? = some text) : pieces.fill filling = text := by
  have hfill := static?_of_slots filling (slots_of_static? h)
  exact Option.some_inj.mp (hfill.symm.trans h)

/-- The text assembled from resolved gaps. -/
theorem assemble_eq {ε : Type} {resolve : String → Except ε String} (h : pieces.assemble resolve = .ok text) :
    pieces.fill (fun name ↦ (resolve name).toOption.getD "") = text := by
  induction pieces generalizing text with
  | nil =>
    cases h
    rfl
  | cons piece rest ih =>
    cases piece with
    | text first =>
      obtain ⟨tail, htail, h⟩ := bind_eq_ok.mp h
      cases h
      rw [fill, ih htail]
    | slot name =>
      obtain ⟨head, hhead, h⟩ := bind_eq_ok.mp h
      obtain ⟨tail, htail, h⟩ := bind_eq_ok.mp h
      cases h
      rw [fill, ih htail, hhead]
      rfl

/-- Text is assembled only if each gap is resolved. -/
theorem resolved_of_assemble {ε : Type} {resolve : String → Except ε String} (h : pieces.assemble resolve = .ok text) :
    ∀ slot ∈ pieces.slots, ∃ filled, resolve slot = .ok filled := by
  induction pieces generalizing text with
  | nil => exact fun _ hslot ↦ nomatch hslot
  | cons piece rest ih =>
    cases piece with
    | text first =>
      obtain ⟨tail, htail, -⟩ := bind_eq_ok.mp h
      exact ih htail
    | slot name =>
      obtain ⟨head, hhead, h⟩ := bind_eq_ok.mp h
      obtain ⟨tail, htail, -⟩ := bind_eq_ok.mp h
      exact List.forall_mem_cons.mpr ⟨⟨head, hhead⟩, ih htail⟩

/-- If each gap is resolved to its filling, the filled text is assembled. -/
theorem assemble_of_slots {ε : Type} {resolve : String → Except ε String}
    (h : ∀ slot ∈ pieces.slots, resolve slot = .ok (filling slot)) :
    pieces.assemble resolve = .ok (pieces.fill filling) := by
  induction pieces with
  | nil => rfl
  | cons piece rest ih =>
    cases piece with
    | text first =>
      rw [assemble, ih h]
      rfl
    | slot name =>
      obtain ⟨hname, hrest⟩ := List.forall_mem_cons.mp h
      rw [assemble, hname, ih hrest]
      rfl

/-- An assembly fails with the error of the first gap that is not resolved. -/
theorem assemble_eq_error_iff {ε : Type} {resolve : String → Except ε String} {e : ε} :
    pieces.assemble resolve = .error e ↔ ∃ before slot after, pieces.slots = before ++ slot :: after ∧
      (∀ other ∈ before, ∃ text, resolve other = .ok text) ∧ resolve slot = .error e := by
  induction pieces with
  | nil => exact iff_of_false nofun fun ⟨before, slot, after, hslots, _⟩ ↦ by cases before <;> cases hslots
  | cons piece rest ih =>
    cases piece with
    | text first =>
      rw [slots, ← ih, assemble, bind_eq_error]
      exact or_iff_left fun ⟨_, _, h⟩ ↦ nomatch h
    | slot name =>
      have hrest (head : String) : (do return head ++ (← assemble resolve rest)) = Except.error e ↔
          assemble resolve rest = .error e := by
        rw [bind_eq_error]
        exact or_iff_left fun ⟨_, _, h⟩ ↦ nomatch h
      rw [slots, assemble, bind_eq_error]
      constructor
      · rintro (hname | ⟨head, hhead, h⟩)
        · exact ⟨[], name, _, rfl, nofun, hname⟩
        · obtain ⟨before, slot, after, hslots, hbefore, hslot⟩ := ih.mp ((hrest head).mp h)
          exact ⟨name :: before, slot, after, congrArg (name :: ·) hslots,
            List.forall_mem_cons.mpr ⟨⟨head, hhead⟩, hbefore⟩, hslot⟩
      · rintro ⟨before, slot, after, hslots, hbefore, hslot⟩
        cases before with
        | nil =>
          cases hslots
          exact .inl hslot
        | cons first before =>
          obtain ⟨rfl, htail⟩ := List.cons.inj hslots
          obtain ⟨⟨head, hhead⟩, hbefore⟩ := List.forall_mem_cons.mp hbefore
          exact .inr ⟨head, hhead, (hrest head).mpr (ih.mpr ⟨before, slot, after, htail, hbefore, hslot⟩)⟩

end Pieces

end PathBinding
