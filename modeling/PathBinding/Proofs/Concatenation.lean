import Mathlib.Data.List.Chain
import PathBinding.Proofs.Mapping

/-!
Pieces as a concatenation in normal form. However pieces are put together, no text of them is empty and no two texts stand
side by side (`isCanonical_built`). There is one such list for each content (`IsCanonical.eq_of_content`), so operations
that append the same lead to the same pieces, whatever the portions (`built_eq_iff`). An assembly asks for the content only
(`assemble_eq_content`), and what a list is extended by is assembled behind it (`assemble_extend`).
-/

set_option autoImplicit false
set_option relaxedAutoImplicit false

namespace PathBinding

namespace Piece

def isText : Piece → Bool
  | .text _ => true
  | .slot _ => false

/-- Two pieces that may stand side by side. -/
def Parted (a b : Piece) : Prop :=
  ¬(a.isText = true ∧ b.isText = true)

end Piece

namespace Pieces

variable {pieces other : Pieces}

/-- Text is added to the last piece or behind it. -/
theorem addText_concat (front : Pieces) (piece : Piece) (text : String) :
    addText (front ++ [piece]) text = front ++ addText [piece] text := by
  induction front with
  | nil => rfl
  | cons first rest ih =>
    cases rest with
    | nil => cases first <;> rfl
    | cons next rest =>
      rw [List.cons_append, List.cons_append, addText, ← List.cons_append, ih]
      rfl

theorem addText_slot (name text : String) : addText [.slot name] text = .slot name :: addText [] text := by
  rw [addText, addText]
  split <;> rfl

/-! ### The normal form -/

/-- No text is empty, and no two texts stand side by side. -/
structure IsCanonical (pieces : Pieces) : Prop where
  nonempty : ∀ text, .text text ∈ pieces → text ≠ ""
  parted : pieces.IsChain Piece.Parted

theorem isCanonical_nil : IsCanonical [] :=
  ⟨fun _ h ↦ absurd h List.not_mem_nil, .nil⟩

theorem isCanonical_slot (name : String) : IsCanonical [.slot name] :=
  ⟨fun _ h ↦ absurd (List.mem_singleton.mp h) nofun, .singleton _⟩

theorem isCanonical_text {text : String} (h : text ≠ "") : IsCanonical [.text text] := by
  refine ⟨fun other hother ↦ ?_, .singleton _⟩
  cases List.mem_singleton.mp hother
  exact h

theorem isCanonical_append : IsCanonical (pieces ++ other) ↔ IsCanonical pieces ∧ IsCanonical other ∧
    ∀ last ∈ pieces.getLast?, ∀ first ∈ other.head?, last.Parted first := by
  constructor
  · rintro ⟨hnonempty, hparted⟩
    obtain ⟨hfirst, hsecond, hbetween⟩ := List.isChain_append.mp hparted
    exact ⟨⟨fun text h ↦ hnonempty text (List.mem_append_left _ h), hfirst⟩,
      ⟨fun text h ↦ hnonempty text (List.mem_append_right _ h), hsecond⟩, hbetween⟩
  · rintro ⟨hfirst, hsecond, hbetween⟩
    refine ⟨fun text h ↦ ?_, List.isChain_append.mpr ⟨hfirst.parted, hsecond.parted, hbetween⟩⟩
    exact (List.mem_append.mp h).elim (hfirst.nonempty text) (hsecond.nonempty text)

theorem IsCanonical.addText (h : IsCanonical pieces) (text : String) : IsCanonical (pieces.addText text) := by
  have hnil : IsCanonical (Pieces.addText [] text) := by
    rw [Pieces.addText]
    split
    · exact isCanonical_nil
    · next htext => exact isCanonical_text fun hempty ↦ htext (String.isEmpty_iff.mpr hempty)
  rcases List.eq_nil_or_concat' pieces with rfl | ⟨front, piece, rfl⟩
  · exact hnil
  · obtain ⟨hfront, hpiece, hbetween⟩ := isCanonical_append.mp h
    rw [addText_concat, isCanonical_append]
    cases piece with
    | text last =>
      have hlonger : last ++ text ≠ "" := fun hempty ↦
        hpiece.nonempty last List.mem_cons_self (String.append_eq_empty_iff.mp hempty).1
      refine ⟨hfront, isCanonical_text hlonger, fun before hbefore first hfirst ↦ ?_⟩
      cases hfirst
      exact hbetween before hbefore (.text last) rfl
    | slot name =>
      rw [addText_slot]
      refine ⟨hfront, isCanonical_append.mpr ⟨isCanonical_slot name, hnil, ?_⟩, hbetween⟩
      rintro last ⟨⟩ first -
      exact fun hboth ↦ Bool.noConfusion hboth.1

theorem IsCanonical.addSlot (h : IsCanonical pieces) (name : String) : IsCanonical (pieces.addSlot name) := by
  refine isCanonical_append.mpr ⟨h, isCanonical_slot name, ?_⟩
  rintro last - first ⟨⟩
  exact fun hboth ↦ Bool.noConfusion hboth.2

theorem IsCanonical.extend (h : IsCanonical pieces) (other : Pieces) : IsCanonical (pieces.extend other) := by
  rw [Pieces.extend]
  induction other generalizing pieces with
  | nil => exact h
  | cons piece rest ih =>
    cases piece with
    | text text => exact ih (h.addText text)
    | slot name => exact ih (h.addSlot name)

theorem isCanonical_cons {piece : Piece} : IsCanonical (piece :: pieces) ↔
    IsCanonical [piece] ∧ IsCanonical pieces ∧ ∀ first ∈ pieces.head?, piece.Parted first := by
  rw [← List.singleton_append, isCanonical_append]
  simp

/-! ### Content -/

/-- The characters of texts and the names of slots. -/
def content : Pieces → List (Char ⊕ String)
  | [] => []
  | .text text :: rest => text.toList.map .inl ++ content rest
  | .slot name :: rest => .inr name :: content rest

theorem content_append (pieces other : Pieces) : content (pieces ++ other) = content pieces ++ content other := by
  induction pieces with
  | nil => rfl
  | cons piece rest ih =>
    cases piece with
    | text text => rw [List.cons_append, content, content, ih, List.append_assoc]
    | slot name => rw [List.cons_append, content, content, ih, List.cons_append]

theorem content_addText (pieces : Pieces) (text : String) :
    content (pieces.addText text) = content pieces ++ content [.text text] := by
  have hnil : content (addText [] text) = content [.text text] := by
    rw [addText]
    split
    · next hempty =>
      rw [String.isEmpty_iff.mp hempty]
      rfl
    · rfl
  rcases List.eq_nil_or_concat' pieces with rfl | ⟨front, piece, rfl⟩
  · exact hnil
  · rw [addText_concat, content_append, content_append, List.append_assoc]
    cases piece with
    | text last => simp [addText, content]
    | slot name =>
      rw [addText_slot, ← List.singleton_append, content_append, hnil]

theorem content_extend (pieces other : Pieces) : content (pieces.extend other) = content pieces ++ content other := by
  rw [extend]
  induction other generalizing pieces with
  | nil => exact (List.append_nil _).symm
  | cons piece rest ih =>
    rw [List.foldl_cons, ih, ← List.singleton_append (l := rest), content_append, ← List.append_assoc]
    cases piece with
    | text text => rw [add, content_addText]
    | slot name => rw [add, addSlot, content_append]

/-- The characters that canonical pieces begin with are those of their first text. -/
theorem IsCanonical.takeWhile_content {text : String} (h : IsCanonical (.text text :: pieces)) :
    (content (.text text :: pieces)).takeWhile Sum.isLeft = text.toList.map .inl := by
  obtain ⟨-, -, hbetween⟩ := isCanonical_cons.mp h
  have hall : ∀ c ∈ text.toList.map (Sum.inl : Char → Char ⊕ String), c.isLeft = true := by simp
  rw [content, List.takeWhile_append_of_pos hall]
  cases pieces with
  | nil => simp [content]
  | cons next rest =>
    cases next with
    | text other => exact absurd ⟨rfl, rfl⟩ (hbetween _ rfl)
    | slot name => simp [content]

/-- There is one list in normal form for each content. -/
theorem IsCanonical.eq_of_content (h : IsCanonical pieces) (h' : IsCanonical other)
    (hsame : content pieces = content other) : pieces = other := by
  -- A text in front shows in the first character.
  have hfirst {text : String} {rest : Pieces} (h : IsCanonical (.text text :: rest)) :
      ∃ c cs, content (.text text :: rest) = .inl c :: cs := by
    cases hlist : text.toList with
    | nil => exact absurd (String.toList_eq_nil_iff.mp hlist) (h.nonempty text List.mem_cons_self)
    | cons c cs =>
      rw [content, hlist]
      exact ⟨c, _, rfl⟩
  have hrest {piece : Piece} {rest : Pieces} (h : IsCanonical (piece :: rest)) : IsCanonical rest :=
    (isCanonical_cons.mp h).2.1
  induction pieces generalizing other with
  | nil =>
    match other with
    | [] => rfl
    | .text text :: _ =>
      obtain ⟨c, cs, hcontent⟩ := hfirst h'
      exact nomatch hsame.trans hcontent
  | cons piece rest ih =>
    match piece, other with
    | .text text, .text text' :: rest' =>
      have htext : text.toList.map (Sum.inl : Char → Char ⊕ String) = text'.toList.map .inl := by
        rw [← h.takeWhile_content, ← h'.takeWhile_content, hsame]
      obtain rfl : text = text' := String.toList_injective (List.map_injective_iff.mpr (fun _ _ ↦ Sum.inl.inj) htext)
      rw [ih (hrest h) (hrest h') (List.append_cancel_left hsame)]
    | .slot name, .slot name' :: rest' =>
      obtain ⟨hname, htail⟩ := List.cons.inj hsame
      rw [Sum.inr.inj hname, ih (hrest h) (hrest h') htail]
    | .text text, [] =>
      obtain ⟨c, cs, hcontent⟩ := hfirst h
      exact nomatch hcontent.symm.trans hsame
    | .text text, .slot name :: _ =>
      obtain ⟨c, cs, hcontent⟩ := hfirst h
      exact nomatch hcontent.symm.trans hsame
    | .slot name, .text text :: _ =>
      obtain ⟨c, cs, hcontent⟩ := hfirst h'
      exact nomatch hsame.trans hcontent

/-! ### What depends on the content only -/

section Content

variable {ε : Type} (resolve : String → Except ε String)

/-- What is assembled from characters and slots. -/
def assembleContent : List (Char ⊕ String) → Except ε String
  | [] => .ok ""
  | .inl c :: rest => do
    let tail ← assembleContent rest
    return String.singleton c ++ tail
  | .inr name :: rest => do
    let head ← resolve name
    let tail ← assembleContent rest
    return head ++ tail

theorem assembleContent_text (cs : List Char) (rest : List (Char ⊕ String)) :
    assembleContent resolve (cs.map .inl ++ rest) = do
      let tail ← assembleContent resolve rest
      return String.ofList cs ++ tail := by
  induction cs with
  | nil =>
    rw [List.map_nil, List.nil_append]
    cases assembleContent resolve rest with
    | error e => rfl
    | ok tail => exact congrArg Except.ok String.empty_append.symm
  | cons c cs ih =>
    simp only [List.map_cons, List.cons_append, assembleContent, ih, String.ofList_cons, bind_assoc, pure_bind,
      String.append_assoc]

theorem assemble_eq_content (pieces : Pieces) : pieces.assemble resolve = assembleContent resolve (content pieces) := by
  induction pieces with
  | nil => rfl
  | cons piece rest ih =>
    cases piece with
    | text text => rw [assemble, content, assembleContent_text, ih, String.ofList_toList]
    | slot name => rw [assemble, content, assembleContent, ih]

theorem assemble_congr (h : content pieces = content other) : pieces.assemble resolve = other.assemble resolve := by
  rw [assemble_eq_content, assemble_eq_content, h]

theorem slots_eq_content (pieces : Pieces) : slots pieces = (content pieces).filterMap Sum.getRight? := by
  induction pieces with
  | nil => rfl
  | cons piece rest ih =>
    cases piece with
    | text text =>
      have hnone : (text.toList.map (Sum.inl : Char → Char ⊕ String)).filterMap Sum.getRight? = [] := by simp
      rw [slots, content, List.filterMap_append, hnone, ih, List.nil_append]
    | slot name => rw [slots, content, ih]; rfl

theorem slots_congr (h : content pieces = content other) : slots pieces = slots other := by
  rw [slots_eq_content, slots_eq_content, h]

/-- What stands behind is assembled behind. -/
theorem assemble_append (pieces other : Pieces) : (pieces ++ other).assemble resolve = do
    let head ← pieces.assemble resolve
    let tail ← other.assemble resolve
    return head ++ tail := by
  induction pieces with
  | nil =>
    rw [List.nil_append]
    cases h : other.assemble resolve with
    | error e => rfl
    | ok tail => exact congrArg Except.ok String.empty_append.symm
  | cons piece rest ih =>
    cases piece with
    | text text => simp only [List.cons_append, assemble, ih, bind_assoc, pure_bind, String.append_assoc]
    | slot name => simp only [List.cons_append, assemble, ih, bind_assoc, pure_bind, String.append_assoc]

/-- What a list is extended by is assembled behind it. -/
theorem assemble_extend (pieces other : Pieces) : (pieces.extend other).assemble resolve = do
    let head ← pieces.assemble resolve
    let tail ← other.assemble resolve
    return head ++ tail := by
  rw [← assemble_append]
  exact assemble_congr resolve ((content_extend pieces other).trans (content_append pieces other).symm)

end Content

theorem hasSlot_iff : pieces.hasSlot = true ↔ ∃ name, .slot name ∈ pieces := by
  rw [hasSlot, List.any_eq_true]
  constructor
  · rintro ⟨piece, hpiece, h⟩
    cases piece with
    | text text => cases h
    | slot name => exact ⟨name, hpiece⟩
  · rintro ⟨name, hname⟩
    exact ⟨.slot name, hname, rfl⟩

theorem mem_slots {name : String} : name ∈ slots pieces ↔ .slot name ∈ pieces := by
  induction pieces with
  | nil => exact iff_of_false List.not_mem_nil List.not_mem_nil
  | cons piece rest ih =>
    cases piece with
    | text text => simp [slots, ih]
    | slot other => simp [slots, ih]

theorem static?_isSome_iff : pieces.static?.isSome = true ↔ slots pieces = [] := by
  constructor
  · intro h
    obtain ⟨text, htext⟩ := Option.isSome_iff_exists.mp h
    exact slots_of_static? htext
  · intro h
    rw [static?_of_slots (fun _ ↦ "") h]
    rfl

/-- There is a text without gaps exactly if every assembly yields it. -/
theorem static?_eq_some_iff {text : String} : pieces.static? = some text ↔
    ∀ {ε : Type} (resolve : String → Except ε String), pieces.assemble resolve = .ok text := by
  constructor
  · intro h ε resolve
    have hslots := slots_of_static? h
    rw [assemble_of_slots (fun _ ↦ "") (by simp [hslots]), static?_eq _ h]
  · intro h
    cases hslots : slots pieces with
    | nil =>
      have hfill := assemble_eq (h fun _ ↦ (.ok "" : Except Unit String))
      rw [static?_of_slots _ hslots, hfill]
    | cons slot rest =>
      obtain ⟨_, hresolved⟩ := resolved_of_assemble (h fun _ ↦ .error ()) slot (hslots ▸ List.mem_cons_self)
      cases hresolved

/-! ### Operations -/

/-- What pieces are put together by. -/
inductive Operation
  | text (text : String)
  | slot (name : String)
  | extend (operations : List Operation)

mutual

def Operation.apply (pieces : Pieces) : Operation → Pieces
  | .text text => pieces.addText text
  | .slot name => pieces.addSlot name
  | .extend operations => pieces.extend (applyAll [] operations)

def applyAll (pieces : Pieces) : List Operation → Pieces
  | [] => pieces
  | operation :: rest => applyAll (operation.apply pieces) rest

end

/-- The pieces that operations put together from nothing. -/
def built (operations : List Operation) : Pieces :=
  applyAll [] operations

mutual

/-- All that an operation appends, as it stands. -/
def Operation.appended : Operation → Pieces
  | .text text => [.text text]
  | .slot name => [.slot name]
  | .extend operations => appendedBy operations

def appendedBy : List Operation → Pieces
  | [] => []
  | operation :: rest => operation.appended ++ appendedBy rest

end

theorem IsCanonical.apply (h : IsCanonical pieces) (operation : Operation) : IsCanonical (operation.apply pieces) := by
  cases operation with
  | text text => exact h.addText text
  | slot name => exact h.addSlot name
  | extend operations => exact h.extend _

theorem IsCanonical.applyAll (h : IsCanonical pieces) (operations : List Operation) :
    IsCanonical (applyAll pieces operations) := by
  induction operations generalizing pieces with
  | nil => exact h
  | cons operation rest ih => exact ih (h.apply operation)

theorem isCanonical_built (operations : List Operation) : IsCanonical (built operations) :=
  isCanonical_nil.applyAll operations

mutual

theorem content_apply (pieces : Pieces) (operation : Operation) :
    content (operation.apply pieces) = content pieces ++ content operation.appended := by
  cases operation with
  | text text => exact content_addText pieces text
  | slot name => exact content_append pieces [.slot name]
  | extend operations =>
    rw [Operation.apply, Operation.appended, content_extend, content_applyAll]
    rfl

theorem content_applyAll (pieces : Pieces) (operations : List Operation) :
    content (applyAll pieces operations) = content pieces ++ content (appendedBy operations) := by
  cases operations with
  | nil => exact (List.append_nil _).symm
  | cons operation rest =>
    rw [applyAll, appendedBy, content_applyAll, content_apply, content_append, List.append_assoc]

end

theorem content_built (operations : List Operation) : content (built operations) = content (appendedBy operations) :=
  content_applyAll [] operations

/-- Operations put the same pieces together exactly if they append the same characters and slots. -/
theorem built_eq_iff (operations others : List Operation) :
    built operations = built others ↔ content (appendedBy operations) = content (appendedBy others) := by
  rw [← content_built, ← content_built]
  exact ⟨congrArg content, (isCanonical_built operations).eq_of_content (isCanonical_built others)⟩

/-- Pieces that operations put together are in normal form. They are assembled to all that has been appended, each slot as
it is resolved, or to the error of the first slot that is not resolved, and what a list is extended by is assembled behind
it. A slot is among them exactly if one has been appended, and otherwise they are a text, which every assembly yields. -/
theorem built_concatenates (operations : List Operation) :
    IsCanonical (built operations) ∧
      (∀ {ε : Type} (filling : String → String),
        (built operations).assemble (fun name ↦ (.ok (filling name) : Except ε String)) =
          .ok (fill filling (appendedBy operations))) ∧
      (∀ {ε : Type} (resolve : String → Except ε String) (pieces other : Pieces),
        (pieces.extend other).assemble resolve = do
        let head ← pieces.assemble resolve
        let tail ← other.assemble resolve
        return head ++ tail) ∧
      ((built operations).hasSlot = true ↔ ∃ name, .slot name ∈ appendedBy operations) ∧
      ((built operations).static?.isSome = true ↔ (built operations).hasSlot = false) ∧
      (∀ text, (built operations).static? = some text ↔
        ∀ {ε : Type} (resolve : String → Except ε String), (built operations).assemble resolve = .ok text) ∧
      ∀ {ε : Type} (resolve : String → Except ε String) (e : ε), (built operations).assemble resolve = .error e ↔
        ∃ before slot after, slots (appendedBy operations) = before ++ slot :: after ∧
          (∀ other ∈ before, ∃ text, resolve other = .ok text) ∧ resolve slot = .error e := by
  have hcontent := content_built operations
  have hslots : slots (built operations) = slots (appendedBy operations) := slots_congr hcontent
  have hhas : (built operations).hasSlot = true ↔ ∃ name, .slot name ∈ appendedBy operations := by
    rw [hasSlot_iff]
    simp only [← mem_slots, hslots]
  refine ⟨isCanonical_built operations, fun filling ↦ ?_, assemble_extend, hhas, ?_, fun text ↦ static?_eq_some_iff,
    fun resolve e ↦ ?_⟩
  · rw [assemble_congr _ hcontent]
    exact assemble_of_slots filling fun slot _ ↦ rfl
  · rw [static?_isSome_iff, Bool.eq_false_iff, ne_eq, hasSlot_iff, List.eq_nil_iff_forall_not_mem]
    simp only [mem_slots, not_exists]
  · rw [← hslots]
    exact assemble_eq_error_iff

end Pieces

namespace Mapping

/-- The pieces of an expression are in normal form. -/
theorem isCanonical_join (fragments : List Pieces) : (join fragments).IsCanonical := by
  have hbars (pieces : Pieces) (h : pieces.IsCanonical) :
      (fragments.tail.foldl (fun pieces fragment ↦ (pieces.addText "|").extend fragment) pieces).IsCanonical := by
    induction fragments.tail generalizing pieces with
    | nil => exact h
    | cons fragment rest ih => exact ih _ ((h.addText "|").extend fragment)
  have hopened := Pieces.isCanonical_nil.addText "^(?:"
  cases fragments with
  | nil => exact hopened.addText ")$"
  | cons first rest => exact (hbars _ (hopened.extend first)).addText ")$"

theorem isCanonical_of_build {declaration : Declaration} {settings : Settings} {mapping : Mapping} {pieces : Pieces}
    (hbuild : build declaration settings = .ok mapping) (hsource : mapping.source = .dynamic pieces) :
    pieces.IsCanonical := by
  obtain ⟨-, compiled, -, rfl, -⟩ := dynamic_parts hbuild hsource
  exact isCanonical_join _

end Mapping

end PathBinding
