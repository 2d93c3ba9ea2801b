import PathBinding.Proofs.Entries
import PathBinding.View

/-!
Views as maps from names to values. Whether a view refuses a value depends on its type, the name and the value but not on
what the view holds (`ViewType.refusal?`), so values given in turn are written up to the first that is refused
(`setEach_of_accepted`, `setEach_of_refused`), and what has been written can be read back (`get_putEach`). No value that is
given changes the record of a view (`setEach_kept`).
-/

set_option autoImplicit false
set_option relaxedAutoImplicit false

namespace PathBinding

/-! ### What a setter refuses -/

theorem Kind.assign_ok {kind : Kind} {parameter : String} {value? slot : Option Value}
    (h : kind.assign parameter value? = .ok slot) : slot = value? := by
  unfold Kind.assign at h
  split at h
  · cases h
    rfl
  · split at h <;> cases h
    rfl

theorem Kind.assign_of_kind {kind : Kind} {value? : Option Value} (h : ∀ value, value? = some value → value.kind = kind)
    (parameter : String) : kind.assign parameter value? = .ok value? := by
  cases value? with
  | none => rfl
  | some value => exact if_pos (h value rfl)

namespace ViewType

/-- The error with which views of a type refuse a value for a name, or the removal of its value. -/
def refusal? (type : ViewType) (name : String) (value? : Option Value) : Option Error :=
  match type.accessors with
  | .anyExcept rejected => if name ∈ rejected then some (.configuration (.rejected name)) else none
  | .fields owner fields =>
    match fields.lookup name with
    | none => some (.configuration (.unknownParameter name owner))
    | some kind =>
      match kind.assign name value? with
      | .error e => some e
      | .ok _ => none

/-- Views of a type accept each value of a parameter's kind, and its removal. -/
def Accepts (type : ViewType) (descriptor : Descriptor) : Prop :=
  ∀ value?, (∀ value, value? = some value → value.kind = descriptor.kind) → type.refusal? descriptor.name value? = none

theorem accepts_of_anyExcept {type : ViewType} {rejected : List String} (h : type.accessors = .anyExcept rejected)
    {descriptor : Descriptor} (hname : descriptor.name ∉ rejected) : type.Accepts descriptor := by
  intro value? _
  unfold refusal?
  rw [h]
  exact if_neg hname

theorem accepts_of_fields {type : ViewType} {owner : String} {fields : List (String × Kind)}
    (h : type.accessors = .fields owner fields) {descriptor : Descriptor}
    (hfield : fields.lookup descriptor.name = some descriptor.kind) : type.Accepts descriptor := by
  intro value? hkind
  unfold refusal?
  rw [h]
  dsimp only
  rw [hfield]
  dsimp only
  rw [Kind.assign_of_kind hkind]

end ViewType

namespace View

variable {view : View} {name : String} {value? : Option Value}

theorem set_eq (view : View) (name : String) (value? : Option Value) :
    view.set name value? = match view.type.refusal? name value? with
      | some e => .error e
      | none => .ok (view.put name value?) := by
  unfold set ViewType.refusal?
  cases view.type.accessors with
  | anyExcept rejected =>
    dsimp only
    split <;> rfl
  | fields owner fields =>
    dsimp only
    cases fields.lookup name with
    | none => rfl
    | some kind =>
      dsimp only
      cases hassign : kind.assign name value? with
      | error e => rfl
      | ok slot =>
        rw [Kind.assign_ok hassign]
        rfl

theorem set_of_refusal {e : Error} (h : view.type.refusal? name value? = some e) : view.set name value? = .error e := by
  rw [set_eq, h]

theorem set_of_accepted (h : view.type.refusal? name value? = none) : view.set name value? = .ok (view.put name value?) := by
  rw [set_eq, h]

/-! ### What a view holds -/

@[simp] theorem put_type (view : View) (name : String) (value? : Option Value) : (view.put name value?).type = view.type :=
  rfl

@[simp] theorem put_matched (view : View) (name : String) (value? : Option Value) :
    (view.put name value?).matched = view.matched :=
  rfl

theorem get_put (view : View) (name : String) (value? : Option Value) (other : String) :
    (view.put name value?).get other = if other = name then value? else view.get other := by
  unfold get put
  dsimp only
  by_cases hname : other = name
  · rw [if_pos hname, hname]
    cases value? with
    | none => exact lookup_filter_self view.values name
    | some value => exact List.lookup_cons_self
  · rw [if_neg hname]
    cases value? with
    | none => exact lookup_filter_of_ne view.values hname
    | some value =>
      dsimp only
      rw [List.lookup_cons, beq_eq_false_iff_ne.mpr hname]
      exact lookup_filter_of_ne view.values hname

@[simp] theorem record_type (view : View) (pattern? : Option String) : (view.record pattern?).type = view.type := by
  unfold record
  split <;> rfl

@[simp] theorem get_record (view : View) (pattern? : Option String) (name : String) :
    (view.record pattern?).get name = view.get name := by
  unfold record
  split <;> rfl

theorem matched_record (view : View) (pattern? : Option String) :
    (view.record pattern?).matched = if view.type.records then pattern? else view.matched := by
  unfold record
  split <;> rfl

/-! ### Values given in turn -/

/-- A view with values given in turn, whatever it refuses. -/
def putEach (view : View) (values : List (String × Option Value)) : View :=
  values.foldl (fun view p ↦ view.put p.1 p.2) view

@[simp] theorem putEach_nil (view : View) : view.putEach [] = view :=
  rfl

@[simp] theorem putEach_cons (view : View) (p : String × Option Value) (rest : List (String × Option Value)) :
    view.putEach (p :: rest) = (view.put p.1 p.2).putEach rest :=
  rfl

@[simp] theorem putEach_type (view : View) (values : List (String × Option Value)) :
    (view.putEach values).type = view.type := by
  induction values generalizing view with
  | nil => rfl
  | cons p rest ih => rw [putEach_cons, ih, put_type]

@[simp] theorem putEach_matched (view : View) (values : List (String × Option Value)) :
    (view.putEach values).matched = view.matched := by
  induction values generalizing view with
  | nil => rfl
  | cons p rest ih => rw [putEach_cons, ih, put_matched]

theorem get_putEach_of_notMem {values : List (String × Option Value)} (h : name ∉ values.map Prod.fst) (view : View) :
    (view.putEach values).get name = view.get name := by
  induction values generalizing view with
  | nil => rfl
  | cons p rest ih =>
    rw [List.map_cons, List.mem_cons, not_or] at h
    rw [putEach_cons, ih h.2, get_put, if_neg h.1]

/-- Of values for different names each can be read back. -/
theorem get_putEach {values : List (String × Option Value)} (hnodup : (values.map Prod.fst).Nodup)
    (h : (name, value?) ∈ values) (view : View) : (view.putEach values).get name = value? := by
  induction values generalizing view with
  | nil => cases h
  | cons p rest ih =>
    rw [List.map_cons, List.nodup_cons] at hnodup
    rw [putEach_cons]
    rcases List.mem_cons.mp h with rfl | h
    · rw [get_putEach_of_notMem hnodup.1, get_put, if_pos rfl]
    · exact ih hnodup.2 h _

theorem setEach_of_accepted {values : List (String × Option Value)}
    (h : ∀ p ∈ values, view.type.refusal? p.1 p.2 = none) :
    access.setEach view values = (view.putEach values, none) := by
  induction values generalizing view with
  | nil => rfl
  | cons p rest ih =>
    obtain ⟨hfirst, hrest⟩ := List.forall_mem_cons.mp h
    rw [setEach_cons, set_of_accepted hfirst]
    exact ih hrest

theorem setEach_of_refused {before rest : List (String × Option Value)} {e : Error}
    (hbefore : ∀ p ∈ before, view.type.refusal? p.1 p.2 = none) (h : view.type.refusal? name value? = some e) :
    access.setEach view (before ++ (name, value?) :: rest) = (view.putEach before, some e) := by
  induction before generalizing view with
  | nil =>
    rw [List.nil_append, setEach_cons, set_of_refusal h]
    rfl
  | cons p before ih =>
    obtain ⟨hfirst, hbefore⟩ := List.forall_mem_cons.mp hbefore
    rw [List.cons_append, setEach_cons, set_of_accepted hfirst]
    exact ih hbefore h

/-- Whatever becomes of the values, the view stays of its type and keeps its record. -/
theorem setEach_kept {written : View} {values : List (String × Option Value)} {refusal? : Option Error}
    (h : access.setEach view values = (written, refusal?)) :
    written.type = view.type ∧ written.matched = view.matched := by
  induction values generalizing view with
  | nil =>
    cases h
    exact ⟨rfl, rfl⟩
  | cons p rest ih =>
    obtain ⟨name, value?⟩ := p
    rw [setEach_cons, set_eq] at h
    cases hrefusal : view.type.refusal? name value? with
    | none =>
      rw [hrefusal] at h
      obtain ⟨htype, hmatched⟩ := ih h
      exact ⟨htype, hmatched⟩
    | some e =>
      rw [hrefusal] at h
      cases h
      exact ⟨rfl, rfl⟩

end View

end PathBinding
