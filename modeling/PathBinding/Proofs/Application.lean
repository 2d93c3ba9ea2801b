import PathBinding.Proofs.Binding
import PathBinding.Proofs.Selection
import PathBinding.Proofs.View

/-!
What applying a selection does to a view. Values are taken out of a list whose order changes on the way, and still each
parameter gets its own (`writes_eq`). So a selection whose text can be read is written parameter by parameter in the order
of the declaration (`applyWith_of_converted`): as a whole if the view accepts all values (`apply_of_accepted`), and otherwise
up to the first that it refuses (`apply_of_refused`).
-/

set_option autoImplicit false
set_option relaxedAutoImplicit false

namespace PathBinding

namespace Mapping

/-! ### What is written to parameters -/

theorem swapRemove_perm {α : Type} {items : List α} {i : Nat} {item : α} (h : items[i]? = some item) :
    items.Perm (item :: swapRemove items i) := by
  obtain ⟨init, last, rfl⟩ : ∃ init last, items = init ++ [last] :=
    ⟨_, _, (List.dropLast_concat_getLast fun hnil ↦ by simp [hnil] at h).symm⟩
  rw [swapRemove, List.getLast?_concat]
  dsimp only
  by_cases hi : i < init.length
  · rw [List.getElem?_append_left hi] at h
    obtain ⟨hlt, hitem⟩ := List.getElem?_eq_some_iff.mp h
    rw [List.set_append_left _ _ hi, List.dropLast_concat, List.set_eq_take_append_cons_drop, if_pos hlt]
    have hsplit : init = init.take i ++ item :: init.drop (i + 1) := by
      rw [← hitem, List.getElem_cons_drop, List.take_append_drop]
    calc init ++ [last]
      List.Perm _ (last :: init) := List.perm_append_singleton last init
      List.Perm _ (last :: (init.take i ++ item :: init.drop (i + 1))) := by rw [← hsplit]
      List.Perm _ (last :: item :: (init.take i ++ init.drop (i + 1))) := List.perm_middle.cons last
      List.Perm _ (item :: last :: (init.take i ++ init.drop (i + 1))) := List.Perm.swap _ _ _
      List.Perm _ (item :: (init.take i ++ last :: init.drop (i + 1))) := List.perm_middle.symm.cons item
  · have hlast : i = init.length := by
      have hlt := (List.getElem?_eq_some_iff.mp h).1
      rw [List.length_append, List.length_singleton] at hlt
      omega
    subst hlast
    rw [List.getElem?_concat_length] at h
    cases h
    rw [List.set_append_right _ _ (le_refl _), Nat.sub_self, List.set_cons_zero, List.dropLast_concat]
    exact List.perm_append_singleton _ init

/-- Each parameter is given its own value, whatever the order of the values is. -/
theorem writes_eq {descriptors : List Descriptor} (hnames : (descriptors.map (·.name)).Nodup)
    {values : List (String × Value)} (hvalues : (values.map Prod.fst).Nodup) :
    writes descriptors values = descriptors.map fun d ↦ (d.name, values.lookup d.name) := by
  induction descriptors generalizing values with
  | nil => rfl
  | cons descriptor rest ih =>
    rw [List.map_cons, List.nodup_cons] at hnames
    rw [writes, List.map_cons]
    cases hfind : values.findIdx? (·.1 == descriptor.name) with
    | none =>
      have hnone : values.lookup descriptor.name = none := by
        rw [List.lookup_eq_none_iff]
        intro entry hentry
        rw [bne_iff_ne]
        exact (ne_of_beq_false (List.findIdx?_eq_none_iff.mp hfind entry hentry)).symm
      rw [hnone, ih hnames.2 hvalues]
    | some i =>
      obtain ⟨hi, hname, -⟩ := List.findIdx?_eq_some_iff_getElem.mp hfind
      have hentry : values[i]? = some (descriptor.name, values[i].2) := by
        rw [List.getElem?_eq_getElem hi, ← eq_of_beq hname]
      have hperm := swapRemove_perm hentry
      have hnodup : (((descriptor.name, values[i].2) :: swapRemove values i).map Prod.fst).Nodup :=
        (hperm.map Prod.fst).nodup_iff.mp hvalues
      have hvalue : values.lookup descriptor.name = some values[i].2 := by
        rw [lookup_perm hperm hvalues, List.lookup_cons_self]
      dsimp only
      rw [hvalue, hentry, ih hnames.2 (List.nodup_cons.mp hnodup).2]
      refine congrArg _ (List.map_congr_left fun d hd ↦ ?_)
      have hne : d.name ≠ descriptor.name := fun heq ↦ hnames.1 (heq ▸ List.mem_map_of_mem hd)
      rw [lookup_perm hperm hvalues, List.lookup_cons, beq_eq_false_iff_ne.mpr hne]

end Mapping

/-! ### What a selection gives to parameters -/

theorem Kind.kind_of_read {kind : Kind} {raw : String} {value : Value} (h : kind.read raw = .ok value) :
    value.kind = kind := by
  unfold Kind.read at h
  split at h
  · cases h
    rfl
  · cases hnumber : Numeral.readInt32 raw.toList <;> rw [hnumber] at h <;> cases h
    rfl
  · cases hnumber : Numeral.readInt64 raw.toList <;> rw [hnumber] at h <;> cases h
    rfl
  · split at h
    · cases h
      rfl
    · split at h <;> cases h
      rfl
  · split at h <;> cases h
    rfl
  · cases h

namespace Selection

/-- At most one text is captured for a parameter, and none on a miss. -/
structure IsProper (selection : Selection) : Prop where
  nodup : (selection.captured.map Prod.fst).Nodup
  miss : selection.winner = .none → selection.captured = []

/-- The value of a parameter behind a selection: what its captured text denotes, if there is such text. -/
def value? (selection : Selection) (descriptor : Descriptor) : Option Value :=
  (selection.captured? descriptor.name).bind fun raw ↦ (descriptor.kind.read raw).toOption

/-- All text that is captured for parameters denotes values of their kinds. -/
def IsReadable (selection : Selection) (descriptors : List Descriptor) : Prop :=
  ∀ d ∈ descriptors, ∀ raw, selection.captured? d.name = some raw → ∃ value, d.kind.read raw = .ok value

theorem kind_of_value? {selection : Selection} {descriptor : Descriptor} {value : Value}
    (h : selection.value? descriptor = some value) : value.kind = descriptor.kind := by
  obtain ⟨raw, -, hread⟩ := Option.bind_eq_some_iff.mp h
  exact Kind.kind_of_read (eq_ok_of_toOption hread)

theorem refusal?_of_accepts {type : ViewType} {descriptor : Descriptor} (h : type.Accepts descriptor)
    (selection : Selection) : type.refusal? descriptor.name (selection.value? descriptor) = .none :=
  h _ fun _ ↦ kind_of_value?

end Selection

namespace Mapping

variable {mapping : Mapping} {captured : List (String × String)} {values : List (String × Value)}

/-- What is converted behind the first text is converted in any case, and in front of it stands the value of the first. -/
theorem convert_cons_eq_ok {name raw : String} : mapping.convert ((name, raw) :: captured) = .ok values ↔
    (mapping.find? name = none ∧ mapping.convert captured = .ok values) ∨
    ∃ descriptor value others, mapping.find? name = some descriptor ∧ descriptor.kind.read raw = .ok value ∧
      mapping.convert captured = .ok others ∧ values = (name, value) :: others := by
  rw [convert]
  cases hfind : mapping.find? name with
  | none => simp
  | some descriptor =>
    dsimp only [Kind.parse]
    cases hread : descriptor.kind.read raw with
    | error fault => simp [hread]
    | ok value =>
      cases mapping.convert captured with
      | error fault => simp [Except.map]
      | ok others => simp [Except.map, hread, eq_comm]

theorem names_of_convert (h : mapping.convert captured = .ok values) :
    (values.map Prod.fst).Sublist (captured.map Prod.fst) := by
  induction captured generalizing values with
  | nil =>
    cases h
    exact .slnil
  | cons p rest ih =>
    rcases convert_cons_eq_ok.mp h with ⟨-, hrest⟩ | ⟨descriptor, value, others, -, -, hrest, rfl⟩
    · exact (ih hrest).cons p.1
    · exact (ih hrest).cons_cons p.1

/-- The value converted for a parameter is what the text captured for it denotes. -/
theorem lookup_of_convert (h : mapping.convert captured = .ok values) {name : String} {descriptor : Descriptor}
    (hfind : mapping.find? name = some descriptor) :
    values.lookup name = (captured.lookup name).bind fun raw ↦ (descriptor.kind.read raw).toOption := by
  induction captured generalizing values with
  | nil =>
    cases h
    rfl
  | cons p rest ih =>
    obtain ⟨own, raw⟩ := p
    rw [List.lookup_cons]
    rcases convert_cons_eq_ok.mp h with ⟨hnone, hrest⟩ | ⟨descriptor', value, others, hfind', hread, hrest, rfl⟩
    · have hne : name ≠ own := by
        rintro rfl
        cases hnone.symm.trans hfind
      rw [beq_eq_false_iff_ne.mpr hne, ih hrest]
    · rw [List.lookup_cons]
      by_cases hname : name = own
      · subst hname
        cases hfind'.symm.trans hfind
        rw [beq_self_eq_true, Option.bind_some, hread]
        rfl
      · rw [beq_eq_false_iff_ne.mpr hname, ih hrest]

theorem convert_eq_ok_iff : (∃ values, mapping.convert captured = .ok values) ↔
    ∀ p ∈ captured, ∀ descriptor, mapping.find? p.1 = some descriptor → ∃ value, descriptor.kind.read p.2 = .ok value := by
  induction captured with
  | nil => exact iff_of_true ⟨[], rfl⟩ fun _ hp ↦ absurd hp List.not_mem_nil
  | cons p rest ih =>
    rw [List.forall_mem_cons, ← ih]
    constructor
    · rintro ⟨values, h⟩
      rcases convert_cons_eq_ok.mp h with ⟨hnone, hrest⟩ | ⟨descriptor, value, others, hfind, hread, hrest, -⟩
      · exact ⟨fun descriptor hfind ↦ (nomatch hnone.symm.trans hfind), values, hrest⟩
      · refine ⟨fun descriptor' hfind' ↦ ?_, others, hrest⟩
        cases hfind.symm.trans hfind'
        exact ⟨value, hread⟩
    · rintro ⟨hfirst, others, hrest⟩
      cases hfind : mapping.find? p.1 with
      | none => exact ⟨others, convert_cons_eq_ok.mpr (.inl ⟨hfind, hrest⟩)⟩
      | some descriptor =>
        obtain ⟨value, hread⟩ := hfirst descriptor hfind
        exact ⟨_, convert_cons_eq_ok.mpr (.inr ⟨descriptor, value, others, hfind, hread, hrest, rfl⟩)⟩

/-! ### Parameters of mappings -/

theorem nodup_of_checkDescriptors {owner : String} {seen : List String} {descriptors : List Descriptor}
    (h : checkDescriptors owner seen descriptors = .ok ()) :
    (descriptors.map (·.name)).Nodup ∧ ∀ d ∈ descriptors, d.name ∉ seen := by
  induction descriptors generalizing seen with
  | nil => exact ⟨List.nodup_nil, fun _ hd ↦ absurd hd List.not_mem_nil⟩
  | cons descriptor rest ih =>
    rw [checkDescriptors] at h
    by_cases hseen : descriptor.name ∈ seen
    · rw [if_pos hseen] at h
      cases h
    · rw [if_neg hseen] at h
      obtain ⟨_, -, hrest⟩ := bind_eq_ok.mp h
      obtain ⟨hnodup, hfresh⟩ := ih hrest
      refine ⟨List.nodup_cons.mpr ⟨?_, hnodup⟩, List.forall_mem_cons.mpr ⟨hseen, fun d hd ↦ ?_⟩⟩
      · intro hmem
        obtain ⟨d, hd, hname⟩ := List.mem_map.mp hmem
        exact hfresh d hd (hname ▸ List.mem_cons_self)
      · exact fun hin ↦ hfresh d hd (List.mem_cons_of_mem _ hin)

variable {declaration : Declaration} {settings : Settings}

theorem parameters_of_build (h : build declaration settings = .ok mapping) : mapping.parameters = declaration.parameters := by
  obtain ⟨-, _, _, -, -, rfl⟩ := build_parts h
  rfl

/-- The parameters of a mapping have names of their own. -/
theorem nodup_names (h : build declaration settings = .ok mapping) : (mapping.parameters.map (·.name)).Nodup := by
  obtain ⟨hcheck, compiled, source, -, -, rfl⟩ := build_parts h
  exact (nodup_of_checkDescriptors hcheck).1

theorem find?_of_mem (hnames : (mapping.parameters.map (·.name)).Nodup) {descriptor : Descriptor}
    (h : descriptor ∈ mapping.parameters) : mapping.find? descriptor.name = some descriptor := by
  obtain ⟨before, after, hsplit⟩ := List.append_of_mem h
  rw [hsplit, List.map_append, List.map_cons, List.nodup_middle, List.nodup_cons, List.mem_append, not_or] at hnames
  refine List.find?_eq_some_iff_append.mpr ⟨beq_self_eq_true _, before, after, hsplit, fun d hd ↦ ?_⟩
  rw [Bool.not_eq_true', beq_eq_false_iff_ne]
  exact fun hname ↦ hnames.1.1 (List.mem_map.mpr ⟨d, hd, hname⟩)

/-! ### Selections of mappings -/

theorem mem_of_mostCaptured {candidates : List (Definition × List (String × String))}
    {best : Definition × List (String × String)} (h : mostCaptured candidates = some best) : best ∈ candidates := by
  cases candidates with
  | nil => cases h
  | cons first rest =>
    cases h
    have hfold (start : Definition × List (String × String)) :
        rest.foldl (fun best next ↦ if best.2.length < next.2.length then next else best) start ∈ start :: rest := by
      induction rest generalizing start with
      | nil => exact List.mem_cons_self
      | cons next rest ih =>
        rw [List.foldl_cons]
        split
        · exact List.mem_cons_of_mem _ (ih next)
        · rcases List.mem_cons.mp (ih start) with heq | hmem
          · rw [heq]
            exact List.mem_cons_self
          · exact List.mem_cons_of_mem _ (List.mem_cons_of_mem _ hmem)
    exact hfold first

/-- Nothing is chosen, or one of the patterns with what it captures. -/
theorem choose_cases (mapping : Mapping) (t : Regex.Thread) : mapping.choose t = .none ∨
    ∃ definition ∈ mapping.patterns, mapping.choose t = ⟨some definition, capturedBy t definition⟩ := by
  unfold choose
  extract_lets candidates best
  have hmem (found : Definition × List (String × String)) (hbest : best = some found) : found ∈ candidates := by
    unfold best at hbest
    split at hbest
    · exact List.mem_of_head? hbest
    · exact mem_of_mostCaptured hbest
  cases hbest : best with
  | none => exact .inl rfl
  | some found =>
    obtain ⟨definition, hdefinition, rfl⟩ := List.mem_map.mp (hmem found hbest)
    exact .inr ⟨definition, (List.mem_filter.mp hdefinition).1, rfl⟩

/-- A selection is a miss, or one of the patterns with what it captures. -/
theorem select_eq (mapping : Mapping) (regex : Regex) (path : String) : mapping.select regex path = .none ∨
    ∃ definition ∈ mapping.patterns, ∃ t, mapping.select regex path = ⟨some definition, capturedBy t definition⟩ := by
  unfold select select?
  cases regex.search (normalizePath path).toList with
  | none => exact .inl rfl
  | some t =>
    rw [Option.map_some, Option.getD_some]
    rcases choose_cases mapping t with hnone | ⟨definition, hdefinition, hchosen⟩
    · exact .inl hnone
    · exact .inr ⟨definition, hdefinition, t, hchosen⟩

theorem names_capturedBy (t : Regex.Thread) (definition : Definition) :
    ((capturedBy t definition).map Prod.fst).Sublist definition.parameters := by
  unfold capturedBy
  induction definition.parameters with
  | nil => exact .slnil
  | cons name rest ih =>
    rw [List.filterMap_cons]
    cases t.captured? (definition.groupName name) with
    | none => exact ih.cons name
    | some text => exact ih.cons_cons name

theorem isProper_select (h : build declaration settings = .ok mapping) (regex : Regex) (path : String) :
    (mapping.select regex path).IsProper := by
  rcases select_eq mapping regex path with hmiss | ⟨definition, hdefinition, t, hselect⟩
  · rw [hmiss]
    exact ⟨List.nodup_nil, fun _ ↦ rfl⟩
  · rw [hselect]
    refine ⟨(names_capturedBy t definition).nodup ?_, nofun⟩
    obtain ⟨compiled, hcompiled, hpatterns, -⟩ := build_ok h
    rw [hpatterns] at hdefinition
    obtain ⟨c, hc, rfl⟩ := List.mem_map.mp hdefinition
    obtain ⟨i, hi⟩ := List.mem_iff_getElem?.mp hc
    obtain ⟨pattern, -, hok⟩ := compile_of_compileFrom hcompiled hi
    exact Fragment.nodup_parameters hok

/-! ### Applying a selection -/

variable {selection : Selection} {view : View}

theorem isReadable_iff (hnames : (mapping.parameters.map (·.name)).Nodup) (hproper : selection.IsProper) :
    selection.IsReadable mapping.parameters ↔ ∃ values, mapping.convert selection.captured = .ok values := by
  rw [convert_eq_ok_iff]
  constructor
  · rintro hreadable ⟨name, raw⟩ hmem descriptor hfind
    have hname : descriptor.name = name := by simpa using List.find?_some hfind
    exact hreadable descriptor (List.mem_of_find?_eq_some hfind) raw
      (hname ▸ (lookup_eq_some_iff_mem hproper.nodup).mpr hmem)
  · intro hall d hd raw hraw
    exact hall (d.name, raw) (mem_of_lookup hraw) d (find?_of_mem hnames hd)

/-- What a selection gives to the parameters in turn. -/
def assignments (mapping : Mapping) (selection : Selection) : List (String × Option Value) :=
  mapping.parameters.map fun d ↦ (d.name, selection.value? d)

/-- What a match that goes through reports. -/
def outcome (mapping : Mapping) (selection : Selection) : Outcome :=
  match selection.winner with
  | none => .notMatched mapping.noMatch.reroute?
  | some winner => .matched winner.raw

theorem pattern?_outcome (mapping : Mapping) (selection : Selection) :
    (mapping.outcome selection).pattern? = selection.winner.map (·.raw) := by
  unfold outcome
  cases selection.winner <;> rfl

/-- The end of a match, once all parameters have been written. -/
def finish {σ : Type} (access : Access σ) (mapping : Mapping) (selection : Selection) (target : σ) : Progress Outcome σ where
  view := access.record target (selection.winner.map (·.raw))
  events := if selection.isMatch then [] else [.missed mapping.owner mapping.noMatch.reroute?]
  result := .ok (mapping.outcome selection)

section

variable {σ : Type} (access : Access σ)

theorem applyWith_of_unconverted (hproper : selection.IsProper) {name raw : String} {e : Error}
    (h : mapping.convert selection.captured = .error (name, raw, e)) (target : σ) :
    mapping.applyWith access selection target = ⟨target, [.unconverted mapping.owner name raw], .error e⟩ := by
  unfold applyWith
  cases hwinner : selection.winner with
  | none =>
    rw [hproper.miss hwinner] at h
    cases h
  | some winner =>
    dsimp only
    rw [h]

/-- A selection whose text can be read is written parameter by parameter, on a match and on a miss. -/
theorem applyWith_of_converted (hnames : (mapping.parameters.map (·.name)).Nodup) (hproper : selection.IsProper)
    {values : List (String × Value)} (h : mapping.convert selection.captured = .ok values) (target : σ) :
    mapping.applyWith access selection target = match access.setEach target (mapping.assignments selection) with
      | (target, some e) => ⟨target, [], .error e⟩
      | (target, none) => mapping.finish access selection target := by
  unfold applyWith finish outcome Selection.isMatch
  cases hwinner : selection.winner with
  | none =>
    have hcleared : (mapping.parameters.map fun d ↦ (d.name, none)) = mapping.assignments selection := by
      refine List.map_congr_left fun d _ ↦ ?_
      rw [Selection.value?, Selection.captured?, hproper.miss hwinner]
      rfl
    dsimp only
    rw [hcleared]
    rcases access.setEach target (mapping.assignments selection) with ⟨target, _ | e⟩ <;> rfl
  | some winner =>
    have hvalues : (values.map Prod.fst).Nodup := (names_of_convert h).nodup hproper.nodup
    have hwrites : writes mapping.parameters values = mapping.assignments selection := by
      rw [writes_eq hnames hvalues]
      refine List.map_congr_left fun d hd ↦ ?_
      rw [lookup_of_convert h (find?_of_mem hnames hd)]
      rfl
    dsimp only
    rw [h]
    dsimp only
    rw [hwrites]
    rcases access.setEach target (mapping.assignments selection) with ⟨target, _ | e⟩ <;> rfl

end

section

variable {σ : Type} {access : Access σ}

theorem setEach_of_taken {values : List (String × Option Value)}
    (htakes : ∀ p ∈ values, ∀ target, ∃ next, access.set target p.1 p.2 = .ok next) (target : σ) :
    ∃ written, access.setEach target values = (written, none) := by
  induction values generalizing target with
  | nil => exact ⟨target, rfl⟩
  | cons p rest ih =>
    obtain ⟨hfirst, hrest⟩ := List.forall_mem_cons.mp htakes
    obtain ⟨next, hnext⟩ := hfirst target
    rw [Access.setEach, hnext]
    exact ih hrest next

/-- Through accessors that take whatever is read for parameters, a selection is written as a whole or not at all. -/
theorem applyWith_of_taken (hnames : (mapping.parameters.map (·.name)).Nodup) (hproper : selection.IsProper)
    (htakes : ∀ d ∈ mapping.parameters, ∀ target, ∃ next, access.set target d.name (selection.value? d) = .ok next)
    (target : σ) :
    (¬selection.IsReadable mapping.parameters ∧ ∃ name raw e, mapping.applyWith access selection target =
      ⟨target, [.unconverted mapping.owner name raw], .error e⟩) ∨
    (selection.IsReadable mapping.parameters ∧ ∃ written,
      mapping.applyWith access selection target = mapping.finish access selection written) := by
  rw [isReadable_iff hnames hproper]
  cases hconvert : mapping.convert selection.captured with
  | error fault =>
    exact .inl ⟨nofun, fault.1, fault.2.1, fault.2.2, applyWith_of_unconverted access hproper hconvert target⟩
  | ok values =>
    have hassigned : ∀ p ∈ mapping.assignments selection, ∀ target, ∃ next, access.set target p.1 p.2 = .ok next :=
      List.forall_mem_map.mpr htakes
    obtain ⟨written, hwritten⟩ := setEach_of_taken hassigned target
    rw [applyWith_of_converted access hnames hproper hconvert, hwritten]
    exact .inr ⟨⟨values, rfl⟩, written, rfl⟩

end

/-- Some parameters have the values that a selection gives them, and all else is as before. -/
structure Written (selection : Selection) (descriptors : List Descriptor) (before after : View) : Prop where
  type : after.type = before.type
  values : ∀ d ∈ descriptors, after.get d.name = selection.value? d
  others : ∀ name ∉ descriptors.map (·.name), after.get name = before.get name
  matched : after.matched = before.matched

theorem written_putEach {descriptors : List Descriptor} (hnames : (descriptors.map (·.name)).Nodup)
    (selection : Selection) (view : View) :
    Written selection descriptors view (view.putEach (descriptors.map fun d ↦ (d.name, selection.value? d))) := by
  have hkeys : (descriptors.map fun d ↦ (d.name, selection.value? d)).map Prod.fst = descriptors.map (·.name) :=
    List.map_map
  refine ⟨view.putEach_type _, fun d hd ↦ ?_, fun name hname ↦ ?_, view.putEach_matched _⟩
  · exact View.get_putEach (hkeys ▸ hnames) (List.mem_map_of_mem (f := fun d ↦ (d.name, selection.value? d)) hd) view
  · exact View.get_putEach_of_notMem (hkeys ▸ hname) view

/-- A selection that can be read is applied as a whole if the view accepts each value. -/
theorem apply_of_accepted (hnames : (mapping.parameters.map (·.name)).Nodup) (hproper : selection.IsProper)
    (hreadable : selection.IsReadable mapping.parameters)
    (h : ∀ d ∈ mapping.parameters, view.type.refusal? d.name (selection.value? d) = none) :
    ∃ written, Written selection mapping.parameters view written ∧
      mapping.apply selection view = mapping.finish View.access selection written := by
  obtain ⟨values, hvalues⟩ := (isReadable_iff hnames hproper).mp hreadable
  refine ⟨_, written_putEach hnames selection view, ?_⟩
  have haccepted : ∀ p ∈ mapping.assignments selection, view.type.refusal? p.1 p.2 = none :=
    List.forall_mem_map.mpr h
  rw [apply, applyWith_of_converted View.access hnames hproper hvalues, View.setEach_of_accepted haccepted]
  rfl

/-- Otherwise it is applied to the parameters in front of the first whose value the view refuses. -/
theorem apply_of_refused (hnames : (mapping.parameters.map (·.name)).Nodup) (hproper : selection.IsProper)
    (hreadable : selection.IsReadable mapping.parameters) {before rest : List Descriptor} {descriptor : Descriptor}
    (hsplit : mapping.parameters = before ++ descriptor :: rest)
    (hbefore : ∀ d ∈ before, view.type.refusal? d.name (selection.value? d) = none) {e : Error}
    (h : view.type.refusal? descriptor.name (selection.value? descriptor) = some e) :
    ∃ written, Written selection before view written ∧ mapping.apply selection view = ⟨written, [], .error e⟩ := by
  obtain ⟨values, hvalues⟩ := (isReadable_iff hnames hproper).mp hreadable
  have hnodup : (before.map (·.name)).Nodup := by
    rw [hsplit, List.map_append] at hnames
    exact (List.nodup_append.mp hnames).1
  refine ⟨_, written_putEach hnodup selection view, ?_⟩
  have haccepted : ∀ p ∈ before.map fun d ↦ (d.name, selection.value? d), view.type.refusal? p.1 p.2 = none :=
    List.forall_mem_map.mpr hbefore
  rw [apply, applyWith_of_converted View.access hnames hproper hvalues, assignments, hsplit, List.map_append, List.map_cons,
    View.setEach_of_refused haccepted h]

/-- A selection that is not applied as a whole cannot be read, or there is a first parameter whose value the view refuses. -/
theorem apply_of_error (hnames : (mapping.parameters.map (·.name)).Nodup) (hproper : selection.IsProper) {e : Error}
    (h : (mapping.apply selection view).result = .error e) :
    ((mapping.apply selection view).view = view ∧
      ∃ name raw, mapping.convert selection.captured = .error (name, raw, e)) ∨
    ∃ before refused rest, selection.IsReadable mapping.parameters ∧ mapping.parameters = before ++ refused :: rest ∧
      view.type.refusal? refused.name (selection.value? refused) = some e ∧
      Written selection before view (mapping.apply selection view).view := by
  cases hconvert : mapping.convert selection.captured with
  | error fault =>
    obtain ⟨name, raw, cause⟩ := fault
    rw [apply, applyWith_of_unconverted View.access hproper hconvert] at h ⊢
    cases h
    exact .inl ⟨rfl, name, raw, rfl⟩
  | ok values =>
    have hreadable : selection.IsReadable mapping.parameters := (isReadable_iff hnames hproper).mpr ⟨values, hconvert⟩
    cases hrefused : mapping.parameters.findSome? fun d ↦ view.type.refusal? d.name (selection.value? d) with
    | none =>
      obtain ⟨written, -, happly⟩ :=
        apply_of_accepted hnames hproper hreadable (List.findSome?_eq_none_iff.mp hrefused)
      rw [happly] at h
      cases h
    | some cause =>
      obtain ⟨before, refused, rest, hsplit, hcause, hbefore⟩ := List.findSome?_eq_some_iff.mp hrefused
      obtain ⟨written, hwritten, happly⟩ := apply_of_refused hnames hproper hreadable hsplit hbefore hcause
      rw [happly] at h ⊢
      cases h
      exact .inr ⟨before, refused, rest, hreadable, hsplit, hcause, hwritten⟩

end Mapping

end PathBinding
